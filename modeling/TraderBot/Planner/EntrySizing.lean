import TraderBot.Lib.DecimalNearest
import TraderBot.Planner.Reduction

/-! # What an entry asks for and what it gets

An entry's type, quantity and price come from its sizing, its execution, its order plan
or the effective settings, the first that has one. With exact numbers the order that is
planned has that quantity rounded down to whole increments, that price or that bound of
the zone to the nearest increment, and no more notional than was approved
(`entry_within_approval`). -/
namespace TraderBot.Planner
open TraderBot.Lib TraderBot.Lib.Text TraderBot.Lib.Json
open TraderBot.Venue (Interpreter PositionSnapshot)

/-! ## What is asked for -/

section
variable (py : Interpreter) (intent : Intent) (context : PlannerContext py)

/-- The type of an entry, in lower case. -/
def askedType : String :=
  let settings := (context.effectiveSettings.getD Dict.empty).get?
  let found :=
    if intent.execution.isNone ∧ intent.sizing.isNone then none
    else firstPresent [attribute? intent.execution "order_type", intent.plan.get? "type", settings "order_type"]
  py.unicode.lower (match found with
    | some v => py.str v
    | none => shown py (intent.plan.get? "type") "")

def askedQuantity : Option Value :=
  firstPresent [attribute? intent.sizing "quantity", intent.plan.get? "quantity"]

def askedLimit : Option Value :=
  firstPresent [attribute? intent.execution "limit_price", intent.plan.get? "price"]

/-- A bound of the zone, by its name in the execution and by that in the order plan. -/
def askedBound (name member : String) : Option Value :=
  firstPresent [(attribute? intent.execution "zone").bind fun zone => zone.get? name, intent.plan.get? member]

/-- The member that has the bound of the zone at which a side enters. -/
def OrderSide.boundMember : OrderSide → String
  | .buy => "price_max"
  | .sell => "price_min"

def zoneBound (side : OrderSide) : Option Value :=
  askedBound intent (match side with | .buy => "high" | .sell => "low") side.boundMember

/-- The price an entry asks for; only a limit and a zone have one. -/
def askedPrice (side : OrderSide) : Option Value :=
  if askedType py intent context = "limit" then askedLimit intent
  else if askedType py intent context = "zone" then zoneBound intent side
  else none

/-- The members of an order plan that an entry may set. -/
def mergedMembers : List String :=
  ["type", "quantity", "time_in_force", "post_only", "max_slippage_bps", "price", "price_min", "price_max"]

/-- The order plan of an entry says what the entry asks for. -/
structure Merged (plan : Dict Value) : Prop where
  type : py.unicode.lower (shown py (plan.get? "type") "") = askedType py intent context
  quantity : present (plan.get? "quantity") = askedQuantity intent
  limit : askedType py intent context = "limit" → present (plan.get? "price") = askedLimit intent
  unpriced : askedType py intent context ≠ "limit" → plan.get? "price" = intent.plan.get? "price"
  low : askedType py intent context = "zone" →
    present (plan.get? "price_min") = askedBound intent "low" "price_min"
  high : askedType py intent context = "zone" →
    present (plan.get? "price_max") = askedBound intent "high" "price_max"
  kept : ∀ k, k ∉ mergedMembers → plan.get? k = intent.plan.get? k

end

theorem get?_withMember (plan : Dict Value) (k l : String) (v : Option Value) :
    (withMember plan k v).get? l = if l = k then v.or (plan.get? l) else plan.get? l := by
  unfold withMember
  cases v with
  | none => simp
  | some v =>
    dsimp only
    split_ifs with h
    · rw [h, Dict.get?_set_self]
      rfl
    · exact Dict.get?_set_ne h

theorem present_present (v : Option Value) : present (present v) = present v := by
  cases v with
  | none => rfl
  | some v => cases v <;> rfl

/-- A value that is found is the one a member has, also where the member is set to it. -/
theorem present_or_firstPresent {values : List (Option Value)} {v : Option Value} (h : v ∈ values) :
    present ((firstPresent values).or v) = firstPresent values := by
  unfold firstPresent
  cases hfound : values.findSome? present with
  | none => exact List.findSome?_eq_none_iff.mp hfound v h
  | some found =>
    obtain ⟨w, -, hw⟩ := List.exists_of_findSome?_eq_some hfound
    rw [Option.some_or, ← hw, present_present]

section
variable (py : Interpreter) (intent : Intent) (context : PlannerContext py)

/-- The order plan with the type of an entry that has an execution or a sizing. -/
def typedPlan : Dict Value :=
  withMember intent.plan "type" ((firstPresent [attribute? intent.execution "order_type", intent.plan.get? "type",
    (context.effectiveSettings.getD Dict.empty).get? "order_type"]).map fun v => .str (py.str v))

def sizedPlan : Dict Value :=
  withMember (typedPlan py intent context) "quantity"
    (firstPresent [attribute? intent.sizing "quantity", (typedPlan py intent context).get? "quantity"])

def mergedType : String := py.unicode.lower (shown py ((sizedPlan py intent context).get? "type") "")

/-- The members that are neither the type, nor the quantity, nor a price. -/
def ruledPlan : Dict Value :=
  let execution := attribute? intent.execution
  let settings := (context.effectiveSettings.getD Dict.empty).get?
  let plan := sizedPlan py intent context
  let plan := withMember plan "time_in_force" (firstPresent [execution "time_in_force", plan.get? "time_in_force",
    settings "time_in_force", settings (mergedType py intent context ++ "_time_in_force")])
  let plan := withMember plan "post_only" ((firstPresent [execution "post_only", plan.get? "post_only",
    settings "post_only"]).map fun v => .bool v.truthy)
  withMember plan "max_slippage_bps" (firstPresent [execution "max_slippage_bps", plan.get? "max_slippage_bps",
    settings "max_slippage_bps"])

/-- With the price of a limit. -/
def pricedPlan : Dict Value :=
  if mergedType py intent context = "limit" then
    withMember (ruledPlan py intent context) "price"
      (firstPresent [attribute? intent.execution "limit_price", (ruledPlan py intent context).get? "price"])
  else ruledPlan py intent context

/-- With the bounds of a zone. -/
def zonedPlan : Dict Value :=
  let zone k := (attribute? intent.execution "zone").bind fun zone => zone.get? k
  let plan := withMember (pricedPlan py intent context) "price_min"
    (firstPresent [zone "low", (pricedPlan py intent context).get? "price_min"])
  withMember plan "price_max" (firstPresent [zone "high", (pricedPlan py intent context).get? "price_max"])

end

section
variable {py : Interpreter} {intent : Intent} {context : PlannerContext py} {plan : Dict Value}

theorem entryOrderPlan_cases (h : entryOrderPlan py intent context = .ok plan) :
    (intent.execution.isNone ∧ intent.sizing.isNone) ∧ plan = intent.plan ∨
      ¬ (intent.execution.isNone ∧ intent.sizing.isNone) ∧
        plan = if mergedType py intent context = "zone" then zonedPlan py intent context
          else pricedPlan py intent context := by
  have heq : entryOrderPlan py intent context =
      if intent.execution.isNone ∧ intent.sizing.isNone then .ok intent.plan
      else if attribute? intent.execution "reduce_only" =
        some (.bool true) then unsupported "entry.reduce_only"
      else if (firstPresent [attribute? intent.sizing "quantity", (typedPlan py intent context).get? "quantity"]).isNone ∧
          (Json.present (attribute? intent.sizing "fraction")).isSome then unsupported "sizing.fraction"
      else if mergedType py intent context = "zone" then .ok (zonedPlan py intent context)
      else .ok (pricedPlan py intent context) := rfl
  rw [heq] at h
  split_ifs at h with hplain hreduce hfraction hzone
  · cases h
    exact .inl ⟨hplain, rfl⟩
  · cases h
  · cases h
  · cases h
    exact .inr ⟨hplain, (if_pos hzone).symm⟩
  · cases h
    exact .inr ⟨hplain, (if_neg hzone).symm⟩

variable {k : String}

theorem get?_typedPlan (h : k ≠ "type") : (typedPlan py intent context).get? k = intent.plan.get? k := by
  rw [typedPlan, get?_withMember, if_neg h]

theorem get?_sizedPlan (h : k ≠ "quantity") :
    (sizedPlan py intent context).get? k = (typedPlan py intent context).get? k := by
  rw [sizedPlan, get?_withMember, if_neg h]

theorem get?_ruledPlan (htif : k ≠ "time_in_force") (hpost : k ≠ "post_only")
    (hslippage : k ≠ "max_slippage_bps") :
    (ruledPlan py intent context).get? k = (sizedPlan py intent context).get? k := by
  unfold ruledPlan
  dsimp only
  rw [get?_withMember, if_neg hslippage, get?_withMember, if_neg hpost, get?_withMember, if_neg htif]

theorem get?_pricedPlan (h : k ≠ "price") :
    (pricedPlan py intent context).get? k = (ruledPlan py intent context).get? k := by
  unfold pricedPlan
  split_ifs
  · rw [get?_withMember, if_neg h]
  · rfl

theorem get?_zonedPlan (hmin : k ≠ "price_min") (hmax : k ≠ "price_max") :
    (zonedPlan py intent context).get? k = (pricedPlan py intent context).get? k := by
  unfold zonedPlan
  dsimp only
  rw [get?_withMember, if_neg hmax, get?_withMember, if_neg hmin]

theorem mergedType_eq (hplain : ¬ (intent.execution.isNone ∧ intent.sizing.isNone)) :
    mergedType py intent context = askedType py intent context := by
  unfold mergedType askedType
  dsimp only
  rw [get?_sizedPlan (by decide), typedPlan, get?_withMember, if_pos rfl, if_neg hplain]
  cases firstPresent [attribute? intent.execution "order_type", intent.plan.get? "type",
      (context.effectiveSettings.getD Dict.empty).get? "order_type"] with
  | none => rfl
  | some v =>
    show py.unicode.lower (py.str (.str (py.str v))) = _
    rw [py.str_str]

/-- An intent with neither an execution nor a sizing is its order plan. -/
theorem merged_plain (hplain : intent.execution.isNone ∧ intent.sizing.isNone) :
    Merged py intent context intent.plan := by
  have hexecution : intent.execution = none := Option.isNone_iff_eq_none.mp hplain.1
  have hsizing : intent.sizing = none := Option.isNone_iff_eq_none.mp hplain.2
  have hfirst (v : Option Value) : firstPresent [none, v] = present v := by
    unfold firstPresent
    rw [List.findSome?_cons, List.findSome?_cons, List.findSome?_nil]
    cases v with
    | none => rfl
    | some v => cases v <;> rfl
  constructor
  · rw [askedType, if_pos hplain]
  · rw [askedQuantity, hsizing]
    exact (hfirst _).symm
  · intro _
    rw [askedLimit, hexecution]
    exact (hfirst _).symm
  · exact fun _ => rfl
  · intro _
    rw [askedBound, hexecution]
    exact (hfirst _).symm
  · intro _
    rw [askedBound, hexecution]
    exact (hfirst _).symm
  · exact fun _ _ => rfl

theorem merged_priced (hplain : ¬ (intent.execution.isNone ∧ intent.sizing.isNone))
    (hkept : ∀ k, k ≠ "price_min" → k ≠ "price_max" → plan.get? k = (pricedPlan py intent context).get? k)
    (hlow : mergedType py intent context = "zone" → present (plan.get? "price_min") = askedBound intent "low" "price_min")
    (hhigh : mergedType py intent context = "zone" →
      present (plan.get? "price_max") = askedBound intent "high" "price_max") :
    Merged py intent context plan := by
  have htype : mergedType py intent context = askedType py intent context := mergedType_eq hplain
  have hprice : (ruledPlan py intent context).get? "price" = intent.plan.get? "price" := by
    rw [get?_ruledPlan (by decide) (by decide) (by decide), get?_sizedPlan (by decide), get?_typedPlan (by decide)]
  constructor
  · rw [hkept _ (by decide) (by decide), get?_pricedPlan (by decide),
      get?_ruledPlan (by decide) (by decide) (by decide)]
    exact htype
  · rw [hkept _ (by decide) (by decide), get?_pricedPlan (by decide),
      get?_ruledPlan (by decide) (by decide) (by decide), sizedPlan, get?_withMember, if_pos rfl,
      get?_typedPlan (by decide)]
    exact present_or_firstPresent (by simp)
  · intro hlimit
    rw [hkept _ (by decide) (by decide), pricedPlan, if_pos (htype.trans hlimit), get?_withMember, if_pos rfl, hprice]
    exact present_or_firstPresent (by simp)
  · intro hlimit
    rw [hkept _ (by decide) (by decide), pricedPlan, if_neg (htype ▸ hlimit), hprice]
  · exact fun hzone => hlow (htype.trans hzone)
  · exact fun hzone => hhigh (htype.trans hzone)
  · intro k hk
    simp only [mergedMembers, List.mem_cons, List.not_mem_nil, or_false, not_or] at hk
    obtain ⟨htype, hquantity, htif, hpost, hslippage, hprice, hmin, hmax⟩ := hk
    rw [hkept k hmin hmax, get?_pricedPlan hprice, get?_ruledPlan htif hpost hslippage, get?_sizedPlan hquantity,
      get?_typedPlan htype]

/-- **The merged plan says what is asked for**, wherever each value comes from. -/
theorem entryOrderPlan_ok (h : entryOrderPlan py intent context = .ok plan) :
    Merged py intent context plan := by
  rcases entryOrderPlan_cases h with ⟨hplain, rfl⟩ | ⟨hplain, rfl⟩
  · exact merged_plain hplain
  split_ifs with hzone
  · have hbound (k : String) (hprice : k ≠ "price" ∧ k ∉ mergedMembers.take 5) :
        (pricedPlan py intent context).get? k = intent.plan.get? k := by
      obtain ⟨hprice, hk⟩ := hprice
      simp only [mergedMembers, List.take_succ_cons, List.take_zero, List.mem_cons, List.not_mem_nil, or_false,
        not_or] at hk
      obtain ⟨htype, hquantity, htif, hpost, hslippage⟩ := hk
      rw [get?_pricedPlan hprice, get?_ruledPlan htif hpost hslippage, get?_sizedPlan hquantity, get?_typedPlan htype]
    refine merged_priced hplain (fun k => get?_zonedPlan) (fun _ => ?_) (fun _ => ?_)
    · unfold zonedPlan
      dsimp only
      rw [get?_withMember, if_neg (by decide), get?_withMember, if_pos rfl, hbound _ (by decide)]
      exact present_or_firstPresent (by simp)
    · unfold zonedPlan
      dsimp only
      rw [get?_withMember, if_pos rfl, get?_withMember, if_neg (by decide), hbound _ (by decide)]
      exact present_or_firstPresent (by simp)
  · exact merged_priced hplain (fun _ _ _ => rfl) (fun h => absurd h hzone) (fun h => absurd h hzone)

end

/-! ## What is planned -/

section
variable (py : Interpreter)

/-- A member that is read as a finite number. -/
def ReadsValue (v : Option Value) (d : FiniteDecimal) : Prop :=
  (present v).bind (Decimal.ofValue py.unicode) = some (.finite d)

variable (intent : Intent) (context : PlannerContext py) (instrument : InstrumentSpec) (order : OrderPlan)

/-- The quantity of an order: the one asked for, in whole increments. -/
structure SizedTo (quantity : FiniteDecimal) : Prop where
  reads : Reads py order.quantity quantity
  pos : 0 < quantity.value
  rounded : ∃ asked step, ReadsValue py (askedQuantity intent) asked ∧
    Reads py instrument.quantityIncrement step ∧
    (∃ n : Int, quantity.value = n * step.value) ∧ quantity.value ≤ asked.value ∧
    asked.value - step.value < quantity.value

/-- The price of an order: the one asked for, to the nearest increment. -/
structure PricedAt (price : FiniteDecimal) : Prop where
  reads : ∃ text, order.price = some text ∧ Reads py text price
  rounded : ∃ asked step, ReadsValue py (askedPrice py intent context order.side) asked ∧
    Reads py instrument.priceIncrement step ∧ (∃ n : Int, price.value = n * step.value) ∧
    |price.value - asked.value| ≤ step.value / 2

/-- An order that is what was asked for, and worth no more than was approved. -/
structure WithinApproval : Prop where
  sized : ∃ quantity, SizedTo py intent instrument order quantity
  priced : order.orderType = .limit → ∃ price, PricedAt py intent context instrument order price
  unpriced : order.orderType ≠ .limit → order.orderType = .market ∧ order.price = none
  notional : ∀ quantity price,
    Reads py order.quantity quantity → PricedAt py intent context instrument order price →
    ∃ approved, ReadsValue py (attribute? intent.riskBudget "max_notional") approved ∧
      quantity.value * price.value ≤ approved.value

end

section
variable {py : Interpreter} {mode : Rounding} {v step d : FiniteDecimal} {increment text field : String}
  {raw : Option Value}

theorem Rounded.whole (h : Rounded py mode v increment text step d) : ∃ n : Int, d.value = n * step.value :=
  ⟨_, h.value⟩

theorem Rounded.down_bounds (h : Rounded py .down v increment text step d) (hv : 0 < v.value) :
    d.value ≤ v.value ∧ v.value - step.value < d.value := by
  have hstep := h.step_pos
  have hnonneg : 0 ≤ v.value / step.value := (div_pos hv hstep).le
  have hle := mul_le_mul_of_nonneg_right (Rounding.down_le hnonneg) hstep.le
  have hlt := mul_lt_mul_of_pos_right (Rounding.lt_down_add_one hnonneg) hstep
  rw [div_mul_cancel₀ _ hstep.ne'] at hle hlt
  rw [h.value]
  constructor
  · exact hle
  · linarith

theorem Rounded.halfUp_bounds (h : Rounded py .halfUp v increment text step d) :
    |d.value - v.value| ≤ step.value / 2 := by
  have hstep := h.step_pos
  have hnear := mul_le_mul_of_nonneg_right (Rounding.abs_halfUp_sub_le (v.value / step.value)) hstep.le
  rw [← abs_of_pos hstep, ← abs_mul, sub_mul, abs_of_pos hstep, div_mul_cancel₀ _ hstep.ne', ← h.value] at hnear
  linarith

theorem roundedDownPositive_reads (h : roundedDownPositive exactNumbers py raw increment field = .ok text) :
    ∃ v step d, ReadsValue py raw v ∧ 0 < v.value ∧ Rounded py .down v increment text step d ∧
      0 < d.value := by
  unfold roundedDownPositive at h
  obtain ⟨value, hvalue, h⟩ := bind_ok h
  obtain ⟨negative, hnegative, h⟩ := bind_ok h
  cases negative with
  | true => cases h
  | false =>
    obtain ⟨v, step, d, rfl, hrounded⟩ := roundDownToIncrement_ok h
    exact ⟨v, step, d, decimalOf_ok hvalue, value_pos hnegative, hrounded⟩

/-- The price of a limit is rounded from that of its plan, the price of a zone from one of its bounds. -/
inductive PriceOf (py : Interpreter) (plan : Dict Value) (instrument : InstrumentSpec) :
    OrderType → Option String → Prop where
  | market (htype : py.unicode.lower (shown py (plan.get? "type") "") = "market") :
      PriceOf py plan instrument .market none
  | limit {text : String} {v step d : FiniteDecimal}
      (htype : py.unicode.lower (shown py (plan.get? "type") "") = "limit")
      (hreads : ReadsValue py (plan.get? "price") v)
      (hrounded : Rounded py .halfUp v instrument.priceIncrement text step d) :
      PriceOf py plan instrument .limit (some text)
  | zone {text : String} {v step d : FiniteDecimal}
      (htype : py.unicode.lower (shown py (plan.get? "type") "") = "zone")
      (hreads : ReadsValue py (plan.get?
        (if py.unicode.lower (shown py (plan.get? "side") "") = "buy" then "price_max" else "price_min")) v)
      (hrounded : Rounded py .halfUp v instrument.priceIncrement text step d) :
      PriceOf py plan instrument .limit (some text)

variable {plan : Dict Value} {instrument : InstrumentSpec}

theorem zoneBoundaryPrice_ok (h : zoneBoundaryPrice exactNumbers py plan instrument = .ok text) :
    ∃ v step d, ReadsValue py (plan.get?
        (if py.unicode.lower (shown py (plan.get? "side") "") = "buy" then "price_max" else "price_min")) v ∧
      Rounded py .halfUp v instrument.priceIncrement text step d := by
  unfold zoneBoundaryPrice at h
  split_ifs at h with hmin hmax
  · cases h
  · cases h
  obtain ⟨low, hlow, h⟩ := bind_ok h
  obtain ⟨high, hhigh, h⟩ := bind_ok h
  obtain ⟨crossed, -, h⟩ := bind_ok h
  cases crossed with
  | true => cases h
  | false =>
    obtain ⟨v, step, d, hv, hrounded⟩ := roundToIncrement_ok h
    refine ⟨v, step, d, ?_, hrounded⟩
    split_ifs at hv ⊢ with hside
    · subst hv
      exact decimalOf_ok hhigh
    · subst hv
      exact decimalOf_ok hlow

theorem orderPrice_ok {planned : OrderType × Option String × String}
    (h : orderPrice exactNumbers py (py.unicode.lower (shown py (plan.get? "type") "")) plan instrument = .ok planned) :
    PriceOf py plan instrument planned.1 planned.2.1 := by
  unfold orderPrice at h
  split_ifs at h with hmarket hlimit hprice hzone
  · cases pure_ok h
    exact .market hmarket
  · cases h
  · obtain ⟨text, htext, h⟩ := bind_ok h
    cases pure_ok h
    obtain ⟨v, step, d, hreads, -, hrounded⟩ := roundedPositive_ok htext
    exact .limit hlimit hreads hrounded
  · obtain ⟨text, htext, h⟩ := bind_ok h
    cases pure_ok h
    obtain ⟨v, step, d, hreads, hrounded⟩ := zoneBoundaryPrice_ok htext
    exact .zone hzone hreads hrounded
  · cases h

theorem buildOrderSpec_ok {spec : OrderSpec}
    (h : buildOrderSpec exactNumbers py plan instrument = .ok spec) :
    (∃ v step d, ReadsValue py (plan.get? "quantity") v ∧ 0 < v.value ∧
      Rounded py .down v instrument.quantityIncrement spec.quantity step d ∧ 0 < d.value) ∧
      PriceOf py plan instrument spec.orderType spec.price := by
  unfold buildOrderSpec at h
  obtain ⟨quantity, hquantity, h⟩ := bind_ok h
  obtain ⟨⟨orderType, price, default⟩, hprice, h⟩ := bind_ok h
  obtain ⟨timeInForce, -, h⟩ := bind_ok h
  cases pure_ok h
  exact ⟨roundedDownPositive_reads hquantity, orderPrice_ok hprice⟩

theorem exact_mul {a b c : FiniteDecimal} (h : exactNumbers.mul a b = some c) :
    c.value = a.value * b.value := by
  rw [Decimal.mk?_value h, FiniteDecimal.value, FiniteDecimal.value, FiniteDecimal.signed, FiniteDecimal.signed,
    zpow_add₀ (by norm_num)]
  cases a.negative <;> cases b.negative <;> simp <;> ring

variable {approved : FiniteDecimal}

/-- What is worth no more than was approved. -/
theorem checkNotional_ok {quantity price : String} {q p : FiniteDecimal} (hq : Reads py quantity q)
    (hp : Reads py price p) (h : checkNotional exactNumbers py quantity price approved = .ok ()) :
    q.value * p.value ≤ approved.value := by
  unfold checkNotional at h
  rw [show Decimal.ofText py.unicode quantity.toList = some (.finite q) from hq,
    show Decimal.ofText py.unicode price.toList = some (.finite p) from hp] at h
  obtain ⟨actual, hactual, h⟩ := bind_ok h
  split_ifs at h with hmore
  rw [FiniteDecimal.lt_iff, exact_mul (raising_ok hactual)] at hmore
  exact not_lt.mp hmore

theorem approvedMaxNotional_ok {intent : Intent} (h : approvedMaxNotional py intent = .ok approved) :
    ReadsValue py (attribute? intent.riskBudget "max_notional") approved := by
  unfold approvedMaxNotional at h
  unfold ReadsValue
  split at h
  · rename_i d hread
    split_ifs at h
    cases h
    exact hread
  · cases h

end

section
variable {py : Interpreter} {intent : Intent} {context : PlannerContext py} {instrument : InstrumentSpec}
  {plan : Dict Value} {side : OrderSide}

variable {raw : Option Value} {order : OrderPlan}

/-- A side that is read is in its text. -/
theorem parseSide_ok (h : parseSide py raw = .ok side) :
    py.unicode.lower (shown py raw "") = py.unicode.lower side.text := by
  have hbuy : py.unicode.lower OrderSide.buy.text = "buy" := py.unicode.lower_ascii _ (by decide)
  have hsell : py.unicode.lower OrderSide.sell.text = "sell" := py.unicode.lower_ascii _ (by decide)
  have hempty : py.unicode.lower "" = "" := py.unicode.lower_ascii _ (by decide)
  have hshown : py.textOf raw ≠ "" → py.textOf raw = shown py raw "" := by
    cases raw with
    | none => exact fun hne => absurd rfl hne
    | some v =>
      unfold Interpreter.textOf shown
      dsimp only
      split_ifs
      · exact fun _ => rfl
      · exact fun hne => absurd rfl hne
  have hread {text : String} (hne : text ≠ "") (hlower : py.unicode.lower (py.textOf raw) = text) :
      py.unicode.lower (shown py raw "") = text := by
    rw [← hshown fun hnone => hne (by rw [← hlower, hnone, hempty]), hlower]
  unfold parseSide at h
  dsimp only at h
  split_ifs at h with hlong hshort
  · cases h
    rw [hread (by decide) hlong, hbuy]
  · cases h
    rw [hread (by decide) hshort, hsell]
  · cases h

/-- The bound a zone is entered at is that of the side. -/
theorem boundMember_eq (h : parseSide py raw = .ok side) :
    (if py.unicode.lower (shown py raw "") = "buy" then "price_max" else "price_min") =
      side.boundMember := by
  rw [parseSide_ok h]
  cases side with
  | buy => exact if_pos (py.unicode.lower_ascii _ (by decide))
  | sell =>
    have hsell : py.unicode.lower OrderSide.sell.text = "sell" := py.unicode.lower_ascii _ (by decide)
    exact if_neg (by rw [hsell]; decide)

theorem present_asked (values : List (Option Value)) :
    present (firstPresent values) = firstPresent values := by
  have h := @present_or_firstPresent (none :: values) none (by simp)
  rw [Option.or_none] at h
  exact h

/-- A member that has the first value found is read as that value. -/
theorem reads_asked {values : List (Option Value)} {v : Option Value} {d : FiniteDecimal}
    (h : present v = firstPresent values) (hreads : ReadsValue py v d) :
      ReadsValue py (firstPresent values) d := by
  unfold ReadsValue at *
  rwa [present_asked, ← h]

/-- The price of an order is the one asked for, to the nearest increment. -/
theorem priced_of (hmerged : Merged py intent context plan)
    (hside : parseSide py (plan.get? "side") = .ok order.side)
    (h : PriceOf py plan instrument order.orderType order.price) :
    (order.orderType = .market ∧ order.price = none) ∨
      order.orderType = .limit ∧ ∃ price, PricedAt py intent context instrument order price := by
  generalize htype : order.orderType = orderType at h ⊢
  generalize hprice : order.price = price at h ⊢
  cases h with
  | market _ => exact .inl ⟨rfl, rfl⟩
  | limit hlimit hreads hrounded =>
    have hasked := hmerged.type.symm.trans hlimit
    refine .inr ⟨rfl, _, ⟨_, hprice, hrounded.text⟩, _, _, ?_, hrounded.increment, hrounded.whole,
      hrounded.halfUp_bounds⟩
    rw [askedPrice, if_pos hasked]
    exact reads_asked (hmerged.limit hasked) hreads
  | zone hzone hreads hrounded =>
    have hasked := hmerged.type.symm.trans hzone
    refine .inr ⟨rfl, _, ⟨_, hprice, hrounded.text⟩, _, _, ?_, hrounded.increment, hrounded.whole,
      hrounded.halfUp_bounds⟩
    rw [askedPrice, hasked, if_neg (by decide), if_pos rfl]
    rw [boundMember_eq hside] at hreads
    cases hbuy : order.side with
    | buy =>
      rw [hbuy] at hreads
      exact reads_asked (hmerged.high hasked) hreads
    | sell =>
      rw [hbuy] at hreads
      exact reads_asked (hmerged.low hasked) hreads

theorem planEntry_within {action : Action}
    (h : planEntryIntent exactNumbers py intent action context instrument = .ok order) :
    WithinApproval py intent context instrument order := by
  unfold planEntryIntent at h
  obtain ⟨plan, hplan, h⟩ := bind_ok h
  obtain ⟨side, hside, h⟩ := bind_ok h
  obtain ⟨⟨⟩, -, h⟩ := bind_ok h
  obtain ⟨spec, hspec, h⟩ := bind_ok h
  obtain ⟨approved, happroved, h⟩ := bind_ok h
  obtain ⟨⟨⟩, hnotional, h⟩ := bind_ok h
  obtain ⟨clientOrderId, -, h⟩ := bind_ok h
  obtain ⟨slippage, -, h⟩ := bind_ok h
  obtain ⟨guard, -, h⟩ := bind_ok h
  have horder := pure_ok h
  have hmerged := entryOrderPlan_ok hplan
  obtain ⟨⟨v, step, d, hreads, hpos, hrounded, hdpos⟩, hprice⟩ := buildOrderSpec_ok hspec
  have hkind : (order.orderType = .market ∧ order.price = none) ∨
      order.orderType = .limit ∧ ∃ price, PricedAt py intent context instrument order price := by
    rw [← horder]
    exact priced_of hmerged hside hprice
  constructor
  · refine ⟨d, ?_, hdpos, v, step, reads_asked hmerged.quantity hreads, hrounded.increment, hrounded.whole,
      hrounded.down_bounds hpos⟩
    rw [← horder]
    exact hrounded.text
  · intro hlimit
    rcases hkind with ⟨hmarket, -⟩ | ⟨-, hpriced⟩
    · rw [hmarket] at hlimit
      cases hlimit
    · exact hpriced
  · intro hunpriced
    exact hkind.resolve_right fun hlimit => hunpriced hlimit.1
  · intro quantity price hquantity hpriced
    obtain ⟨text, htext, hread⟩ := hpriced.reads
    rw [← horder] at hquantity htext
    refine ⟨approved, approvedMaxNotional_ok happroved, ?_⟩
    rw [checkSpecNotional, show spec.price = some text from htext] at hnotional
    exact checkNotional_ok hquantity hread hnotional

/-- **An entry is within its approval.** Its quantity is the one asked for, rounded down to whole
increments, and positive; the price of a limit is the one asked for or the zone's bound of the
side, to the nearest increment; and its notional is at most what was approved. -/
theorem entry_within_approval (py : Interpreter) (intent : Intent) (context : PlannerContext py)
    (order : OrderPlan)
    (h : planIntentExecution exactNumbers py intent context = .ok (.entry order)) :
    ∃ instrument, context.instrument = some instrument ∧
      WithinApproval py intent context instrument order := by
  obtain ⟨action, instrument, -, hfor, hplanned⟩ := plan_cases h
  cases hplanned with
  | entry hentry hplan => exact ⟨instrument, (instrumentFor_ok hfor).1, planEntry_within hplan⟩

end

/-- A buy in a zone, with its bounds and its quantity from the execution and the sizing. -/
def zoneEntry : Intent :=
  { addition with
    execution := some ⟨[("order_type", .str "zone"), ("zone", .obj [("high", .str "100.04"), ("low", .str "99")])],
      by decide⟩
    sizing := some ⟨[("quantity", .str "2.0005")], by decide⟩ }

theorem zoneEntry_planned : ∃ order,
    planIntentExecution exactNumbers Venue.ascii zoneEntry (simulated none) = .ok (.entry order) ∧
      order.quantity = "2.000" ∧ order.price = some "100.0" := by
  have hrun : ((planIntentExecution exactNumbers Venue.ascii zoneEntry (simulated none)).toOption.bind
      Plan.order?).map (fun order => (order.quantity, order.price)) = some ("2.000",
        some "100.0") := by decide +kernel
  obtain ⟨order, hrun, hshape⟩ := Option.map_eq_some_iff.mp hrun
  obtain ⟨plan, hplan, horder⟩ := Option.bind_eq_some_iff.mp hrun
  obtain ⟨hquantity, hprice⟩ := Prod.mk.inj hshape
  cases plan with
  | management _ => cases horder
  | entry found =>
    cases horder
    exact ⟨order, toOption_some hplan, hquantity, hprice⟩

theorem zoneEntry_within_approval : ∃ order instrument,
    planIntentExecution exactNumbers Venue.ascii zoneEntry (simulated none) = .ok (.entry order) ∧
      WithinApproval Venue.ascii zoneEntry (simulated none) instrument order := by
  obtain ⟨order, hplan, -⟩ := zoneEntry_planned
  obtain ⟨instrument, -, hwithin⟩ := entry_within_approval _ _ _ order hplan
  exact ⟨order, instrument, hplan, hwithin⟩

end TraderBot.Planner
