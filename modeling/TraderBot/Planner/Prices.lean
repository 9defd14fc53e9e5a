import TraderBot.Planner.EntrySizing
import TraderBot.Planner.Stepping

/-! # The prices of a plan

Whatever its action, a plan writes a price as the multiple of the price increment that is the
nearest to a number of the intent. The number is checked to be positive before it is rounded,
or, for the bound of a zone, not at all; the price is positive exactly where the number is half
an increment at least (`prices_positive_iff`). -/
namespace TraderBot.Planner
open TraderBot.Lib TraderBot.Lib.Text TraderBot.Lib.Json
open TraderBot.Venue (Interpreter PositionSnapshot)

/-! ## What is asked for -/

section
variable (py : Interpreter)

def PositiveText (text : String) : Prop := ∃ d, Reads py text d ∧ 0 < d.value

/-- Every price of an order is positive. -/
structure OrderPlan.Positive (order : OrderPlan) : Prop where
  price : ∀ text ∈ order.price, PositiveText py text
  trigger : ∀ text ∈ order.triggerPrice, PositiveText py text
  guard : ∀ text ∈ order.guardPrice, PositiveText py text

def Plan.orders : Plan → List OrderPlan
  | .entry order => [order]
  | .management plan => plan.orders

def Plan.Positive (plan : Plan) : Prop := ∀ order ∈ plan.orders, order.Positive py

/-- A quotient in the decimal context that is rounded up to an increment. -/
def HalfStep (v step : FiniteDecimal) : Prop := ∃ x, Decimal.div v step = some x ∧ 1 / 2 ≤ x.value

/-- A number that is half an increment at least. -/
def Reaches (increment : String) (raw : Option Value) : Prop :=
  ∀ v step, ReadsValue py raw v → Reads py increment step → 0 < step.value → HalfStep v step

/-- The same of a number that is positive; any other guards nothing. -/
def GuardReaches (increment : String) (raw : Option Value) : Prop :=
  ∀ v step, ReadsValue py raw v → 0 < v.value → Reads py increment step → 0 < step.value → HalfStep v step

/-- The price a specification asks for; only a limit and a zone have one. -/
def specPrice (plan : Dict Value) (side : OrderSide) : Option Value :=
  if py.unicode.lower (shown py (plan.get? "type") "") = "limit" then plan.get? "price"
  else if py.unicode.lower (shown py (plan.get? "type") "") = "zone" then plan.get? side.boundMember
  else none

/-- The limit price of a stop, if it asks for one. -/
def stopLimitPrice (plan : Dict Value) : Option Value :=
  if py.unicode.lower (shown py (plan.get? "type") "stop_market") = "stop_limit" then
    (plan.get? "limit_price").or (plan.get? "price")
  else none

def stopTrigger (plan : Dict Value) : Option Value :=
    (plan.get? "stop_price").or (plan.get? "trigger_price")

def targetTrigger (target : Value) : Option Value := (target.get? "trigger_price").or (target.get? "price")

variable (intent : Intent) (context : PlannerContext py)

/-- The guard price an entry asks for. -/
def askedGuard : Option Value :=
  firstPresent [intent.plan.get? "guard_price", intent.plan.get? "reference_price", intent.plan.get? "entry_price",
    intent.plan.get? "entry",
    if askedType py intent context = "limit" then askedLimit intent else intent.plan.get? "price"]

/-- The entry price of a position, or of the plan where it has none. -/
def entryStop (position : PositionSnapshot) : Option Value :=
  match position.entryPrice with
  | some price => if price = "" then intent.plan.get? "entry_price" else some (.str price)
  | none => intent.plan.get? "entry_price"

/-- Every number that an action rounds to a price is half an increment at least. -/
def ActionReaches (increment : String) : Action → Prop
  | .openPosition | .addPosition =>
    (∀ side, parseSide py (intent.plan.get? "side") = .ok side →
      Reaches py increment (askedPrice py intent context side)) ∧
    GuardReaches py increment (askedGuard py intent context)
  | .partialClose | .closePosition => ∀ position, selectTargetPosition py intent context = .ok position →
    Reaches py increment (specPrice py intent.plan (exitSide py position))
  | .moveStopLoss => Reaches py increment (stopTrigger intent.plan) ∧
    Reaches py increment (stopLimitPrice py intent.plan)
  | .moveStopToEntry => ∀ position, selectTargetPosition py intent context = .ok position →
    Reaches py increment (entryStop intent position) ∧ Reaches py increment (stopLimitPrice py intent.plan)
  | .replaceTakeProfits => ∀ targets, takeProfits intent = some (.arr targets) →
    ∀ target ∈ targets, Reaches py increment (targetTrigger target)
  | .cancelOrder => True

/-- The same of the intent's action, at the price increment of its instrument. -/
def PricesReach : Prop :=
  ∀ action instrument, Action.ofText? intent.action = some action → context.instrument = some instrument →
    ActionReaches py intent context instrument.priceIncrement action

end

/-! ## Prices -/

section
variable {value step n p d : FiniteDecimal}

theorem halfUp_nonpos {x : ℚ} (hx : x < 1 / 2) : Rounding.halfUp.apply x ≤ 0 := by
  rw [Rounding.apply]
  split_ifs with hneg
  · exact neg_nonpos.mpr (Int.floor_nonneg.mpr (by linarith))
  · exact Int.lt_add_one_iff.mp (Int.floor_lt.mpr (by push_cast; linarith))

theorem down_nonpos {x : ℚ} (hx : x ≤ 0) : Rounding.down.apply x ≤ 0 := by
  rw [Rounding.apply]
  split_ifs with hneg
  · exact Int.ceil_le.mpr (by exact_mod_cast hx)
  · rw [le_antisymm hx (not_lt.mp hneg), Int.floor_zero]

/-- What is snapped is positive from half a step on. -/
theorem stepped_pos_iff (hs : 0 < step.value) (h : stepped .halfUp value step = some d) :
    0 < d.value ↔ HalfStep value step := by
  obtain ⟨p, hsnap, hfit⟩ := Option.bind_eq_some_iff.mp h
  obtain ⟨x, hx, hsnap⟩ := Option.bind_eq_some_iff.mp hsnap
  obtain ⟨n, hn, hp⟩ := Option.bind_eq_some_iff.mp hsnap
  have hsteps : n.value = Rounding.halfUp.apply x.value := by
    rw [Decimal.quantize_value hn, zpow_zero, div_one, mul_one]
  have hvalue := Decimal.quantize_value hfit
  have hplace := ten_zpow_pos step.exponent
  constructor
  · intro hpos
    refine ⟨x, hx, ?_⟩
    by_contra hhalf
    have hnone : n.value ≤ 0 := by
      rw [hsteps, Int.cast_nonpos]
      exact halfUp_nonpos (not_le.mp hhalf)
    have hproduct := Decimal.mul_nonpos_of_nonpos hnone hs hp
    have hdown := down_nonpos (div_nonpos_of_nonpos_of_nonneg hproduct hplace.le)
    rw [hvalue] at hpos
    refine absurd hpos (not_lt.mpr (mul_nonpos_of_nonpos_of_nonneg ?_ hplace.le))
    exact_mod_cast hdown
  · intro hhalf
    obtain ⟨y, hy, hhalf⟩ := hhalf
    cases hx.symm.trans hy
    have hsome : 0 < n.value := by
      rw [hsteps, Int.cast_pos]
      exact (Rounding.halfUp_pos_iff (by linarith)).mpr hhalf
    have hwhole : (1 : ℚ) ≤ p.value / 10 ^ step.exponent := by
      rw [le_div_iff₀ hplace, one_mul]
      exact le_mul_steps (Decimal.etiny_le_of_quantize hfit) hs (Decimal.quantize_place hn).1 hsome hp
    rw [hvalue]
    refine mul_pos ?_ hplace
    have hdown : (1 : Int) ≤ Rounding.down.apply (p.value / 10 ^ step.exponent) := by
      rw [Rounding.apply, if_neg (by linarith)]
      exact Int.le_floor.mpr (by exact_mod_cast hwhole)
    exact_mod_cast hdown

end

section
variable {py : Interpreter} {increment field text : String} {raw w : Option Value} {value : Decimal}

theorem ReadsValue.congr {d : FiniteDecimal} (h : present raw = present w) (hreads : ReadsValue py raw d) :
    ReadsValue py w d := by
  unfold ReadsValue at *
  rwa [← h]

theorem Reaches.congr (h : present raw = present w) : Reaches py increment raw ↔ Reaches py increment w :=
  ⟨fun hraw v step hv => hraw v step (hv.congr h.symm), fun hw v step hv => hw v step (hv.congr h)⟩

theorem not_reads_none (d : FiniteDecimal) : ¬ ReadsValue py none d := nofun

theorem ReadsValue.unique {d d' : FiniteDecimal} (h : ReadsValue py raw d) (h' : ReadsValue py raw d') :
    d = d' :=
  Decimal.finite.inj (Option.some.inj (h.symm.trans h'))

/-- A text that is a number rounded to an increment. -/
def Snapped (py : Interpreter) (increment : String) (raw : Option Value) (text : String) : Prop :=
  ∃ v step d, ReadsValue py raw v ∧ Reads py increment step ∧ 0 < step.value ∧
    stepped .halfUp v step = some d ∧
    text = fixed d

theorem Snapped.half_iff (h : Snapped py increment raw text) :
    PositiveText py text ↔
      ∃ v step, ReadsValue py raw v ∧ Reads py increment step ∧ 0 < step.value ∧ HalfStep v step := by
  obtain ⟨v, step, d, hv, hstep, hpos, hd, rfl⟩ := h
  have hhalf := stepped_pos_iff hpos hd
  constructor
  · intro hpositive
    obtain ⟨d', hd', hpositive⟩ := hpositive
    rw [hd'.unique (reads_fixed py d), FiniteDecimal.spread_value] at hpositive
    exact ⟨v, step, hv, hstep, hpos, hhalf.mp hpositive⟩
  · intro hreaches
    obtain ⟨v', step', hv', hstep', -, hreaches⟩ := hreaches
    rw [hv'.unique hv, hstep'.unique hstep] at hreaches
    refine ⟨d.spread, reads_fixed py d, ?_⟩
    rw [FiniteDecimal.spread_value]
    exact hhalf.mpr hreaches

/-- **A price that is rounded is positive** from half an increment on. -/
theorem Snapped.positive_iff (h : Snapped py increment raw text) : PositiveText py text ↔
    Reaches py increment raw := by
  rw [h.half_iff]
  obtain ⟨v, step, d, hv, hstep, hpos, -⟩ := h
  constructor
  · intro hhalf v₁ step₁ hv₁ hstep₁ _
    obtain ⟨v₂, step₂, hv₂, hstep₂, -, hhalf⟩ := hhalf
    rwa [hv₁.unique hv₂, hstep₁.unique hstep₂]
  · intro hreaches
    exact ⟨v, step, hv, hstep, hpos, hreaches v step hv hstep hpos⟩

theorem roundToIncrement_snapped (hvalue : decimalOf py raw field = .ok value) {place : String}
    (h : roundToIncrement defaultContext py value increment place = .ok text) :
      Snapped py increment raw text := by
  unfold roundToIncrement at h
  obtain ⟨step, hstep, h⟩ := bind_ok h
  obtain ⟨⟨r, s⟩, hsnapped, h⟩ := bind_ok h
  obtain ⟨fitted, hfit, htext⟩ := bind_ok h
  obtain ⟨v, rfl, rfl, hsnap⟩ := snapped_ok hsnapped
  obtain ⟨hread, hpositive⟩ := stepOf_ok hstep
  refine ⟨v, s, fitted, decimalOf_ok hvalue, hread, value_pos hpositive, ?_, (pure_ok htext).symm⟩
  rw [stepped, hsnap]
  exact raising_ok hfit

theorem roundedPositive_snapped (h : roundedPositive defaultContext py raw increment field = .ok text) :
    Snapped py increment raw text ∧ ∃ v, ReadsValue py raw v ∧ 0 < v.value := by
  unfold roundedPositive at h
  obtain ⟨value, hvalue, h⟩ := bind_ok h
  obtain ⟨negative, hnegative, h⟩ := bind_ok h
  cases negative with
  | true => cases h
  | false =>
    have hsnapped := roundToIncrement_snapped hvalue h
    obtain ⟨v, step, d, hv, -⟩ := hsnapped
    cases Option.some.inj ((decimalOf_ok hvalue).symm.trans hv)
    exact ⟨roundToIncrement_snapped hvalue h, v, hv, value_pos hnegative⟩

theorem notPositive_finite {v : FiniteDecimal} (hpos : 0 < v.value) :
    notPositive (.finite v) = .ok false := by
  have hle : v.le .zero = false := by
    rw [Bool.eq_false_iff]
    intro hle
    rw [FiniteDecimal.le_iff, FiniteDecimal.zero_value] at hle
    exact absurd hpos (not_lt.mpr hle)
  rw [notPositive, Decimal.le?, hle]
  rfl

/-- A positive number is rounded, or raises. -/
theorem roundedPositive_finite {v step : FiniteDecimal} (hv : ReadsValue py raw v) (hpos : 0 < v.value)
    (hstep : Reads py increment step) (hs : 0 < step.value) :
    roundedPositive defaultContext py raw increment field =
      raising ((stepped .halfUp v step).map fixed) := by
  have hvalue : decimalOf py raw field = .ok (.finite v) := by
    rw [decimalOf, show (present raw).bind _ = some (Decimal.finite v) from hv]
  have hincrement : stepOf py increment field = .ok (.finite step) := by
    have hread : decimalOf py (some (.str increment)) (field ++ ".increment") = .ok (.finite step) := by
      rw [decimalOf, show (present (some (.str increment))).bind (Decimal.ofValue py.unicode) =
        some (.finite step) from hstep]
    rw [stepOf, hread, ok_bind, notPositive_finite hs]
    rfl
  rw [roundedPositive, hvalue, ok_bind, notPositive_finite hpos, ok_bind, if_neg nofun, roundToIncrement, hincrement,
    ok_bind, snapped, stepped]
  dsimp only
  cases hsnap : defaultContext.snap .halfUp v step with
  | none => rfl
  | some p =>
    show (raising (defaultContext.fit p step) >>= fun fitted => pure (fixed fitted)) =
      raising ((defaultContext.fit p step).map fixed)
    cases defaultContext.fit p step with
    | none => rfl
    | some d => rfl

/-- A price that is there if it is asked for. -/
def PricedFrom (py : Interpreter) (increment : String) (raw : Option Value) (price : Option String) :
    Prop :=
  match price with
  | some text => Snapped py increment raw text
  | none => raw = none

theorem PricedFrom.positive_iff {price : Option String} (h : PricedFrom py increment raw price) :
    (∀ text ∈ price, PositiveText py text) ↔ Reaches py increment raw := by
  cases price with
  | some text =>
    rw [← Snapped.positive_iff h]
    exact ⟨fun hall => hall text rfl, fun hpositive _ hmem => Option.mem_some.mp hmem ▸ hpositive⟩
  | none =>
    cases h
    exact iff_of_true nofun fun v step hv => absurd hv (not_reads_none v)

/-- **A guard price is positive** if it is that of half an increment at least. -/
theorem guardPrice_positive_iff {plan : Dict Value} {instrument : InstrumentSpec} {guard : Option String}
    (h : guardPrice defaultContext py plan instrument = .ok guard) :
    (∀ text ∈ guard, PositiveText py text) ↔
      GuardReaches py instrument.priceIncrement (firstPresent [plan.get? "guard_price", plan.get? "reference_price",
        plan.get? "entry_price", plan.get? "entry", plan.get? "price"]) := by
  unfold guardPrice at h
  generalize firstPresent [plan.get? "guard_price", plan.get? "reference_price",
        plan.get? "entry_price", plan.get? "entry", plan.get? "price"] = raw at h ⊢
  cases raw with
  | none =>
    cases h
    exact iff_of_true nofun fun v step hv => absurd hv (not_reads_none v)
  | some found =>
    dsimp only at h
    cases hround : roundedPositive defaultContext py (some found) instrument.priceIncrement "guard_price" with
    | ok text =>
      rw [hround] at h
      cases h
      obtain ⟨hsnapped, v, hv, hpos⟩ := roundedPositive_snapped hround
      have hsome : PricedFrom py instrument.priceIncrement (some found) (some text) := hsnapped
      rw [hsome.positive_iff]
      constructor
      · intro hreaches v₁ step₁ hv₁ _
        exact hreaches v₁ step₁ hv₁
      · intro hreaches v₁ step₁ hv₁
        exact hreaches v₁ step₁ hv₁ (hv₁.unique hv ▸ hpos)
    | error stop =>
      rw [hround] at h
      cases stop with
      | raised => cases h
      | denied reason detail =>
        cases h
        refine iff_of_true nofun fun v step hv hpos hstep hs => ?_
        rw [roundedPositive_finite hv hpos hstep hs] at hround
        cases hd : stepped .halfUp v step with
        | none => rw [hd] at hround; cases hround
        | some d => rw [hd] at hround; cases hround

end

/-! ## Orders -/

section
variable {py : Interpreter} {intent : Intent} {context : PlannerContext py} {action : Action}
  {instrument : InstrumentSpec} {position : PositionSnapshot} {plan : Dict Value} {side : OrderSide} {order : OrderPlan}

/-- The bound of a zone is rounded as it is. -/
theorem zoneBoundaryPrice_snapped (hside : parseSide py (plan.get? "side") = .ok side) {text : String}
    (h : zoneBoundaryPrice defaultContext py plan instrument = .ok text) :
    Snapped py instrument.priceIncrement (plan.get? side.boundMember) text := by
  unfold zoneBoundaryPrice at h
  split_ifs at h
  · cases h
  · cases h
  obtain ⟨priceMin, hmin, h⟩ := bind_ok h
  obtain ⟨priceMax, hmax, h⟩ := bind_ok h
  obtain ⟨crossed, -, h⟩ := bind_ok h
  cases crossed with
  | true => cases h
  | false =>
    rw [← boundMember_eq hside]
    dsimp only at h
    rw [if_neg (by decide)] at h
    split_ifs at h ⊢
    · exact roundToIncrement_snapped hmax h
    · exact roundToIncrement_snapped hmin h

theorem orderPrice_from (hside : parseSide py (plan.get? "side") = .ok side)
    {planned : OrderType × Option String × String}
    (h : orderPrice defaultContext py (py.unicode.lower (shown py (plan.get? "type") "")) plan instrument = .ok planned) :
    PricedFrom py instrument.priceIncrement (specPrice py plan side) planned.2.1 := by
  unfold orderPrice at h
  unfold specPrice
  split_ifs at h with hmarket hlimit hnone hzone
  · cases pure_ok h
    rw [hmarket]
    rfl
  · cases h
  · obtain ⟨text, htext, h⟩ := bind_ok h
    cases pure_ok h
    rw [if_pos hlimit]
    exact (roundedPositive_snapped htext).1
  · obtain ⟨text, htext, h⟩ := bind_ok h
    cases pure_ok h
    rw [if_neg hlimit, if_pos hzone]
    exact zoneBoundaryPrice_snapped hside htext
  · cases h

theorem buildOrderSpec_from (hside : parseSide py (plan.get? "side") = .ok side) {spec : OrderSpec}
    (h : buildOrderSpec defaultContext py plan instrument = .ok spec) :
    PricedFrom py instrument.priceIncrement (specPrice py plan side) spec.price := by
  unfold buildOrderSpec at h
  obtain ⟨quantity, -, h⟩ := bind_ok h
  obtain ⟨planned, hplanned, h⟩ := bind_ok h
  obtain ⟨timeInForce, -, h⟩ := bind_ok h
  cases pure_ok h
  exact orderPrice_from hside hplanned

/-- The price of a merged plan is the one the entry asks for. -/
theorem Merged.present_price (h : Merged py intent context plan) (side : OrderSide) :
    present (specPrice py plan side) = present (askedPrice py intent context side) := by
  unfold specPrice askedPrice
  rw [h.type]
  split_ifs with hlimit hzone
  · rw [h.limit hlimit, askedLimit, present_asked]
  · cases side with
    | buy => exact (h.high hzone).trans (present_asked _).symm
    | sell => exact (h.low hzone).trans (present_asked _).symm
  · rfl

theorem Merged.guard (h : Merged py intent context plan) :
    firstPresent [plan.get? "guard_price", plan.get? "reference_price", plan.get? "entry_price", plan.get? "entry",
      plan.get? "price"] = askedGuard py intent context := by
  have hprice : present (plan.get? "price") = present
      (if askedType py intent context = "limit" then askedLimit intent else intent.plan.get? "price") := by
    split_ifs with hlimit
    · rw [h.limit hlimit, askedLimit, present_asked]
    · rw [h.unpriced hlimit]
  unfold askedGuard firstPresent
  rw [h.kept "guard_price" (by decide), h.kept "reference_price" (by decide), h.kept "entry_price" (by decide),
    h.kept "entry" (by decide)]
  simp only [List.findSome?_cons, hprice]

/-- The prices of an entry. -/
theorem planEntry_positive_iff (hentry : action.isEntry = true)
    (h : planEntryIntent defaultContext py intent action context instrument = .ok order) :
    order.Positive py ↔ ActionReaches py intent context instrument.priceIncrement action := by
  unfold planEntryIntent at h
  obtain ⟨plan, hplan, h⟩ := bind_ok h
  obtain ⟨side, hside, h⟩ := bind_ok h
  obtain ⟨⟨⟩, -, h⟩ := bind_ok h
  obtain ⟨spec, hspec, h⟩ := bind_ok h
  obtain ⟨approved, -, h⟩ := bind_ok h
  obtain ⟨⟨⟩, -, h⟩ := bind_ok h
  obtain ⟨clientOrderId, -, h⟩ := bind_ok h
  obtain ⟨slippage, -, h⟩ := bind_ok h
  obtain ⟨guard, hguard, h⟩ := bind_ok h
  cases pure_ok h
  have hmerged := entryOrderPlan_ok hplan
  have hprice := (buildOrderSpec_from hside hspec).positive_iff.trans (Reaches.congr (hmerged.present_price side))
  have hguarded := guardPrice_positive_iff hguard
  rw [hmerged.guard] at hguarded
  have hreaches : ActionReaches py intent context instrument.priceIncrement action ↔
      (∀ side, parseSide py (intent.plan.get? "side") = .ok side →
        Reaches py instrument.priceIncrement (askedPrice py intent context side)) ∧
      GuardReaches py instrument.priceIncrement (askedGuard py intent context) := by
    cases action with
    | openPosition => rfl
    | addPosition => rfl
    | _ => cases hentry
  rw [hreaches, ← hmerged.kept "side" (by decide), ← hguarded]
  constructor
  · intro hpositive
    refine ⟨fun side' hside' => ?_, hpositive.guard⟩
    cases Except.ok.inj (hside.symm.trans hside')
    exact hprice.mp hpositive.price
  · intro hreaches
    exact ⟨hprice.mpr (hreaches.1 side hside), nofun, hreaches.2⟩

theorem parseSide_text (side : OrderSide) :
    parseSide py (some (.str (py.unicode.lower side.text))) = .ok side := by
  cases side with
  | buy =>
    have hbuy : py.unicode.lower OrderSide.buy.text = "buy" := py.unicode.lower_ascii _ (by decide)
    have htext : py.textOf (some (.str "buy")) = "buy" := py.str_str "buy"
    rw [hbuy, parseSide, htext, show py.unicode.lower "buy" = "buy" from py.unicode.lower_ascii _ (by decide)]
    rfl
  | sell =>
    have hsell : py.unicode.lower OrderSide.sell.text = "sell" := py.unicode.lower_ascii _ (by decide)
    have htext : py.textOf (some (.str "sell")) = "sell" := py.str_str "sell"
    rw [hsell, parseSide, htext, show py.unicode.lower "sell" = "sell" from py.unicode.lower_ascii _ (by decide)]
    rfl

theorem buildExitOrder_positive_iff {quantity : Value}
    (h : buildExitOrder defaultContext py intent action (exitPlan plan quantity) instrument position side = .ok order) :
    order.Positive py ↔ Reaches py instrument.priceIncrement (specPrice py plan side) := by
  unfold buildExitOrder at h
  obtain ⟨spec, hspec, h⟩ := bind_ok h
  obtain ⟨⟨⟩, -, h⟩ := bind_ok h
  obtain ⟨clientOrderId, -, h⟩ := bind_ok h
  cases pure_ok h
  have hsame : specPrice py ((exitPlan plan quantity).set "side" (.str (py.unicode.lower side.text))) side =
      specPrice py plan side := by
    have hkept : ∀ k, k ≠ "side" → k ≠ "quantity" → k ≠ "fraction" →
        ((exitPlan plan quantity).set "side" (.str (py.unicode.lower side.text))).get? k = plan.get? k := by
      intro k hside hquantity hfraction
      rw [Dict.get?_set_ne hside, exitPlan, Dict.get?_set_ne hquantity, Dict.get?_erase, if_neg hfraction]
    unfold specPrice
    rw [hkept "type" (by decide) (by decide) (by decide), hkept "price" (by decide) (by decide) (by decide)]
    cases side with
    | buy => rw [hkept _ (by decide) (by decide) (by decide)]
    | sell => rw [hkept _ (by decide) (by decide) (by decide)]
  have hside : parseSide py (((exitPlan plan quantity).set "side" (.str (py.unicode.lower side.text))).get? "side") =
      .ok side := by
    rw [Dict.get?_set_self]
    exact parseSide_text side
  have hprice := (buildOrderSpec_from hside hspec).positive_iff
  rw [hsame] at hprice
  exact ⟨fun hpositive => hprice.mp hpositive.price, fun hreaches => ⟨hprice.mpr hreaches, nofun, nofun⟩⟩

theorem buildStopOrder_positive_iff
    (h : buildStopOrder defaultContext py intent action plan instrument position side = .ok order) :
    order.Positive py ↔ Reaches py instrument.priceIncrement (stopTrigger plan) ∧
      Reaches py instrument.priceIncrement (stopLimitPrice py plan) := by
  unfold buildStopOrder at h
  dsimp only at h
  split_ifs at h with htype
  · cases h
  obtain ⟨trigger, htrigger, h⟩ := bind_ok h
  obtain ⟨⟨planned, price⟩, hlimit, h⟩ := bind_ok h
  obtain ⟨quantity, -, h⟩ := bind_ok h
  obtain ⟨timeInForce, -, h⟩ := bind_ok h
  obtain ⟨clientOrderId, -, h⟩ := bind_ok h
  cases pure_ok h
  have hprice : PricedFrom py instrument.priceIncrement (stopLimitPrice py plan) price := by
    unfold stopLimit at hlimit
    unfold stopLimitPrice
    split_ifs at hlimit ⊢
    · obtain ⟨text, htext, hlimit⟩ := bind_ok hlimit
      cases pure_ok hlimit
      exact (roundedPositive_snapped htext).1
    · cases pure_ok hlimit
      rfl
  have hsnapped : Snapped py instrument.priceIncrement (stopTrigger plan) trigger :=
    (roundedPositive_snapped htrigger).1
  constructor
  · intro hpositive
    exact ⟨hsnapped.positive_iff.mp (hpositive.trigger trigger rfl), hprice.positive_iff.mp hpositive.price⟩
  · intro hreaches
    refine ⟨hprice.positive_iff.mpr hreaches.2, fun text htext => ?_, nofun⟩
    cases Option.mem_some.mp htext
    exact hsnapped.positive_iff.mpr hreaches.1

/-- An order whose only price is the trigger of a target. -/
structure FromTarget (py : Interpreter) (increment : String) (target : Value) (order : OrderPlan) :
    Prop where
  price : order.price = none
  guard : order.guardPrice = none
  trigger : ∃ text, order.triggerPrice = some text ∧ Snapped py increment (targetTrigger target) text

theorem FromTarget.positive_iff {increment : String} {target : Value}
    (h : FromTarget py increment target order) :
    order.Positive py ↔ Reaches py increment (targetTrigger target) := by
  obtain ⟨text, htext, hsnapped⟩ := h.trigger
  rw [← hsnapped.positive_iff]
  constructor
  · intro hpositive
    exact hpositive.trigger text htext
  · intro hpositive
    refine ⟨by rw [h.price]; nofun, fun found hfound => ?_, by rw [h.guard]; nofun⟩
    rw [htext] at hfound
    cases Option.mem_some.mp hfound
    exact hpositive

/-- The orders of the loop are those of its targets, after those it began with. -/
theorem takeProfits_fromTargets {targets : List (Value × Nat)}
    {state state' : List OrderPlan × FiniteDecimal}
    (h : targets.foldlM (takeProfitStep defaultContext py intent instrument position side) state = .ok state') :
    ∃ orders, state'.1 = state.1 ++ orders ∧
      List.Forall₂ (fun target => FromTarget py instrument.priceIncrement target.1) targets orders := by
  induction targets generalizing state with
  | nil =>
    cases pure_ok h
    exact ⟨[], (List.append_nil _).symm, .nil⟩
  | cons target targets ih =>
    obtain ⟨next, hstep, h⟩ := bind_ok (by simpa only [List.foldlM_cons] using h)
    obtain ⟨orders, hnext, horders⟩ := ih h
    unfold takeProfitStep at hstep
    split at hstep
    · obtain ⟨quantity, -, hstep⟩ := bind_ok hstep
      obtain ⟨total, -, hstep⟩ := bind_ok hstep
      obtain ⟨order, horder, hstep⟩ := bind_ok hstep
      cases pure_ok hstep
      refine ⟨order :: orders, by rw [hnext, List.append_assoc, List.singleton_append], .cons ?_ horders⟩
      unfold takeProfitOrder at horder
      obtain ⟨trigger, htrigger, horder⟩ := bind_ok horder
      obtain ⟨timeInForce, -, horder⟩ := bind_ok horder
      obtain ⟨clientOrderId, -, horder⟩ := bind_ok horder
      cases pure_ok horder
      exact ⟨rfl, rfl, trigger, rfl, (roundedPositive_snapped htrigger).1⟩
    · cases hstep

theorem forall₂_forall_iff {α β : Type} {R : α → β → Prop} {P : α → Prop} {Q : β → Prop} {as : List α}
    {bs : List β}
    (h : List.Forall₂ R as bs) (hiff : ∀ a b, R a b → (Q b ↔ P a)) : (∀ b ∈ bs, Q b) ↔ ∀ a ∈ as, P a := by
  induction h with
  | nil => exact iff_of_true (List.forall_mem_nil _) (List.forall_mem_nil _)
  | cons hfirst _ ih => rw [List.forall_mem_cons, List.forall_mem_cons, hiff _ _ hfirst, ih]

theorem buildTakeProfitOrders_positive_iff {orders : List OrderPlan}
    (h : buildTakeProfitOrders defaultContext py intent instrument position side = .ok orders) :
    (∀ order ∈ orders, order.Positive py) ↔ ∀ targets, takeProfits intent = some (.arr targets) →
      ∀ target ∈ targets, Reaches py instrument.priceIncrement (targetTrigger target) := by
  unfold buildTakeProfitOrders at h
  unfold takeProfits
  split at h
  · rename_i hempty
    split_ifs at h
    · cases h
    · cases pure_ok h
      rw [hempty]
      refine iff_of_true (List.forall_mem_nil _) fun targets htargets => ?_
      cases htargets
      exact List.forall_mem_nil _
  · rename_i targets _ htargets
    obtain ⟨⟨made, total⟩, hloop, h⟩ := bind_ok h
    obtain ⟨held, -, h⟩ := bind_ok h
    obtain ⟨exceeds, -, h⟩ := bind_ok h
    cases exceeds with
    | true => cases h
    | false =>
      cases pure_ok h
      obtain ⟨orders, hmade, horders⟩ := takeProfits_fromTargets hloop
      cases hmade
      rw [forall₂_forall_iff horders fun target order hfrom => hfrom.positive_iff, htargets]
      constructor
      · intro hreaches found hfound target htarget
        cases hfound
        obtain ⟨i, hi⟩ := List.mem_iff_getElem?.mp htarget
        have hzip : (target, 1 + i) ∈ targets.zipIdx 1 :=
          List.mem_zipIdx_iff_le_and_getElem?_sub.mpr ⟨by omega, by simpa using hi⟩
        exact hreaches _ hzip
      · intro hreaches target htarget
        exact hreaches targets rfl target.1 (List.fst_mem_of_mem_zipIdx htarget)
  · cases h

/-! ## Plans -/

/-- The orders of an action on a position. -/
theorem lifecycleOf_positive_iff {lifecycle : Lifecycle}
    (hselected : selectTargetPosition py intent context = .ok position)
    (h : lifecycleOf defaultContext py intent action instrument position (exitSide py position) = .ok lifecycle) :
    (∀ order ∈ lifecycle.orders, order.Positive py) ↔
      ActionReaches py intent context instrument.priceIncrement action := by
  have honly (P : PositionSnapshot → Prop) :
      P position ↔ ∀ found, selectTargetPosition py intent context = .ok found → P found := by
    constructor
    · intro hposition found hfound
      cases Except.ok.inj (hselected.symm.trans hfound)
      exact hposition
    · exact fun hall => hall position hselected
  unfold lifecycleOf at h
  unfold ActionReaches
  cases action with
  | openPosition => cases h
  | addPosition => cases h
  | cancelOrder => cases h
  | partialClose =>
    obtain ⟨order, horder, h⟩ := bind_ok h
    cases pure_ok h
    unfold partialCloseOrder at horder
    obtain ⟨sized, -, horder⟩ := bind_ok horder
    cases sized with
    | none => cases horder
    | some sized =>
      rw [List.forall_mem_singleton, buildExitOrder_positive_iff horder]
      exact honly fun found => Reaches py instrument.priceIncrement (specPrice py intent.plan (exitSide py found))
  | closePosition =>
    obtain ⟨order, horder, h⟩ := bind_ok h
    cases pure_ok h
    unfold closePositionOrder at horder
    obtain ⟨sized, -, horder⟩ := bind_ok horder
    obtain ⟨⟨⟩, -, horder⟩ := bind_ok horder
    rw [List.forall_mem_singleton, buildExitOrder_positive_iff horder]
    exact honly fun found => Reaches py instrument.priceIncrement (specPrice py intent.plan (exitSide py found))
  | moveStopLoss =>
    obtain ⟨order, horder, h⟩ := bind_ok h
    cases pure_ok h
    rw [List.forall_mem_singleton, buildStopOrder_positive_iff horder]
  | moveStopToEntry =>
    dsimp only at h
    split at h
    · cases h
    · rename_i price hprice
      obtain ⟨order, horder, h⟩ := bind_ok h
      cases pure_ok h
      have hfound : present (entryStop intent position) = some price := hprice
      have htrigger : present (stopTrigger (intent.plan.set "stop_price" price)) =
        present (entryStop intent position) := by
        rw [stopTrigger, Dict.get?_set_self, Option.some_or, ← hfound, present_present]
      have hlimit : stopLimitPrice py (intent.plan.set "stop_price" price) =
        stopLimitPrice py intent.plan := by
        unfold stopLimitPrice
        rw [Dict.get?_set_ne (by decide), Dict.get?_set_ne (by decide), Dict.get?_set_ne (by decide)]
      rw [List.forall_mem_singleton, buildStopOrder_positive_iff horder, hlimit, Reaches.congr htrigger]
      exact honly fun found => Reaches py instrument.priceIncrement (entryStop intent found) ∧
        Reaches py instrument.priceIncrement (stopLimitPrice py intent.plan)
  | replaceTakeProfits =>
    obtain ⟨orders, horders, h⟩ := bind_ok h
    cases pure_ok h
    exact buildTakeProfitOrders_positive_iff horders

theorem planManagement_positive_iff {plan : ManagementPlan}
    (h : planManagementIntent defaultContext py intent action context instrument = .ok plan) :
    (∀ order ∈ plan.orders, order.Positive py) ↔
      ActionReaches py intent context instrument.priceIncrement action := by
  unfold planManagementIntent at h
  obtain ⟨position, hposition, h⟩ := bind_ok h
  obtain ⟨authorization, -, h⟩ := bind_ok h
  obtain ⟨lifecycle, hlifecycle, h⟩ := bind_ok h
  cases pure_ok h
  exact lifecycleOf_positive_iff hposition hlifecycle

/-- **The prices of a plan are positive** exactly when every number that is rounded to one is half a
price increment at least. -/
theorem prices_positive_iff (py : Interpreter) (intent : Intent) (context : PlannerContext py) (plan : Plan)
    (h : planIntentExecution defaultContext py intent context = .ok plan) :
    plan.Positive py ↔ PricesReach py intent context := by
  obtain ⟨action, instrument, hadmitted, hfor, hplanned⟩ := plan_cases h
  have hinstrument := (instrumentFor_ok hfor).1
  have hreaches : PricesReach py intent context ↔
    ActionReaches py intent context instrument.priceIncrement action := by
    constructor
    · exact fun hall => hall action instrument hadmitted.named hinstrument
    · intro hreaches found other hfound hother
      cases Option.some.inj (hadmitted.named.symm.trans hfound)
      cases Option.some.inj (hinstrument.symm.trans hother)
      exact hreaches
  rw [hreaches]
  cases hplanned with
  | cancel hplan =>
    obtain ⟨-, hnone, -⟩ := planCancelOrderIntent_ok hplan
    refine iff_of_true ?_ trivial
    intro order horder
    rw [Plan.orders, hnone] at horder
    cases horder
  | entry hentry hplan => rw [Plan.Positive, Plan.orders, List.forall_mem_singleton, planEntry_positive_iff hentry hplan]
  | management hmanaged hentry hplan => exact planManagement_positive_iff hplan

end

/-! ## A zone at nothing -/

/-- A buy in a zone that ends at a bound. -/
def zoneUpTo (high : String) : Intent :=
  { addition with
    execution := some ⟨[("order_type", .str "zone"), ("zone", .obj [("high", .str high), ("low", .str "-9")])],
      (by decide : ["order_type", "zone"].Pairwise (· < ·))⟩ }

/-- The prices of an entry that is planned. -/
theorem zoneUpTo_planned {high text : String}
    (hrun : ((planIntentExecution defaultContext Venue.ascii (zoneUpTo high) (simulated none)).toOption.bind
      Plan.order?).map (fun order => (order.price, order.triggerPrice, order.guardPrice)) =
        some (some text, none, some "100.0")) :
    ∃ order, planIntentExecution defaultContext Venue.ascii (zoneUpTo high) (simulated none) =
      .ok (.entry order) ∧
      order.price = some text ∧ order.triggerPrice = none ∧ order.guardPrice = some "100.0" := by
  obtain ⟨order, hrun, hshape⟩ := Option.map_eq_some_iff.mp hrun
  obtain ⟨plan, hplan, horder⟩ := Option.bind_eq_some_iff.mp hrun
  obtain ⟨hprice, hrest⟩ := Prod.mk.inj hshape
  obtain ⟨htrigger, hguard⟩ := Prod.mk.inj hrest
  cases plan with
  | management _ => cases horder
  | entry found =>
    cases horder
    exact ⟨order, toOption_some hplan, hprice, htrigger, hguard⟩

theorem hundred_positive : PositiveText Venue.ascii "100.0" :=
  ⟨⟨false, 1000, -1, by decide⟩, by decide +kernel, by decide +kernel⟩

/-- A zone that ends at a hundred. -/
theorem prices_reach_hundred : ∃ plan,
    planIntentExecution defaultContext Venue.ascii (zoneUpTo "100.04") (simulated none) = .ok plan ∧
      PricesReach Venue.ascii (zoneUpTo "100.04") (simulated none) := by
  obtain ⟨order, hplan, hprice, htrigger, hguard⟩ := @zoneUpTo_planned "100.04" "100.0" (by decide +kernel)
  refine ⟨_, hplan, (prices_positive_iff _ _ _ _ hplan).mp ?_⟩
  rw [Plan.Positive, Plan.orders, List.forall_mem_singleton]
  constructor
  · rw [hprice]
    exact fun text htext => Option.mem_some.mp htext ▸ hundred_positive
  · rw [htrigger]
    nofun
  · rw [hguard]
    exact fun text htext => Option.mem_some.mp htext ▸ hundred_positive

/-- A bound below half an increment is a price of nothing, and one below zero a negative price. -/
theorem zone_at_nothing :
    (∃ order, planIntentExecution defaultContext Venue.ascii (zoneUpTo "0.04") (simulated none) = .ok (.entry order) ∧
      order.price = some "0.0" ∧ ¬ Plan.Positive Venue.ascii (.entry order)) ∧
    ∃ order, planIntentExecution defaultContext Venue.ascii (zoneUpTo "-5") (simulated none) =
      .ok (.entry order) ∧
      order.price = some "-5.0" ∧ ¬ Plan.Positive Venue.ascii (.entry order) := by
  have hnever {order : OrderPlan} {text : String} {d : FiniteDecimal} (hprice : order.price = some text)
      (hread : Reads Venue.ascii text d) (hd : d.value ≤ 0) :
        ¬ Plan.Positive Venue.ascii (.entry order) := by
    intro hpositive
    obtain ⟨d', hread', hpos⟩ := (hpositive order List.mem_cons_self).price text hprice
    rw [hread'.unique hread] at hpos
    exact absurd hpos (not_lt.mpr hd)
  constructor
  · obtain ⟨order, hplan, hprice, -⟩ := @zoneUpTo_planned "0.04" "0.0" (by decide +kernel)
    have hread : Reads Venue.ascii "0.0" ⟨false, 0, -1, by decide⟩ := by decide +kernel
    exact ⟨order, hplan, hprice, hnever hprice hread (by decide +kernel)⟩
  · obtain ⟨order, hplan, hprice, -⟩ := @zoneUpTo_planned "-5" "-5.0" (by decide +kernel)
    have hread : Reads Venue.ascii "-5.0" ⟨true, 50, -1, by decide⟩ := by decide +kernel
    exact ⟨order, hplan, hprice, hnever hprice hread (by decide +kernel)⟩

end TraderBot.Planner
