import TraderBot.Planner.EntryGuards

/-! # What a management plan does to a position

An exit is rounded down and checked against the position. A stop and a take profit
are rounded to the nearest step: the result may be zero, and that of a stop may
exceed the position. With exact numbers every management plan only reduces
(`Reduces`) exactly when no such rounding goes wrong (`NearestKeeps`). -/
namespace TraderBot.Planner
open TraderBot.Lib TraderBot.Lib.Text TraderBot.Lib.Json
open TraderBot.Venue (Interpreter PositionSnapshot)

/-! ## Exact numbers -/

section
variable {mode : Rounding} {value step r : FiniteDecimal}

theorem exact_snap (hstep : 0 < step.value) (h : exactNumbers.snap mode value step = some r) :
    r.value = mode.apply (value.value / step.value) * step.value ∧ r.exponent = step.exponent := by
  have hpositive := FiniteDecimal.isPositive_iff.mpr hstep
  have hsign : step.negative = false := by
    cases hneg : step.negative with
    | false => rfl
    | true => rw [FiniteDecimal.isPositive, hneg] at hpositive; cases hpositive
  have hcoeff : step.coeff ≠ 0 := by
    intro hzero
    rw [FiniteDecimal.isPositive, hzero, Bool.and_comm] at hpositive
    cases hpositive
  have hvalue : step.value = step.coeff * 10 ^ step.exponent := by
    rw [FiniteDecimal.value, FiniteDecimal.signed, hsign]
    rfl
  have hsnap : FiniteDecimal.mk? value.negative (mode.digits value.negative
      (value.coeff * 10 ^ (value.exponent - step.exponent).toNat)
      (step.coeff * 10 ^ (-(value.exponent - step.exponent)).toNat) * step.coeff) step.exponent = some r := by
    have hxor : (value.negative != step.negative) = value.negative := by rw [hsign, Bool.bne_false]
    unfold exactNumbers at h
    dsimp only at h
    rwa [if_neg hcoeff, hxor] at h
  have hpow : (10 : ℚ) ^ value.exponent = 10 ^ (value.exponent - step.exponent).toNat /
      10 ^ (-(value.exponent - step.exponent)).toNat * 10 ^ step.exponent := by
    rw [← zpow_natCast, ← zpow_natCast, ← zpow_sub₀ (by norm_num), ← zpow_add₀ (by norm_num)]
    congr 1
    omega
  have hratio : value.value / step.value =
      ((if value.negative then -((value.coeff * 10 ^ (value.exponent - step.exponent).toNat : Nat) : Int)
        else ((value.coeff * 10 ^ (value.exponent - step.exponent).toNat : Nat) : Int) : Int) : ℚ) /
        ((step.coeff * 10 ^ (-(value.exponent - step.exponent)).toNat : Nat) : ℚ) := by
    have hplace := (ten_zpow_pos step.exponent).ne'
    have hcoeff' : (step.coeff : ℚ) ≠ 0 := by exact_mod_cast hcoeff
    have hshift : (10 : ℚ) ^ (-(value.exponent - step.exponent)).toNat ≠ 0 := pow_ne_zero _ (by norm_num)
    rw [hvalue, FiniteDecimal.value, FiniteDecimal.signed, hpow]
    cases value.negative with
    | false =>
      simp only [Bool.false_eq_true, if_false]
      push_cast
      field_simp
    | true =>
      simp only [if_true]
      push_cast
      field_simp
  have hdigits := mode.digits_apply (n := value.coeff * 10 ^ (value.exponent - step.exponent).toNat)
    (p := step.coeff * 10 ^ (-(value.exponent - step.exponent)).toNat) value.negative
    (Nat.mul_pos (Nat.pos_of_ne_zero hcoeff) (by positivity))
  rw [← hratio] at hdigits
  constructor
  · rw [Decimal.mk?_value hsnap, ← hdigits, hvalue]
    cases value.negative with
    | false =>
      simp only [Bool.false_eq_true, if_false]
      push_cast
      ring
    | true =>
      simp only [if_true]
      push_cast
      ring
  · unfold FiniteDecimal.mk? at hsnap
    split_ifs at hsnap
    cases hsnap
    rfl

/-- What has the place of the step is left as it is. -/
theorem exact_fit (hplace : value.exponent = step.exponent) (h : exactNumbers.fit value step = some r) :
    r = value := by
  have hcoeff : Decimal.rescale .down value step.exponent = value.coeff := by
    rw [Decimal.rescale, if_pos hplace.ge, hplace, sub_self]
    exact mul_one _
  unfold exactNumbers at h
  dsimp only at h
  rw [hcoeff, ← hplace, FiniteDecimal.mk?_self] at h
  exact (Option.some.inj h).symm

theorem exact_add {a b c : FiniteDecimal} (h : exactNumbers.add a b = some c) : c.value = a.value + b.value := by
  unfold exactNumbers at h
  rw [Decimal.mk?_value h, Decimal.sum_eq]
  congr 2
  split_ifs with hneg
  · rw [decide_eq_true_eq] at hneg
    omega
  · rw [decide_eq_true_eq] at hneg
    omega

end

/-! ## Texts and numbers -/

/-- A text that is read as a finite number. -/
def Reads (py : Interpreter) (text : String) (d : FiniteDecimal) : Prop :=
  Decimal.ofText py.unicode text.toList = some (.finite d)

instance (py : Interpreter) (text : String) (d : FiniteDecimal) : Decidable (Reads py text d) :=
  inferInstanceAs (Decidable (_ = _))

/-- A number at most a decimal, which may be infinite. -/
def AtMost (x : ℚ) : Decimal → Prop
  | .finite d => x ≤ d.value
  | .infinity negative => negative = false
  | .nan _ _ _ => False

section
variable {py : Interpreter} {text : String} {d d' : FiniteDecimal}

theorem Reads.unique (h : Reads py text d) (h' : Reads py text d') : d = d' :=
  Decimal.finite.inj (Option.some.inj (h.symm.trans h'))

theorem reads_fixed (py : Interpreter) (d : FiniteDecimal) : Reads py (fixed d) d.spread := by
  unfold Reads fixed
  rw [String.toList_ofList]
  exact Decimal.ofText_fixedText py.unicode d

theorem AtMost.mono {x y : ℚ} {held : Decimal} (hxy : x ≤ y) (h : AtMost y held) : AtMost x held := by
  cases held with
  | finite d => exact hxy.trans h
  | infinity negative => exact h
  | nan _ _ _ => exact h

/-- What passes `asked > held`. -/
theorem atMost_of_lt? {held : Decimal} (h : held.lt? (.finite d) = some false) : AtMost d.value held := by
  obtain ⟨answer, hle, hnot⟩ := Option.map_eq_some_iff.mp h
  cases answer with
  | false => cases hnot
  | true =>
    cases held with
    | finite b => exact FiniteDecimal.le_iff.mp (Option.some.inj hle)
    | infinity negative =>
      cases negative with
      | false => rfl
      | true => cases hle
    | nan _ _ _ => cases hle

/-- What passes `value <= 0`. -/
theorem value_pos (h : notPositive (.finite d) = .ok false) : 0 < d.value := by
  have hle : d.le .zero = false := Option.some.inj (raising_ok h)
  by_contra hneg
  have hzero : d.value ≤ FiniteDecimal.zero.value := by
    rw [FiniteDecimal.zero_value]
    exact not_lt.mp hneg
  rw [FiniteDecimal.le_iff.mpr hzero] at hle
  cases hle

end

/-! ## Rounding -/

/-- A text that was rounded to an increment, from a number. -/
structure Rounded (py : Interpreter) (mode : Rounding) (value : FiniteDecimal) (increment text : String)
    (step d : FiniteDecimal) : Prop where
  increment : Reads py increment step
  step_pos : 0 < step.value
  text : Reads py text d
  value : d.value = mode.apply (value.value / step.value) * step.value

section
variable {py : Interpreter} {value : Decimal} {increment field text : String}

variable {raw : Option Value} {step : Decimal} {mode : Rounding}

theorem decimalOf_ok (h : decimalOf py raw field = .ok value) :
    (Json.present raw).bind (Decimal.ofValue py.unicode) = some value := by
  unfold decimalOf at h
  cases hread : (Json.present raw).bind (Decimal.ofValue py.unicode) with
  | none => rw [hread] at h; cases h
  | some d => rw [hread] at h; cases h; rfl

theorem stepOf_ok (h : stepOf py increment field = .ok step) :
    Decimal.ofText py.unicode increment.toList = some step ∧ notPositive step = .ok false := by
  unfold stepOf at h
  obtain ⟨found, hfound, h⟩ := bind_ok h
  obtain ⟨negative, hnegative, h⟩ := bind_ok h
  cases negative with
  | true => cases h
  | false =>
    cases pure_ok h
    exact ⟨decimalOf_ok hfound, hnegative⟩

theorem snapped_ok {A : Arithmetic} {r s : FiniteDecimal}
    (h : snapped A mode value step = .ok (r, s)) :
    ∃ v, value = .finite v ∧ step = .finite s ∧ A.snap mode v s = some r := by
  unfold snapped at h
  cases value with
  | infinity _ => cases h
  | nan _ _ _ => cases h
  | finite v =>
    cases step with
    | infinity _ => cases h
    | nan _ _ _ => cases h
    | finite s' =>
      obtain ⟨r', hsnap, h⟩ := bind_ok h
      cases pure_ok h
      exact ⟨v, rfl, rfl, raising_ok hsnap⟩

/-- The number a text was rounded from, and what it is read as. -/
theorem rounded_of {v r s fitted : FiniteDecimal}
    (hstep : stepOf py increment field = .ok (.finite s))
    (hsnap : exactNumbers.snap mode v s = some r) (hfit : exactNumbers.fit r s = some fitted) :
    Rounded py mode v increment (fixed fitted) s fitted.spread ∧ fitted = r := by
  obtain ⟨hread, hpositive⟩ := stepOf_ok hstep
  have hpos := value_pos hpositive
  obtain ⟨hvalue, hplace⟩ := exact_snap hpos hsnap
  have hsame := exact_fit hplace hfit
  refine ⟨⟨hread, hpos, reads_fixed py fitted, ?_⟩, hsame⟩
  rw [FiniteDecimal.spread_value, hsame, hvalue]

theorem roundToIncrement_ok (h : roundToIncrement exactNumbers py value increment field = .ok text) :
    ∃ v step d, value = .finite v ∧ Rounded py .halfUp v increment text step d := by
  unfold roundToIncrement at h
  obtain ⟨step, hstep, hrest⟩ := bind_ok h
  obtain ⟨⟨r, s⟩, hsnapped, hfitted⟩ := bind_ok hrest
  obtain ⟨fitted, hfit, htext⟩ := bind_ok hfitted
  obtain ⟨v, rfl, rfl, hsnap⟩ := snapped_ok hsnapped
  cases pure_ok htext
  exact ⟨v, s, fitted.spread, rfl, (rounded_of hstep hsnap (raising_ok hfit)).1⟩

theorem roundDownToIncrement_ok (h : roundDownToIncrement exactNumbers py value increment field = .ok text) :
    ∃ v step d, value = .finite v ∧ Rounded py .down v increment text step d ∧ 0 < d.value := by
  unfold roundDownToIncrement at h
  obtain ⟨step, hstep, hrest⟩ := bind_ok h
  obtain ⟨⟨r, s⟩, hsnapped, hfitted⟩ := bind_ok hrest
  obtain ⟨v, rfl, rfl, hsnap⟩ := snapped_ok hsnapped
  dsimp only at hfitted
  by_cases hzero : r.le .zero = true
  · rw [if_pos hzero] at hfitted
    cases hfitted
  rw [if_neg hzero] at hfitted
  obtain ⟨fitted, hfit, htext⟩ := bind_ok hfitted
  cases pure_ok htext
  obtain ⟨hrounded, hsame⟩ := rounded_of hstep hsnap (raising_ok hfit)
  refine ⟨v, s, fitted.spread, rfl, hrounded, ?_⟩
  rw [FiniteDecimal.spread_value, hsame]
  rw [FiniteDecimal.le_iff, FiniteDecimal.zero_value] at hzero
  exact not_le.mp hzero

theorem roundedPositive_ok (h : roundedPositive exactNumbers py raw increment field = .ok text) :
    ∃ v step d, (Json.present raw).bind (Decimal.ofValue py.unicode) = some (.finite v) ∧ 0 < v.value ∧
      Rounded py .halfUp v increment text step d := by
  unfold roundedPositive at h
  obtain ⟨value, hvalue, h⟩ := bind_ok h
  obtain ⟨negative, hnegative, h⟩ := bind_ok h
  cases negative with
  | true => cases h
  | false =>
    obtain ⟨v, step, d, rfl, hrounded⟩ := roundToIncrement_ok h
    exact ⟨v, step, d, decimalOf_ok hvalue, value_pos hnegative, hrounded⟩

theorem roundedDownPositive_ok
    (h : roundedDownPositive exactNumbers py raw increment field = .ok text) :
    ∃ v step d, Rounded py .down v increment text step d ∧ 0 < d.value := by
  unfold roundedDownPositive at h
  obtain ⟨value, -, h⟩ := bind_ok h
  obtain ⟨negative, -, h⟩ := bind_ok h
  cases negative with
  | true => cases h
  | false =>
    obtain ⟨v, step, d, -, hrounded⟩ := roundDownToIncrement_ok h
    exact ⟨v, step, d, hrounded⟩

end

/-! ## Plans that reduce -/

section
variable (py : Interpreter)

/-- The side that closes a position. -/
def Opposite (position : PositionSnapshot) (side : OrderSide) : Prop :=
  (py.unicode.upper position.side = "LONG" → side = .sell) ∧
    (py.unicode.upper position.side = "SHORT" → side = .buy)

/-- An order that only reduces a position: by a positive number of whole steps, and
by no more than there is. -/
structure Reduces (instrument : InstrumentSpec) (position : PositionSnapshot) (order : OrderPlan) : Prop where
  reduceOnly : order.reduceOnly = true
  opposite : Opposite py position order.side
  quantity : ∃ step d held, Reads py instrument.quantityIncrement step ∧ Reads py order.quantity d ∧
    Decimal.ofText py.unicode position.quantity.toList = some held ∧
    0 < d.value ∧ (∃ n : Int, d.value = n * step.value) ∧ AtMost d.value held

variable (intent : Intent) (context : PlannerContext py)

/-- A management plan that increases no risk. -/
structure Sound (plan : ManagementPlan) : Prop where
  reduces : ∀ order ∈ plan.orders, ∃ instrument position, context.instrument = some instrument ∧
    selectTargetPosition py intent context = .ok position ∧ Reduces py instrument position order
  total : plan.action = .replaceTakeProfits → ∃ position held amounts,
    selectTargetPosition py intent context = .ok position ∧
    Decimal.ofText py.unicode position.quantity.toList = some held ∧
    List.Forall₂ (fun order d => Reads py order.quantity d) plan.orders amounts ∧
    AtMost (amounts.map FiniteDecimal.value).sum held
  distinct : (plan.orders.map OrderPlan.clientOrderId).Nodup
  decodes : ∀ order ∈ plan.orders, ∃ sequence,
    decodeClientOrderId py.unicode order.clientOrderId = some ⟨intent.intentId, sequence⟩
  cancels : ∀ id ∈ plan.cancelOrderIds, ∃ order ∈ context.existingOrders,
    order.instrumentId = intent.instrumentId ∧ order.clientOrderId = id
  cancelsOne : plan.action = .cancelOrder → ∃ id order, plan.cancelOrderIds = [id] ∧
    (context.existingOrders.filter fun order =>
      order.instrumentId = intent.instrumentId ∧ order.clientOrderId = id) = [order] ∧
    (decodeClientOrderId py.unicode id).isSome = true

/-- The take profits of an intent. -/
def takeProfits : Option Value := (intent.plan.get? "take_profits").or (intent.plan.get? "targets")

/-- The quantity of a take profit, as it is read. -/
def targetQuantity (target : Value) : Option Decimal :=
  (Json.present (target.get? "quantity")).bind (Decimal.ofValue py.unicode)

/-- Rounding to the nearest step does no harm: the position of a stop is a step at
least and less than half a step over whole steps; a take profit is half a step at
least. Where there are no take profits, the position has a quantity that is not
negative. -/
def Keeps (action : Option Action) (instrument : InstrumentSpec) (position : PositionSnapshot) : Prop :=
  match action with
  | some .moveStopLoss | some .moveStopToEntry =>
    ∀ step held, Reads py instrument.quantityIncrement step → Reads py position.quantity held →
      step.value ≤ held.value ∧ Int.fract (held.value / step.value) < 1 / 2
  | some .replaceTakeProfits =>
    ∀ targets, takeProfits intent = some (.arr targets) →
      (targets = [] → ∃ held, Decimal.ofText py.unicode position.quantity.toList = some held ∧ AtMost 0 held) ∧
      ∀ target ∈ targets, ∀ step amount, Reads py instrument.quantityIncrement step →
        targetQuantity py target = some (.finite amount) → step.value ≤ 2 * amount.value
  | _ => True

/-- The same of the intent's instrument and the position it selects. -/
def NearestKeeps : Prop :=
  ∀ instrument position, context.instrument = some instrument →
    selectTargetPosition py intent context = .ok position →
    Keeps py intent (Action.ofText? intent.action) instrument position

end

/-! ## Orders -/

section
variable {py : Interpreter} {intent : Intent} {context : PlannerContext py} {action : Action}
  {instrument : InstrumentSpec} {position : PositionSnapshot} {side : OrderSide} {order : OrderPlan}

theorem exitSide_opposite (py : Interpreter) (position : PositionSnapshot) :
    Opposite py position (exitSide py position) := by
  unfold exitSide
  constructor
  · intro hlong
    rw [if_pos hlong]
  · intro hshort
    rw [if_neg (by rw [hshort]; decide)]

/-- What every order of a management plan has. -/
structure Ordered (intent : Intent) (side : OrderSide) (sequence : Nat) (order : OrderPlan) : Prop where
  reduceOnly : order.reduceOnly = true
  side : order.side = side
  clientOrderId : encodeClientOrderId intent.intentId sequence = some order.clientOrderId

theorem Ordered.decodes {sequence : Nat} (h : Ordered intent side sequence order) (unicode : Unicode) :
    decodeClientOrderId unicode order.clientOrderId = some ⟨intent.intentId, sequence⟩ := by
  have hencode := h.clientOrderId
  have hrange : ¬ ((sequence : Int) < 0 ∨ 99 < (sequence : Int)) := by
    intro hout
    rw [encodeClientOrderId, if_pos hout] at hencode
    cases hencode
  have hdecode : (encodeClientOrderId intent.intentId sequence).bind (decodeClientOrderId unicode) =
      some ⟨intent.intentId, sequence⟩ := decode_encode (by omega) (by omega)
  rwa [hencode, Option.bind_some] at hdecode

variable {quantity : String} {state state' : List OrderPlan × FiniteDecimal} {target : Value × Nat}
  {targets : List (Value × Nat)} {orders : List OrderPlan} {plan : ManagementPlan}
  {made : List (OrderPlan × FiniteDecimal)}

theorem checkQuantity_ok {positionQuantity : String} {d : FiniteDecimal}
    (hread : Reads py quantity d) (h : checkQuantity py quantity positionQuantity = .ok ()) :
    ∃ held, Decimal.ofText py.unicode positionQuantity.toList = some held ∧ AtMost d.value held := by
  unfold checkQuantity at h
  obtain ⟨asked, hasked, h⟩ := bind_ok h
  obtain ⟨held, hheld, h⟩ := bind_ok h
  obtain ⟨answer, hanswer, h⟩ := bind_ok h
  cases answer with
  | true => cases h
  | false =>
    have hsame : asked = .finite d := Option.some.inj ((raising_ok hasked).symm.trans hread)
    rw [hsame] at hanswer
    exact ⟨held, raising_ok hheld, atMost_of_lt? (raising_ok hanswer)⟩

/-- An exit reduces. -/
theorem buildExitOrder_ok {plan : Dict Value}
    (h : buildExitOrder exactNumbers py intent action plan instrument position side = .ok order) :
    Ordered intent side 1 order ∧ ∃ step d held, Reads py instrument.quantityIncrement step ∧
      Reads py order.quantity d ∧ Decimal.ofText py.unicode position.quantity.toList = some held ∧
      0 < d.value ∧ (∃ n : Int, d.value = n * step.value) ∧ AtMost d.value held := by
  unfold buildExitOrder at h
  obtain ⟨spec, hspec, h⟩ := bind_ok h
  obtain ⟨⟨⟩, hcheck, h⟩ := bind_ok h
  obtain ⟨clientOrderId, hid, h⟩ := bind_ok h
  cases pure_ok h
  unfold buildOrderSpec at hspec
  obtain ⟨quantity, hquantity, hspec⟩ := bind_ok hspec
  obtain ⟨⟨orderType, price, default⟩, -, hspec⟩ := bind_ok hspec
  obtain ⟨timeInForce, -, hspec⟩ := bind_ok hspec
  cases pure_ok hspec
  obtain ⟨v, step, d, hrounded, hpos⟩ := roundedDownPositive_ok hquantity
  obtain ⟨held, hheld, hle⟩ := checkQuantity_ok hrounded.text hcheck
  exact ⟨⟨rfl, rfl, raising_ok hid⟩, step, d, held, hrounded.increment, hrounded.text, hheld, hpos,
    ⟨_, hrounded.value⟩, hle⟩

/-- A stop is of the whole position, to the nearest step. -/
theorem buildStopOrder_ok {plan : Dict Value}
    (h : buildStopOrder exactNumbers py intent action plan instrument position side = .ok order) :
    Ordered intent side 1 order ∧ ∃ v step d, Reads py position.quantity v ∧ 0 < v.value ∧
      Rounded py .halfUp v instrument.quantityIncrement order.quantity step d := by
  unfold buildStopOrder at h
  dsimp only at h
  split_ifs at h with htype
  · cases h
  obtain ⟨trigger, -, h⟩ := bind_ok h
  obtain ⟨⟨planned, price⟩, -, h⟩ := bind_ok h
  obtain ⟨quantity, hquantity, h⟩ := bind_ok h
  obtain ⟨timeInForce, -, h⟩ := bind_ok h
  obtain ⟨clientOrderId, hid, h⟩ := bind_ok h
  cases pure_ok h
  obtain ⟨v, step, d, hread, hpos, hrounded⟩ := roundedPositive_ok hquantity
  exact ⟨⟨rfl, rfl, raising_ok hid⟩, v, step, d, hread, hpos, hrounded⟩

/-! ## Take profits -/

/-- A take profit, the order made of it and the amount of the order. -/
structure Made (py : Interpreter) (intent : Intent) (instrument : InstrumentSpec) (side : OrderSide)
    (target : Value × Nat) (made : OrderPlan × FiniteDecimal) : Prop where
  ordered : Ordered intent side target.2 made.1
  amount : ∃ v step, targetQuantity py target.1 = some (.finite v) ∧ 0 < v.value ∧
    Rounded py .halfUp v instrument.quantityIncrement made.1.quantity step made.2

theorem addQuantity_ok {total total' d : FiniteDecimal} (hread : Reads py quantity d)
    (h : addQuantity exactNumbers py total quantity = .ok total') :
    total'.value = total.value + d.value := by
  unfold addQuantity at h
  obtain ⟨found, hfound, h⟩ := bind_ok h
  have hsame : found = .finite d := Option.some.inj ((raising_ok hfound).symm.trans hread)
  rw [hsame] at h
  exact exact_add (raising_ok h)

theorem takeProfitOrder_ok {target : Value} {index : Nat}
    (h : takeProfitOrder exactNumbers py intent instrument position side target index quantity = .ok order) :
    Ordered intent side index order ∧ order.quantity = quantity := by
  unfold takeProfitOrder at h
  obtain ⟨trigger, -, h⟩ := bind_ok h
  obtain ⟨timeInForce, -, h⟩ := bind_ok h
  obtain ⟨clientOrderId, hid, h⟩ := bind_ok h
  cases pure_ok h
  exact ⟨⟨rfl, rfl, raising_ok hid⟩, rfl⟩

/-- **One take profit** adds its order, and its amount to the total. -/
theorem takeProfitStep_ok
    (h : takeProfitStep exactNumbers py intent instrument position side state target = .ok state') :
    ∃ made, Made py intent instrument side target made ∧ state'.1 = state.1 ++ [made.1] ∧
      state'.2.value = state.2.value + made.2.value := by
  obtain ⟨raw, index⟩ := target
  unfold takeProfitStep at h
  cases raw with
  | obj members =>
    obtain ⟨quantity, hquantity, h⟩ := bind_ok h
    obtain ⟨total, htotal, h⟩ := bind_ok h
    obtain ⟨order, horder, h⟩ := bind_ok h
    cases pure_ok h
    obtain ⟨v, step, d, hread, hpos, hrounded⟩ := roundedPositive_ok hquantity
    obtain ⟨hordered, hsame⟩ := takeProfitOrder_ok horder
    refine ⟨(order, d), ⟨hordered, v, step, hread, hpos, ?_⟩, rfl, addQuantity_ok hrounded.text htotal⟩
    rw [hsame]
    exact hrounded
  | null => cases h
  | bool _ => cases h
  | int _ => cases h
  | float _ => cases h
  | str _ => cases h
  | arr _ => cases h

/-- **All take profits**, by induction on the targets. -/
theorem takeProfits_ok
    (h : targets.foldlM (takeProfitStep exactNumbers py intent instrument position side) state = .ok state') :
    ∃ made, List.Forall₂ (Made py intent instrument side) targets made ∧
      state'.1 = state.1 ++ made.map Prod.fst ∧
      state'.2.value = state.2.value + ((made.map Prod.snd).map FiniteDecimal.value).sum := by
  induction targets generalizing state with
  | nil =>
    cases pure_ok h
    exact ⟨[], .nil, by simp, by simp⟩
  | cons target targets ih =>
    rw [List.foldlM_cons] at h
    obtain ⟨middle, hstep, h⟩ := bind_ok h
    obtain ⟨first, hfirst, horders, htotal⟩ := takeProfitStep_ok hstep
    obtain ⟨rest, hrest, horders', htotal'⟩ := ih h
    refine ⟨first :: rest, .cons hfirst hrest, ?_, ?_⟩
    · rw [horders', horders, List.map_cons, List.append_assoc]
      rfl
    · rw [htotal', htotal, List.map_cons, List.map_cons, List.sum_cons, add_assoc]

/-- The orders of the take profits, in whole at most the position. -/
theorem buildTakeProfitOrders_ok
    (h : buildTakeProfitOrders exactNumbers py intent instrument position side = .ok orders) :
    ∃ targets made, takeProfits intent = some (.arr targets) ∧
      List.Forall₂ (Made py intent instrument side) (targets.zipIdx 1) made ∧ orders = made.map Prod.fst ∧
      (targets ≠ [] → ∃ held, Decimal.ofText py.unicode position.quantity.toList = some held ∧
        AtMost ((made.map Prod.snd).map FiniteDecimal.value).sum held) := by
  unfold buildTakeProfitOrders at h
  have hsame : (intent.plan.get? "take_profits").or (intent.plan.get? "targets") = takeProfits intent := rfl
  rw [hsame] at h
  cases hfound : takeProfits intent with
  | none => rw [hfound] at h; cases h
  | some raw =>
    rw [hfound] at h
    cases raw with
    | arr targets =>
      cases targets with
      | nil =>
        dsimp only at h
        split_ifs at h with hdisabled
        · cases h
        cases pure_ok h
        exact ⟨[], [], rfl, .nil, rfl, fun hne => absurd rfl hne⟩
      | cons target targets =>
        obtain ⟨⟨made, total⟩, hfold, h⟩ := bind_ok h
        obtain ⟨held, hheld, h⟩ := bind_ok h
        obtain ⟨answer, hanswer, h⟩ := bind_ok h
        cases answer with
        | true => cases h
        | false =>
          cases pure_ok h
          obtain ⟨made', hmade, horders, htotal⟩ := takeProfits_ok hfold
          refine ⟨target :: targets, made', rfl, hmade, by simpa using horders, fun _ => ⟨held, raising_ok hheld, ?_⟩⟩
          have hle := atMost_of_lt? (raising_ok hanswer)
          rwa [htotal, FiniteDecimal.zero_value, zero_add] at hle
    | null => cases h
    | bool _ => cases h
    | int _ => cases h
    | float _ => cases h
    | str _ => cases h
    | obj _ => cases h

/-! ## Plans -/

/-- The orders of a plan, by its action. -/
inductive OrdersOf (py : Interpreter) (intent : Intent) (instrument : InstrumentSpec) (position : PositionSnapshot) :
    Action → List OrderPlan → Prop where
  | exit {action : Action} {plan : Dict Value} {order : OrderPlan}
      (haction : action = .partialClose ∨ action = .closePosition)
      (h : buildExitOrder exactNumbers py intent action plan instrument position (exitSide py position) = .ok order) :
      OrdersOf py intent instrument position action [order]
  | stop {action : Action} {plan : Dict Value} {order : OrderPlan}
      (haction : action = .moveStopLoss ∨ action = .moveStopToEntry)
      (h : buildStopOrder exactNumbers py intent action plan instrument position (exitSide py position) = .ok order) :
      OrdersOf py intent instrument position action [order]
  | takeProfits {orders : List OrderPlan}
      (h : buildTakeProfitOrders exactNumbers py intent instrument position (exitSide py position) = .ok orders) :
      OrdersOf py intent instrument position .replaceTakeProfits orders

theorem lifecycleOf_ok {lifecycle : Lifecycle}
    (h : lifecycleOf exactNumbers py intent action instrument position (exitSide py position) = .ok lifecycle) :
    OrdersOf py intent instrument position action lifecycle.orders := by
  unfold lifecycleOf at h
  cases action with
  | openPosition => cases h
  | addPosition => cases h
  | cancelOrder => cases h
  | partialClose =>
    obtain ⟨order, horder, h⟩ := bind_ok h
    cases pure_ok h
    unfold partialCloseOrder at horder
    obtain ⟨sized, -, horder⟩ := bind_ok horder
    cases sized with
    | none => cases horder
    | some sized => exact .exit (.inl rfl) horder
  | closePosition =>
    obtain ⟨order, horder, h⟩ := bind_ok h
    cases pure_ok h
    unfold closePositionOrder at horder
    obtain ⟨sized, -, horder⟩ := bind_ok horder
    obtain ⟨⟨⟩, -, horder⟩ := bind_ok horder
    exact .exit (.inr rfl) horder
  | moveStopLoss =>
    obtain ⟨order, horder, h⟩ := bind_ok h
    cases pure_ok h
    exact .stop (.inl rfl) horder
  | moveStopToEntry =>
    dsimp only at h
    split at h
    · cases h
    · obtain ⟨order, horder, h⟩ := bind_ok h
      cases pure_ok h
      exact .stop (.inr rfl) horder
  | replaceTakeProfits =>
    obtain ⟨orders, horders, h⟩ := bind_ok h
    cases pure_ok h
    exact .takeProfits horders

theorem matchingLifecycleOrderIds_mem {orders : List OrderSnapshot} {role id instrumentId : String}
    {positionId : Option String} (h : id ∈ matchingLifecycleOrderIds orders role positionId instrumentId) :
    ∃ order ∈ orders, order.instrumentId = instrumentId ∧ order.clientOrderId = id := by
  obtain ⟨order, hmem, hid⟩ := List.mem_map.mp h
  obtain ⟨hmem, hfilter⟩ := List.mem_filter.mp hmem
  exact ⟨order, hmem, (of_decide_eq_true hfilter).1, hid⟩

theorem planManagementIntent_ok
    (h : planManagementIntent exactNumbers py intent action context instrument = .ok plan) :
    ∃ position, selectTargetPosition py intent context = .ok position ∧
      OrdersOf py intent instrument position action plan.orders ∧ plan.action = action ∧
      ∀ id ∈ plan.cancelOrderIds, ∃ order ∈ context.existingOrders,
        order.instrumentId = intent.instrumentId ∧ order.clientOrderId = id := by
  unfold planManagementIntent at h
  obtain ⟨position, hposition, h⟩ := bind_ok h
  obtain ⟨authorization, -, h⟩ := bind_ok h
  obtain ⟨lifecycle, hlifecycle, h⟩ := bind_ok h
  cases pure_ok h
  refine ⟨position, hposition, lifecycleOf_ok hlifecycle, rfl, fun id hid => ?_⟩
  dsimp only at hid
  cases hrole : lifecycle.cancelRole with
  | none =>
    rw [hrole] at hid
    exact absurd hid List.not_mem_nil
  | some role =>
    rw [hrole] at hid
    exact matchingLifecycleOrderIds_mem hid

theorem planCancelOrderIntent_ok (h : planCancelOrderIntent py intent context = .ok plan) :
    plan.action = .cancelOrder ∧ plan.orders = [] ∧ ∃ id order, plan.cancelOrderIds = [id] ∧
      (context.existingOrders.filter fun order =>
        order.instrumentId = intent.instrumentId ∧ order.clientOrderId = id) = [order] ∧
      (decodeClientOrderId py.unicode id).isSome = true := by
  unfold planCancelOrderIntent at h
  dsimp only at h
  split_ifs at h with hempty
  · cases h
  generalize strip (py.textOf (intent.plan.get? "cancel_client_order_id")) = target at h
  split at h
  · cases h
  · rename_i order hmatches
    obtain ⟨⟨⟩, howner, h⟩ := bind_ok h
    obtain ⟨authorization, -, h⟩ := bind_ok h
    cases pure_ok h
    refine ⟨rfl, rfl, target, order, rfl, hmatches, ?_⟩
    have hmem : order ∈ context.existingOrders.filter fun order =>
        order.instrumentId = intent.instrumentId ∧ order.clientOrderId = target := by
      rw [hmatches]
      exact List.mem_singleton.mpr rfl
    have hid : order.clientOrderId = target := (of_decide_eq_true (List.mem_filter.mp hmem).2).2
    unfold validateCancelOrderOwnership at howner
    rw [← hid]
    cases hdecode : decodeClientOrderId py.unicode order.clientOrderId with
    | none => rw [hdecode] at howner; cases howner
    | some trace => rfl
  · cases h

/-! ## When rounding does no harm -/

/-- A number to the nearest step is positive and no larger exactly when it is a
step at least and less than half a step over. -/
theorem nearest_iff {v s d : ℚ} (hs : 0 < s) (hv : 0 < v) (hd : d = Rounding.halfUp.apply (v / s) * s) :
    (0 < d ∧ d ≤ v) ↔ s ≤ v ∧ Int.fract (v / s) < 1 / 2 := by
  have hx : 0 ≤ v / s := (div_pos hv hs).le
  have hpos : 0 < d ↔ 1 / 2 ≤ v / s := by
    rw [hd, mul_pos_iff_of_pos_right hs, Int.cast_pos, Rounding.halfUp_pos_iff hx]
  have hle : d ≤ v ↔ Int.fract (v / s) < 1 / 2 := by
    rw [← Rounding.halfUp_le_iff hx, le_div_iff₀ hs, hd]
  rw [hpos, hle, ← one_le_div₀ hs]
  constructor
  · rintro ⟨hhalf, hfract⟩
    refine ⟨?_, hfract⟩
    by_contra hlt
    rw [Int.fract_eq_self.mpr ⟨hx, not_le.mp hlt⟩] at hfract
    linarith
  · rintro ⟨hone, hfract⟩
    exact ⟨by linarith, hfract⟩

theorem nearest_pos_iff {v s d : ℚ} (hs : 0 < s) (hv : 0 < v) (hd : d = Rounding.halfUp.apply (v / s) * s) :
    0 < d ↔ s ≤ 2 * v := by
  rw [hd, mul_pos_iff_of_pos_right hs, Int.cast_pos, Rounding.halfUp_pos_iff (div_pos hv hs).le, le_div_iff₀ hs]
  constructor
  · intro h
    linarith
  · intro h
    linarith

theorem exit_sound {exit : Dict Value}
    (hinstrument : context.instrument = some instrument)
    (hposition : selectTargetPosition py intent context = .ok position)
    (h : buildExitOrder exactNumbers py intent action exit instrument position (exitSide py position) = .ok order) :
    ∃ instrument position, context.instrument = some instrument ∧
      selectTargetPosition py intent context = .ok position ∧ Reduces py instrument position order := by
  obtain ⟨hordered, hquantity⟩ := buildExitOrder_ok h
  refine ⟨instrument, position, hinstrument, hposition, hordered.reduceOnly, ?_, hquantity⟩
  rw [hordered.side]
  exact exitSide_opposite py position

/-- A stop reduces exactly when rounding does no harm. -/
theorem stop_reduces_iff {stop : Dict Value}
    (h : buildStopOrder exactNumbers py intent action stop instrument position (exitSide py position) = .ok order) :
    Reduces py instrument position order ↔
      ∀ step held, Reads py instrument.quantityIncrement step → Reads py position.quantity held →
        step.value ≤ held.value ∧ Int.fract (held.value / step.value) < 1 / 2 := by
  obtain ⟨hordered, v, step, d, hread, hpos, hrounded⟩ := buildStopOrder_ok h
  have hiff := nearest_iff hrounded.step_pos hpos hrounded.value
  constructor
  · rintro ⟨-, -, step', d', held', hstep', hd', hheld', hdpos, -, hle⟩ step'' held'' hstep'' hheld''
    have hsame := hrounded.text.unique hd'
    have hheldv : held' = .finite v := Option.some.inj (hheld'.symm.trans hread)
    rw [hheldv, ← hsame] at hle
    rw [← hsame] at hdpos
    rw [hstep''.unique hrounded.increment, hheld''.unique hread]
    exact hiff.mp ⟨hdpos, hle⟩
  · intro hkeeps
    obtain ⟨hdpos, hle⟩ := hiff.mpr (hkeeps step v hrounded.increment hread)
    refine ⟨hordered.reduceOnly, ?_, step, d, .finite v, hrounded.increment, hrounded.text, hread, hdpos,
      ⟨_, hrounded.value⟩, hle⟩
    rw [hordered.side]
    exact exitSide_opposite py position

theorem Made.pos_iff {made : OrderPlan × FiniteDecimal}
    (h : Made py intent instrument side target made) :
    0 < made.2.value ↔ ∀ step amount, Reads py instrument.quantityIncrement step →
      targetQuantity py target.1 = some (.finite amount) → step.value ≤ 2 * amount.value := by
  obtain ⟨-, v, step, hread, hpos, hrounded⟩ := h
  have hiff := nearest_pos_iff hrounded.step_pos hpos hrounded.value
  constructor
  · intro hd step' amount hstep' hamount
    rw [hstep'.unique hrounded.increment, Decimal.finite.inj (Option.some.inj (hamount.symm.trans hread))]
    exact hiff.mp hd
  · intro hkeeps
    exact hiff.mpr (hkeeps step v hrounded.increment hread)

theorem Made.nonneg {made : OrderPlan × FiniteDecimal}
    (h : Made py intent instrument side target made) : 0 ≤ made.2.value := by
  obtain ⟨-, v, step, -, hpos, hrounded⟩ := h
  have hx : 0 ≤ v.value / step.value := (div_pos hpos hrounded.step_pos).le
  have hfloor : 0 ≤ Rounding.halfUp.apply (v.value / step.value) := by
    rw [Rounding.apply, if_neg (not_lt.mpr hx)]
    exact Int.floor_nonneg.mpr (by linarith)
  rw [hrounded.value]
  exact mul_nonneg (by exact_mod_cast hfloor) hrounded.step_pos.le

theorem made_distinct (h : List.Forall₂ (Made py intent instrument side) targets made)
    (hindex : (targets.map Prod.snd).Nodup) :
    ((made.map Prod.fst).map OrderPlan.clientOrderId).Nodup := by
  have hdecode : ((made.map Prod.fst).map OrderPlan.clientOrderId).map (decodeClientOrderId py.unicode) =
      (targets.map Prod.snd).map fun n : Nat => some ⟨intent.intentId, n⟩ := by
    clear hindex
    induction h with
    | nil => rfl
    | cons hmade _ ih => simp only [List.map_cons, hmade.ordered.decodes, ih]
  refine List.Nodup.of_map (decodeClientOrderId py.unicode) ?_
  rw [hdecode]
  refine hindex.map fun n m hnm => ?_
  simpa using hnm

theorem made_of_mem (h : List.Forall₂ (Made py intent instrument side) targets made)
    {x : OrderPlan × FiniteDecimal} (hx : x ∈ made) :
    ∃ target, Made py intent instrument side target x := by
  induction h with
  | nil => exact absurd hx List.not_mem_nil
  | cons hfirst _ ih =>
    rcases List.mem_cons.mp hx with rfl | hx
    · exact ⟨_, hfirst⟩
    · exact ih hx

theorem made_amounts (h : List.Forall₂ (Made py intent instrument side) targets made) :
    List.Forall₂ (fun order d => Reads py order.quantity d) (made.map Prod.fst) (made.map Prod.snd) ∧
      (∀ x ∈ made, 0 ≤ x.2.value) ∧
      ∀ x ∈ made, x.2.value ≤ ((made.map Prod.snd).map FiniteDecimal.value).sum := by
  have hnonneg : ∀ x ∈ made, 0 ≤ x.2.value := by
    intro x hx
    obtain ⟨target, hmadex⟩ := made_of_mem h hx
    exact hmadex.nonneg
  refine ⟨?_, hnonneg, fun x hx => ?_⟩
  · clear hnonneg
    induction h with
    | nil => exact .nil
    | cons hmade _ ih =>
      obtain ⟨-, v, step, -, -, hrounded⟩ := hmade
      exact .cons hrounded.text ih
  · rw [List.map_map]
    refine List.single_le_sum ?_ _ (List.mem_map_of_mem (f := FiniteDecimal.value ∘ Prod.snd) hx)
    intro y hy
    obtain ⟨z, hz, rfl⟩ := List.mem_map.mp hy
    exact hnonneg z hz

theorem made_pos_iff (h : List.Forall₂ (Made py intent instrument side) targets made) :
    (∀ target ∈ targets.map Prod.fst, ∀ step amount, Reads py instrument.quantityIncrement step →
      targetQuantity py target = some (.finite amount) → step.value ≤ 2 * amount.value) ↔
      ∀ x ∈ made, 0 < x.2.value := by
  induction h with
  | nil => simp
  | cons hfirst _ ih =>
    rw [List.map_cons, List.forall_mem_cons, List.forall_mem_cons, ih, hfirst.pos_iff]

theorem takeProfits_keeps_iff {targets : List Value}
    (hfound : takeProfits intent = some (.arr targets))
    (hmade : List.Forall₂ (Made py intent instrument side) (targets.zipIdx 1) made) :
    Keeps py intent (some .replaceTakeProfits) instrument position ↔
      (targets = [] → ∃ held, Decimal.ofText py.unicode position.quantity.toList = some held ∧ AtMost 0 held) ∧
        ∀ x ∈ made, 0 < x.2.value := by
  have hpositive := made_pos_iff hmade
  rw [List.zipIdx_map_fst] at hpositive
  rw [← hpositive]
  constructor
  · intro hkeeps
    exact hkeeps targets hfound
  · intro hkeeps targets' hfound'
    cases hfound.symm.trans hfound'
    exact hkeeps

/-- Take profits reduce, and add up to the position at most, exactly when rounding
does no harm. -/
theorem takeProfits_sound_iff (hinstrument : context.instrument = some instrument)
    (hposition : selectTargetPosition py intent context = .ok position)
    (h : buildTakeProfitOrders exactNumbers py intent instrument position (exitSide py position) = .ok orders) :
    ((∀ order ∈ orders, ∃ instrument position, context.instrument = some instrument ∧
        selectTargetPosition py intent context = .ok position ∧ Reduces py instrument position order) ∧
      ∃ position held amounts, selectTargetPosition py intent context = .ok position ∧
        Decimal.ofText py.unicode position.quantity.toList = some held ∧
        List.Forall₂ (fun order d => Reads py order.quantity d) orders amounts ∧
        AtMost (amounts.map FiniteDecimal.value).sum held) ↔
      Keeps py intent (some .replaceTakeProfits) instrument position := by
  obtain ⟨targets, made, hfound, hmade, rfl, htotal⟩ := buildTakeProfitOrders_ok h
  obtain ⟨hreads, hnonneg, hsum⟩ := made_amounts hmade
  rw [takeProfits_keeps_iff hfound hmade]
  have hwhole : (targets = [] → ∃ held, Decimal.ofText py.unicode position.quantity.toList = some held ∧
      AtMost 0 held) → ∃ held, Decimal.ofText py.unicode position.quantity.toList = some held ∧
        AtMost ((made.map Prod.snd).map FiniteDecimal.value).sum held := by
    intro hempty
    by_cases hnil : targets = []
    · obtain ⟨held, hheld, hle⟩ := hempty hnil
      subst hnil
      cases hmade
      exact ⟨held, hheld, hle⟩
    · exact htotal hnil
  constructor
  · rintro ⟨hreduces, position', held, amounts, hposition', hheld, hamounts, hle⟩
    cases Except.ok.inj (hposition.symm.trans hposition')
    constructor
    · rintro rfl
      cases hmade
      cases hamounts
      exact ⟨held, hheld, hle⟩
    · intro x hx
      obtain ⟨instrument', position', -, -, hred⟩ := hreduces x.1 (List.mem_map_of_mem hx)
      obtain ⟨-, d, -, -, hd, -, hpos, -⟩ := hred.quantity
      obtain ⟨target, hmadex⟩ := made_of_mem hmade hx
      obtain ⟨v, step, -, -, hrounded⟩ := hmadex.amount
      rwa [hrounded.text.unique hd]
  · rintro ⟨hempty, hpositive⟩
    obtain ⟨held, hheld, hle⟩ := hwhole hempty
    refine ⟨fun order horder => ?_, position, held, _, hposition, hheld, hreads, hle⟩
    obtain ⟨x, hx, rfl⟩ := List.mem_map.mp horder
    have hsmall := (hle.mono (hsum x hx))
    obtain ⟨target, hmadex⟩ := made_of_mem hmade hx
    obtain ⟨v, step, -, -, hrounded⟩ := hmadex.amount
    refine ⟨instrument, position, hinstrument, hposition, hmadex.ordered.reduceOnly, ?_, step, x.2, held,
      hrounded.increment, hrounded.text, hheld, hpositive x hx, ⟨_, hrounded.value⟩, hsmall⟩
    rw [hmadex.ordered.side]
    exact exitSide_opposite py position

theorem ids_of_orders (h : OrdersOf py intent instrument position action orders) :
    (orders.map OrderPlan.clientOrderId).Nodup ∧ ∀ order ∈ orders, ∃ sequence,
      decodeClientOrderId py.unicode order.clientOrderId = some ⟨intent.intentId, sequence⟩ := by
  cases h with
  | exit haction h =>
    obtain ⟨hordered, -⟩ := buildExitOrder_ok h
    refine ⟨List.nodup_singleton _, fun order horder => ?_⟩
    rw [List.mem_singleton.mp horder]
    exact ⟨_, hordered.decodes py.unicode⟩
  | stop haction h =>
    obtain ⟨hordered, -⟩ := buildStopOrder_ok h
    refine ⟨List.nodup_singleton _, fun order horder => ?_⟩
    rw [List.mem_singleton.mp horder]
    exact ⟨_, hordered.decodes py.unicode⟩
  | takeProfits h =>
    obtain ⟨targets, made, -, hmade, rfl, -⟩ := buildTakeProfitOrders_ok h
    refine ⟨made_distinct hmade ?_, fun order horder => ?_⟩
    · rw [List.zipIdx_map_snd]
      exact List.nodup_range'
    · obtain ⟨x, hx, rfl⟩ := List.mem_map.mp horder
      obtain ⟨target, hmadex⟩ := made_of_mem hmade hx
      exact ⟨_, hmadex.ordered.decodes py.unicode⟩

/-- The orders of a plan reduce exactly when rounding does no harm. -/
theorem orders_sound_iff (hinstrument : context.instrument = some instrument)
    (hposition : selectTargetPosition py intent context = .ok position)
    (h : OrdersOf py intent instrument position action orders) :
    ((∀ order ∈ orders, ∃ instrument position, context.instrument = some instrument ∧
        selectTargetPosition py intent context = .ok position ∧ Reduces py instrument position order) ∧
      (action = .replaceTakeProfits → ∃ position held amounts, selectTargetPosition py intent context = .ok position ∧
        Decimal.ofText py.unicode position.quantity.toList = some held ∧
        List.Forall₂ (fun order d => Reads py order.quantity d) orders amounts ∧
        AtMost (amounts.map FiniteDecimal.value).sum held)) ↔
      Keeps py intent (some action) instrument position := by
  cases h with
  | exit haction h =>
    have hsound := exit_sound hinstrument hposition h
    refine iff_of_true ⟨fun order horder => ?_, fun htakes => ?_⟩ ?_
    · rw [List.mem_singleton.mp horder]
      exact hsound
    · rw [htakes] at haction
      rcases haction with hpartial | hclose
      · cases hpartial
      · cases hclose
    · rcases haction with rfl | rfl
      · trivial
      · trivial
  | stop haction h =>
    have hiff := stop_reduces_iff h
    have hkeeps : Keeps py intent (some action) instrument position ↔
        ∀ step held, Reads py instrument.quantityIncrement step → Reads py position.quantity held →
          step.value ≤ held.value ∧ Int.fract (held.value / step.value) < 1 / 2 := by
      rcases haction with rfl | rfl
      · exact Iff.rfl
      · exact Iff.rfl
    rw [hkeeps, ← hiff]
    constructor
    · rintro ⟨hreduces, -⟩
      obtain ⟨instrument', position', hinstrument', hposition', hred⟩ := hreduces _ (List.mem_singleton.mpr rfl)
      cases hinstrument.symm.trans hinstrument'
      cases Except.ok.inj (hposition.symm.trans hposition')
      exact hred
    · intro hred
      refine ⟨fun order horder => ?_, fun htakes => ?_⟩
      · rw [List.mem_singleton.mp horder]
        exact ⟨instrument, position, hinstrument, hposition, hred⟩
      · rw [htakes] at haction
        rcases haction with hloss | hentry
        · cases hloss
        · cases hentry
  | takeProfits h =>
    rw [← takeProfits_sound_iff hinstrument hposition h]
    exact and_congr_right fun _ => ⟨fun htotal => htotal rfl, fun htotal _ => htotal⟩

end

/-- **A management plan increases no risk exactly when rounding to the nearest step
does no harm**: exits always reduce, a stop when the position is a step at least and
less than half a step over whole steps, take profits when each is half a step at
least. -/
theorem management_sound_iff (py : Interpreter) (intent : Intent) (context : PlannerContext py) (plan : ManagementPlan)
    (h : planIntentExecution exactNumbers py intent context = .ok (.management plan)) :
    Sound py intent context plan ↔ NearestKeeps py intent context := by
  obtain ⟨action, instrument, hadmitted, hfor, hplanned⟩ := plan_cases h
  have hinstrument := (instrumentFor_ok hfor).1
  cases hplanned with
  | cancel hcancel =>
    obtain ⟨haction, horders, hone⟩ := planCancelOrderIntent_ok hcancel
    obtain ⟨id, order, hids, hfilter, hdecode⟩ := hone
    refine iff_of_true ?_ ?_
    · refine
        { reduces := ?_, total := ?_, distinct := ?_, decodes := ?_, cancels := ?_
          cancelsOne := fun _ => ⟨id, order, hids, hfilter, hdecode⟩ }
      · rw [horders]
        exact fun _ horder => absurd horder List.not_mem_nil
      · rw [haction]
        exact fun htakes => nomatch htakes
      · rw [horders]
        exact List.nodup_nil
      · rw [horders]
        exact fun _ horder => absurd horder List.not_mem_nil
      · rw [hids]
        intro other hother
        rw [List.mem_singleton.mp hother]
        have hmem : order ∈ context.existingOrders.filter fun order =>
            order.instrumentId = intent.instrumentId ∧ order.clientOrderId = id := by
          rw [hfilter]
          exact List.mem_singleton.mpr rfl
        obtain ⟨hmem, hmatches⟩ := List.mem_filter.mp hmem
        exact ⟨order, hmem, of_decide_eq_true hmatches⟩
    · intro instrument' position' _ _
      rw [hadmitted.named]
      trivial
  | management hcancel hentry hmanagement =>
    obtain ⟨position, hposition, horders, haction, hcancels⟩ := planManagementIntent_ok hmanagement
    obtain ⟨hdistinct, hdecodes⟩ := ids_of_orders horders
    have hiff := orders_sound_iff hinstrument hposition horders
    constructor
    · intro hsound instrument' position' hinstrument' hposition'
      cases hinstrument.symm.trans hinstrument'
      cases Except.ok.inj (hposition.symm.trans hposition')
      rw [hadmitted.named]
      exact hiff.mp ⟨hsound.reduces, fun htakes => hsound.total (haction.trans htakes)⟩
    · intro hkeeps
      have hkept := hkeeps instrument position hinstrument hposition
      rw [hadmitted.named] at hkept
      obtain ⟨hreduces, htotal⟩ := hiff.mpr hkept
      exact
        { reduces := hreduces, total := fun htakes => htotal (haction.symm.trans htakes), distinct := hdistinct
          decodes := hdecodes, cancels := hcancels
          cancelsOne := fun hone => absurd (haction.symm.trans hone) hcancel }

/-- A stop at ninety for the whole of the position. -/
def movedStop : Intent :=
  { addition with
    action := "move_stop_loss"
    orderPlan := some ⟨[("authorization", .obj [("authorized_by_id", .str "1"), ("authorized_by_type", .str "user"),
      ("source_message_id", .str "2")]), ("stop_price", .str "90")], by decide⟩ }

/-- A long of some quantity in the cache, in steps of one thousandth. -/
def holding (quantity : String) : PlannerContext Venue.ascii :=
  { simulated none with position := some { oneLong with quantity } }

/-- A plan with one order of a quantity. -/
theorem movedStop_planned {q t : String}
    (hrun : ((planIntentExecution exactNumbers Venue.ascii movedStop (holding q)).toOption.bind
      Plan.management?).map (fun plan => plan.orders.map OrderPlan.quantity) = some [t]) :
    ∃ plan order, planIntentExecution exactNumbers Venue.ascii movedStop (holding q) =
      .ok (.management plan) ∧ plan.orders = [order] ∧ order.quantity = t := by
  obtain ⟨plan, hplan, htext⟩ := Option.map_eq_some_iff.mp hrun
  obtain ⟨planned, hplanned, hsome⟩ := Option.bind_eq_some_iff.mp hplan
  obtain ⟨order, horders, htext⟩ := List.map_eq_singleton_iff.mp htext
  cases planned with
  | entry _ => cases hsome
  | management found =>
    cases hsome
    exact ⟨plan, order, toOption_some hplanned, horders, htext⟩

/-- A stop of a position of whole steps. -/
theorem management_sound_whole : ∃ plan,
    planIntentExecution exactNumbers Venue.ascii movedStop (holding "0.4") = .ok (.management plan) ∧
      Sound Venue.ascii movedStop (holding "0.4") plan := by
  obtain ⟨plan, order, hplan, -⟩ := movedStop_planned (q := "0.4") (t := "0.400") (by decide +kernel)
  refine ⟨plan, hplan, (management_sound_iff _ _ _ _ hplan).mpr ?_⟩
  intro instrument position hinstrument hposition
  have hselected : (selectTargetPosition Venue.ascii movedStop (holding "0.4")).toOption =
      some { oneLong with quantity := "0.4" } := by decide +kernel
  cases Except.ok.inj (hposition.symm.trans (toOption_some hselected))
  cases Option.some.inj hinstrument
  have hnamed : Action.ofText? movedStop.action = some .moveStopLoss := by decide +kernel
  rw [hnamed]
  intro step held hstep hheld
  have hstep' : Reads Venue.ascii "0.001" ⟨false, 1, -3, by decide⟩ := by decide +kernel
  have hheld' : Reads Venue.ascii "0.4" ⟨false, 4, -1, by decide⟩ := by decide +kernel
  rw [hstep.unique hstep', hheld.unique hheld']
  norm_num [FiniteDecimal.value, FiniteDecimal.signed]

/-- **The rounding goes wrong**: the stop of a position of less than half a step is of
nothing, and that of a position of eight fifths of a step is of two steps. -/
theorem stop_rounds_away :
    (∃ plan order, planIntentExecution exactNumbers Venue.ascii movedStop (holding "0.0004") =
        .ok (.management plan) ∧ plan.orders = [order] ∧ order.quantity = "0.000" ∧
        ¬ Sound Venue.ascii movedStop (holding "0.0004") plan) ∧
      ∃ plan order, planIntentExecution exactNumbers Venue.ascii movedStop (holding "0.0016") =
        .ok (.management plan) ∧ plan.orders = [order] ∧ order.quantity = "0.002" ∧
        ¬ Sound Venue.ascii movedStop (holding "0.0016") plan := by
  constructor
  · obtain ⟨plan, order, hplan, horders, htext⟩ :=
      movedStop_planned (q := "0.0004") (t := "0.000") (by decide +kernel)
    refine ⟨plan, order, hplan, horders, htext, fun hsound => ?_⟩
    obtain ⟨instrument, position, -, -, hreduces⟩ := hsound.reduces order (by rw [horders]; exact List.mem_singleton.mpr rfl)
    obtain ⟨step, d, held, -, hread, -, hpos, -⟩ := hreduces.quantity
    rw [htext] at hread
    have hread' : Reads Venue.ascii "0.000" ⟨false, 0, -3, by decide⟩ := by decide +kernel
    rw [hread.unique hread'] at hpos
    norm_num [FiniteDecimal.value, FiniteDecimal.signed] at hpos
  · obtain ⟨plan, order, hplan, horders, htext⟩ :=
      movedStop_planned (q := "0.0016") (t := "0.002") (by decide +kernel)
    refine ⟨plan, order, hplan, horders, htext, fun hsound => ?_⟩
    obtain ⟨instrument, position, -, hposition, hreduces⟩ :=
      hsound.reduces order (by rw [horders]; exact List.mem_singleton.mpr rfl)
    have hselected : (selectTargetPosition Venue.ascii movedStop (holding "0.0016")).toOption =
        some { oneLong with quantity := "0.0016" } := by decide +kernel
    cases Except.ok.inj (hposition.symm.trans (toOption_some hselected))
    obtain ⟨step, d, held, -, hread, hheld, -, -, hle⟩ := hreduces.quantity
    rw [htext] at hread
    have hread' : Reads Venue.ascii "0.002" ⟨false, 2, -3, by decide⟩ := by decide +kernel
    have hheld' : Reads Venue.ascii "0.0016" ⟨false, 16, -4, by decide⟩ := by decide +kernel
    rw [hread.unique hread', Option.some.inj (hheld.symm.trans hheld')] at hle
    norm_num [AtMost, FiniteDecimal.value, FiniteDecimal.signed] at hle

end TraderBot.Planner
