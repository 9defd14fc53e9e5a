import TraderBot.Lib.Returns
import TraderBot.Planner.Stepping

/-! # The take-profit ladder

`build_take_profit_ladder` makes an order for each target, with a fraction of the position
rounded half up to the increment, and denies a ladder of more than the position. The
fractions may add up to no more than the position and the rounded quantities to more, and a
small fraction is rounded to nothing (`ladder_fits_iff`). -/
namespace TraderBot.TakeProfitLadder
open TraderBot.Lib TraderBot.Planner
open TraderBot.Lib.Decimal (InContext etiny emax)
open TraderBot.Venue (Interpreter)

/-! ## The ladder -/

structure PositionProtectionSnapshot where
  positionKey : String
  side : String
  quantity : FiniteDecimal
  entryPrice : Option FiniteDecimal := none

structure TakeProfitTarget where
  price : Option Decimal := none
  rMultiple : Option FiniteDecimal := none
  fraction : Option FiniteDecimal := none
  quantity : Option FiniteDecimal := none
  timeInForce : String := "GTC"

/-- What an order of the ladder says. -/
structure TakeProfitPlan where
  intentId : Uuid
  clientOrderId : String
  tags : List String
  instrumentId : String
  side : OrderSide
  orderType : String := "LIMIT_IF_TOUCHED"
  quantity : String
  price : String
  timeInForce : String
  reduceOnly : Bool := true
  triggerPrice : String
  deriving DecidableEq, Repr

/-- The arguments of a call. -/
structure LadderCall where
  intentId : Uuid
  accountId : String
  instrumentId : String
  position : PositionProtectionSnapshot
  initialStopPrice : FiniteDecimal
  targets : List TakeProfitTarget
  instrument : InstrumentSpec

section
variable (py : Interpreter)

def isLongSide (side : String) : Bool := py.unicode.lower side = "long" ∨ py.unicode.lower side = "buy"

/-- `_round_to_increment`; its errors are exceptions. -/
def ladderRound (value : Decimal) (increment : String) : Except Stop String := do
  let step ← decimalText py increment
  if ← notPositive value then .error .raised
  else if ← notPositive step then .error .raised
  else
    match value, step with
    | .finite value, .finite step => return fixed (← raising (stepped .halfUp value step))
    | _, _ => .error .raised

/-- A target's quantity before it is rounded. -/
def rawQuantity (positionQuantity : FiniteDecimal) (target : TakeProfitTarget) :
    Except Stop FiniteDecimal :=
  match target.fraction, target.quantity with
  | some fraction, none => raising (Decimal.mul positionQuantity fraction)
  | none, some quantity => .ok quantity
  | none, none | some _, some _ => unsupported "fraction_xor_quantity"

/-- `_target_quantity`. -/
def targetQuantity (positionQuantity : FiniteDecimal) (target : TakeProfitTarget) (increment : String) :
    Except Stop String := do
  let raw ← rawQuantity positionQuantity target
  if raw.le .zero then unsupported "quantity" else ladderRound py (.finite raw) increment

/-- `_target_price`. -/
def targetPrice (position : PositionProtectionSnapshot) (initialStopPrice : FiniteDecimal)
    (target : TakeProfitTarget) :
    Except Stop Decimal :=
  match target.price, target.rMultiple with
  | some price, none => .ok price
  | none, some multiple =>
    match position.entryPrice with
    | none => unsupported "entry_price_required"
    | some entry => raising do
      let distance ← Decimal.sub entry initialStopPrice
      let risk ← Decimal.fix false distance.coeff distance.exponent
      let move ← Decimal.mul risk multiple
      return .finite (← if isLongSide py position.side then Decimal.add entry move else Decimal.sub entry move)
  | none, none | some _, some _ => unsupported "price_xor_r_multiple"

/-- `_exit_side`. -/
def ladderSide (side : String) : OrderSide := if isLongSide py side then .sell else .buy

/-- One turn of the loop: the orders and their total so far. -/
def ladderStep (call : LadderCall) (state : List TakeProfitPlan × FiniteDecimal)
    (target : TakeProfitTarget × Nat) :
    Except Stop (List TakeProfitPlan × FiniteDecimal) := do
  let quantity ← targetQuantity py call.position.quantity target.1 call.instrument.quantityIncrement
  let total ← addQuantity defaultContext py state.2 quantity
  let trigger ← targetPrice py call.position call.initialStopPrice target.1
  let triggerPrice ← ladderRound py trigger call.instrument.priceIncrement
  let clientOrderId ← raising (encodeClientOrderId call.intentId target.2)
  return (state.1 ++ [{
    intentId := call.intentId
    clientOrderId
    tags := ["intent_id=" ++ call.intentId.str, "action=install_take_profit", "account_id=" ++ call.accountId,
      "lifecycle_role=take_profit", "position_id=" ++ call.position.positionKey,
      "take_profit_index=" ++ toString target.2]
    instrumentId := call.instrumentId
    side := ladderSide py call.position.side
    quantity
    price := triggerPrice
    timeInForce := target.1.timeInForce
    triggerPrice }], total)

/-- `text.rstrip(c)`. -/
def rstripChar (c : Char) (text : String) : String :=
    String.ofList (text.toList.reverse.dropWhile (· = c)).reverse

/-- `_format_decimal`: also the zeros of a whole number are stripped. -/
def formatDecimal (d : FiniteDecimal) : String :=
  let stripped := rstripChar '.' (rstripChar '0' (fixed d))
  if stripped = "" then "0" else stripped

def buildTakeProfitLadder (call : LadderCall) : Except Stop (List TakeProfitPlan) := do
  if call.targets = [] then .error (.denied "take_profit_required" "targets")
  else
    let (plans, total) ← (call.targets.zipIdx 1).foldlM (ladderStep py call) ([], .zero)
    if call.position.quantity.lt total then
      .error (.denied "quantity_exceeds_position" (fixed total ++ ">" ++ formatDecimal call.position.quantity))
    else return plans

end
/-! ## What a ladder is to be -/

/-- A target by price and by a fraction. -/
structure ByFraction (target : TakeProfitTarget) : Prop where
  price : target.price.isSome
  noMultiple : target.rMultiple = none
  fraction : ∃ f, target.fraction = some f ∧ 0 < f.value
  noQuantity : target.quantity = none

section
variable (quantity step priceStep : FiniteDecimal)

/-- A target's share of the position in increments, in the decimal context. -/
def shareOf (target : TakeProfitTarget) : Option FiniteDecimal := do
  Decimal.div (← Decimal.mul quantity (← target.fraction)) step

/-- The increments of a target: its share, half up. -/
def stepsOf (target : TakeProfitTarget) : Int :=
  match shareOf quantity step target with
  | some share => Rounding.halfUp.apply share.value
  | none => 0

/-- The quantity of a target. -/
def legQuantity (target : TakeProfitTarget) : Option FiniteDecimal := do
  stepped .halfUp (← Decimal.mul quantity (← target.fraction)) step

/-- A share that is nothing in the decimal context; the target is denied for its quantity. -/
def Vanishes (target : TakeProfitTarget) : Prop :=
  ∃ f raw, target.fraction = some f ∧ Decimal.mul quantity f = some raw ∧ raw.value = 0

/-- Quantity and price of a target can be written in 28 digits, and the price is positive. -/
structure LegHolds (target : TakeProfitTarget) : Prop where
  share : ∃ x, shareOf quantity step target = some x ∧
    (Rounding.halfUp.apply x.value).natAbs * step.coeff < 10 ^ 28
  price : ∃ p x, target.price = some (.finite p) ∧ 0 < p.value ∧ Decimal.div p priceStep = some x ∧
    (Rounding.halfUp.apply x.value).natAbs * priceStep.coeff < 10 ^ 28

/-- Every target up to one whose share is nothing can be written. -/
def LegsHold : List TakeProfitTarget → Prop
  | [] => True
  | target :: targets => Vanishes quantity target ∨
    (LegHolds quantity step priceStep target ∧ LegsHold targets)

/-- The targets fit a position of `k` increments: each has half an increment at least, and rounded they
are no more than the position, added exactly and added in the decimal context. -/
structure LegsFit (k : Nat) (targets : List TakeProfitTarget) : Prop where
  half : ∀ target ∈ targets, ∃ x, shareOf quantity step target = some x ∧ 1 / 2 ≤ x.value
  sum : (targets.map (stepsOf quantity step)).sum ≤ k
  total : ∀ quantities total, targets.mapM (legQuantity quantity step) = some quantities →
    (quantities.map FiniteDecimal.spread).foldlM Decimal.add .zero =
      some total → total.value ≤ quantity.value

end

/-- A ladder that is not refused for its quantity and does not raise, with positive quantities that are
no more than the position. -/
structure Fitting (position : FiniteDecimal) (result : Except Stop (List TakeProfitPlan)) : Prop where
  noRaise : result ≠ .error .raised
  notExceeding : ∀ detail, result ≠ .error (.denied "quantity_exceeds_position" detail)
  quantities : ∀ plans, result = .ok plans → ∃ quantities : List FiniteDecimal,
    plans.map TakeProfitPlan.quantity = quantities.map fixed ∧ (∀ d ∈ quantities, 0 < d.value) ∧
      (quantities.map FiniteDecimal.value).sum ≤ position.value

section
variable {py : Interpreter} {text priceText : String} {step priceStep quantity value : FiniteDecimal}
variable {target : TakeProfitTarget} {targets : List TakeProfitTarget}

variable {d : FiniteDecimal} {quantities : List FiniteDecimal}

theorem not_le_zero (h : 0 < d.value) : d.le .zero = false := by
  rw [Bool.eq_false_iff]
  intro hle
  rw [FiniteDecimal.le_iff, FiniteDecimal.zero_value] at hle
  exact absurd h (not_lt.mpr hle)

theorem le_zero (h : d.value ≤ 0) : d.le .zero = true := by
  rw [FiniteDecimal.le_iff, FiniteDecimal.zero_value]
  exact h

/-- A positive number is snapped, or raises. -/
theorem ladderRound_finite (h : Increment py text step) (hvalue : 0 < value.value) :
    ladderRound py (.finite value) text = raising ((stepped .halfUp value step).map fixed) := by
  unfold ladderRound notPositive
  rw [h.decimalText]
  simp only [Decimal.le?, not_le_zero hvalue, not_le_zero h.positive, raising, ok_bind, Bool.false_eq_true, if_false]
  cases stepped .halfUp value step with
  | none => rfl
  | some d => rfl

/-- What is not a positive number raises. -/
theorem ladderRound_raised (h : Increment py text step) {value : Decimal}
    (hvalue : ∀ d, value = .finite d → d.value ≤ 0) : ladderRound py value text = .error .raised := by
  unfold ladderRound notPositive
  rw [h.decimalText]
  cases value with
  | finite d =>
    simp only [Decimal.le?, le_zero (hvalue d rfl), raising, ok_bind, if_true]
  | infinity negative =>
    cases negative with
    | true => rfl
    | false => simp only [Decimal.le?, not_le_zero h.positive, raising, ok_bind, Bool.false_eq_true, if_false]
  | nan negative signaling payload => rfl

/-! ## One target -/

variable {f raw : FiniteDecimal}

theorem ByFraction.legQuantity_eq (hf : target.fraction = some f) :
    legQuantity quantity step target =
      (Decimal.mul quantity f).bind fun raw => stepped .halfUp raw step := by
  rw [legQuantity, hf]
  rfl

theorem ByFraction.rawQuantity_eq (h : ByFraction target) (hf : target.fraction = some f) :
    rawQuantity quantity target = raising (Decimal.mul quantity f) := by
  rw [rawQuantity, hf, h.noQuantity]

/-- A share that is nothing is denied. -/
theorem ByFraction.vanishes (h : ByFraction target) (hvanish : Vanishes quantity target) :
    targetQuantity py quantity target text = .error (.denied "unsupported_order_spec" "quantity") := by
  obtain ⟨f, raw, hf, hraw, hzero⟩ := hvanish
  rw [targetQuantity, h.rawQuantity_eq hf, hraw]
  exact if_pos (le_zero hzero.le)

/-- Any other is snapped, or raises. -/
theorem ByFraction.quantity_eq (h : ByFraction target) (hq : 0 < quantity.value)
    (hinc : Increment py text step)
    (hvanish : ¬ Vanishes quantity target) :
    targetQuantity py quantity target text = raising ((legQuantity quantity step target).map fixed) := by
  obtain ⟨f, hf, hpos⟩ := h.fraction
  rw [ByFraction.legQuantity_eq hf, targetQuantity, h.rawQuantity_eq hf]
  cases hraw : Decimal.mul quantity f with
  | none => rfl
  | some raw =>
    have hnonneg := Decimal.mul_nonneg_of_pos hq hpos hraw
    have hpositive : 0 < raw.value :=
      lt_of_le_of_ne hnonneg fun hzero => hvanish ⟨f, raw, hf, hraw, hzero.symm⟩
    rw [Option.bind_some, ← ladderRound_finite hinc hpositive]
    exact if_neg (by rw [not_le_zero hpositive]; nofun)

theorem ByFraction.targetPrice_eq (h : ByFraction target) {position : PositionProtectionSnapshot}
    {stop : FiniteDecimal}
    {price : Decimal} (hprice : target.price = some price) :
      targetPrice py position stop target = .ok price := by
  rw [targetPrice, hprice, h.noMultiple]

/-- The quantity of a target that can be written. -/
theorem legQuantity_isSome_iff (hinc : Increment py text step) :
    (legQuantity quantity step target).isSome ↔ ∃ x, shareOf quantity step target = some x ∧
      (Rounding.halfUp.apply x.value).natAbs * step.coeff < 10 ^ 28 := by
  unfold legQuantity shareOf
  cases hf : target.fraction with
  | none => exact iff_of_false nofun fun h => by obtain ⟨x, h, -⟩ := h; cases h
  | some f =>
    cases hraw : Decimal.mul quantity f with
    | none =>
      refine iff_of_false ?_ fun h => ?_
      · simp [hraw]
      · simp [hraw] at h
    | some raw =>
      have hstep := @stepped_isSome_iff .halfUp raw _ hinc.context (FiniteDecimal.coeff_pos hinc.positive)
      simpa [hraw] using hstep

/-- What can be written is the target's steps. -/
theorem legQuantity_value (hinc : Increment py text step)
    (h : legQuantity quantity step target = some value) :
    value.value = stepsOf quantity step target * step.value := by
  obtain ⟨f, hf, h⟩ := Option.bind_eq_some_iff.mp h
  obtain ⟨raw, hraw, h⟩ := Option.bind_eq_some_iff.mp h
  obtain ⟨x, hx, hvalue⟩ := stepped_value hinc.context (FiniteDecimal.coeff_pos hinc.positive) h
  have hshare : shareOf quantity step target = some x := by
    rw [shareOf, hf]
    show (Decimal.mul quantity f).bind _ = _
    rw [hraw]
    exact hx
  rw [hvalue, stepsOf, hshare]

/-- A share that is something is not negative. -/
theorem ByFraction.share_nonneg (h : ByFraction target) (hq : 0 < quantity.value) (hstep : 0 < step.value)
    (hvanish : ¬ Vanishes quantity target) {x : FiniteDecimal}
    (hx : shareOf quantity step target = some x) :
    0 ≤ x.value := by
  obtain ⟨f, hf, hpos⟩ := h.fraction
  obtain ⟨f', hf', hx⟩ := Option.bind_eq_some_iff.mp hx
  cases hf.symm.trans hf'
  obtain ⟨raw, hraw, hx⟩ := Option.bind_eq_some_iff.mp hx
  have hpositive : 0 < raw.value :=
    lt_of_le_of_ne (Decimal.mul_nonneg_of_pos hq hpos hraw) fun hzero => hvanish ⟨f, raw, hf, hraw, hzero.symm⟩
  exact Decimal.div_nonneg_of_pos hpositive hstep hx

/-- A quantity that is written is half an increment of its share at least where it is positive. -/
theorem ByFraction.leg_pos_iff (h : ByFraction target) (hq : 0 < quantity.value)
    (hinc : Increment py text step)
    (hvanish : ¬ Vanishes quantity target) (hd : legQuantity quantity step target = some value) :
    0 < value.value ↔ ∃ x, shareOf quantity step target = some x ∧ 1 / 2 ≤ x.value := by
  obtain ⟨x, hx, -⟩ := (legQuantity_isSome_iff hinc).mp (by rw [hd]; rfl)
  have hshare := h.share_nonneg hq hinc.positive hvanish hx
  have hsteps : stepsOf quantity step target = Rounding.halfUp.apply x.value := by rw [stepsOf, hx]
  rw [legQuantity_value hinc hd, hsteps, mul_pos_iff_of_pos_right hinc.positive, Int.cast_pos,
    Rounding.halfUp_pos_iff hshare]
  constructor
  · intro hhalf
    exact ⟨x, hx, hhalf⟩
  · intro hhalf
    obtain ⟨y, hy, hhalf⟩ := hhalf
    cases hx.symm.trans hy
    exact hhalf

/-- The bounds of a quantity that is written. -/
theorem ByFraction.leg_bounds (h : ByFraction target) (hq : 0 < quantity.value)
    (hinc : Increment py text step)
    (hvanish : ¬ Vanishes quantity target) (hd : legQuantity quantity step target = some value) :
    0 ≤ value.value ∧ value.value ≤ Decimal.limit step.exponent := by
  obtain ⟨f, hf, hpos⟩ := h.fraction
  rw [ByFraction.legQuantity_eq hf] at hd
  obtain ⟨raw, hraw, hd⟩ := Option.bind_eq_some_iff.mp hd
  have hpositive : 0 < raw.value :=
    lt_of_le_of_ne (Decimal.mul_nonneg_of_pos hq hpos hraw) fun hzero => hvanish ⟨f, raw, hf, hraw, hzero.symm⟩
  exact ⟨hinc.stepped_nonneg hpositive hd, (le_abs_self _).trans (stepped_abs_lt hd).le⟩

/-! ## One turn -/

variable {call : LadderCall} {state : List TakeProfitPlan × FiniteDecimal} {n : Nat}

/-- The price of a target is written, or raises. -/
theorem ladderRound_price (hinc : Increment py text priceStep) (price : Decimal) :
    ((∃ p x, price = .finite p ∧ 0 < p.value ∧ Decimal.div p priceStep = some x ∧
        (Rounding.halfUp.apply x.value).natAbs * priceStep.coeff < 10 ^ 28) →
      ∃ s, ladderRound py price text = .ok s) ∧
    ((¬ ∃ p x, price = .finite p ∧ 0 < p.value ∧ Decimal.div p priceStep = some x ∧
        (Rounding.halfUp.apply x.value).natAbs * priceStep.coeff < 10 ^ 28) →
      ladderRound py price text = .error .raised) := by
  have hsteps (p : FiniteDecimal) := @stepped_isSome_iff .halfUp p _ hinc.context
    (FiniteDecimal.coeff_pos hinc.positive)
  constructor
  · intro h
    obtain ⟨p, x, rfl, hpos, hx, hdigits⟩ := h
    obtain ⟨d, hd⟩ := Option.isSome_iff_exists.mp ((hsteps p).mpr ⟨x, hx, hdigits⟩)
    refine ⟨fixed d, ?_⟩
    rw [ladderRound_finite hinc hpos, hd]
    rfl
  · intro h
    by_cases hpositive : ∃ p, price = .finite p ∧ 0 < p.value
    · obtain ⟨p, rfl, hpos⟩ := hpositive
      rw [ladderRound_finite hinc hpos]
      cases hd : stepped .halfUp p priceStep with
      | none => rfl
      | some d =>
        obtain ⟨x, hx, hdigits⟩ := (hsteps p).mp (by rw [hd]; rfl)
        exact absurd ⟨p, x, rfl, hpos, hx, hdigits⟩ h
    · exact ladderRound_raised hinc fun d hd => not_lt.mp fun hpos => hpositive ⟨d, hd, hpos⟩

/-- A call with increments that can be worked with and a position. -/
structure Called (py : Interpreter) (call : LadderCall) (step priceStep : FiniteDecimal) : Prop where
  quantityIncrement : Increment py call.instrument.quantityIncrement step
  priceIncrement : Increment py call.instrument.priceIncrement priceStep
  position : 0 < call.position.quantity.value

theorem Called.turn_vanishes (h : ByFraction target) (hvanish : Vanishes call.position.quantity target) :
    ladderStep py call state (target, n) = .error (.denied "unsupported_order_spec" "quantity") := by
  unfold ladderStep
  rw [h.vanishes hvanish]
  rfl

theorem Called.turn_raised (hcall : Called py call step priceStep) (h : ByFraction target)
    (hvanish : ¬ Vanishes call.position.quantity target)
    (hraised : ¬ LegHolds call.position.quantity step priceStep target)
    (hstate : Partial step n state.2) (hn : n < 99) :
    ladderStep py call state (target, n + 1) = .error .raised := by
  unfold ladderStep
  rw [h.quantity_eq hcall.position hcall.quantityIncrement hvanish]
  cases hd : legQuantity call.position.quantity step target with
  | none => rfl
  | some d =>
    obtain ⟨hnonneg, hle⟩ := h.leg_bounds hcall.position hcall.quantityIncrement hvanish hd
    obtain ⟨total, -, -, htotal⟩ := hstate.add hcall.quantityIncrement (by omega) hnonneg hle
    obtain ⟨price, hprice⟩ := Option.isSome_iff_exists.mp h.price
    have hshare := (legQuantity_isSome_iff hcall.quantityIncrement).mp (by rw [hd]; rfl)
    have hround := (ladderRound_price hcall.priceIncrement price).2 fun hholds => by
      obtain ⟨p, x, rfl, hholds⟩ := hholds
      exact hraised ⟨hshare, p, x, hprice, hholds⟩
    simp only [Option.map_some, raising, ok_bind, htotal, h.targetPrice_eq hprice, hround]
    rfl

/-- A target that can be written adds its order. -/
theorem Called.turn_ok (hcall : Called py call step priceStep) (h : ByFraction target)
    (hvanish : ¬ Vanishes call.position.quantity target)
    (hholds : LegHolds call.position.quantity step priceStep target) (hstate : Partial step n state.2)
    (hn : n < 99) :
    ∃ d total plan, legQuantity call.position.quantity step target = some d ∧
      Decimal.add state.2 d.spread = some total ∧ Partial step (n + 1) total ∧ plan.quantity = fixed d ∧
        ladderStep py call state (target, n + 1) = .ok (state.1 ++ [plan], total) := by
  obtain ⟨d, hd⟩ := Option.isSome_iff_exists.mp ((legQuantity_isSome_iff hcall.quantityIncrement).mpr hholds.share)
  obtain ⟨hnonneg, hle⟩ := h.leg_bounds hcall.position hcall.quantityIncrement hvanish hd
  obtain ⟨total, hadd, hpartial, htotal⟩ := hstate.add hcall.quantityIncrement (by omega) hnonneg hle
  obtain ⟨p, x, hprice, hwritten⟩ := hholds.price
  obtain ⟨price, hround⟩ := (ladderRound_price hcall.priceIncrement (.finite p)).1 ⟨p, x, rfl, hwritten⟩
  have hid := @encode_some call.intentId (n + 1 : Nat) (by omega) (by omega)
  refine ⟨d, total, ?plan, hd, hadd, hpartial, ?quantity, ?turn⟩
  case turn =>
    unfold ladderStep
    rw [h.quantity_eq hcall.position hcall.quantityIncrement hvanish, hd]
    simp only [Option.map_some, raising, ok_bind, htotal, h.targetPrice_eq hprice, hround, hid]
    rfl
  case quantity => rfl

/-! ## The loop -/

/-- A ladder that is not writable up to its first target of nothing raises. -/
theorem Called.loop_raised (hcall : Called py call step priceStep)
    (hby : ∀ target ∈ targets, ByFraction target)
    (hno : ¬ LegsHold call.position.quantity step priceStep targets) (hstate : Partial step n state.2)
    (hlength : n + targets.length ≤ 99) :
    (targets.zipIdx (n + 1)).foldlM (ladderStep py call) state = .error .raised := by
  induction targets generalizing n state with
  | nil => exact absurd trivial hno
  | cons target targets ih =>
    rw [LegsHold, not_or, not_and] at hno
    rw [List.length_cons] at hlength
    have hfirst := hby target List.mem_cons_self
    rw [List.zipIdx_cons, List.foldlM_cons]
    by_cases hholds : LegHolds call.position.quantity step priceStep target
    · obtain ⟨d, total, plan, -, -, hpartial, -, hturn⟩ :=
      hcall.turn_ok hfirst hno.1 hholds hstate (by omega)
      rw [hturn, ok_bind]
      exact ih (fun t ht => hby t (List.mem_cons_of_mem _ ht)) (hno.2 hholds) hpartial (by omega)
    · rw [hcall.turn_raised hfirst hno.1 hholds hstate (by omega)]
      rfl

/-- The first target of nothing is denied. -/
theorem Called.loop_denied (hcall : Called py call step priceStep)
    (hby : ∀ target ∈ targets, ByFraction target)
    (hholds : LegsHold call.position.quantity step priceStep targets)
    (hvanish : ∃ target ∈ targets, Vanishes call.position.quantity target) (hstate : Partial step n state.2)
    (hlength : n + targets.length ≤ 99) :
    (targets.zipIdx (n + 1)).foldlM (ladderStep py call) state =
      .error (.denied "unsupported_order_spec" "quantity") := by
  induction targets generalizing n state with
  | nil =>
    obtain ⟨target, hmem, -⟩ := hvanish
    cases hmem
  | cons target targets ih =>
    rw [List.length_cons] at hlength
    have hfirst := hby target List.mem_cons_self
    rw [List.zipIdx_cons, List.foldlM_cons]
    by_cases hnothing : Vanishes call.position.quantity target
    · rw [Called.turn_vanishes hfirst hnothing]
      rfl
    · obtain ⟨hleg, hholds⟩ := hholds.resolve_left hnothing
      obtain ⟨d, total, plan, -, -, hpartial, -, hturn⟩ :=
        hcall.turn_ok hfirst hnothing hleg hstate (by omega)
      rw [hturn, ok_bind]
      refine ih (fun t ht => hby t (List.mem_cons_of_mem _ ht)) hholds ?_ hpartial (by omega)
      obtain ⟨t, hmem, ht⟩ := hvanish
      rcases List.mem_cons.mp hmem with rfl | hmem
      · exact absurd ht hnothing
      · exact ⟨t, hmem, ht⟩

/-- Otherwise every target has its order, and the total is the sum of their quantities in the context. -/
theorem Called.loop_ok (hcall : Called py call step priceStep) (hby : ∀ target ∈ targets, ByFraction target)
    (hholds : LegsHold call.position.quantity step priceStep targets)
    (hvanish : ∀ target ∈ targets, ¬ Vanishes call.position.quantity target)
    (hstate : Partial step n state.2)
    (hlength : n + targets.length ≤ 99) :
    ∃ quantities total plans, targets.mapM (legQuantity call.position.quantity step) = some quantities ∧
      (quantities.map FiniteDecimal.spread).foldlM Decimal.add state.2 = some total ∧
        plans.map TakeProfitPlan.quantity = quantities.map fixed ∧
          (targets.zipIdx (n + 1)).foldlM (ladderStep py call) state = .ok (state.1 ++ plans, total) := by
  induction targets generalizing n state with
  | nil => exact ⟨[], state.2, [], rfl, rfl, rfl, by rw [List.append_nil]; rfl⟩
  | cons target targets ih =>
    rw [List.length_cons] at hlength
    have hnothing := hvanish target List.mem_cons_self
    obtain ⟨hleg, hholds⟩ := hholds.resolve_left hnothing
    obtain ⟨d, total, plan, hd, hadd, hpartial, hquantity, hturn⟩ :=
      hcall.turn_ok (hby target List.mem_cons_self) hnothing hleg hstate (by omega)
    obtain ⟨quantities, total', plans, hmap, hsum, hplans, hloop⟩ :=
      @ih (state.1 ++ [plan], total) _ (fun t ht => hby t (List.mem_cons_of_mem _ ht)) hholds
        (fun t ht => hvanish t (List.mem_cons_of_mem _ ht)) hpartial (by omega)
    refine ⟨d :: quantities, total', plan :: plans, ?_, ?_, ?_, ?_⟩
    · rw [List.mapM_cons, hd, hmap]
      rfl
    · rw [List.map_cons, List.foldlM_cons, hadd]
      exact hsum
    · rw [List.map_cons, List.map_cons, hquantity, hplans]
    · rw [List.zipIdx_cons, List.foldlM_cons, hturn, ok_bind, hloop, List.append_assoc, List.singleton_append]

/-! ## The ladder and the position -/

/-- A text is of one number. -/
theorem fixed_value (py : Interpreter) {a b : FiniteDecimal} (h : fixed a = fixed b) :
    a.value = b.value := by
  have hspread : (some (.finite a.spread) : Option Decimal) = some (.finite b.spread) := by
    rw [← Decimal.ofText_fixedText py.unicode, ← Decimal.ofText_fixedText py.unicode, String.ofList_injective h]
  rw [← FiniteDecimal.spread_value a, ← FiniteDecimal.spread_value b, Decimal.finite.inj (Option.some.inj hspread)]

theorem values_of_fixed (py : Interpreter) {as bs : List FiniteDecimal} (h : as.map fixed = bs.map fixed) :
    as.map FiniteDecimal.value = bs.map FiniteDecimal.value := by
  induction as generalizing bs with
  | nil =>
    cases bs with
    | nil => rfl
    | cons b bs => cases h
  | cons a as ih =>
    cases bs with
    | nil => cases h
    | cons b bs =>
      rw [List.map_cons, List.map_cons, List.cons.injEq] at h ⊢
      exact ⟨fixed_value py h.1, ih h.2⟩

/-- The sum of the quantities is the steps of the targets. -/
theorem sum_steps (hinc : Increment py text step)
    (h : targets.mapM (legQuantity quantity step) = some quantities) :
    (quantities.map FiniteDecimal.value).sum =
      ((targets.map (stepsOf quantity step)).sum : ℤ) * step.value := by
  induction targets generalizing quantities with
  | nil =>
    cases h
    simp
  | cons target targets ih =>
    rw [List.mapM_cons] at h
    obtain ⟨d, hd, h⟩ := Option.bind_eq_some_iff.mp h
    obtain ⟨rest, hrest, h⟩ := Option.bind_eq_some_iff.mp h
    cases h
    rw [List.map_cons, List.sum_cons, List.map_cons, List.sum_cons, legQuantity_value hinc hd, ih hrest]
    push_cast
    ring

theorem legs_of_mapM (h : targets.mapM (legQuantity quantity step) = some quantities) :
    (∀ d ∈ quantities, ∃ target ∈ targets, legQuantity quantity step target = some d) ∧
      ∀ target ∈ targets, ∃ d ∈ quantities, legQuantity quantity step target = some d := by
  have hsome := mapM_eq_some_iff.mp h
  constructor
  · intro d hd
    have hmem : some d ∈ targets.map (legQuantity quantity step) := hsome ▸ List.mem_map_of_mem hd
    exact List.mem_map.mp hmem
  · exact mapM_some h

/-- A ladder denied for something else. -/
theorem Fitting.denied {position : FiniteDecimal} {reason detail : String}
    (h : reason ≠ "quantity_exceeds_position") :
    Fitting position (.error (.denied reason detail)) := by
  refine ⟨nofun, fun detail' heq => ?_, nofun⟩
  cases heq
  exact h rfl

/-- **A ladder that can be written fits** exactly when its targets do. -/
theorem Called.written_fits_iff (hcall : Called py call step priceStep) {k : Nat}
    (hposition : call.position.quantity.value = k * step.value)
    (hby : ∀ target ∈ call.targets, ByFraction target) (hlength : call.targets.length ≤ 99)
    (hholds : LegsHold call.position.quantity step priceStep call.targets)
    (hvanish : ∀ target ∈ call.targets, ¬ Vanishes call.position.quantity target)
    (hsome : call.targets ≠ []) :
    Fitting call.position.quantity (buildTakeProfitLadder py call) ↔
      LegsFit call.position.quantity step k call.targets := by
  obtain ⟨quantities, total, plans, hmap, hsum, hplans, hloop⟩ :=
    @Called.loop_ok _ _ _ _ _ ([], .zero) 0 hcall hby hholds hvanish ⟨le_of_eq FiniteDecimal.zero_value.symm, by simp⟩
      (by omega)
  have hpositive := hcall.quantityIncrement.positive
  have hresult : buildTakeProfitLadder py call =
      if call.position.quantity.lt total then
        .error (.denied "quantity_exceeds_position" (fixed total ++ ">" ++ formatDecimal call.position.quantity))
      else .ok plans := by
    rw [buildTakeProfitLadder, if_neg hsome, hloop]
    rfl
  have hsteps := sum_steps hcall.quantityIncrement hmap
  have hlegs := legs_of_mapM hmap
  have hhalf (target : TakeProfitTarget) (htarget : target ∈ call.targets) {d : FiniteDecimal}
      (hd : legQuantity call.position.quantity step target = some d) :=
    (hby target htarget).leg_pos_iff hcall.position hcall.quantityIncrement (hvanish target htarget) hd
  rw [hresult]
  constructor
  · intro hfit
    have hle : ¬ call.position.quantity.lt total = true := fun hlt => hfit.notExceeding _ (if_pos hlt)
    obtain ⟨given, hgiven, hpos, hbound⟩ := hfit.quantities plans (if_neg hle)
    have hvalues := values_of_fixed py (hgiven.symm.trans hplans)
    rw [hvalues, hsteps, hposition] at hbound
    refine ⟨fun target htarget => ?_, ?_, fun quantities' total' hmap' hsum' => ?_⟩
    · obtain ⟨d, hmem, hd⟩ := hlegs.2 target htarget
      have hvalue : d.value ∈ given.map FiniteDecimal.value := hvalues ▸ List.mem_map_of_mem hmem
      obtain ⟨g, hg, hgd⟩ := List.mem_map.mp hvalue
      exact (hhalf target htarget hd).mp (hgd ▸ hpos g hg)
    · have hcast := le_of_mul_le_mul_right hbound hpositive
      exact_mod_cast hcast
    · cases hmap.symm.trans hmap'
      cases hsum.symm.trans hsum'
      rw [FiniteDecimal.lt_iff, not_lt] at hle
      exact hle
  · intro hfit
    have hle : ¬ call.position.quantity.lt total = true := by
      rw [FiniteDecimal.lt_iff, not_lt]
      exact hfit.total quantities total hmap hsum
    rw [if_neg hle]
    refine ⟨nofun, nofun, fun given hgiven => ?_⟩
    cases hgiven
    refine ⟨quantities, hplans, fun d hd => ?_, ?_⟩
    · obtain ⟨target, htarget, hd⟩ := hlegs.1 d hd
      exact (hhalf target htarget hd).mpr (hfit.half target htarget)
    · rw [hsteps, hposition]
      refine mul_le_mul_of_nonneg_right ?_ hpositive.le
      exact_mod_cast hfit.sum

/-- **When a ladder by fractions fits its position**: every target up to one whose share is nothing can be
written, and without such a target each share is half an increment at least and the shares, each rounded
half up, are no more than the position. -/
theorem ladder_fits_iff {k : Nat} (hquantity : Increment py call.instrument.quantityIncrement step)
    (hprice : Increment py call.instrument.priceIncrement priceStep) (hk : 0 < k)
    (hposition : call.position.quantity.value = k * step.value)
    (hby : ∀ target ∈ call.targets, ByFraction target) (hlength : call.targets.length ≤ 99) :
    Fitting call.position.quantity (buildTakeProfitLadder py call) ↔
      LegsHold call.position.quantity step priceStep call.targets ∧
        ((∀ target ∈ call.targets, ¬ Vanishes call.position.quantity target) →
          LegsFit call.position.quantity step k call.targets) := by
  have hcall : Called py call step priceStep := by
    refine ⟨hquantity, hprice, ?_⟩
    rw [hposition]
    exact mul_pos (by exact_mod_cast hk) hquantity.positive
  have hzero : Partial step 0 .zero := ⟨le_of_eq FiniteDecimal.zero_value.symm, by simp⟩
  by_cases hnone : call.targets = []
  · have hresult : buildTakeProfitLadder py call = .error (.denied "take_profit_required" "targets") := by
      rw [buildTakeProfitLadder, if_pos hnone]
    rw [hresult, hnone]
    refine iff_of_true (.denied (by decide)) ⟨trivial, fun _ => ⟨List.forall_mem_nil _, ?_, ?_⟩⟩
    · simp
    · intro quantities total hmap hsum
      cases hmap
      cases hsum
      rw [FiniteDecimal.zero_value]
      exact hcall.position.le
  by_cases hholds : LegsHold call.position.quantity step priceStep call.targets
  · by_cases hvanish : ∃ target ∈ call.targets, Vanishes call.position.quantity target
    · have hresult : buildTakeProfitLadder py call =
      .error (.denied "unsupported_order_spec" "quantity") := by
        rw [buildTakeProfitLadder, if_neg hnone, hcall.loop_denied (n := 0) hby hholds hvanish hzero (by omega)]
        rfl
      rw [hresult]
      refine iff_of_true (.denied (by decide)) ⟨hholds, fun hnothing => ?_⟩
      obtain ⟨target, htarget, hnothing'⟩ := hvanish
      exact absurd hnothing' (hnothing target htarget)
    · have hno : ∀ target ∈ call.targets, ¬ Vanishes call.position.quantity target :=
        fun target htarget h => hvanish ⟨target, htarget, h⟩
      rw [hcall.written_fits_iff hposition hby hlength hholds hno hnone]
      exact ⟨fun hfit => ⟨hholds, fun _ => hfit⟩, fun h => h.2 hno⟩
  · refine iff_of_false (fun hfit => hfit.noRaise ?_) fun h => hholds h.1
    rw [buildTakeProfitLadder, if_neg hnone, hcall.loop_raised (n := 0) hby hholds hzero (by omega)]
    rfl

theorem one_lt_uuids : 1 < 2 ^ 128 := by decide

/-- A half of the position at 110 and a half at 120, in whole units. -/
def halves (quantity : FiniteDecimal) : LadderCall where
  intentId := ⟨1, one_lt_uuids⟩
  accountId := "main"
  instrumentId := "BTCUSDT-PERP.BINANCE"
  position := { positionKey := "main:BTCUSDT-PERP.BINANCE:LONG", side := "LONG", quantity }
  initialStopPrice := ⟨false, 90, 0, by decide⟩
  targets := [
    { price := some (.finite ⟨false, 110, 0, .hundredTen⟩), fraction := some ⟨false, 5, -1, by decide⟩ },
    { price := some (.finite ⟨false, 120, 0, by decide⟩), fraction := some ⟨false, 5, -1, by decide⟩ }]
  instrument := { instrumentId := "BTCUSDT-PERP.BINANCE", quantityIncrement := "1", priceIncrement := "0.1" }

def unit : FiniteDecimal := ⟨false, 1, 0, .one⟩
def tenUnits : FiniteDecimal := ⟨false, 10, 0, by decide⟩
def tenth : FiniteDecimal := ⟨false, 1, -1, .tenth⟩

theorem halves_byFraction (quantity : FiniteDecimal) :
    ∀ target ∈ (halves quantity).targets, ByFraction target := by
  intro target htarget
  simp only [halves, List.mem_cons, List.not_mem_nil, or_false] at htarget
  rcases htarget with rfl | rfl
  · exact ⟨rfl, rfl, ⟨_, rfl, by decide +kernel⟩, rfl⟩
  · exact ⟨rfl, rfl, ⟨_, rfl, by decide +kernel⟩, rfl⟩

/-- Of ten units each half is five. -/
theorem tenUnits_fit :
    LegsHold tenUnits unit tenth (halves tenUnits).targets ∧
      ((∀ target ∈ (halves tenUnits).targets, ¬ Vanishes tenUnits target) →
        LegsFit tenUnits unit 10 (halves tenUnits).targets) := by
  have hvalue : (halves tenUnits).position.quantity.value = (10 : Nat) * unit.value := by decide +kernel
  refine (@ladder_fits_iff Venue.ascii _ _ (halves tenUnits) _ ⟨by decide +kernel, by decide +kernel, by decide,
    by decide⟩ ⟨by decide +kernel, by decide +kernel, by decide, by decide⟩ (by decide) hvalue
    (halves_byFraction tenUnits) (by decide)).mp ?_
  have hfive : ((buildTakeProfitLadder Venue.ascii (halves tenUnits)).toOption.map fun plans =>
      plans.map TakeProfitPlan.quantity) = some ["5", "5"] := by decide +kernel
  obtain ⟨plans, hplans, hquantities⟩ := Option.map_eq_some_iff.mp hfive
  rw [toOption_some hplans]
  refine ⟨nofun, nofun, fun given hgiven => ?_⟩
  cases hgiven
  refine ⟨[⟨false, 5, 0, by decide⟩, ⟨false, 5, 0, by decide⟩], hquantities.trans (by decide +kernel), ?_, ?_⟩
  · decide +kernel
  · decide +kernel

/-- Of one unit each half is rounded to a unit, and the ladder is refused. -/
theorem oneUnit_refused :
    (∀ target ∈ (halves unit).targets, ByFraction target ∧ ∀ f ∈ target.fraction, f.value ≤ 1) ∧
      (((halves unit).targets.filterMap TakeProfitTarget.fraction).map FiniteDecimal.value).sum = 1 ∧
      buildTakeProfitLadder Venue.ascii (halves unit) = .error (.denied "quantity_exceeds_position" "2>1") ∧
      ¬ Fitting (halves unit).position.quantity (buildTakeProfitLadder Venue.ascii (halves unit)) := by
  have hrefused : buildTakeProfitLadder Venue.ascii (halves unit) =
      .error (.denied "quantity_exceeds_position" "2>1") := by decide +kernel
  refine ⟨fun target htarget => ⟨halves_byFraction unit target htarget, ?_⟩, by decide +kernel, hrefused, fun hfit => ?_⟩
  · simp only [halves, List.mem_cons, List.not_mem_nil, or_false] at htarget
    rcases htarget with rfl | rfl
    · decide +kernel
    · decide +kernel
  · exact hfit.notExceeding _ hrefused

end
end TraderBot.TakeProfitLadder
