import TraderBot.Lib.DateTime
import TraderBot.Lib.DecimalRound

/-! # The zone ladder

`expand_zone_to_plan` turns a price zone into up to three limit orders, after the
governor's geometry check has looked at one price and the stop. A float is the
decimal its `repr` writes, and one of a plan the decimal it is made of; floats are
finite. -/
namespace TraderBot.DecisionGateway
open TraderBot.Lib

inductive Side where
  | long
  | short
  deriving DecidableEq, Repr

/-! ## The geometry check -/

/-- What the check reads of an intent. -/
structure Intent where
  side : Option Side
  price : Option FiniteDecimal := none
  priceMin : Option FiniteDecimal
  stopLoss : Option FiniteDecimal
  takeProfits : List FiniteDecimal := []

/-- `xs == ys` of two lists of numbers. -/
def sameNumbers (xs ys : List FiniteDecimal) : Bool :=
  xs.length = ys.length && (xs.zip ys).all fun p => p.1.eq p.2

/-- `_geometry_error`. -/
def geometryError (intent : Intent) : Option String :=
  match intent.side, intent.price.or intent.priceMin, intent.stopLoss with
  | some .long, some price, some stopLoss =>
    if !stopLoss.lt price then some "long stop_loss must be below entry"
    else if !intent.takeProfits.all price.lt then some "long take_profits must be above entry"
    else if !sameNumbers intent.takeProfits (intent.takeProfits.insertionSort fun a b => a.le b = true) then
      some "long take_profits must be ascending"
    else none
  | some .short, some price, some stopLoss =>
    if !price.lt stopLoss then some "short stop_loss must be above entry"
    else if !intent.takeProfits.all (fun tp => tp.lt price) then some "short take_profits must be below entry"
    else if !sameNumbers intent.takeProfits (intent.takeProfits.insertionSort fun a b => b.le a = true) then
      some "short take_profits must be descending"
    else none
  | _, _, _ => none

/-! ## Signals and plans -/

/-- A time and its offset from UTC, none for a naive one. -/
abbrev Clock := DateTime × Option Int

structure ZoneSignal where
  side : Side
  priceMin : FiniteDecimal
  priceMax : FiniteDecimal
  stopLoss : Option FiniteDecimal
  takeProfits : List FiniteDecimal := []
  validUntil : Option Clock := none

structure MarketContext where
  p0 : FiniteDecimal
  now : Clock
  priceIncrement : FiniteDecimal
  quantityIncrement : FiniteDecimal

structure RiskContext where
  riskBudgetUsd : FiniteDecimal
  maxNotional : FiniteDecimal

/-- What ends an expansion without a plan: an error, or a denial with its reason
and detail. -/
inductive Stop where
  | valueError (message : String)
  | decimalSignal
  | timeOverflow
  | denied (reason detail : String)
  deriving DecidableEq, Repr

inductive Style where
  | chase
  | rest
  deriving DecidableEq, Repr

structure Tranche where
  trancheId : String
  seq : Nat
  price : FiniteDecimal
  riskWeight : FiniteDecimal
  style : Style
  limitCap : Option FiniteDecimal := none
  deriving DecidableEq, Repr

inductive Mode where
  | zoneLadder
  | singleLimit
  deriving DecidableEq, Repr

structure PlannedTranche extends Tranche where
  quantity : FiniteDecimal
  deriving DecidableEq, Repr

structure Invalidation where
  cancelOnPriceTouch : Option FiniteDecimal
  cancelOnCloseBeyond : FiniteDecimal
  closeBar : String := "15m"
  expiresAt : String
  deriving DecidableEq, Repr

structure OrderPlan where
  planVersion : String := "1.1"
  policy : String := "zone-ladder-v1.0"
  mode : Mode
  tranches : List PlannedTranche
  stopLoss : FiniteDecimal
  takeProfits : List FiniteDecimal
  invalidation : Invalidation
  deriving DecidableEq, Repr

/-! ## Arithmetic -/

/-- A literal of the source. -/
def literal (coeff : Nat) (exponent : Int) (h : Decimal.InRange coeff exponent := by decide) : FiniteDecimal :=
  ⟨false, coeff, exponent, h⟩

def chaseWindow : FiniteDecimal := literal 35 (-4)
def narrowZoneThreshold : FiniteDecimal := literal 15 (-4)
def invalidationBuffer : FiniteDecimal := literal 2 (-1)
def one : FiniteDecimal := literal 1 0

/-- An operation that may raise a signal. -/
def raising {α : Type} (x : Option α) : Except Stop α :=
  match x with
  | some a => .ok a
  | none => .error .decimalSignal

def add (a b : FiniteDecimal) : Except Stop FiniteDecimal := raising (Decimal.add a b)
def sub (a b : FiniteDecimal) : Except Stop FiniteDecimal := raising (Decimal.sub a b)
def mul (a b : FiniteDecimal) : Except Stop FiniteDecimal := raising (Decimal.mul a b)
def div (a b : FiniteDecimal) : Except Stop FiniteDecimal := raising (Decimal.div a b)

/-- `abs(a - b)`. -/
def absDifference (a b : FiniteDecimal) : Except Stop FiniteDecimal := do
  let d ← sub a b
  raising (Decimal.fix false d.coeff d.exponent)

def roundToIncrement (value increment : FiniteDecimal) (rounding : Rounding) : Except Stop FiniteDecimal := do
  let steps ← raising (Decimal.toIntegralValue rounding (← div value increment))
  mul steps increment

def floorToIncrement (value increment : FiniteDecimal) : Except Stop FiniteDecimal :=
  if value.le .zero then .ok .zero else roundToIncrement value increment .floor

/-! ## Tranches -/

structure TrancheLevel where
  trancheId : String
  seq : Nat
  depth : FiniteDecimal
  weight : FiniteDecimal
  deriving DecidableEq, Repr

def trancheLevels : List TrancheLevel :=
  [⟨"t1_near", 1, .zero, literal 55 (-2)⟩, ⟨"t2_mid", 2, literal 50 (-2), literal 30 (-2)⟩,
    ⟨"t3_deep", 3, literal 85 (-2), literal 15 (-2)⟩]

/-- `_rest_price`: a long waits below, a short above. -/
def restPrice (side : Side) (price priceIncrement : FiniteDecimal) : Except Stop FiniteDecimal :=
  roundToIncrement price priceIncrement (match side with | .long => .floor | .short => .ceiling)

/-- `_tranche_price`. -/
def tranchePrice (side : Side) (near height depth priceIncrement : FiniteDecimal) : Except Stop FiniteDecimal := do
  let inside ← mul depth height
  let raw ← match side with
    | .long => sub near inside
    | .short => add near inside
  restPrice side raw priceIncrement

/-- `_depth`. -/
def depthOf (side : Side) (p0 near height : FiniteDecimal) : Except Stop FiniteDecimal := do
  let passed ← match side with
    | .long => sub near p0
    | .short => sub p0 near
  div passed height

/-- `_premium`. -/
def premiumOf (side : Side) (p0 near : FiniteDecimal) : Except Stop FiniteDecimal := do
  let away ← match side with
    | .long => sub p0 near
    | .short => sub near p0
  div away near

/-- `_limit_cap`. -/
def limitCap (side : Side) (near : FiniteDecimal) : Except Stop FiniteDecimal := do
  let factor ← match side with
    | .long => add one chaseWindow
    | .short => sub one chaseWindow
  mul near factor

/-- The first tranche chases. -/
def chaseFirst (side : Side) (near : FiniteDecimal) : List Tranche → Except Stop (List Tranche)
  | [] => .ok []
  | t :: ts => do return { t with style := .chase, limitCap := some (← limitCap side near) } :: ts

/-- A price the market has not passed. -/
def favorable (side : Side) (p0 price : FiniteDecimal) : Bool :=
  match side with
  | .long => price.lt p0
  | .short => p0.lt price

/-- One turn of the loop of `_keep_stale_favorable_tranches`: the tranches that
are kept, and the weight of those that were not since. -/
def keepStep (side : Side) (p0 : FiniteDecimal) (state : List Tranche × FiniteDecimal) (t : Tranche) :
    Except Stop (List Tranche × FiniteDecimal) :=
  if favorable side p0 t.price then do
    return (state.1 ++ [{ t with riskWeight := ← add t.riskWeight state.2 }], .zero)
  else do return (state.1, ← add state.2 t.riskWeight)

/-- The weight of one tranche, raised. -/
def addWeight (ts : List Tranche) (i : Nat) (weight : FiniteDecimal) : Except Stop (List Tranche) :=
  match ts[i]? with
  | none => .ok ts
  | some t => do return ts.set i { t with riskWeight := ← add t.riskWeight weight }

def keepStaleFavorableTranches (side : Side) (p0 : FiniteDecimal) : List Tranche → Except Stop (List Tranche)
  | [] => .ok []
  | t :: ts => do
    let (kept, carry) ← ts.foldlM (keepStep side p0) ([t], .zero)
    if carry.coeff ≠ 0 then addWeight kept (kept.length - 1) carry else return kept

/-- The tranches of the three levels. -/
def baseTranches (side : Side) (near height priceIncrement : FiniteDecimal) : Except Stop (List Tranche) :=
  trancheLevels.mapM fun level => do
    return {
      trancheId := level.trancheId, seq := level.seq
      price := ← tranchePrice side near height level.depth priceIncrement
      riskWeight := level.weight, style := .rest }

/-- `_zone_ladder_tranches`. -/
def zoneLadderTranches (side : Side) (p0 near height depth priceIncrement : FiniteDecimal) :
    Except Stop (List Tranche) := do
  let base ← baseTranches side near height priceIncrement
  if FiniteDecimal.zero.lt depth ∧ depth.le one then
    keepStaleFavorableTranches side p0 (← chaseFirst side near base)
  else if (← premiumOf side p0 near).le chaseWindow then chaseFirst side near base
  else return base

/-- `_single_limit_tranche`. -/
def singleLimitTranche (side : Side) (priceMin priceMax priceIncrement : FiniteDecimal) : Except Stop Tranche := do
  let midpoint ← div (← add priceMin priceMax) (literal 2 0)
  return {
    trancheId := "t1_near", seq := 1, price := ← restPrice side midpoint priceIncrement
    riskWeight := one, style := .rest }

/-! ## Sizes -/

/-- What the sizes are computed with. -/
structure Sizing where
  stopLoss : FiniteDecimal
  riskBudget : FiniteDecimal
  maxNotional : FiniteDecimal
  quantityIncrement : FiniteDecimal

/-- The quantity whose loss at the stop is the tranche's share of the budget. -/
def rawQuantity (s : Sizing) (t : Tranche) : Except Stop (Tranche × FiniteDecimal) := do
  let distance ← absDifference t.price s.stopLoss
  if distance.le .zero then .error (.denied "needs_review" "invalid_stop_loss")
  else return (t, ← div (← mul s.riskBudget t.riskWeight) distance)

def scaleOf (s : Sizing) (total : FiniteDecimal) : Except Stop FiniteDecimal :=
  if s.maxNotional.le .zero then .ok .zero
  else if s.maxNotional.lt total then div s.maxNotional total
  else .ok one

/-- `_size_once`. -/
def sizeOnce (s : Sizing) (tranches : List Tranche) : Except Stop (List (Tranche × FiniteDecimal)) := do
  let raw ← tranches.mapM (rawQuantity s)
  let total ← raw.foldlM (fun total p => do add total (← mul p.2 p.1.price)) .zero
  let scale ← scaleOf s total
  raw.mapM fun p => do return (p.1, ← floorToIncrement (← mul p.2 scale) s.quantityIncrement)

/-- The loop of `_sized_tranches`: a tranche whose quantity is nothing is
dropped, and its weight goes to a neighbour. -/
def sizeLoop (s : Sizing) : Nat → List Tranche → Except Stop (List (Tranche × FiniteDecimal))
  | 0, _ => .error (.denied "needs_review" "quantity_below_increment")
  | n + 1, working => do
    let sized ← sizeOnce s working
    match sized.findIdx? fun p => p.2.le .zero with
    | none => return sized
    | some i =>
      if working.length = 1 then .error (.denied "needs_review" "quantity_below_increment")
      else
        let rest := working.eraseIdx i
        let weight := (working[i]?.map Tranche.riskWeight).getD .zero
        sizeLoop s n (← addWeight rest (if i < rest.length then i else rest.length - 1) weight)

def sizedTranches (s : Sizing) (tranches : List Tranche) : Except Stop (List (Tranche × FiniteDecimal)) :=
  sizeLoop s (tranches.length + 1) tranches

/-! ## The plan -/

/-- `_as_utc`. -/
def asUtc (value : Clock) : Except Stop DateTime :=
  match DateTime.toUtc value with
  | some x => .ok x
  | none => .error .timeOverflow

/-- `_expires_at`. -/
def expiresAt (now : Clock) (validUntil : Option Clock) : Except Stop String := do
  let nowUtc ← asUtc now
  let ttl ← match DateTime.ofMicros (nowUtc.toMicros + 48 * 3600 * 1000000) with
    | some x => .ok x
    | none => .error .timeOverflow
  let until' ← match validUntil with
    | some value => asUtc value
    | none => .ok ttl
  let expires := if ttl.toMicros < until'.toMicros then ttl else until'
  return String.ofList (DateTime.isoBody expires ++ ['Z'])

def invalidationOf (signal : ZoneSignal) (market : MarketContext) (far height : FiniteDecimal) :
    Except Stop Invalidation := do
  let buffer ← mul invalidationBuffer height
  let closeBeyond ← match signal.side with
    | .long => sub far buffer
    | .short => add far buffer
  return {
    cancelOnPriceTouch := signal.takeProfits.head?, cancelOnCloseBeyond := closeBeyond
    expiresAt := ← expiresAt market.now signal.validUntil }

/-- The bound of the zone the market meets first. -/
def ZoneSignal.near (signal : ZoneSignal) : FiniteDecimal :=
  match signal.side with
  | .long => signal.priceMax
  | .short => signal.priceMin

def ZoneSignal.far (signal : ZoneSignal) : FiniteDecimal :=
  match signal.side with
  | .long => signal.priceMin
  | .short => signal.priceMax

/-- The checks before the ladder; the height of the zone. -/
def checkedHeight (signal : ZoneSignal) (market : MarketContext) : Except Stop FiniteDecimal :=
  if signal.priceMax.le signal.priceMin then .error (.valueError "price_max must be greater than price_min")
  else if market.priceIncrement.le .zero ∨ market.quantityIncrement.le .zero then
    .error (.valueError "increments must be positive")
  else sub signal.priceMax signal.priceMin

/-- The mode and the tranches that are proposed, at a depth. -/
def proposedTranches (signal : ZoneSignal) (market : MarketContext) (height depth : FiniteDecimal) :
    Except Stop (Mode × List Tranche) := do
  if (← div height signal.near).lt narrowZoneThreshold then
    return (.singleLimit,
      [← singleLimitTranche signal.side signal.priceMin signal.priceMax market.priceIncrement])
  else
    return (.zoneLadder,
      ← zoneLadderTranches signal.side market.p0 signal.near height depth market.priceIncrement)

def expandZoneToPlan (signal : ZoneSignal) (market : MarketContext) (risk : RiskContext) :
    Except Stop OrderPlan := do
  let height ← checkedHeight signal market
  let depth ← depthOf signal.side market.p0 signal.near height
  if one.lt depth then .error (.denied "needs_review" "zone_penetrated")
  else
    match signal.stopLoss with
    | none => .error (.denied "needs_review" "missing_stop_loss")
    | some stopLoss =>
      let (mode, tranches) ← proposedTranches signal market height depth
      let sized ← sizedTranches {
        stopLoss, riskBudget := risk.riskBudgetUsd, maxNotional := risk.maxNotional
        quantityIncrement := market.quantityIncrement } tranches
      return {
        mode, tranches := sized.map fun p => { p.1 with quantity := p.2 }, stopLoss
        takeProfits := signal.takeProfits
        invalidation := ← invalidationOf signal market signal.far height }

end TraderBot.DecisionGateway
