import TraderBot.Lib.DecimalRound
import TraderBot.Planner.ClientOrderIds
import TraderBot.Venue.Ledger

/-! # What the intent planner reads and writes

The intent, the context and the plans of `plan_intent_execution`, with what every
order is made of: rounding to an increment, the authorization, the tags and the
order specification. An intent and its plan are decoded JSON; decimals are those
of Python, with the arithmetic as a parameter (`Arithmetic`): that of the default
context, or one that does not round. -/
namespace TraderBot.Planner
open TraderBot.Lib TraderBot.Lib.Text TraderBot.Lib.Json
open TraderBot.Venue (Interpreter PositionSnapshot PositionState PositionAssessment BookKey Evidence
  ReconciledExecutionState)

/-! ## Arithmetic -/

/-- The decimal operations of the planner; `none` raises. -/
structure Arithmetic where
  add : FiniteDecimal → FiniteDecimal → Option FiniteDecimal
  mul : FiniteDecimal → FiniteDecimal → Option FiniteDecimal
  normalize : FiniteDecimal → Option FiniteDecimal
  /-- `(value / step).quantize(Decimal("1"), rounding) * step`. -/
  snap : Rounding → FiniteDecimal → FiniteDecimal → Option FiniteDecimal
  /-- `value.quantize(step)`. -/
  fit : FiniteDecimal → FiniteDecimal → Option FiniteDecimal

/-- The default context. A product with the step has the place of the step, so
that the last `quantize` drops nothing, in whatever way it rounds. -/
def defaultContext : Arithmetic where
  add := Decimal.add
  mul := Decimal.mul
  normalize := Decimal.normalize
  snap rounding value step := do
    let steps ← Decimal.quantize rounding (← Decimal.div value step) 0
    Decimal.mul steps step
  fit value step := Decimal.quantize .down value step.exponent

/-- Exact numbers: a quotient is rounded to whole steps, and nothing else is
rounded. What the library cannot hold raises. -/
def exactNumbers : Arithmetic where
  add a b :=
    let e := min a.exponent b.exponent
    let sum := a.scaled e + b.scaled e
    FiniteDecimal.mk? (decide (sum < 0)) sum.natAbs e
  mul a b := FiniteDecimal.mk? (a.negative != b.negative) (a.coeff * b.coeff) (a.exponent + b.exponent)
  normalize d :=
    let kept := if d.coeff = 0 then (0, 0) else Decimal.dropZeros (Decimal.width d.coeff) d.coeff d.exponent
    FiniteDecimal.mk? d.negative kept.1 kept.2
  snap rounding value step :=
    if step.coeff = 0 then none
    else
      let negative := value.negative != step.negative
      let shift := value.exponent - step.exponent
      let steps := rounding.digits negative (value.coeff * 10 ^ shift.toNat) (step.coeff * 10 ^ (-shift).toNat)
      FiniteDecimal.mk? negative (steps * step.coeff) step.exponent
  fit value step := FiniteDecimal.mk? value.negative (Decimal.rescale .down value step.exponent) step.exponent

/-! ## Intents and contexts -/

/-- A time and its offset from UTC, none for a naive one. -/
abbrev Clock := DateTime × Option Int

structure Intent where
  intentId : Uuid
  action : String
  accountId : String
  instrumentId : String
  decisionId : String
  riskDecisionId : String
  idempotencyKey : String
  validUntil : Clock
  targetPositionId : Option String := none
  orderPlan : Option (Dict Value) := none
  execution : Option (Dict Value) := none
  sizing : Option (Dict Value) := none
  riskBudget : Option (Dict Value) := none

/-- `intent.order_plan or {}`. -/
def Intent.plan (intent : Intent) : Dict Value := intent.orderPlan.getD Dict.empty

structure InstrumentSpec where
  instrumentId : String
  priceIncrement : String
  quantityIncrement : String
  deriving DecidableEq, Repr

/-- What the planner reads of an order. -/
structure OrderSnapshot where
  clientOrderId : String
  instrumentId : String
  tags : List String := []
  deriving DecidableEq, Repr

/-- A reconciled state, with the evidence it was built from. -/
structure Reconciled (py : Interpreter) where
  accountId : String
  evidence : Evidence
  state : ReconciledExecutionState
  built : ReconciledExecutionState.build py accountId evidence = some state

structure PlannerContext (py : Interpreter) where
  accountId : String
  tradingState : String
  now : Clock
  instrument : Option InstrumentSpec
  position : Option PositionSnapshot := none
  positions : List PositionSnapshot := []
  existingOrders : List OrderSnapshot := []
  existingIntentIds : List String := []
  effectiveSettings : Option (Dict Value) := none
  reconciledState : Option (Reconciled py) := none
  simulation : Bool := false

inductive OrderSide where
  | buy
  | sell
  deriving DecidableEq, Repr

def OrderSide.text : OrderSide → String
  | .buy => "BUY"
  | .sell => "SELL"

inductive OrderType where
  | market
  | limit
  | stopMarket
  | stopLimit
  | marketIfTouched
  deriving DecidableEq, Repr

structure OrderPlan where
  intentId : Uuid
  clientOrderId : String
  tags : List String
  instrumentId : String
  side : OrderSide
  orderType : OrderType
  quantity : String
  price : Option String
  timeInForce : String
  reduceOnly : Bool := false
  triggerPrice : Option String := none
  postOnly : Bool := false
  maxSlippageBps : Option String := none
  guardPrice : Option String := none
  approvedMaxNotional : Option String := none
  deriving DecidableEq, Repr

/-- `authorization`, where there is one. -/
structure Authorization where
  authorizedByType : String
  authorizedById : String
  sourceMessageId : String
  parentIntentId : String
  currentIntentId : String
  decisionId : String
  riskDecisionId : String
  idempotencyKey : String
  channelId : Option String
  deriving DecidableEq, Repr

inductive Action where
  | openPosition
  | addPosition
  | partialClose
  | closePosition
  | moveStopLoss
  | moveStopToEntry
  | replaceTakeProfits
  | cancelOrder
  deriving DecidableEq, Repr

def Action.text : Action → String
  | .openPosition => "open_position"
  | .addPosition => "add_position"
  | .partialClose => "partial_close"
  | .closePosition => "close_position"
  | .moveStopLoss => "move_stop_loss"
  | .moveStopToEntry => "move_stop_to_entry"
  | .replaceTakeProfits => "replace_take_profits"
  | .cancelOrder => "cancel"

/-- An action that is supported, under one of its names. -/
def Action.ofText? (text : String) : Option Action :=
  if text = "cancel_order" then some .cancelOrder
  else [openPosition, addPosition, partialClose, closePosition, moveStopLoss, moveStopToEntry,
    replaceTakeProfits, cancelOrder].find? fun a => a.text = text

/-- `ENTRY_ACTIONS`. -/
def Action.isEntry (a : Action) : Bool := a = .openPosition ∨ a = .addPosition

structure ManagementPlan where
  intentId : Uuid
  action : Action
  instrumentId : String
  targetPositionId : Option String
  targetPositionSide : Option String
  cancelOrderIds : List String
  orders : List OrderPlan
  cancelAfterSubmit : Bool := false
  authorization : Authorization
  disableTakeProfits : Bool := false
  deriving DecidableEq, Repr

inductive Plan where
  | entry (order : OrderPlan)
  | management (plan : ManagementPlan)
  deriving DecidableEq, Repr

/-- What ends planning without a plan: an exception, or a denial. -/
inductive Stop where
  | raised
  | denied (reason detail : String)
  deriving DecidableEq, Repr

/-- An operation that may raise. -/
def raising {α : Type} (x : Option α) : Except Stop α :=
  match x with
  | some a => .ok a
  | none => .error .raised

def unsupported {α : Type} (detail : String) : Except Stop α := .error (.denied "unsupported_order_spec" detail)

section
variable (A : Arithmetic) (py : Interpreter)

/-! ## Reading values -/

/-- `str(v)` of a lookup with a default. -/
def shown (v : Option Value) (default : String) : String :=
  match v with
  | some v => py.str v
  | none => default

/-- `_first_present`. -/
def firstPresent (values : List (Option Value)) : Option Value := values.findSome? Json.present

/-- `_get` of an attribute. -/
def attribute? (obj : Option (Dict Value)) (name : String) : Option Value := obj.bind fun d => d.get? name

/-- `_decimal`. -/
def decimalOf (raw : Option Value) (field : String) : Except Stop Decimal :=
  match (Json.present raw).bind (Decimal.ofValue py.unicode) with
  | some d => .ok d
  | none => unsupported field

/-- `Decimal(text)`, which raises. -/
def decimalText (text : String) : Except Stop Decimal := raising (Decimal.ofText py.unicode text.toList)

/-- `d <= 0`. -/
def notPositive (d : Decimal) : Except Stop Bool := raising (d.le? (.finite .zero))

/-- `format(d, "f")`. -/
def fixed (d : FiniteDecimal) : String := String.ofList (Decimal.fixedText d)

def fixedDecimal : Decimal → String
  | .finite d => fixed d
  | .infinity negative => if negative then "-Infinity" else "Infinity"
  | .nan negative signaling payload =>
    (if negative then "-" else "") ++ (if signaling then "sNaN" else "NaN") ++
      if payload = 0 then "" else toString payload

/-! ## Rounding -/

/-- The step of an increment. -/
def stepOf (increment field : String) : Except Stop Decimal := do
  let step ← decimalOf py (some (.str increment)) (field ++ ".increment")
  if ← notPositive step then unsupported (field ++ ".increment") else return step

/-- A value in steps; one that is not finite raises, and so does such a step. -/
def snapped (rounding : Rounding) (value step : Decimal) : Except Stop (FiniteDecimal × FiniteDecimal) :=
  match value, step with
  | .finite value, .finite step => do return (← raising (A.snap rounding value step), step)
  | _, _ => .error .raised

/-- `_round_to_increment`. -/
def roundToIncrement (value : Decimal) (increment field : String) : Except Stop String := do
  let step ← stepOf py increment field
  let (value, step) ← snapped A .halfUp value step
  return fixed (← raising (A.fit value step))

/-- `_round_down_to_increment`. -/
def roundDownToIncrement (value : Decimal) (increment field : String) : Except Stop String := do
  let step ← stepOf py increment field
  let (value, step) ← snapped A .down value step
  if value.le .zero then unsupported field else return fixed (← raising (A.fit value step))

/-- `_rounded_positive`. -/
def roundedPositive (raw : Option Value) (increment field : String) : Except Stop String := do
  let value ← decimalOf py raw field
  if ← notPositive value then unsupported field else roundToIncrement A py value increment field

/-- `_rounded_down_positive`. -/
def roundedDownPositive (raw : Option Value) (increment field : String) : Except Stop String := do
  let value ← decimalOf py raw field
  if ← notPositive value then unsupported field else roundDownToIncrement A py value increment field

/-! ## Authorization and tags -/

/-- The `authorization` of the plan, if it is a mapping. -/
def suppliedAuthorization (intent : Intent) : Value :=
  match intent.plan.get? "authorization" with
  | some (.obj members) => .obj members
  | _ => .obj []

/-- `str(supplied.get(k) or "").strip()`. -/
def suppliedText (intent : Intent) (k : String) : String :=
  strip (py.textOf ((suppliedAuthorization intent).get? k))

/-- `_authorization_source`. -/
def authorizationSource (intent : Intent) : Except Stop Authorization :=
  let supplied := suppliedText py intent
  let required {α : Type} (detail : String) : Except Stop α :=
    .error (.denied "authorization_source_required" detail)
  if supplied "authorized_by_type" ≠ "user" ∧ supplied "authorized_by_type" ≠ "channel" then
    required "authorized_by_type must be user or channel"
  else if supplied "authorized_by_id" = "" then required "authorized_by_id"
  else if supplied "source_message_id" = "" then required "source_message_id"
  else .ok {
    authorizedByType := supplied "authorized_by_type", authorizedById := supplied "authorized_by_id"
    sourceMessageId := supplied "source_message_id"
    parentIntentId :=
      if (Uuid.parse py.unicode (supplied "parent_intent_id")).isSome then supplied "parent_intent_id"
      else intent.intentId.str
    currentIntentId := intent.intentId.str, decisionId := intent.decisionId
    riskDecisionId := intent.riskDecisionId, idempotencyKey := intent.idempotencyKey
    channelId :=
      (Json.orElse ((suppliedAuthorization intent).get? "channel_id") none).map py.str }

/-- `_intent_tags`. -/
def intentTags (intent : Intent) (action : Action) (lifecycleRole positionId : Option String) : List String :=
  let tags := ["intent_id=" ++ intent.intentId.str, "decision_id=" ++ intent.decisionId,
    "risk_decision_id=" ++ intent.riskDecisionId, "idempotency_key=" ++ intent.idempotencyKey,
    "action=" ++ action.text, "account_id=" ++ intent.accountId]
  match authorizationSource py intent with
  | .error _ => tags
  | .ok a =>
    tags ++ ["parent_intent_id=" ++ a.parentIntentId, "authorized_by_type=" ++ a.authorizedByType,
        "authorized_by_id=" ++ a.authorizedById, "source_message_id=" ++ a.sourceMessageId] ++
      (match a.channelId with | some id => if id = "" then [] else ["channel_id=" ++ id] | none => []) ++
      (match lifecycleRole with | some role => ["lifecycle_role=" ++ role] | none => []) ++
      (match positionId with | some id => ["position_id=" ++ id] | none => [])

/-! ## Order specifications -/

def supportedTif : List String := ["GTC", "IOC", "FOK", "GTD"]

/-- `_parse_tif`. -/
def parseTif (raw : Option Value) (default : String) : Except Stop String :=
  let tif := py.unicode.upper (shown py (Json.orElse raw none) default)
  if supportedTif.contains tif then .ok tif else unsupported ("time_in_force=" ++ tif)

/-- `_parse_side`. -/
def parseSide (raw : Option Value) : Except Stop OrderSide :=
  let side := py.unicode.lower (py.textOf raw)
  if side = "buy" then .ok .buy else if side = "sell" then .ok .sell else unsupported ("side=" ++ side)

structure OrderSpec where
  orderType : OrderType
  quantity : String
  price : Option String
  timeInForce : String

/-- `_zone_boundary_price`. -/
def zoneBoundaryPrice (plan : Dict Value) (instrument : InstrumentSpec) : Except Stop String := do
  if (plan.get? "price_min").isNone then unsupported "zone.price_min"
  else if (plan.get? "price_max").isNone then unsupported "zone.price_max"
  else
    let priceMin ← decimalOf py (plan.get? "price_min") "zone.price_min"
    let priceMax ← decimalOf py (plan.get? "price_max") "zone.price_max"
    if ← raising (priceMax.lt? priceMin) then unsupported "zone.price_min_gt_price_max"
    else
      let side := py.unicode.lower (shown py (plan.get? "side") "")
      roundToIncrement A py (if side = "buy" then priceMax else priceMin) instrument.priceIncrement "price"

/-- The price of an order of some type, with the default for its time in force. -/
def orderPrice (orderType : String) (plan : Dict Value) (instrument : InstrumentSpec) :
    Except Stop (OrderType × Option String × String) := do
  if orderType = "market" then return (.market, none, "IOC")
  else if orderType = "limit" then
    if (plan.get? "price").isNone then unsupported "limit.price"
    else return (.limit, some (← roundedPositive A py (plan.get? "price") instrument.priceIncrement "price"), "GTC")
  else if orderType = "zone" then return (.limit, some (← zoneBoundaryPrice A py plan instrument), "GTC")
  else unsupported ("type=" ++ orderType)

/-- `_build_order_spec`, which the planner only calls to round the quantity down. -/
def buildOrderSpec (plan : Dict Value) (instrument : InstrumentSpec) : Except Stop OrderSpec := do
  let quantity ← roundedDownPositive A py (plan.get? "quantity") instrument.quantityIncrement "quantity"
  let (orderType, price, default) ←
    orderPrice A py (py.unicode.lower (shown py (plan.get? "type") "")) plan instrument
  let timeInForce ← parseTif py (plan.get? "time_in_force") default
  return { orderType, quantity, price, timeInForce }

end
end TraderBot.Planner
