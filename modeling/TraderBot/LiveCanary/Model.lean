import TraderBot.Lib.DateTime
import TraderBot.Lib.DecimalValue
import TraderBot.Lib.Machine
import TraderBot.Lib.Returns
import TraderBot.Lib.Uuid

/-! # The execution store of the live canary

`JsonLiveCanaryExecutionStore` keeps one record for each permit: how far its one
order has come, what its fills and marks add up to, and, once the loss limit is
reached or the accounts do not add up, why it was halted and what is to be
closed. Each call takes the file's lock, reads the file, and writes it when
something changed. The file is kept as its records. -/
namespace TraderBot.LiveCanary
open TraderBot.Lib TraderBot.Lib.Text

/-! ## Refusals -/

/-- `LiveCanaryExecutionError` with its text, a `ValueError`, a time out of range, a
signal of the decimal context, or a file that is not written. -/
inductive Failure where
  | executionError (message : String)
  | valueError
  | overflow
  | decimalSignal
  | notSaved
  deriving DecidableEq, Repr

def orRaise {α : Type} (failure : Failure) : Option α → Except Failure α
  | some a => .ok a
  | none => .error failure

/-- `if condition: raise LiveCanaryExecutionError(message)`. -/
def refuseIf (condition : Bool) (message : String) : Except Failure Unit :=
  if condition then .error (.executionError message) else .ok ()

/-- An operation in the decimal context. -/
def signal {α : Type} (x : Option α) : Except Failure α := orRaise .decimalSignal x

/-! ## Identities -/

structure LiveCanaryExecutionIdentity where
  permitId : String
  releaseId : String
  intentId : String
  clientOrderId : String
  accountId : String
  nodeId : String
  symbol : String
  maxNotionalUsdt : String
  maxCumulativeLossUsdt : String
  authorizedLimitPriceUsdt : String
  expiresAt : String := ""
  portfolioBaselineSha256 : String := ""
  deriving DecidableEq, Repr

/-- `format(d, "f")`, read back. -/
def written (d : FiniteDecimal) : FiniteDecimal := d.spread

/-- `Decimal("12")`. -/
def notionalCap : FiniteDecimal := ⟨false, 12, 0, by decide⟩

/-- `Decimal("1.5")`. -/
def lossCap : FiniteDecimal := ⟨false, 15, -1, by decide⟩

/-- `_canonical_decimal_text`. -/
def canonicalDecimalText (d : FiniteDecimal) : Except Failure String := do
  let d ← signal (Decimal.normalize d)
  return String.ofList (Decimal.fixedText d)

section
variable (unicode : Unicode)

/-- A decimal that is finite and not below a bound: above it, or it itself where it is allowed. -/
def finiteDecimal (value label : String) (accepts : FiniteDecimal → Bool) (refusal : String) :
    Except Failure FiniteDecimal :=
  match Decimal.ofText unicode value.toList with
  | none => .error (.executionError (label ++ " must be a decimal"))
  | some (.finite d) => if accepts d then .ok d else .error (.executionError (label ++ refusal))
  | some (.infinity _) | some (.nan _ _ _) => .error (.executionError (label ++ refusal))

/-- `_positive_decimal`. -/
def positiveDecimal (value label : String) : Except Failure FiniteDecimal :=
  finiteDecimal unicode value label FiniteDecimal.isPositive " must be positive"

/-- `_non_negative_decimal`. -/
def nonNegativeDecimal (value label : String) : Except Failure FiniteDecimal :=
  finiteDecimal unicode value label (fun d => !d.isNegative) " must be non-negative"

/-- `Decimal(text)` of a text the store has written, which is finite. -/
def storedDecimal (text : String) : Except Failure FiniteDecimal :=
  match Decimal.ofText unicode text.toList with
  | some (.finite d) => .ok d
  | some (.infinity _) | some (.nan _ _ _) | none => .error .decimalSignal

/-- `_aware_timestamp`, in UTC. -/
def awareTimestamp (value label : String) : Except Failure DateTime :=
  let text := strip value
  if text = "" then .error (.executionError (label ++ " is required"))
  else
    match DateTime.fromisoformat (DateTime.replaceZulu text) with
    | none => .error (.executionError (label ++ " must be an ISO-8601 timestamp"))
    | some (_, none) => .error (.executionError (label ++ " must include a timezone"))
    | some (x, some offset) => orRaise .overflow (DateTime.toUtc (x, some offset))

/-- `deterministic_canary_client_order_id` of a UUID. -/
def entryOrderId (intent : Uuid) : String := "B" ++ String.ofList intent.hex ++ "01"

/-- `deterministic_canary_close_client_order_id` of a UUID. -/
def closeOrderId (intent : Uuid) : String := "B" ++ String.ofList intent.hex ++ "99"

/-- `LiveCanaryExecutionIdentity.normalized`. -/
def LiveCanaryExecutionIdentity.normalized (i : LiveCanaryExecutionIdentity) :
    Except Failure LiveCanaryExecutionIdentity := do
  let permit ← orRaise .valueError (Uuid.parse unicode i.permitId)
  let intent ← orRaise .valueError (Uuid.parse unicode i.intentId)
  let releaseId := strip i.releaseId
  let accountId := strip i.accountId
  let nodeId := strip i.nodeId
  let symbol := unicode.upper (strip i.symbol)
  let clientOrderId := strip i.clientOrderId
  let maxNotional ← positiveDecimal unicode i.maxNotionalUsdt "max_notional_usdt"
  let maxCumulativeLoss ← positiveDecimal unicode i.maxCumulativeLossUsdt "max_cumulative_loss_usdt"
  let authorizedLimitPrice ← positiveDecimal unicode i.authorizedLimitPriceUsdt "authorized_limit_price_usdt"
  let expiresAt ← awareTimestamp i.expiresAt "expires_at"
  let portfolioBaselineSha256 := strip i.portfolioBaselineSha256
  refuseIf (notionalCap.lt maxNotional) "max_notional_usdt exceeds hard cap"
  refuseIf (lossCap.le maxCumulativeLoss) "max_cumulative_loss_usdt reaches hard cap"
  refuseIf (releaseId = "") "release_id is required"
  refuseIf (accountId = "") "account_id is required"
  refuseIf (nodeId = "") "node_id is required"
  refuseIf (symbol = "") "symbol is required"
  refuseIf (clientOrderId ≠ entryOrderId intent) "client_order_id must be derived from intent_id"
  refuseIf (!(portfolioBaselineSha256.toList.length = 64 ∧ portfolioBaselineSha256.toList.all isLowerHex))
    "portfolio_baseline_sha256 is invalid"
  let maxNotionalUsdt ← canonicalDecimalText maxNotional
  let maxCumulativeLossUsdt ← canonicalDecimalText maxCumulativeLoss
  let authorizedLimitPriceUsdt ← canonicalDecimalText authorizedLimitPrice
  return {
    permitId := permit.str, releaseId, intentId := intent.str, clientOrderId, accountId, nodeId, symbol
    maxNotionalUsdt, maxCumulativeLossUsdt, authorizedLimitPriceUsdt
    expiresAt := expiresAt.isoformat, portfolioBaselineSha256 }

/-- `_same_identity`. -/
def sameIdentity (left right : LiveCanaryExecutionIdentity) : Except Failure Bool := do
  let left ← left.normalized unicode
  let right ← right.normalized unicode
  return left = right

end

/-- `_permit_key`. -/
def permitKey (i : LiveCanaryExecutionIdentity) : String := i.releaseId ++ ":" ++ i.permitId

/-! ## Records -/

inductive LiveCanaryExecutionState where
  | received
  | claimed
  | dispatched
  | exchangeConfirmed
  | lossLimitHalted
  | closeDispatched
  | closed
  deriving DecidableEq, Repr

def LiveCanaryExecutionState.value : LiveCanaryExecutionState → String
  | .received => "received"
  | .claimed => "claimed"
  | .dispatched => "dispatched"
  | .exchangeConfirmed => "exchange_confirmed"
  | .lossLimitHalted => "loss_limit_halted"
  | .closeDispatched => "close_dispatched"
  | .closed => "closed"

structure LiveCanaryExecutionRecord extends LiveCanaryExecutionIdentity where
  state : LiveCanaryExecutionState
  updatedAt : String
  instrumentId : String := ""
  processedFillIds : List String := []
  netQuantity : FiniteDecimal := .zero
  averageEntryPriceUsdt : FiniteDecimal := .zero
  feesUsdt : FiniteDecimal := .zero
  realizedPnlUsdt : FiniteDecimal := .zero
  currentLossUsdt : FiniteDecimal := .zero
  peakLossUsdt : FiniteDecimal := .zero
  lastMarkPriceUsdt : FiniteDecimal := .zero
  adverseSlippageUsdt : FiniteDecimal := .zero
  closeClientOrderId : String := ""
  closeSide : String := ""
  closeRequiredQuantity : FiniteDecimal := .zero
  haltReason : String := ""
  deriving DecidableEq, Repr

/-- `record.identity()`. -/
abbrev LiveCanaryExecutionRecord.identity (r : LiveCanaryExecutionRecord) : LiveCanaryExecutionIdentity :=
  r.toLiveCanaryExecutionIdentity

/-- The record `_put_record` writes. -/
def newRecord (i : LiveCanaryExecutionIdentity) (state : LiveCanaryExecutionState) (now : String) :
    LiveCanaryExecutionRecord where
  toLiveCanaryExecutionIdentity := i
  state := state
  updatedAt := now

/-! ## Fills and marks -/

inductive FillSide where
  | buy
  | sell
  deriving DecidableEq, Repr

def FillSide.value : FillSide → String
  | .buy => "BUY"
  | .sell => "SELL"

/-- A fill as it is reported. -/
structure LiveCanaryFill where
  fillId : String
  clientOrderId : String
  instrumentId : String
  side : String
  quantity : String
  priceUsdt : String
  feeUsdt : String
  markPriceUsdt : String
  reduceOnly : Bool
  occurredAt : String
  accountingError : String := ""

/-- A fill that was normalized. -/
structure NormalFill where
  fillId : String
  clientOrderId : String
  instrumentId : String
  side : FillSide
  quantity : FiniteDecimal
  price : FiniteDecimal
  fee : FiniteDecimal
  mark : FiniteDecimal
  reduceOnly : Bool
  accountingError : String

structure LiveCanaryMark where
  clientOrderId : String
  instrumentId : String
  markPriceUsdt : String
  observedAt : String
  evaluatedAt : String
  accountingError : String := ""

/-- A mark that was normalized. -/
structure NormalMark where
  clientOrderId : String
  instrumentId : String
  markPrice : FiniteDecimal
  accountingError : String

section
variable (unicode : Unicode)

/-- `LiveCanaryFill.normalized`. -/
def LiveCanaryFill.normalized (f : LiveCanaryFill) : Except Failure NormalFill := do
  let fillId := strip f.fillId
  let clientOrderId := strip f.clientOrderId
  let instrumentId := strip f.instrumentId
  let side := unicode.upper (strip f.side)
  refuseIf (fillId = "") "fill_id is required"
  refuseIf (clientOrderId = "") "fill client_order_id is required"
  refuseIf (instrumentId = "") "fill instrument_id is required"
  refuseIf (side ≠ "BUY" ∧ side ≠ "SELL") "fill side must be BUY or SELL"
  let quantity ← positiveDecimal unicode f.quantity "fill quantity"
  let price ← positiveDecimal unicode f.priceUsdt "fill price_usdt"
  let fee ← nonNegativeDecimal unicode f.feeUsdt "fill fee_usdt"
  let mark ← nonNegativeDecimal unicode f.markPriceUsdt "fill mark_price_usdt"
  refuseIf (strip f.occurredAt = "") "fill occurred_at is required"
  return {
    fillId, clientOrderId, instrumentId, side := if side = "SELL" then .sell else .buy
    quantity := written quantity, price := written price, fee := written fee, mark := written mark
    reduceOnly := f.reduceOnly, accountingError := strip f.accountingError }

/-- `LiveCanaryMark.normalized`; ages are in microseconds. -/
def LiveCanaryMark.normalized (m : LiveCanaryMark) : Except Failure NormalMark := do
  let clientOrderId := strip m.clientOrderId
  let instrumentId := strip m.instrumentId
  refuseIf (clientOrderId = "") "mark client_order_id is required"
  refuseIf (instrumentId = "") "mark instrument_id is required"
  let markPrice ← nonNegativeDecimal unicode m.markPriceUsdt "mark_price_usdt"
  let observedAt ← awareTimestamp m.observedAt "observed_at"
  let evaluatedAt ← awareTimestamp m.evaluatedAt "evaluated_at"
  let age : Int := evaluatedAt.toMicros - observedAt.toMicros
  let errors :=
    (if strip m.accountingError = "" then [] else [strip m.accountingError]) ++
    (if age < -1000000 then ["mark price timestamp is in the future"] else []) ++
    (if 10000000 < age then ["mark price is stale"] else []) ++
    (if markPrice.isPositive then [] else ["mark price is unavailable"])
  return {
    clientOrderId, instrumentId, markPrice := written markPrice, accountingError := "; ".intercalate errors }

end
end TraderBot.LiveCanary
