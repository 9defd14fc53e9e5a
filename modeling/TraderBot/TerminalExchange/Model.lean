import TraderBot.Ownership.Ledger

/-! # The terminal exchange worker

`TerminalExchangeWorker._execute`: an operator's command is carried out order by
order. A mirror lists the orders of the account; those of the robot in the
command's scope are kept or cancelled, and every cancel ends in an outcome. The
lists of outcomes are local, so an exception that leaves a loop takes them along.

What the worker reads of its clock, its mirror and its adapter is a function of
the number of the reading or of the attempt. -/
namespace TraderBot.TerminalExchange
open TraderBot.Lib TraderBot.Lib.Text TraderBot.Lib.Json TraderBot.Lib.Decimal
open TraderBot.Orders (Env)
open TraderBot.Ownership (isRobotClientOrderId matchesRobotId)

def regularOrder : String := "regular"
def algoOrder : String := "algo"

/-! ## Names, sides and amounts -/

def exchangeSuffixes : List String := ["-PERP.BINANCE", ".BINANCE", "-PERP", "/USDT"]

/-- `text` without the first of the suffixes it ends in. -/
def withoutSuffix (suffixes : List String) (text : List Char) : List Char :=
  match suffixes.find? fun suffix => suffix.toList.isSuffixOf text with
  | some suffix => text.take (text.length - suffix.toList.length)
  | none => text

/-- `_canonical_exchange_symbol`. -/
def canonicalExchangeSymbol (unicode : Unicode) (value : String) : String :=
  String.ofList <| (withoutSuffix exchangeSuffixes (unicode.upper (strip value)).toList).filter fun c =>
    ('A' ≤ c && c ≤ 'Z') || ('0' ≤ c && c ≤ '9')

/-- The text after the last dot, all of it without one. -/
def afterLastDot (text : String) : String :=
  String.ofList (text.toList.reverse.takeWhile (· != '.')).reverse

/-- `_exchange_order_side` of the side's text. -/
def exchangeOrderSide (unicode : Unicode) (raw : String) : String :=
  let side := afterLastDot (unicode.upper (strip raw))
  if side = "BUY" ∨ side = "LONG" then "BUY"
  else if side = "SELL" ∨ side = "SHORT" then "SELL"
  else ""

/-- `_positive_exchange_decimal`; `none` is `False`. -/
def positiveExchangeDecimal (unicode : Unicode) (value : String) : Option FiniteDecimal :=
  match Decimal.ofText unicode value.toList with
  | some (.finite number) => if number.isPositive then some number else none
  | _ => none

/-! ## Orders of the mirror -/

structure ExchangeOrderRef where
  accountId : String
  symbol : String
  positionSide : String
  orderKind : String
  venueOrderId : String
  clientOrderId : String
  orderType : String
  side : String
  quantity : String
  price : Option String
  triggerPrice : Option String
  tags : List String
  timeInForce : String
  reduceOnly : Bool
  deriving DecidableEq, Repr

def ExchangeOrderRef.instrumentId (order : ExchangeOrderRef) : String := order.symbol ++ "-PERP.BINANCE"

/-- `str(row.get(a) or row.get(b) or … or default)`. -/
def firstText (env : Env) (row : Value) (names : List String) (default : String) : String :=
  match names.findSome? fun name => orElse (row.get? name) none with
  | some v => env.str v
  | none => default

/-- `word in text`. -/
def hasWord (word text : String) : Bool := text.toList.tails.any word.toList.isPrefixOf

def lifecycleTags (unicode : Unicode) (orderType : String) : List String :=
  if hasWord "TAKE_PROFIT" (unicode.upper orderType) then ["lifecycle_role=take_profit"]
  else if hasWord "STOP" (unicode.upper orderType) then ["lifecycle_role=stop_loss"]
  else []

/-- `_parse_exchange_order`; `none` is `False`. -/
def parseExchangeOrder (env : Env) (accountId : String) (row : Value) (orderKind : String) :
    Option ExchangeOrderRef :=
  let symbol := firstText env row ["symbol"] ""
  let clientOrderId := firstText env row ["client_order_id"] ""
  let orderType := firstText env row ["type", "order_type"] ""
  if symbol = "" ∨ clientOrderId = "" then none
  else some
    { accountId, symbol, orderKind, clientOrderId, orderType
      positionSide := env.unicode.upper (firstText env row ["position_side", "positionSide"] "BOTH")
      venueOrderId := firstText env row ["venue_order_id", "order_id", "algoId", "orderId"] ""
      side := firstText env row ["side"] ""
      quantity := firstText env row ["quantity"] ""
      price := (present (row.get? "price")).map env.str
      triggerPrice := (present (row.get? "trigger_price")).map env.str
      tags := lifecycleTags env.unicode orderType
      timeInForce := env.unicode.upper (firstText env row ["time_in_force", "timeInForce"] "")
      reduceOnly := row.get? "reduce_only" == some (.bool true) || row.get? "reduceOnly" == some (.bool true) }

def parseCollection (env : Env) (accountId : String) (rows : Option Value) (orderKind : String) :
    List ExchangeOrderRef :=
  match rows with
  | some (.arr rows) => rows.filterMap fun row =>
    match row with
    | .obj _ => parseExchangeOrder env accountId row orderKind
    | _ => none
  | _ => []

/-- `_parse_exchange_orders`. -/
def parseExchangeOrders (env : Env) (accountId : String) (payload : Value) : List ExchangeOrderRef :=
  parseCollection env accountId (payload.get? "open_orders") regularOrder ++
    parseCollection env accountId (payload.get? "algo_orders") algoOrder

/-! ## Requests -/

/-- `CancelOrderRequest`, before its checks. -/
structure CancelFields where
  accountId : String
  symbol : String
  positionSide : String
  orderKind : String
  venueOrderId : Option String
  clientOrderId : Option String
  deriving DecidableEq, Repr

def isEmptyText (text : Option String) : Bool := text.all (· == "")

/-- `CancelOrderRequest.__post_init__`: the text of the error it raises. -/
def CancelFields.refusal (unicode : Unicode) (request : CancelFields) : Option String :=
  if request.orderKind ∉ [regularOrder, algoOrder] then some ("unsupported order_kind: " ++ request.orderKind)
  else if request.symbol = "" then some "symbol is required"
  else if request.positionSide = "" then some "position_side is required"
  else if unicode.upper request.positionSide ∉ ["BOTH", "LONG", "SHORT"] then
    some ("unsupported position_side: " ++ request.positionSide)
  else if request.orderKind = algoOrder ∧ isEmptyText request.venueOrderId then
    some "algo cancellation requires venue_order_id"
  else if isEmptyText request.venueOrderId ∧ isEmptyText request.clientOrderId then
    some "venue_order_id or client_order_id is required"
  else none

/-- A cancel request that was built. -/
structure CancelOrderRequest (unicode : Unicode) extends CancelFields where
  accepted : toCancelFields.refusal unicode = none

/-- A text that is missing where it is empty. -/
def orNone (text : String) : Option String := if text = "" then none else some text

def cancelFields (order : ExchangeOrderRef) : CancelFields where
  accountId := order.accountId
  symbol := order.symbol
  positionSide := order.positionSide
  orderKind := order.orderKind
  venueOrderId := orNone order.venueOrderId
  clientOrderId := orNone order.clientOrderId

/-- `_cancel_request_from_exchange_order`; the error is the text of its `ValueError`. -/
def cancelRequestFromExchangeOrder (unicode : Unicode) (order : ExchangeOrderRef) :
    Except String (CancelOrderRequest unicode) :=
  match h : (cancelFields order).refusal unicode with
  | none => .ok { toCancelFields := cancelFields order, accepted := h }
  | some message => .error message

/-- An order whose cancel request cannot be built. -/
def Malformed (unicode : Unicode) (order : ExchangeOrderRef) : Prop :=
  (cancelFields order).refusal unicode ≠ none

instance (unicode : Unicode) : DecidablePred (Malformed unicode) :=
    fun _ => inferInstanceAs (Decidable (_ ≠ _))

/-- The client order ids of durable entries: the robot's, with a sequence from 1 to 9. -/
def isDurableEntryId (id : String) : Bool :=
  let cs := (strip id).toList
  let sequence := Nat.ofDigitChars 10 (cs.drop 33) 0
  matchesRobotId cs && decide (1 ≤ sequence) && decide (sequence ≤ 9)

/-- `DurableEntryOrderPreservation`, its checks passed. -/
structure DurableEntryOrderPreservation (unicode : Unicode) where
  clientOrderId : String
  instrumentId : String
  side : String
  quantity : String
  price : String
  entry_id : isDurableEntryId clientOrderId = true
  instrument : canonicalExchangeSymbol unicode instrumentId ≠ ""
  sided : exchangeOrderSide unicode side ∈ ["BUY", "SELL"]
  quantity_positive : (positiveExchangeDecimal unicode quantity).isSome = true
  price_positive : (positiveExchangeDecimal unicode price).isSome = true

inductive TerminalOperation where
  | refresh
  | cancelBatch
  | terminalCommand
  deriving DecidableEq, Repr

/-- `TerminalExchangeRequest`, its checks passed. -/
structure TerminalExchangeRequest (unicode : Unicode) where
  requestId : String
  accountId : String
  operation : TerminalOperation
  purpose : String
  deadlineMonotonic : ℚ
  instrumentIds : List String
  cancelRequests : List (CancelOrderRequest unicode)
  durableEntryPreservations : List (DurableEntryOrderPreservation unicode)
  request_named : strip requestId ≠ ""
  account_named : strip accountId ≠ ""
  purpose_named : strip purpose ≠ ""
  deadline_pos : 0 < deadlineMonotonic
  batch_only : operation ≠ .cancelBatch → cancelRequests = []
  command_only : operation ≠ .terminalCommand → durableEntryPreservations = []
  unique : (durableEntryPreservations.map (·.clientOrderId)).Nodup

/-! ## Which orders are cancelled -/

section Orders
variable {unicode : Unicode}

/-- `_terminal_exchange_instrument_matches`. -/
def terminalExchangeInstrumentMatches (unicode : Unicode) (instrumentId : String)
    (instrumentIds : List String) : Bool :=
  instrumentIds.isEmpty || instrumentIds.any fun candidate =>
    canonicalExchangeSymbol unicode candidate == canonicalExchangeSymbol unicode instrumentId

/-- `object_client_order_id`: an order of the mirror has this one field of the four. -/
def objectClientOrderId (order : ExchangeOrderRef) : String := strip order.clientOrderId

/-- `object_is_robot_order`. -/
def objectIsRobotOrder (order : ExchangeOrderRef) : Bool := isRobotClientOrderId (objectClientOrderId order)

/-- The robot's orders in the scope of a command. -/
def OfScope (request : TerminalExchangeRequest unicode) (order : ExchangeOrderRef) : Prop :=
  terminalExchangeInstrumentMatches unicode order.instrumentId request.instrumentIds = true ∧
    objectIsRobotOrder order = true

instance (request : TerminalExchangeRequest unicode) : DecidablePred (OfScope request) :=
  fun _ => inferInstanceAs (Decidable (_ ∧ _))

def normalText (unicode : Unicode) (text : String) : String := unicode.upper (strip text)

/-- Two amounts that are both positive decimals, and equal. -/
def sameAmount (unicode : Unicode) (actual expected : String) : Bool :=
  match positiveExchangeDecimal unicode actual, positiveExchangeDecimal unicode expected with
  | some actual, some expected => actual.eq expected
  | _, _ => false

/-- `_terminal_order_matches_durable_entry_preservation`. -/
def terminalOrderMatchesDurableEntryPreservation (order : ExchangeOrderRef)
    (preservation : DurableEntryOrderPreservation unicode) : Bool :=
  unicode.lower (strip order.orderKind) == regularOrder &&
    !order.reduceOnly &&
    normalText unicode order.orderType == "LIMIT" &&
    normalText unicode order.timeInForce == "GTC" &&
    canonicalExchangeSymbol unicode order.instrumentId ==
      canonicalExchangeSymbol unicode preservation.instrumentId &&
    exchangeOrderSide unicode order.side == exchangeOrderSide unicode preservation.side &&
    sameAmount unicode order.quantity preservation.quantity &&
    -- `Decimal(str(None))` raises
    sameAmount unicode (order.price.getD "None") preservation.price

def protectiveOrderTypes : List String :=
  ["STOP", "STOP_MARKET", "STOP_LOSS", "STOP_LOSS_LIMIT", "TAKE_PROFIT", "TAKE_PROFIT_MARKET",
    "TAKE_PROFIT_LIMIT", "TRAILING_STOP_MARKET"]

/-- `_terminal_order_is_protection`. -/
def terminalOrderIsProtection (unicode : Unicode) (order : ExchangeOrderRef) : Bool :=
  unicode.lower (strip order.orderKind) == algoOrder && order.reduceOnly &&
    protectiveOrderTypes.contains (normalText unicode order.orderType)

/-- `_terminal_order_preservation_outcome`; `none` is `False`. -/
def terminalOrderPreservationOutcome (order : ExchangeOrderRef)
    (durableEntryPreservation : Option (DurableEntryOrderPreservation unicode))
    (preserveProtection : Bool) :
    Option String :=
  if durableEntryPreservation.any (terminalOrderMatchesDurableEntryPreservation order) then
    some "durable_entry_preserved"
  else if preserveProtection && terminalOrderIsProtection unicode order then
    some "protective_order_preserved"
  else none

/-- What a command preserves an order as. -/
def preservationOutcome (request : TerminalExchangeRequest unicode) (order : ExchangeOrderRef) :
    Option String :=
  terminalOrderPreservationOutcome order
    (request.durableEntryPreservations.find? fun item => item.clientOrderId == objectClientOrderId order)
    (request.purpose == "cancel_all")

end Orders

/-! ## The worker -/

/-- What `mirror.refresh` answers. -/
inductive MirrorAnswer where
  | orders (listing : List ExchangeOrderRef)
  | deadlineError (text : String)
  /-- A `TypeError` about a keyword argument. -/
  | unexpectedKeyword (repr : String)
  | otherError (repr : String)

/-- What `adapter.cancel` answers. -/
inductive CancelAnswer where
  | result (terminalStatus outcome : String)
  | deadlineError (text : String)
  | confirmationUnknown (repr : String)
  | unexpectedKeyword (repr : String)
  | otherError (repr : String)
  deriving DecidableEq

/-- What a worker calls: the clock, its mirror and its adapter. The adapter is asked
with the number of the attempt, and whether it is given the deadline; `none` is an
object without the method. `repr` is that of a text. -/
structure Worker (unicode : Unicode) where
  name : String
  clock : Nat → ℚ
  mirror : Option (Bool → MirrorAnswer)
  adapter : Option (Nat → CancelOrderRequest unicode → Bool → CancelAnswer)
  repr : String → String

inductive Raised where
  /-- `TerminalExchangeDeadlineError`, with its text. -/
  | deadline (text : String)
  /-- Any other exception, with its `repr`. -/
  | other (repr : String)
  deriving DecidableEq

inductive CancelStatus where
  | preserved
  | reconciling
  | failed
  | confirmed
  deriving DecidableEq, Repr

structure TerminalExchangeCancelOutcome (unicode : Unicode) where
  request : CancelOrderRequest unicode
  status : CancelStatus
  outcome : String
  terminalStatus : String
  error : String

/-- How often the clock was read, and the requests a cancel was attempted for. -/
structure Progress (unicode : Unicode) where
  reads : Nat
  attempts : List (CancelOrderRequest unicode)

/-- Work that is left by an exception; what was done stays done. -/
abbrev Work (unicode : Unicode) (α : Type) : Type := EStateM Raised (Progress unicode) α

section Work
variable {unicode : Unicode} (worker : Worker unicode)

/-- `self._monotonic()`. -/
def monotonic : Work unicode ℚ := fun p => .ok (worker.clock p.reads) { p with reads := p.reads + 1 }

/-- `_check_deadline`. -/
def checkDeadline (deadline : ℚ) : Work unicode Unit := do
  if (← monotonic worker) < deadline then return
  throw (.deadline (worker.name ++ " total deadline exceeded"))

/-- What the mirror's `refresh` comes to. -/
def mirrorAnswer : MirrorAnswer :=
  match worker.mirror with
  | none => .otherError "ExchangeCancelError('exchange state mirror refresh is unavailable')"
  | some refresh =>
    match refresh true with
    | .unexpectedKeyword _ => refresh false
    | answer => answer

/-- `_refresh`. -/
def refresh (deadline : ℚ) : Work unicode (List ExchangeOrderRef) := do
  checkDeadline worker deadline
  match mirrorAnswer worker with
  | .orders listing => return listing
  | .deadlineError text => throw (.deadline text)
  | .unexpectedKeyword repr | .otherError repr => throw (.other repr)

/-- What `_cancel` comes to for the attempt of a number. -/
def cancelAnswer (attempt : Nat) (request : CancelOrderRequest unicode) : CancelAnswer :=
  match worker.adapter with
  | none => .otherError "ExchangeCancelError('exchange cancel adapter is unavailable')"
  | some cancel =>
    match cancel attempt request true with
    | .unexpectedKeyword _ => cancel attempt request false
    | answer => answer

/-- `_cancel`. -/
def cancel (request : CancelOrderRequest unicode) : Work unicode CancelAnswer := fun p =>
  .ok (cancelAnswer worker p.attempts.length request) { p with attempts := p.attempts ++ [request] }

def canceledStatuses : List String := ["CANCELED", "CANCELLED"]

/-- The outcome of a cancel, unless its exception leaves the loop. -/
def cancelOutcome (request : CancelOrderRequest unicode) :
    CancelAnswer → Work unicode (TerminalExchangeCancelOutcome unicode)
  | .deadlineError text => throw (.deadline text)
  | .confirmationUnknown repr =>
    return { request, status := .reconciling, outcome := "", terminalStatus := "", error := repr }
  | .unexpectedKeyword repr | .otherError repr =>
    return { request, status := .failed, outcome := "", terminalStatus := "", error := repr }
  | .result status outcome =>
    let terminalStatus := unicode.upper status
    if terminalStatus ∈ canceledStatuses then
      return { request, status := .confirmed, outcome, terminalStatus, error := "" }
    else
      let shown := if terminalStatus = "" then "UNKNOWN" else terminalStatus
      return { request, status := .failed, outcome, terminalStatus
               error := "order cancel terminal status " ++ shown }

/-- `_cancel_batch`. -/
def cancelBatch (deadline : ℚ) :
    List (CancelOrderRequest unicode) → Work unicode (List (TerminalExchangeCancelOutcome unicode))
  | [] => return []
  | request :: requests => do
    checkDeadline worker deadline
    let answer ← cancel worker request
    let outcome ← cancelOutcome request answer
    return outcome :: (← cancelBatch deadline requests)

/-- The loop of `_execute_terminal_command` over the listing: the outcomes of what is
preserved, and the requests for what is cancelled. -/
def sortOrders (request : TerminalExchangeRequest unicode) : List ExchangeOrderRef →
    Except String (List (TerminalExchangeCancelOutcome unicode) × List (CancelOrderRequest unicode))
  | [] => return ([], [])
  | order :: orders =>
    if OfScope request order then do
      let cancelRequest ← cancelRequestFromExchangeOrder unicode order
      match preservationOutcome request order with
      | some outcome => do
        let (outcomes, requests) ← sortOrders request orders
        return ({ request := cancelRequest, status := .preserved, outcome, terminalStatus := "WORKING",
                  error := "" } :: outcomes, requests)
      | none => do
        let (outcomes, requests) ← sortOrders request orders
        return (outcomes, cancelRequest :: requests)
    else sortOrders request orders

/-- `_execute_terminal_command`. -/
def executeTerminalCommand (request : TerminalExchangeRequest unicode) :
    Work unicode (List (TerminalExchangeCancelOutcome unicode)) := do
  let orders ← refresh worker request.deadlineMonotonic
  match sortOrders request orders with
  | .error message => throw (.other ("ValueError(" ++ worker.repr message ++ ")"))
  | .ok (outcomes, requests) =>
    return outcomes ++ (← cancelBatch worker request.deadlineMonotonic requests)

/-- What `_execute` does between its two looks at the deadline. -/
def perform (request : TerminalExchangeRequest unicode) :
    Work unicode (List (TerminalExchangeCancelOutcome unicode)) := do
  checkDeadline worker request.deadlineMonotonic
  match request.operation with
  | .refresh =>
    let _ ← refresh worker request.deadlineMonotonic
    return []
  | .cancelBatch => cancelBatch worker request.deadlineMonotonic request.cancelRequests
  | .terminalCommand => executeTerminalCommand worker request

end Work

structure TerminalExchangeResult (unicode : Unicode) where
  requestId : String
  accountId : String
  operation : TerminalOperation
  purpose : String
  cancelOutcomes : List (TerminalExchangeCancelOutcome unicode)
  error : String
  timedOut : Bool
  startedMonotonic : ℚ
  completedMonotonic : ℚ

/-- The counters of a worker that `_execute` writes. -/
structure WorkerCounters where
  completed : Nat
  failed : Nat
  timedOut : Nat
  halted : Bool
  lastProgressMonotonic : Option ℚ
  lastError : String
  deriving DecidableEq

def Raised.text : Raised → String
  | .deadline text => text
  | .other repr => repr

def Raised.isDeadline : Raised → Bool
  | .deadline _ => true
  | .other _ => false

/-- What a run of `_execute` returns and leaves behind. -/
structure Run (unicode : Unicode) where
  result : TerminalExchangeResult unicode
  counters : WorkerCounters
  attempts : List (CancelOrderRequest unicode)

/-- `_execute`'s look back: the counters, and the halt after a deadline. -/
def WorkerCounters.settle (counters : WorkerCounters) (completed : ℚ) (raised : Option Raised) :
    WorkerCounters :=
  let timedOut := raised.any Raised.isDeadline
  let error := (raised.map Raised.text).getD ""
  { completed := counters.completed + 1
    failed := if error = "" then counters.failed else counters.failed + 1
    timedOut := if timedOut then counters.timedOut + 1 else counters.timedOut
    halted := counters.halted || timedOut
    lastProgressMonotonic := some completed
    lastError := if timedOut ∨ error ≠ "" then error else counters.lastError }

/-- `_execute`. The outcomes are assigned before the last look at the deadline, and only if
the work returns. -/
def execute {unicode : Unicode} (worker : Worker unicode) (counters : WorkerCounters)
    (request : TerminalExchangeRequest unicode) : Run unicode :=
  let finish (outcomes : List (TerminalExchangeCancelOutcome unicode)) (raised : Option Raised)
      (p : Progress unicode) : Run unicode :=
    let completed := worker.clock p.reads
    { result :=
        { requestId := request.requestId
          accountId := request.accountId
          operation := request.operation
          purpose := request.purpose
          cancelOutcomes := outcomes
          error := (raised.map Raised.text).getD ""
          timedOut := raised.any Raised.isDeadline
          startedMonotonic := worker.clock 0
          completedMonotonic := completed }
      counters := counters.settle completed raised
      attempts := p.attempts }
  match perform worker request { reads := 1, attempts := [] } with
  | .error e p => finish [] (some e) p
  | .ok outcomes p =>
    match checkDeadline worker request.deadlineMonotonic p with
    | .ok _ p => finish outcomes none p
    | .error e p => finish outcomes (some e) p

end TraderBot.TerminalExchange
