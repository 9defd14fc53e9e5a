import TraderBot.Inbox.Model

/-! # The operations of the inbox

Each operation checks its arguments before it touches the file, then runs under
`mutate`. The body of an operation is the function the source calls `mutate`:
it gets the payload read from the file and gives the answer, with the changed
payload when there is one to write. -/
namespace TraderBot.Inbox
open TraderBot.Lib TraderBot.Lib.Text TraderBot.Lib.Dict TraderBot.Lib.Json

section Operations
variable (inbox : JsonIntentExecutionInbox)

/-! ## Receipt -/

/-- The side of the book an intent binds to on receipt, empty when it binds to
none: only an entry whose order plan buys or sells does. -/
def receiptSide (identity : IntentExecutionIdentity) (payload : JsonObject) : String :=
  if isEntryAction identity.action then
    match payload.get? "order_plan" with
    | some (.obj orderPlan) =>
      -- the text of a value that is no string is neither of the two words
      match lookup "side" orderPlan with
      | some (.str side) =>
        if inbox.unicode.lower side = "buy" then "LONG"
        else if inbox.unicode.lower side = "sell" then "SHORT"
        else ""
      | _ => ""
    | _ => ""
  else ""

def newBook : PositionGeneration := ⟨0, .empty⟩

/-- `generations.setdefault(book, {"generation": 0, "invalidations": {}})`. -/
def Payload.book (p : Payload) (book : String) : PositionGeneration :=
  (p.positionGenerations.get? book).getD newBook

def Payload.setBook (p : Payload) (book : String) (state : PositionGeneration) : Payload :=
  { p with positionGenerations := p.positionGenerations.set book state }

def receiptRecord (identity : IntentExecutionIdentity) (payload : JsonObject) (utcNow : String) :
    IntentExecutionRecord :=
  { accountId := identity.accountId, intentId := identity.intentId,
    idempotencyKey := identity.idempotencyKey, instrumentId := identity.instrumentId,
    action := identity.action, state := .received, intentPayload := payload,
    clientOrderIds := [], exchangeConfirmedClientOrderIds := [], updatedAt := utcNow }

/-- The receipt bound to a generation of the book on `side`. -/
def bindRecord (record : IntentExecutionRecord) (side : String) (generation : Nat) :
    IntentExecutionRecord :=
  { record with localPositionGeneration := some generation, localPositionSide := side }

def registerBody (identity : IntentExecutionIdentity) (payload : JsonObject) (utcNow : String)
    (p : Payload) : Except Failure (IntentRegisterResult × Option Payload) :=
  match recordForIdentity p identity with
  | some exact =>
    if exact.identity ≠ identity then .ok (.intentConflict, none)
    else if inbox.payloadEq exact.intentPayload payload = false then .ok (.intentConflict, none)
    else .ok (.replay, none)
  | none =>
    match recordForIdempotencyKey p identity.accountId identity.idempotencyKey with
    | some _ => .ok (.idempotencyConflict, none)
    | none =>
      let record := receiptRecord identity payload utcNow
      let side := receiptSide inbox identity payload
      if side = "" then .ok (.registered, some (p.setRecord (recordKey identity) record))
      else
        match positionBookKey inbox.unicode identity.accountId identity.instrumentId side with
        | .error e => .error e
        | .ok book =>
          let state := p.book book
          .ok (.registered, some ((p.setBook book state).setRecord (recordKey identity)
            (bindRecord record side state.generation)))

/-- `intentPayload` is what `_json_object` makes of the argument, `none` where
it is not JSON serializable. -/
def registerReceived (identity : IntentExecutionIdentity) (intentPayload : Option JsonObject)
    (utcNow : String) (file : File) : Except Failure IntentRegisterResult × File :=
  match identity.normalized inbox.unicode with
  | .error e => (.error e, file)
  | .ok normalized =>
    match intentPayload with
    | none => (.error (.inboxError "intent payload must be JSON serializable"), file)
    | some payloadCopy => mutate inbox file (registerBody inbox normalized payloadCopy utcNow)

/-! ## Dispatch and confirmation -/

def beginDispatchBody (identity : IntentExecutionIdentity) (stableIds : List String)
    (utcNow : String) (p : Payload) : Except Failure (IntentDispatchResult × Option Payload) :=
  match requiredRecord p identity with
  | .error e => .error e
  | .ok record =>
    match record.state with
    | .exchangeConfirmed => .ok (.exchangeConfirmed, none)
    | .rejected => .ok (.rejected, none)
    | .dispatched =>
      if record.clientOrderIds ≠ stableIds then
        .error (.inboxError "client_order_ids changed after dispatch")
      else .ok (.recoveryRequired, none)
    | .received =>
      .ok (.ready, some (p.setRecord (recordKey identity)
        { record with state := .dispatched, clientOrderIds := stableIds, updatedAt := utcNow }))

def beginDispatch (identity : IntentExecutionIdentity) (clientOrderIds : List String)
    (utcNow : String) (file : File) : Except Failure IntentDispatchResult × File :=
  match identity.normalized inbox.unicode with
  | .error e => (.error e, file)
  | .ok normalized =>
    match stableClientOrderIds inbox.unicode normalized.intentId clientOrderIds with
    | .error e => (.error e, file)
    | .ok stableIds => mutate inbox file (beginDispatchBody normalized stableIds utcNow)

def markExchangeConfirmedBody (identity : IntentExecutionIdentity) (utcNow : String) (p : Payload) :
    Except Failure (Unit × Option Payload) :=
  match requiredRecord p identity with
  | .error e => .error e
  | .ok record =>
    match record.state with
    | .exchangeConfirmed => .ok ((), none)
    | .rejected => .ok ((), none)
    | .received =>
      .error (.inboxError "intent must be dispatched before exchange confirmation")
    | .dispatched =>
      .ok ((), some (p.setRecord (recordKey identity)
        { record with
          state := .exchangeConfirmed
          exchangeConfirmedClientOrderIds := record.clientOrderIds
          updatedAt := utcNow }))

def markExchangeConfirmed (identity : IntentExecutionIdentity) (utcNow : String) (file : File) :
    Except Failure Unit × File :=
  match identity.normalized inbox.unicode with
  | .error e => (.error e, file)
  | .ok normalized => mutate inbox file (markExchangeConfirmedBody normalized utcNow)

/-- The record once the exchange confirmed one of its orders: a dispatched one
is confirmed when that was the last, a rejected one stays rejected. -/
def confirmOne (record : IntentExecutionRecord) (target utcNow : String) : IntentExecutionRecord :=
  let confirmedIds := target :: record.exchangeConfirmedClientOrderIds
  { record with
    state :=
      if record.state = .dispatched ∧ ∀ id ∈ record.clientOrderIds, id ∈ confirmedIds then
        .exchangeConfirmed
      else record.state
    exchangeConfirmedClientOrderIds := sortedSet confirmedIds
    updatedAt := utcNow }

def confirmByClientOrderIdBody (target utcNow : String) (p : Payload) :
    Except Failure (Bool × Option Payload) :=
  match recordEntryForClientOrderId p target with
  | none => .ok (false, none)
  | some (key, record) =>
    if record.state = .exchangeConfirmed then .ok (true, none)
    else if record.state ≠ .dispatched ∧ record.state ≠ .rejected then
      .error (.inboxError "intent must be dispatched before exchange confirmation")
    else if target ∈ record.exchangeConfirmedClientOrderIds then .ok (true, none)
    else .ok (true, some (p.setRecord key (confirmOne record target utcNow)))

def markExchangeConfirmedByClientOrderId (clientOrderId utcNow : String) (file : File) :
    Except Failure Bool × File :=
  let target := strip clientOrderId
  if target = "" then (.ok false, file)
  else if file = none then (.ok false, file)
  else mutate inbox file (confirmByClientOrderIdBody target utcNow)

/-! ## Terminal evidence and rejection -/

def closeOrderTerminalBody (clientOrderId utcNow : String) (p : Payload) :
    Except Failure (Bool × Option Payload) :=
  match recordEntryForClientOrderId p clientOrderId with
  | none => .ok (false, none)
  | some (key, record) =>
    if record.action ≠ "close_position" then .ok (false, none)
    else if clientOrderId ∈ record.terminalClientOrderIds then .ok (true, none)
    else
      .ok (true, some (p.setRecord key
        { record with
          terminalClientOrderIds := sortedSet (clientOrderId :: record.terminalClientOrderIds)
          updatedAt := utcNow }))

def markCloseOrderTerminal (clientOrderId utcNow : String) (file : File) :
    Except Failure Bool × File :=
  mutate inbox file (closeOrderTerminalBody clientOrderId utcNow)

def reject (record : IntentExecutionRecord) (reason utcNow : String) : IntentExecutionRecord :=
  { record with state := .rejected, rejectionReason := reason, updatedAt := utcNow }

def markRejectedBody (identity : IntentExecutionIdentity) (reason utcNow : String) (p : Payload) :
    Except Failure (Unit × Option Payload) :=
  match requiredRecord p identity with
  | .error e => .error e
  | .ok record =>
    if record.state = .exchangeConfirmed then
      .error (.inboxError "exchange-confirmed intent cannot be rejected")
    else if record.state = .rejected ∧ record.rejectionReason = reason then .ok ((), none)
    else .ok ((), some (p.setRecord (recordKey identity) (reject record reason utcNow)))

def markRejected (identity : IntentExecutionIdentity) (reason utcNow : String) (file : File) :
    Except Failure Unit × File :=
  match identity.normalized inbox.unicode with
  | .error e => (.error e, file)
  | .ok normalized =>
    let rejectionReason := strip reason
    if rejectionReason = "" then (.error (.inboxError "rejection reason is required"), file)
    else mutate inbox file (markRejectedBody normalized rejectionReason utcNow)

def rejectByClientOrderIdBody (target reason utcNow : String) (p : Payload) :
    Except Failure (Option IntentExecutionRecord × Option Payload) :=
  match recordEntryForClientOrderId p target with
  | none => .ok (none, none)
  | some (key, record) =>
    if record.state = .exchangeConfirmed then .ok (none, none)
    else if record.state = .rejected ∧ record.rejectionReason = reason then
      .ok (some record, none)
    else
      .ok (some (reject record reason utcNow), some (p.setRecord key (reject record reason utcNow)))

def markRejectedByClientOrderId (clientOrderId reason utcNow : String) (file : File) :
    Except Failure (Option IntentExecutionRecord) × File :=
  let target := strip clientOrderId
  let rejectionReason := strip reason
  if target = "" ∨ rejectionReason = "" then (.ok none, file)
  else if file = none then (.ok none, file)
  else mutate inbox file (rejectByClientOrderIdBody target rejectionReason utcNow)

/-! ## Repair -/

/-- `record` is a dispatched management intent whose validity ended more than a
day before `now`; a time without an offset is in UTC. -/
def expiredDispatchedManagement (record : IntentExecutionRecord) (now : DateTime × Option Int) :
    Bool :=
  if record.state ≠ .dispatched then false
  else if isEntryAction record.action then false
  else match record.intentPayload.get? "valid_until" with
    | some (.str raw) =>
      match DateTime.fromisoformat (DateTime.replaceZulu raw) with
      | none => false
      | some validUntil =>
        decide (DateTime.instant now - DateTime.instant validUntil > 24 * 3600 * 1000000)
    | _ => false

/-- Whether repair may reject the record. Looking an array or an object up in
the set of entry actions is a `TypeError`. -/
def managementRepairEligible (record : IntentExecutionRecord) (now : DateTime × Option Int) :
    Except Failure Bool :=
  if record.state ≠ .dispatched then .ok false
  else if isEntryAction record.action then .ok false
  else match record.intentPayload.get? "action" with
    | some (.arr _) => .error .typeError
    | some (.obj _) => .error .typeError
    | some (.str action) =>
      if isEntryAction action then .ok false
      else .ok (record.action = "cancel_order" || expiredDispatchedManagement record now)
    | _ => .ok (record.action = "cancel_order" || expiredDispatchedManagement record now)

/-- The records `managementRepairEligible` accepts, in file order. -/
def repairCandidates (now : DateTime × Option Int) :
    List IntentExecutionRecord → Except Failure (List IntentExecutionRecord)
  | [] => .ok []
  | record :: rest =>
    match managementRepairEligible record now with
    | .error e => .error e
    | .ok eligible =>
      match repairCandidates now rest with
      | .error e => .error e
      | .ok candidates => .ok (if eligible then record :: candidates else candidates)

/-- Reject every candidate under the key of its own identity. -/
def rejectAll (candidates : List IntentExecutionRecord) (repairTime : String) (p : Payload) :
    Payload :=
  candidates.foldl (fun p record =>
    p.setRecord (recordKey record.identity)
      (reject record "inbox_repair_stale_management" repairTime)) p

/-- The answer holds the candidates and, when there are any, the contents of
the backup file: the payload as it was. -/
def repairBody (now : DateTime × Option Int) (p : Payload) :
    Except Failure ((List IntentExecutionRecord × Option Payload) × Option Payload) :=
  match repairCandidates now (p.records.items.map Prod.snd) with
  | .error e => .error e
  | .ok [] => .ok (([], none), none)
  | .ok candidates =>
    .ok ((candidates, some p), some (rejectAll candidates (DateTime.isoText now) p))

def repairDispatchedManagement (now : DateTime × Option Int) (file : File) :
    Except Failure (List IntentExecutionRecord × Option Payload) × File :=
  mutate inbox file (repairBody now)

/-! ## The close barrier -/

/-- Move a book on under the operation id. -/
def invalidateBook (state : PositionGeneration) (operation : String) : PositionGeneration :=
  { generation := state.generation + 1
    invalidations := state.invalidations.set operation (state.generation + 1) }

def invalidateBody (book operation : String) (p : Payload) :
    Except Failure (Nat × Option Payload) :=
  let state := p.book book
  match state.invalidations.get? operation with
  | some generation => .ok (generation, none)
  | none =>
    .ok (state.generation + 1, some (p.setBook book (invalidateBook state operation)))

def invalidatePosition (accountId instrumentId positionSide operationId : String) (file : File) :
    Except Failure Nat × File :=
  match positionBookKey inbox.unicode accountId instrumentId positionSide with
  | .error e => (.error e, file)
  | .ok book =>
    match positionOperationId operationId with
    | .error e => (.error e, file)
    | .ok operation => mutate inbox file (invalidateBody book operation)

/-- The scope of an account-wide close: the books of the account, of the given
symbols only when any are given. -/
def inScope (accountId : String) (symbols : List String) (book : String) : Bool :=
  match loads book.toList with
  | some (.arr [.str account, .str symbol, .str _]) =>
    account = accountId && (symbols.isEmpty || symbols.contains symbol)
  | _ => false

/-- Whether the barrier moves the book: in scope, the operation not yet on it. -/
def scopeHits (accountId : String) (symbols : List String) (operation book : String)
    (state : PositionGeneration) : Bool :=
  inScope accountId symbols book && (state.invalidations.get? operation).isNone

/-- The loop of the barrier over all books. -/
def Payload.invalidateScope (p : Payload) (accountId : String) (symbols : List String)
    (operation : String) : Payload :=
  { p with
    positionGenerations := p.positionGenerations.mapItems fun book state =>
      if scopeHits accountId symbols operation book state then invalidateBook state operation
      else state }

def invalidateScopeBody (accountId : String) (symbols : List String) (operation : String)
    (p : Payload) : Except Failure (Unit × Option Payload) :=
  if p.positionGenerations.items.any fun (book, state) =>
      scopeHits accountId symbols operation book state then
    .ok ((), some (p.invalidateScope accountId symbols operation))
  else .ok ((), none)

def invalidatePositionScope (accountId operationId : String) (instrumentIds : List String)
    (file : File) : Except Failure Unit × File :=
  match positionOperationId operationId with
  | .error e => (.error e, file)
  | .ok operation =>
    let symbols := instrumentIds.map (positionSymbol inbox.unicode)
    mutate inbox file (invalidateScopeBody accountId symbols operation)

/-! ## Reading -/

inductive Denial where
  | missing
  | bookMismatch
  | stale
  deriving DecidableEq, Repr

def Denial.text : Denial → String
  | .missing => "position_generation_missing"
  | .bookMismatch => "position_generation_book_mismatch"
  | .stale => "position_generation_stale"

def denialBody (key book : String) (requireBinding : Bool) (p : Payload) :
    Except Failure (Option Denial) :=
  let unbound : Option Denial := if requireBinding then some .missing else none
  match p.records.get? key with
  | none => .ok unbound
  | some record =>
    if isEntryAction record.action = false then .ok unbound
    else match record.localPositionGeneration with
      | none =>
        if record.action = "open_position" ∧ requireBinding = false then .ok none
        else .ok (some .missing)
      | some bound =>
        match positionBookKey inbox.unicode record.accountId record.instrumentId
            record.localPositionSide with
        | .error e => .error e
        | .ok recordBook =>
          if recordBook ≠ book then .ok (some .bookMismatch)
          else match p.positionGenerations.get? book with
            | none => .ok (some .missing)
            | some state =>
              if bound ≠ state.generation then .ok (some .stale) else .ok none

def addPositionDenial (accountId intentId instrumentId positionSide : String)
    (requireBinding : Bool) (file : File) : Except Failure (Option Denial) :=
  match positionBookKey inbox.unicode accountId instrumentId positionSide with
  | .error e => .error e
  | .ok book =>
    match Uuid.parse inbox.unicode intentId with
    | none => .error .valueError
    | some intent =>
      readLocked inbox file (denialBody inbox (accountId ++ ":" ++ intent.str) book requireBinding)

def positionGeneration (accountId instrumentId positionSide : String) (file : File) :
    Except Failure Nat :=
  match positionBookKey inbox.unicode accountId instrumentId positionSide with
  | .error e => .error e
  | .ok book => readLocked inbox file fun p => .ok (p.book book).generation

def getByClientOrderId (clientOrderId : String) (file : File) :
    Except Failure (Option IntentExecutionRecord) :=
  let target := strip clientOrderId
  if target = "" then .ok none
  else readLocked inbox file fun p => .ok ((recordEntryForClientOrderId p target).map Prod.snd)

def get (identity : IntentExecutionIdentity) (file : File) :
    Except Failure (Option IntentExecutionRecord) :=
  match identity.normalized inbox.unicode with
  | .error e => .error e
  | .ok normalized =>
    readLocked inbox file fun p =>
      .ok ((recordForIdentity p normalized).filter fun record => record.identity = normalized)

/-- The records that wait for their dispatch or its outcome, oldest first. -/
def pending (file : File) : Except Failure (List IntentExecutionRecord) :=
  readLocked inbox file fun p =>
    .ok (((p.records.items.map Prod.snd).filter fun record =>
      record.state = .received || record.state = .dispatched).insertionSort
        fun a b => a.updatedAt ≤ b.updatedAt)

end Operations

/-! ## The inbox as a machine -/

/-- A call of one of the operations that may write the file. -/
inductive Op where
  | registerReceived (identity : IntentExecutionIdentity) (intentPayload : Option JsonObject)
      (utcNow : String)
  | beginDispatch (identity : IntentExecutionIdentity) (clientOrderIds : List String)
      (utcNow : String)
  | markExchangeConfirmed (identity : IntentExecutionIdentity) (utcNow : String)
  | markExchangeConfirmedByClientOrderId (clientOrderId utcNow : String)
  | markCloseOrderTerminal (clientOrderId utcNow : String)
  | markRejected (identity : IntentExecutionIdentity) (reason utcNow : String)
  | markRejectedByClientOrderId (clientOrderId reason utcNow : String)
  | repairDispatchedManagement (now : DateTime × Option Int)
  | invalidatePosition (accountId instrumentId positionSide operationId : String)
  | invalidatePositionScope (accountId operationId : String) (instrumentIds : List String)

/-- What a call answers. -/
inductive Answer where
  | register (result : Except Failure IntentRegisterResult)
  | dispatch (result : Except Failure IntentDispatchResult)
  | done (result : Except Failure Unit)
  | found (result : Except Failure Bool)
  | record (result : Except Failure (Option IntentExecutionRecord))
  | repaired (result : Except Failure (List IntentExecutionRecord × Option Payload))
  | generation (result : Except Failure Nat)

/-- The call returned. -/
def Answer.isOk : Answer → Bool
  | .register r => r.isOk
  | .dispatch r => r.isOk
  | .done r => r.isOk
  | .found r => r.isOk
  | .record r => r.isOk
  | .repaired r => r.isOk
  | .generation r => r.isOk

/-- Pair an answer with the file it leaves. -/
def answering {α : Type} (f : Except Failure α → Answer) (x : Except Failure α × File) :
    Answer × File := (f x.1, x.2)

def step (inbox : JsonIntentExecutionInbox) (file : File) : Op → Answer × File
  | .registerReceived identity intentPayload utcNow =>
    answering .register (registerReceived inbox identity intentPayload utcNow file)
  | .beginDispatch identity clientOrderIds utcNow =>
    answering .dispatch (beginDispatch inbox identity clientOrderIds utcNow file)
  | .markExchangeConfirmed identity utcNow =>
    answering .done (markExchangeConfirmed inbox identity utcNow file)
  | .markExchangeConfirmedByClientOrderId clientOrderId utcNow =>
    answering .found (markExchangeConfirmedByClientOrderId inbox clientOrderId utcNow file)
  | .markCloseOrderTerminal clientOrderId utcNow =>
    answering .found (markCloseOrderTerminal inbox clientOrderId utcNow file)
  | .markRejected identity reason utcNow =>
    answering .done (markRejected inbox identity reason utcNow file)
  | .markRejectedByClientOrderId clientOrderId reason utcNow =>
    answering .record (markRejectedByClientOrderId inbox clientOrderId reason utcNow file)
  | .repairDispatchedManagement now =>
    answering .repaired (repairDispatchedManagement inbox now file)
  | .invalidatePosition accountId instrumentId positionSide operationId =>
    answering .generation
      (invalidatePosition inbox accountId instrumentId positionSide operationId file)
  | .invalidatePositionScope accountId operationId instrumentIds =>
    answering .done (invalidatePositionScope inbox accountId operationId instrumentIds file)

/-- The inbox. An empty one has no file. -/
def machine (inbox : JsonIntentExecutionInbox) : Machine File Op Answer := ⟨step inbox⟩

end TraderBot.Inbox
