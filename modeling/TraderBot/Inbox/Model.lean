import TraderBot.Lib.DateTime
import TraderBot.Lib.Machine
import TraderBot.Lib.Uuid

/-! # The intent execution inbox

`JsonIntentExecutionInbox` keeps one JSON file: a record for every intent
received and, for every position book, a generation counter that a close
barrier moves on. Each operation reads the file under a lock, checks it, and
writes it back whole when it changed something; a failure leaves the file as it
was. The file is modelled by the payload it holds, `none` before the first
write. Times come from outside: an operation that stamps a record takes the
text of the clock. -/
namespace TraderBot.Inbox
open TraderBot.Lib TraderBot.Lib.Text TraderBot.Lib.Dict TraderBot.Lib.Json

/-! ## Data -/

inductive IntentExecutionState where
  | received
  | dispatched
  | exchangeConfirmed
  | rejected
  deriving DecidableEq, Repr

def IntentExecutionState.value : IntentExecutionState → String
  | .received => "received"
  | .dispatched => "dispatched"
  | .exchangeConfirmed => "exchange_confirmed"
  | .rejected => "rejected"

inductive IntentRegisterResult where
  | registered
  | replay
  | intentConflict
  | idempotencyConflict
  deriving DecidableEq, Repr

inductive IntentDispatchResult where
  | ready
  | recoveryRequired
  | exchangeConfirmed
  | rejected
  deriving DecidableEq, Repr

/-- What an operation raises: its own error with its text, or an error of the
interpreter that it lets through. -/
inductive Failure where
  | inboxError (message : String)
  | valueError
  | typeError
  deriving DecidableEq, Repr

structure IntentExecutionIdentity where
  accountId : String
  intentId : String
  idempotencyKey : String
  instrumentId : String
  action : String
  deriving DecidableEq, Repr

structure IntentExecutionRecord where
  accountId : String
  intentId : String
  idempotencyKey : String
  instrumentId : String
  action : String
  state : IntentExecutionState
  intentPayload : JsonObject
  clientOrderIds : List String
  exchangeConfirmedClientOrderIds : List String
  updatedAt : String
  rejectionReason : String := ""
  localPositionGeneration : Option Nat := none
  localPositionSide : String := ""
  terminalClientOrderIds : List String := []
  deriving DecidableEq, Repr

def IntentExecutionRecord.identity (r : IntentExecutionRecord) : IntentExecutionIdentity :=
  { accountId := r.accountId, intentId := r.intentId, idempotencyKey := r.idempotencyKey,
    instrumentId := r.instrumentId, action := r.action }

/-- The counter of one position book and the operations that moved it. -/
structure PositionGeneration where
  generation : Nat
  invalidations : Dict Nat
  deriving DecidableEq, Repr

/-- What the file holds. `position_generations` is left out of the file as long
as it is empty. -/
structure Payload where
  records : Dict IntentExecutionRecord
  positionGenerations : Dict PositionGeneration
  deriving DecidableEq, Repr

def Payload.empty : Payload := ⟨.empty, .empty⟩

abbrev File := Option Payload

/-- An inbox: the interpreter's Unicode tables, Python's `==` on two decoded
payloads (under which `1`, `1.0` and `True` are one value and `NaN` is none) and
the byte budget of the file. -/
structure JsonIntentExecutionInbox where
  unicode : Unicode
  payloadEq : JsonObject → JsonObject → Bool
  maxBytes : Nat
  maxBytes_pos : 0 < maxBytes

/-! ## Text keys -/

def recordKey (identity : IntentExecutionIdentity) : String :=
  identity.accountId ++ ":" ++ identity.intentId

/-- Actions that may add to a position. -/
def isEntryAction (action : String) : Bool := action = "open_position" || action = "add_position"

section Keys
variable (u : Unicode)

def IntentExecutionIdentity.normalized (identity : IntentExecutionIdentity) :
    Except Failure IntentExecutionIdentity :=
  match Uuid.parse u identity.intentId with
  | none => .error .valueError
  | some intentId =>
    let accountId := strip identity.accountId
    let idempotencyKey := strip identity.idempotencyKey
    let instrumentId := strip identity.instrumentId
    let action := u.lower (strip identity.action)
    if accountId = "" then .error (.inboxError "account_id is required")
    else if idempotencyKey = "" then .error (.inboxError "idempotency_key is required")
    else if instrumentId = "" then .error (.inboxError "instrument_id is required")
    else if action = "" then .error (.inboxError "action is required")
    else .ok { accountId, intentId := intentId.str, idempotencyKey, instrumentId, action }

def positionSymbol (instrumentId : String) : String :=
  before '.' (before '-' (u.upper (strip instrumentId)))

/-- The key text of a book that was found valid. -/
def bookText (account symbol side : String) : String :=
  String.ofList (render (.arr [.str account, .str symbol, .str side]))

def positionBookKey (accountId instrumentId side : String) : Except Failure String :=
  let account := strip accountId
  let symbol := positionSymbol u instrumentId
  let positionSide := u.upper (strip side)
  if account = "" ∨ symbol = "" ∨ ¬ (positionSide = "LONG" ∨ positionSide = "SHORT") then
    .error (.inboxError "position book is invalid")
  else .ok (bookText account symbol positionSide)

def positionOperationId (value : String) : Except Failure String :=
  let operation := strip value
  if operation = "" then .error (.inboxError "position invalidation operation_id is required")
  else .ok operation

/-- `B`, 32 hexadecimal digits, two decimal digits: the groups of the client
order id pattern. -/
def clientOrderIdGroups (cs : List Char) : Option (List Char × List Char) :=
  match cs with
  | 'B' :: rest =>
    if rest.length = 34 ∧
        (rest.take 32).all (fun c => c.isDigit || ('a' ≤ c && c ≤ 'f')) ∧
        (rest.drop 32).all Char.isDigit then some (rest.take 32, rest.drop 32)
    else none
  | _ => none

def stableClientOrderIds (intentId : String) (clientOrderIds : List String) :
    Except Failure (List String) :=
  match Uuid.parse u intentId with
  | none => .error .valueError
  | some normalizedIntentId =>
    let stableIds := clientOrderIds.map strip
    if stableIds = [] then .error (.inboxError "at least one client_order_id is required")
    else if ¬ stableIds.Nodup then .error (.inboxError "client_order_ids must be unique")
    else if stableIds.all (fun id =>
        (clientOrderIdGroups id.toList).map Prod.fst == some normalizedIntentId.hex) then
      .ok stableIds
    else .error (.inboxError "client_order_id must be derived from intent_id")

end Keys

/-! ## The file -/

def jsonStrings (xs : List String) : Value := .arr (xs.map .str)

def serializeRecord (r : IntentExecutionRecord) : Value :=
  .obj [("account_id", .str r.accountId), ("action", .str r.action),
    ("client_order_ids", jsonStrings r.clientOrderIds),
    ("exchange_confirmed_client_order_ids", jsonStrings r.exchangeConfirmedClientOrderIds),
    ("idempotency_key", .str r.idempotencyKey), ("instrument_id", .str r.instrumentId),
    ("intent_id", .str r.intentId), ("intent_payload", .obj r.intentPayload.members),
    ("local_position_generation", match r.localPositionGeneration with
      | some n => .int n
      | none => .null),
    ("local_position_side", .str r.localPositionSide),
    ("rejection_reason", .str r.rejectionReason), ("state", .str r.state.value),
    ("terminal_client_order_ids", jsonStrings r.terminalClientOrderIds),
    ("updated_at", .str r.updatedAt)]

def serializeBook (b : PositionGeneration) : Value :=
  .obj [("generation", .int b.generation),
    ("invalidations", .obj (b.invalidations.items.map fun p => (p.1, .int p.2)))]

def serializePayload (p : Payload) : Value :=
  .obj ((if p.positionGenerations.items = [] then []
      else [("position_generations",
        .obj (p.positionGenerations.items.map fun b => (b.1, serializeBook b.2)))]) ++
    [("records", .obj (p.records.items.map fun r => (r.1, serializeRecord r.2))),
      ("version", .int 2)])

/-- The bytes of the file, its newline included; JSON text is ASCII. -/
def payloadBytes (p : Payload) : Nat := (render (serializePayload p)).length + 1

section File
variable (inbox : JsonIntentExecutionInbox)

def requireSizeWithinLimit (payloadBytes : Nat) : Except Failure Unit :=
  if payloadBytes ≤ inbox.maxBytes then .ok ()
  else .error (.inboxError ("intent execution inbox payload exceeds max_bytes: " ++
    Nat.repr payloadBytes ++ " bytes exceeds " ++ Nat.repr inbox.maxBytes ++ " bytes"))

/-- The checks of one book on reading: its key is the text its own three parts
give, and every invalidation lies between one and the generation. -/
def validateBook (key : String) (state : PositionGeneration) : Except Failure Unit :=
  let invalid : Except Failure Unit := .error (.inboxError "position generation is invalid")
  match loads key.toList with
  | some (.arr [.str account, .str symbol, .str side]) =>
    match positionBookKey inbox.unicode account symbol side with
    | .error e => .error e
    | .ok canonicalKey =>
      if canonicalKey ≠ key then invalid
      else state.invalidations.items.forM fun (operation, value) =>
        match positionOperationId operation with
        | .error e => .error e
        | .ok _ => if 0 < value ∧ value ≤ state.generation then .ok () else invalid
  | _ => invalid

def loadPayload (file : File) : Except Failure Payload :=
  match file with
  | none => .ok .empty
  | some payload =>
    match requireSizeWithinLimit inbox (payloadBytes payload) with
    | .error e => .error e
    | .ok () =>
      match payload.positionGenerations.items.forM fun (key, state) =>
          validateBook inbox key state with
      | .error e => .error e
      | .ok () => .ok payload

/-- `_mutate`: the operation answers and says what it changed, if anything. -/
def mutate {α : Type} (file : File) (operation : Payload → Except Failure (α × Option Payload)) :
    Except Failure α × File :=
  match loadPayload inbox file with
  | .error e => (.error e, file)
  | .ok payload =>
    match operation payload with
    | .error e => (.error e, file)
    | .ok (result, none) => (.ok result, file)
    | .ok (result, some changed) =>
      match requireSizeWithinLimit inbox (payloadBytes changed) with
      | .error e => (.error e, file)
      | .ok () => (.ok result, some changed)

def readLocked {α : Type} (file : File) (operation : Payload → Except Failure α) :
    Except Failure α :=
  match loadPayload inbox file with
  | .error e => .error e
  | .ok payload => operation payload

end File

/-! ## Looking records up -/

def recordForIdentity (p : Payload) (identity : IntentExecutionIdentity) :
    Option IntentExecutionRecord := p.records.get? (recordKey identity)

def requiredRecord (p : Payload) (identity : IntentExecutionIdentity) :
    Except Failure IntentExecutionRecord :=
  match recordForIdentity p identity with
  | none => .error (.inboxError "intent receipt does not exist")
  | some record =>
    if record.identity ≠ identity then
      .error (.inboxError "intent identity conflicts with durable receipt")
    else .ok record

def recordForIdempotencyKey (p : Payload) (accountId idempotencyKey : String) :
    Option IntentExecutionRecord :=
  (p.records.items.map Prod.snd).find? fun record =>
    record.accountId = accountId && record.idempotencyKey = idempotencyKey

/-- The first record, in file order, that lists the client order id. -/
def recordEntryForClientOrderId (p : Payload) (clientOrderId : String) :
    Option (String × IntentExecutionRecord) :=
  p.records.items.find? fun entry => decide (clientOrderId ∈ entry.2.clientOrderIds)

def Payload.setRecord (p : Payload) (key : String) (r : IntentExecutionRecord) : Payload :=
  { p with records := p.records.set key r }

/-- `sorted(set(xs))`. -/
def sortedSet (xs : List String) : List String := xs.dedup.insertionSort (· ≤ ·)

end TraderBot.Inbox
