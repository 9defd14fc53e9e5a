import TraderBot.Lib.DateTime
import TraderBot.Lib.Uuid
import TraderBot.SignalQueue.Transactions

/-! # The handoff of a registered request

Operator ingress takes the account risk lock, loads the registered request with
its task and run locked, creates the operation and accepts it, all in one
transaction. The hash, the source times of messages and the readers of text are
given. -/
namespace TraderBot.SignalQueue
open TraderBot.Lib TraderBot.Lib.Json

/-- What the handoff relies on: SHA-256, and of each raw message the text of its
`source_ts`, where it has one. -/
structure Handoff where
  unicode : Text.Unicode
  sha256 : String → String
  sourceTs : String → Option String

/-- `_TRANSPORT`. -/
def transport : List String := ["task_id", "processing_run_id", "attempt", "claim_token"]

/-- A dict without its transport fields. -/
def withoutTransport (members : List (String × Value)) : List (String × Value) :=
  members.filter fun p => p.1 ∉ transport

mutual
/-- No float in it is infinite or no number. -/
def finiteJson : Value → Bool
  | .float (.finite _ _) => true
  | .float _ => false
  | .arr items => finiteItems items
  | .obj members => finiteMembers members
  | .null | .bool _ | .int _ | .str _ => true
def finiteItems : List Value → Bool
  | [] => true
  | x :: xs => finiteJson x && finiteItems xs
def finiteMembers : List (String × Value) → Bool
  | [] => true
  | (_, x) :: xs => finiteJson x && finiteMembers xs
end

/-- What of a request the hash is about. -/
def semanticRequest (body : JsonObject) : Value :=
  .obj <| (withoutTransport body.members).map fun p =>
    match p with
    | ("signal_claim", .obj claim) => ("signal_claim", .obj (withoutTransport claim))
    | p => p

def canonicalRequestHash (h : Handoff) (body : JsonObject) : Option String :=
  if finiteJson (semanticRequest body) then
    some (h.sha256 (String.ofList (render (semanticRequest body))))
  else none

/-- `_uuid`: the canonical text of what reads as a UUID. -/
def uuidText (h : Handoff) (value : Option Value) : Option String :=
  (value.bind (uuidOfValue h.unicode)).map Uuid.str

/-- What `load_request` gives to `accept_operation`. -/
structure Context where
  taskId : String
  accountId : String
  processingRunId : String
  attempt : Int
  claimToken : String
  operatorIntentId : Option String
  sourceDeadline : Option Int
  deriving DecidableEq, Repr

/-- The claim a request names, once its fields are checked. -/
structure NamedClaim where
  source : List (String × Value)
  taskId : String
  processingRunId : String
  claimToken : String
  rawMessageId : String
  attempt : Int

/-- The checks of a body before the database is asked. -/
def namedClaim (h : Handoff) (accountId : String) (body : JsonObject) : Option NamedClaim :=
  match body.get? "signal_claim", body.get? "source_identity" with
  | some (.obj claim), some (.obj source) =>
    if body.get? "account_id" ≠ some (.str accountId) ∨
        Dict.lookup "account_id" source ≠ some (.str accountId) then none
    else do
      let taskId ← uuidText h (Dict.lookup "task_id" claim)
      let runId ← uuidText h (Dict.lookup "processing_run_id" claim)
      let token ← uuidText h (Dict.lookup "claim_token" claim)
      let rawId ← uuidText h (body.get? "raw_message_id")
      match Dict.lookup "attempt" claim, Dict.lookup "stable_action_or_leg_id" claim with
      | some (.int attempt), some (.str stable) =>
        if attempt < 1 ∨ Text.strip stable = "" then none
        else some ⟨source, taskId, runId, token, rawId, attempt⟩
      | _, _ => none
  | _, _ => none

/-- The source identity of a request is the task's. -/
def sourceMatches (source : List (String × Value)) (t : TaskRow) : Bool :=
  Dict.lookup "source_platform" source = some (.str t.sourcePlatform) &&
    Dict.lookup "channel_id" source = some (.str t.channelId) &&
    Dict.lookup "source_message_id" source = some (.str t.sourceMessageId) &&
    Dict.lookup "edit_version" source = some (.str t.editVersion) &&
    Dict.lookup "account_id" source = some (.str t.accountId)

/-- The task is this account's signal task, registered with this request. -/
def taskAnswers (h : Handoff) (accountId : String) (body : JsonObject) (c : NamedClaim)
    (t : TaskRow) : Bool :=
  t.accountId = accountId && t.processingPurpose = .signal && sourceMatches c.source t &&
    t.rawMessageId = c.rawMessageId && t.executionContext.isSome &&
    match t.executionRequest with
    | some request =>
      match canonicalRequestHash h body, canonicalRequestHash h request with
      | some a, some b => a = b
      | _, _ => false
    | none => false

/-- The task and the run carry the claim of the request. -/
def runAnswers (accountId : String) (c : NamedClaim) (t : TaskRow) (r : Run) : Bool :=
  r.processingPurpose = .signal && r.accountId = some accountId && r.rawMessageId = c.rawMessageId &&
    r.claimToken = some c.claimToken && (r.attempt : Int) = c.attempt &&
    t.processingRunId = some c.processingRunId && t.claimToken = some c.claimToken &&
    (t.attempt : Int) = c.attempt

/-- `body.get("action") in {"open_position", "add_position"}`. -/
def entryAction (body : JsonObject) : Bool :=
  body.get? "action" = some (.str "open_position") || body.get? "action" = some (.str "add_position")

def minutes (n : Int) : Int := n * 60 * microseconds

/-- The deadline of an entry, from the time of its source; `none` when that is
unknown or out of bounds. -/
def entryDeadline (h : Handoff) (rawMessageId : String) (checkedAt : Int) : Option Int := do
  let text ← h.sourceTs rawMessageId
  let at_ ← DateTime.fromisoformat (DateTime.replaceZulu text)
  if at_.2.isNone then none
  else
    let sourceTs := DateTime.instant at_
    if sourceTs + minutes 30 ≤ checkedAt ∨ checkedAt + minutes 5 < sourceTs then none
    else some (sourceTs + minutes 30)

/-- Another task of the source has an operation. -/
def Store.siblingOperation (v : Store) (t : TaskRow) : Bool :=
  v.tasks.rows.any fun x => x.toSource = t.toSource && x.taskId ≠ t.taskId && x.operatorIntentId.isSome

/-- The checks of a request that is accepted for the first time: its deadline. -/
def freshRequest (h : Handoff) (body : JsonObject) (t : TaskRow) (r : Run) :
    Transaction (Option Int) := do
  let checkedAt ← select (·.clock)
  if t.status.isClaimed = false ∨ r.status.isActive = false ∨
      ahead t.leaseExpiresAt checkedAt = false ∨ ahead r.leaseExpiresAt checkedAt = false then .raised
  else if past t.expiresAt checkedAt then .raised
  else if entryAction body then
    match entryDeadline h t.rawMessageId checkedAt with
    | none => .raised
    | some deadline =>
      let sibling ← select (·.siblingOperation t)
      if sibling then .raised else pure (some deadline)
  else pure none

/-- A request that has an operation already is loaded as it is. -/
def requestDeadline (h : Handoff) (body : JsonObject) (t : TaskRow) (r : Run) :
    Transaction (Option Int) :=
  match t.operatorIntentId with
  | some _ => pure none
  | none => freshRequest h body t r

/-- `load_request` with its rows locked. -/
def loadRequest (h : Handoff) (accountId : String) (body : JsonObject) : Transaction Context := do
  match namedClaim h accountId body with
  | none => .raised
  | some c =>
    let task ← selectTaskForUpdate c.taskId
    match task with
    | none => .raised
    | some t =>
      if taskAnswers h accountId body c t = false then .raised
      else
        let run ← selectRunForUpdate c.processingRunId
        match run with
        | none => .raised
        | some r =>
          if runAnswers accountId c t r = false then .raised
          else
            let deadline ← requestDeadline h body t r
            pure ⟨c.taskId, accountId, c.processingRunId, c.attempt, c.claimToken, t.operatorIntentId,
              deadline⟩

/-- The row of `trade_intents` that the ingress has written before it accepts. -/
structure TradeIntent where
  intentId : String
  accountId : String
  validUntil : Int
  deriving DecidableEq, Repr

/-- What the statement that accepts asks of the task and its run. -/
def acceptable (c : Context) (intent : TradeIntent) (v : Store) (t : TaskRow) (r : Run) : Bool :=
  intent.accountId = t.accountId && t.accountId = c.accountId && t.processingPurpose = .signal &&
    r.processingPurpose = .signal && r.accountId = some t.accountId &&
    r.rawMessageId = t.rawMessageId && t.operatorIntentId.isNone && t.status.isClaimed &&
    r.status.isActive && r.processingRunId = c.processingRunId && t.claimToken = some c.claimToken &&
    r.claimToken = some c.claimToken && (t.attempt : Int) = c.attempt && (r.attempt : Int) = c.attempt &&
    ahead t.leaseExpiresAt v.clock && ahead r.leaseExpiresAt v.clock &&
    !past t.expiresAt v.clock && v.clock < intent.validUntil && !past c.sourceDeadline v.clock

def acceptOperation (h : Handoff) (c : Context) (intent : TradeIntent) : Transaction Unit := do
  match uuidText h (some (Value.str intent.intentId)) with
  | none => .raised
  | some intentId =>
    match c.operatorIntentId with
    | some existing => if existing = intentId then pure () else .raised
    | none =>
      let accepted ← updateClaim c.taskId (acceptable c intent)
        (fun t => { t with operatorIntentId := some intentId, status := .dispatched })
        fun r => { r with status := .succeeded }
      match accepted with
      | some _ => pure ()
      | none => .raised

/-- Operator ingress for a signal: the account risk lock, the request, the operation. -/
def operatorIngress (h : Handoff) (accountId : String) (body : JsonObject) (intent : TradeIntent) :
    Transaction Unit := do
  advisoryLock (.account accountId)
  let context ← loadRequest h accountId body
  acceptOperation h context intent

end TraderBot.SignalQueue
