import TraderBot.Inbox.Operations
import TraderBot.Lib.Routine
import TraderBot.NodeRuntime.Lifecycle

/-! # The approved intent client

`ApprovedIntentDataClient` takes approved intents from the control plane to the
publisher. It keeps a durable receipt of each in the inbox, and its cursor in an
offset file; both survive a crash, its memory does not. A restart first replays
what the inbox still holds open.

Everything the client does to a file, to the control plane, to the publisher or
to its own memory, and every clock or mode it reads, is an effect, so a crash or
an exception may come between any two. Other users of the inbox may move it
between any two as well. -/
namespace TraderBot.DataClient
open TraderBot.Lib TraderBot.Lib.Json
open TraderBot.Inbox (IntentExecutionRecord IntentExecutionIdentity IntentExecutionState
  IntentRegisterResult)
open TraderBot.NodeRuntime (TradingState)

/-! ## Data -/

inductive IntentAction where
  | openPosition
  | addPosition
  | partialClose
  | closePosition
  | moveStopLoss
  | moveStopToEntry
  | replaceTakeProfits
  | cancelOrder
  deriving DecidableEq, Repr

def IntentAction.value : IntentAction → String
  | .openPosition => "open_position"
  | .addPosition => "add_position"
  | .partialClose => "partial_close"
  | .closePosition => "close_position"
  | .moveStopLoss => "move_stop_loss"
  | .moveStopToEntry => "move_stop_to_entry"
  | .replaceTakeProfits => "replace_take_profits"
  | .cancelOrder => "cancel_order"

/-- `_NEW_POSITION_ACTIONS`. -/
def IntentAction.isNewPosition (action : IntentAction) : Bool :=
  action = .openPosition || action = .addPosition

inductive IntentAckStatus where
  | received
  | accepted
  | rejected
  | executed
  | expired
  | duplicate
  | failed
  deriving DecidableEq, Repr

/-- The states of a live canary record. -/
inductive LiveCanaryExecutionState where
  | received
  | claimed
  | dispatched
  | exchangeConfirmed
  | lossLimitHalted
  | closeDispatched
  | closed
  deriving DecidableEq, Repr

inductive LiveCanaryRegisterResult where
  | registered
  | replay
  | permitConflict
  deriving DecidableEq, Repr

/-- An approved intent, with the fields the client reads. -/
structure ApprovedTradeIntentV1 where
  intentId : Uuid
  accountId : String
  instrumentId : String
  action : IntentAction
  orderPlan : JsonObject
  validUntil : DateTime × Option Int
  idempotencyKey : String
  deriving DecidableEq, Repr

/-- What the control plane hands out: JSON, or a model made in the process. -/
inductive RawIntent where
  | model (intent : ApprovedTradeIntentV1)
  | json (value : Value)
  deriving DecidableEq, Repr

structure IntentItem where
  cursor : String
  intent : RawIntent
  deriving DecidableEq, Repr

/-- The model class of an intent: what it takes for one and how it writes one
down. The intent id is the UUID its member spells. -/
structure Contract (unicode : Text.Unicode) where
  validate : Value → Option ApprovedTradeIntentV1
  dump : ApprovedTradeIntentV1 → JsonObject
  validate_intentId : ∀ v i, validate v = some i → ∃ members raw, v = .obj members ∧
    Dict.lookup "intent_id" members = some raw ∧ uuidOfValue unicode raw = some i.intentId
  dump_intentId : ∀ i, (dump i).get? "intent_id" = some (.str i.intentId.str)

/-- A client: its account, its inbox and the model class. -/
structure Config where
  accountId : String
  inbox : Inbox.JsonIntentExecutionInbox
  contract : Contract inbox.unicode

/-! ## The offset file -/

/-- The cursor and the intents taken so far. -/
structure IntentOffsetState where
  lastCursor : Option String := none
  processedIntents : List String := []
  processedIdempotencyKeys : List String := []
  deriving DecidableEq, Repr

namespace IntentOffsetState

def intentKey (intent : ApprovedTradeIntentV1) : String :=
  intent.accountId ++ ":" ++ intent.intentId.str

def hasProcessed (state : IntentOffsetState) (intent : ApprovedTradeIntentV1) : Option String :=
  if intentKey intent ∈ state.processedIntents then some "duplicate_intent"
  else if intent.idempotencyKey ∈ state.processedIdempotencyKeys then
    some "duplicate_idempotency_key"
  else none

def recordProcessed (state : IntentOffsetState) (intent : ApprovedTradeIntentV1) :
    IntentOffsetState :=
  { state with
    processedIntents := state.processedIntents.insert (intentKey intent)
    processedIdempotencyKeys := state.processedIdempotencyKeys.insert intent.idempotencyKey }

end IntentOffsetState

/-! ## Effects -/

/-- What the client works on: an item of the feed, or a record it replays. -/
inductive Turn where
  | item (item : IntentItem)
  | record (record : IntentExecutionRecord)
  deriving DecidableEq, Repr

/-- An effect of the client. `turn` and `replayed` change nothing: they mark for
an observer where work on an item or a record begins and where a replay returns.
An acknowledgement says which intent it is about when there is a valid one. -/
inductive Effect where
  | turn (turn : Turn)
  | now
  | tradingState
  | canaryDenial (intent : ApprovedTradeIntentV1)
  | canaryIdentity (intent : ApprovedTradeIntentV1)
  | canaryRegister (intent : ApprovedTradeIntentV1)
  | canaryRecord (intent : ApprovedTradeIntentV1)
  | inboxGet (identity : IntentExecutionIdentity)
  | inboxRegister (identity : IntentExecutionIdentity) (payload : JsonObject)
  | inboxReject (identity : IntentExecutionIdentity) (reason : String)
  | inboxPending
  | hasProcessed (intent : ApprovedTradeIntentV1)
  | recordProcessed (intent : ApprovedTradeIntentV1)
  | setCursor (cursor : String)
  | saveOffsets
  | startupReplayed
  | setStartupReplayed
  | clearReplayed
  | addReplayed (intentId : String)
  | isReplayed (intentId : String)
  | replayed
  | fetchIntents (limit : Nat)
  | ack (about : Option ApprovedTradeIntentV1) (intentId : Uuid) (status : IntentAckStatus)
      (detail : Option String)
  | publish (intent : ApprovedTradeIntentV1)
  deriving DecidableEq, Repr

@[reducible] def Effect.Answer : Effect → Type
  | .turn _ => Unit
  | .now => DateTime × Option Int
  | .tradingState => TradingState
  | .canaryDenial _ => Option String
  | .canaryIdentity _ => Bool
  | .canaryRegister _ => LiveCanaryRegisterResult
  | .canaryRecord _ => Option LiveCanaryExecutionState
  | .inboxGet _ => Option IntentExecutionRecord
  | .inboxRegister _ _ => IntentRegisterResult
  | .inboxReject _ _ => Unit
  | .inboxPending => List IntentExecutionRecord
  | .hasProcessed _ => Option String
  | .recordProcessed _ => Unit
  | .setCursor _ => Unit
  | .saveOffsets => Unit
  | .startupReplayed => Bool
  | .setStartupReplayed => Unit
  | .clearReplayed => Unit
  | .addReplayed _ => Unit
  | .isReplayed _ => Bool
  | .replayed => Unit
  | .fetchIntents _ => List IntentItem
  | .ack _ _ _ _ => Unit
  | .publish _ => Unit

abbrev Client := Routine Effect Effect.Answer

abbrev effect (e : Effect) : Client e.Answer := Routine.perform e

/-! ## The code -/

section Code
variable (config : Config)

def validateIntent (item : IntentItem) : Option ApprovedTradeIntentV1 :=
  match item.intent with
  | .model intent => config.contract.validate (.obj (config.contract.dump intent).members)
  | .json value => config.contract.validate value

def extractIntentId (item : IntentItem) : Option Uuid :=
  match item.intent with
  | .model intent => some intent.intentId
  | .json (.obj members) =>
    (Dict.lookup "intent_id" members).bind (uuidOfValue config.inbox.unicode)
  | .json _ => none

def intentExecutionIdentity (intent : ApprovedTradeIntentV1) : IntentExecutionIdentity :=
  { accountId := intent.accountId, intentId := intent.intentId.str,
    idempotencyKey := intent.idempotencyKey, instrumentId := intent.instrumentId,
    action := intent.action.value }

def advanceCursor (cursor : String) : Client Unit := do
  effect (.setCursor cursor)
  effect .saveOffsets

/-- Acknowledge an item and move past it. -/
def answerItem (item : IntentItem) (intent : ApprovedTradeIntentV1) (status : IntentAckStatus)
    (detail : String) : Client Unit := do
  effect (.ack (some intent) intent.intentId status (some detail))
  advanceCursor item.cursor

/-- The detail of a receipt that is closed for good. -/
def durableDetail : IntentExecutionState → Option String
  | .exchangeConfirmed => some "durable_exchange_confirmed"
  | .rejected => some "durable_rejected"
  | .received | .dispatched => none

/-- Move past an item whose receipt is closed. -/
def answerDurable (item : IntentItem) (intent : ApprovedTradeIntentV1) (detail : String) :
    Client Unit := do
  effect (.recordProcessed intent)
  advanceCursor item.cursor
  effect (.ack (some intent) intent.intentId .duplicate (some detail))

/-- `_live_canary_ack`: a record that is gone or past its entry is an error. -/
def liveCanaryAck : Option LiveCanaryExecutionState → Client (IntentAckStatus × String)
  | some .received => pure (.received, "canary_received")
  | some .claimed => pure (.received, "canary_recovery_pending")
  | some .dispatched => pure (.accepted, "canary_dispatched")
  | some .exchangeConfirmed => pure (.accepted, "canary_exchange_confirmed")
  | some .lossLimitHalted | some .closeDispatched | some .closed | none => .raised

/-- The acknowledgement of a published intent. -/
def ackPublished (intent : ApprovedTradeIntentV1) (canary : Bool) (detail : Option String) :
    Client Unit := do
  if canary then
    let record ← effect (.canaryRecord intent)
    let (status, canaryDetail) ← liveCanaryAck record
    effect (.ack (some intent) intent.intentId status (some canaryDetail))
  else effect (.ack (some intent) intent.intentId .accepted detail)

def publishItem (item : IntentItem) (intent : ApprovedTradeIntentV1) (canary : Bool) :
    Client Unit := do
  effect (.publish intent)
  effect (.recordProcessed intent)
  advanceCursor item.cursor
  ackPublished intent canary none

/-- The receipt of an intent, and its publication when it is new or open. -/
def receiveIntent (item : IntentItem) (intent : ApprovedTradeIntentV1) (canary : Bool) :
    Client Unit := do
  let result ← effect (.inboxRegister (intentExecutionIdentity intent)
    (config.contract.dump intent))
  match result with
  | .intentConflict => answerItem item intent .duplicate "duplicate_intent"
  | .idempotencyConflict => answerItem item intent .duplicate "duplicate_idempotency_key"
  | .registered => publishItem item intent canary
  | .replay =>
    let record ← effect (.inboxGet (intentExecutionIdentity intent))
    match record with
    | none => .raised -- the receipt disappeared
    | some record =>
      match durableDetail record.state with
      | some detail => answerDurable item intent detail
      | none => publishItem item intent canary

/-- A canary intent claims its permit before its receipt. -/
def claimPermit (item : IntentItem) (intent : ApprovedTradeIntentV1) : Client Unit := do
  let canary ← effect (.canaryIdentity intent)
  if canary then
    let result ← effect (.canaryRegister intent)
    if result = .permitConflict then
      answerItem item intent .rejected "canary_permit_already_claimed"
    else receiveIntent config item intent canary
  else receiveIntent config item intent canary

/-- The checks of an intent without a closed receipt. -/
def admitIntent (item : IntentItem) (intent : ApprovedTradeIntentV1) : Client Unit := do
  let now ← effect .now
  if DateTime.instant intent.validUntil ≤ DateTime.instant now then
    answerItem item intent .expired "expired"
  else
    let duplicate ← effect (.hasProcessed intent)
    match duplicate with
    | some detail => answerItem item intent .duplicate detail
    | none =>
      let mode ← effect .tradingState
      if mode = .halted ∧ intent.action.isNewPosition then
        answerItem item intent .rejected "halted"
      else
        let denial ← effect (.canaryDenial intent)
        match denial with
        | some denial => answerItem item intent .rejected denial
        | none => claimPermit config item intent

def processItem (item : IntentItem) : Client Unit := do
  match validateIntent config item with
  | none =>
    match extractIntentId config item with
    | some intentId => effect (.ack none intentId .rejected (some "schema_mismatch"))
    | none => pure ()
    advanceCursor item.cursor
  | some intent =>
    if intent.accountId ≠ config.accountId then
      answerItem item intent .rejected "wrong_account"
    else
      let durable ← effect (.inboxGet (intentExecutionIdentity intent))
      match durable.bind fun record => durableDetail record.state with
      | some detail => answerDurable item intent detail
      | none => admitIntent config item intent

def deliver (item : IntentItem) : Client Unit := do
  effect (.turn (.item item))
  processItem config item

/-- Why a receipt that was never dispatched may not be published now. -/
def pendingReceivedRejection (intent : ApprovedTradeIntentV1) :
    Client (Option (IntentAckStatus × String)) := do
  let now ← effect .now
  if DateTime.instant intent.validUntil ≤ DateTime.instant now then
    pure (some (.expired, "expired"))
  else
    let mode ← effect .tradingState
    if mode = .halted ∧ intent.action.isNewPosition then pure (some (.rejected, "halted"))
    else
      let denial ← effect (.canaryDenial intent)
      pure (denial.map fun denial => (.rejected, denial))

/-- A refused replay is written into the receipt before it is acknowledged. -/
def refuseReplay (record : IntentExecutionRecord) (intent : ApprovedTradeIntentV1)
    (status : IntentAckStatus) (detail : String) : Client Nat := do
  effect (.inboxReject record.identity detail)
  effect (.ack (some intent) intent.intentId status (some detail))
  effect (.recordProcessed intent)
  effect .saveOffsets
  effect (.addReplayed intent.intentId.str)
  pure 1

def publishReplay (intent : ApprovedTradeIntentV1) : Client Nat := do
  effect (.publish intent)
  effect (.recordProcessed intent)
  effect .saveOffsets
  let canary ← effect (.canaryIdentity intent)
  ackPublished intent canary (some "durable_replay")
  effect (.addReplayed intent.intentId.str)
  pure 1

/-- One record of a replay; the answer counts it. -/
def replayRecord (record : IntentExecutionRecord) : Client Nat := do
  effect (.turn (.record record))
  if record.accountId ≠ config.accountId then pure 0
  else
    let now ← effect .now
    if Inbox.expiredDispatchedManagement record now then
      effect (.addReplayed record.intentId)
      pure 0
    else
      match config.contract.validate (.obj record.intentPayload.members) with
      | none =>
        effect (.inboxReject record.identity "schema_mismatch")
        pure 0
      | some intent =>
        if record.state = .received then
          let rejection ← pendingReceivedRejection intent
          match rejection with
          | some (status, detail) => refuseReplay record intent status detail
          | none => publishReplay intent
        else publishReplay intent

def replayRecords : List IntentExecutionRecord → Client Nat
  | [] => pure 0
  | record :: rest => do
    let one ← replayRecord config record
    let others ← replayRecords rest
    pure (one + others)

def replayPending : Client Nat := do
  effect .clearReplayed
  let records ← effect .inboxPending
  let replayed ← replayRecords config records
  effect .replayed
  pure replayed

def replayPendingOnce : Client Nat := do
  let done ← effect .startupReplayed
  if done then pure 0
  else
    let replayed ← replayPending config
    effect .setStartupReplayed
    pure replayed

/-- An item whose intent the replay has dealt with is passed without an answer. -/
def pollItem (item : IntentItem) : Client Unit := do
  match extractIntentId config item with
  | none => deliver config item
  | some intentId =>
    let replayed ← effect (.isReplayed intentId.str)
    if replayed then advanceCursor item.cursor else deliver config item

def pollItems : List IntentItem → Client Unit
  | [] => pure ()
  | item :: rest => do
    pollItem config item
    pollItems rest

def pollOnce (limit : Nat) : Client Nat := do
  let replayed ← replayPendingOnce config
  let items ← effect (.fetchIntents limit)
  pollItems config items
  pure (if items.isEmpty then replayed else items.length)

end Code

/-! ## The client and its surroundings -/

/-- What became of an effect: it raises with nothing done, comes back, or raises
when it is done. -/
inductive Outcome where
  | notDone
  | returned
  | doneButRaised
  deriving DecidableEq, Repr

/-- What the surroundings have to say at an effect: its outcome, the clocks, the
trading state, the live canary checks and store, the batch of a fetch. -/
structure Reading where
  outcome : Outcome := .returned
  now : DateTime × Option Int := (⟨1970, 1, 1, 0, 0, 0, 0, by decide⟩, none)
  utcNow : String := ""
  tradingState : TradingState := .halted
  canaryDenial : Option String := none
  canaryIdentity : Bool := false
  canaryRegister : LiveCanaryRegisterResult := .registered
  canaryRecord : Option LiveCanaryExecutionState := none
  batch : List IntentItem := []

/-- An acknowledgement that was sent. -/
structure Ack where
  about : Option ApprovedTradeIntentV1
  intentId : Uuid
  status : IntentAckStatus
  detail : Option String
  deriving DecidableEq, Repr

/-- The two files, the memory of the process, and what an observer has seen,
which no code reads: the acknowledgements sent, the turn and the trading state
read in it, the inbox the last replay read and the intents published since,
the batch under way, the items the cursor in memory has moved past and those the
saved one has. -/
structure World where
  inboxFile : Inbox.File := none
  offsets : Option IntentOffsetState := none
  state : IntentOffsetState := {}
  startupReplayed : Bool := false
  startupReplayedIntentIds : List String := []
  acks : List Ack := []
  turn : Option Turn := none
  modeRead : Option TradingState := none
  replayedFrom : Inbox.File := none
  publishedSince : List ApprovedTradeIntentV1 := []
  batch : List IntentItem := []
  reached : List IntentItem := []
  passed : List IntentItem := []

/-- The items of a batch up to the first with this cursor. -/
def upToCursor (cursor : String) (batch : List IntentItem) : List IntentItem :=
  match batch.findIdx? (·.cursor = cursor) with
  | some n => batch.take (n + 1)
  | none => []

section Component
variable (config : Config)

/-- An effect that comes back or raises when it is done. -/
def act : (e : Effect) → Reading → World → Option e.Answer × World
  | .turn turn, _, s => (some (), { s with turn := some turn, modeRead := none })
  | .now, x, s => (some x.now, s)
  | .tradingState, x, s => (some x.tradingState, { s with modeRead := some x.tradingState })
  | .canaryDenial _, x, s => (some x.canaryDenial, s)
  | .canaryIdentity _, x, s => (some x.canaryIdentity, s)
  | .canaryRegister _, x, s => (some x.canaryRegister, s)
  | .canaryRecord _, x, s => (some x.canaryRecord, s)
  | .inboxGet identity, _, s => ((Inbox.get config.inbox identity s.inboxFile).toOption, s)
  | .inboxRegister identity payload, x, s =>
    let out := Inbox.registerReceived config.inbox identity (some payload) x.utcNow s.inboxFile
    (out.1.toOption, { s with inboxFile := out.2 })
  | .inboxReject identity reason, x, s =>
    let out := Inbox.markRejected config.inbox identity reason x.utcNow s.inboxFile
    (out.1.toOption, { s with inboxFile := out.2 })
  | .inboxPending, _, s =>
    match Inbox.pending config.inbox s.inboxFile with
    | .error _ => (none, s)
    | .ok records => (some records, { s with replayedFrom := s.inboxFile, publishedSince := [] })
  | .hasProcessed intent, _, s => (some (s.state.hasProcessed intent), s)
  | .recordProcessed intent, _, s => (some (), { s with state := s.state.recordProcessed intent })
  | .setCursor cursor, _, s =>
    (some (), { s with
      state := { s.state with lastCursor := some cursor }
      reached := s.reached ++ upToCursor cursor s.batch })
  | .saveOffsets, _, s => (some (), { s with offsets := some s.state, passed := s.reached })
  | .startupReplayed, _, s => (some s.startupReplayed, s)
  | .setStartupReplayed, _, s => (some (), { s with startupReplayed := true })
  | .clearReplayed, _, s => (some (), { s with startupReplayedIntentIds := [] })
  | .addReplayed intentId, _, s =>
    (some (), { s with startupReplayedIntentIds := s.startupReplayedIntentIds.insert intentId })
  | .isReplayed intentId, _, s => (some (decide (intentId ∈ s.startupReplayedIntentIds)), s)
  | .replayed, _, s => (some (), s)
  | .fetchIntents _, x, s => (some x.batch, { s with batch := x.batch })
  | .ack about intentId status detail, _, s =>
    (some (), { s with acks := ⟨about, intentId, status, detail⟩ :: s.acks })
  | .publish intent, _, s => (some (), { s with publishedSince := intent :: s.publishedSince })

def perform (e : Effect) (x : Reading) (s : World) : Option e.Answer × World :=
  match x.outcome with
  | .notDone => (none, s)
  | .returned => act config e x s
  | .doneButRaised => (none, (act config e x s).2)

/-- A new process: the memory is what the offset file holds. -/
def restart (s : World) : World :=
  { s with
    state := s.offsets.getD {}
    startupReplayed := false
    startupReplayedIntentIds := []
    turn := none
    batch := []
    reached := s.passed }

inductive Call where
  | pollOnce (limit : Nat)
  | replayPending
  deriving DecidableEq, Repr

def Call.routine : Call → Client Unit
  | .pollOnce limit => do
    let _ ← DataClient.pollOnce config limit
    pure ()
  | .replayPending => do
    let _ ← DataClient.replayPending config
    pure ()

/-- The client; others work on its inbox. -/
def client : Component World Call Effect Effect.Answer Reading Inbox.Op where
  routine := Call.routine config
  perform := perform config
  others op s := { s with inboxFile := (Inbox.machine config.inbox).next s.inboxFile op }
  restart := restart

end Component
end TraderBot.DataClient
