import TraderBot.Lib.DateTime
import TraderBot.Lib.JsonLines
import TraderBot.Lib.Machine
import TraderBot.Lib.Uuid

/-! # The execution event spool

`JsonExecutionSpool` keeps execution events until the sink has taken them. In
memory it holds the pending envelopes and the ids it has seen; on disk a log of
JSON lines: an append adds a line, an acknowledgement replaces the whole file by
one snapshot line, and a new process reads the file back. The file is the text
it holds, `none` before the first write; everything the spool writes is ASCII,
so characters are bytes. What the operating system does to a write comes from
outside: how many bytes of it reached the file before it broke off. -/
namespace TraderBot.Spool
open TraderBot.Lib TraderBot.Lib.Text TraderBot.Lib.Dict TraderBot.Lib.Json

/-! ## Data -/

/-- An envelope as its model validates it. Both times are in UTC: the event
mapper converts them before it builds an envelope, the loader after reading. -/
structure ExecutionEventEnvelopeV1 where
  eventId : String
  nodeId : String
  accountId : String
  intentId : Option Uuid := none
  clientOrderId : Option String := none
  venueOrderId : Option String := none
  tradeId : Option String := none
  eventType : String
  tsEvent : DateTime
  tsIngest : DateTime
  payload : JsonObject
  eventId_ne : eventId ≠ ""
  nodeId_ne : nodeId ≠ ""
  accountId_ne : accountId ≠ ""
  eventType_ne : eventType ≠ ""
  deriving DecidableEq, Repr

/-- What an operation raises: its own errors with their texts, an error of the
operating system, or one of the interpreter or of the envelope's model that it
lets through. -/
inductive Failure where
  | spoolCapacityError (message : String)
  | spoolCorruptionError (message : String)
  | typeError (message : String)
  | valueError (message : String)
  | osError
  | uncaught
  deriving DecidableEq, Repr

/-- A spool: the interpreter's Unicode tables and its `str` on decoded JSON
values, the byte budget of the file and the number of acknowledged ids it
remembers. -/
structure JsonExecutionSpool where
  unicode : Unicode
  str : Value → String
  str_str : ∀ s, str (.str s) = s
  maxBytes : Nat
  maxBytes_pos : 0 < maxBytes
  seenEventLimit : Nat
  seenEventLimit_pos : 0 < seenEventLimit

/-- What a running spool holds. The seen ids are the keys of a dict, oldest
first. -/
structure Memory where
  pending : List ExecutionEventEnvelopeV1
  seenEventIds : List String
  sizeBytes : Nat
  lastAppendSize : Nat
  deriving DecidableEq, Repr

def Memory.empty : Memory := ⟨[], [], 0, 0⟩

abbrev File := Option (List Char)

def ids (events : List ExecutionEventEnvelopeV1) : List String := events.map (·.eventId)

/-- `d[k] = None` on the keys of a dict: a key it has keeps its place. -/
def addKey (keys : List String) (k : String) : List String := if k ∈ keys then keys else keys ++ [k]

/-! ## The order of events -/

def eventTypeOrder : List (String × Nat) :=
  [("OrderSubmitted", 10), ("OrderAccepted", 20), ("OrderPendingUpdate", 30), ("OrderUpdated", 40),
    ("OrderFilled", 50), ("OrderPendingCancel", 60), ("OrderCanceled", 70), ("OrderRejected", 80),
    ("OrderExpired", 90)]

def eventOrderKey (envelope : ExecutionEventEnvelopeV1) : Nat ×ₗ Nat ×ₗ String :=
  toLex (envelope.tsEvent.toMicros,
    toLex ((lookup envelope.eventType eventTypeOrder).getD 100, envelope.eventId))

/-- `pending.sort(key=_event_order_key)`. -/
def sortEvents (events : List ExecutionEventEnvelopeV1) : List ExecutionEventEnvelopeV1 :=
  events.insertionSort fun a b => eventOrderKey a ≤ eventOrderKey b

/-! ## Records -/

def optionalText : Option String → Value
  | some s => .str s
  | none => .null

def envelopeToPayload (e : ExecutionEventEnvelopeV1) : Value :=
  .obj [("account_id", .str e.accountId), ("client_order_id", optionalText e.clientOrderId),
    ("event_id", .str e.eventId), ("event_type", .str e.eventType),
    ("intent_id", optionalText (e.intentId.map Uuid.str)), ("node_id", .str e.nodeId),
    ("payload", .obj e.payload.members), ("schema_version", .str "1.0"),
    ("trade_id", optionalText e.tradeId), ("ts_event", .str (DateTime.isoformat e.tsEvent)),
    ("ts_ingest", .str (DateTime.isoformat e.tsIngest)),
    ("venue_order_id", optionalText e.venueOrderId)]

def appendRecord (e : ExecutionEventEnvelopeV1) : Value :=
  .obj [("event", envelopeToPayload e), ("op", .str "append")]

def snapshotRecord (pending : List ExecutionEventEnvelopeV1) (seenEventIds : List String) : Value :=
  .obj [("op", .str "snapshot"), ("pending", .arr (pending.map envelopeToPayload)),
    ("schema_version", .str "2.0"), ("seen_event_ids", .arr (seenEventIds.map .str))]

/-- `_encode_record`: a line of the log. -/
def encodeRecord (record : Value) : List Char := line record

/-! ## Reading an envelope -/

def datetimeFromIso (value : String) : Except Failure DateTime :=
  match (DateTime.fromisoformat (DateTime.replaceZulu value)).bind DateTime.toUtc with
  | some x => .ok x
  | none => .error .uncaught

def datetimeField (values : List (String × Value)) (k : String) : Except Failure DateTime :=
  match lookup k values with
  | some (.str text) => datetimeFromIso text
  | _ => .error .uncaught

/-- A field `str = Field(min_length=1)`. -/
def requiredTextField (values : List (String × Value)) (k : String) :
    Except Failure {s : String // s ≠ ""} :=
  match lookup k values with
  | some (.str s) => if h : s ≠ "" then .ok ⟨s, h⟩ else .error .uncaught
  | _ => .error .uncaught

/-- A field `Optional[str] = None`. -/
def optionalTextField (values : List (String × Value)) (k : String) :
    Except Failure (Option String) :=
  match lookup k values with
  | none | some .null => .ok none
  | some (.str s) => .ok (some s)
  | _ => .error .uncaught

/-- The field `Literal["1.0"] = "1.0"`. -/
def schemaVersionField (values : List (String × Value)) : Except Failure Unit :=
  if (lookup "schema_version" values).getD (.str "1.0") = .str "1.0" then .ok ()
  else .error .uncaught

/-- The field `dict[str, Any]`, empty by default. What `loads` returns is in key
order throughout. -/
def payloadField (values : List (String × Value)) : Except Failure JsonObject :=
  match (lookup "payload" values).getD (.obj []) with
  | .obj members =>
    if h : canonical (.obj members) = true then .ok ⟨members, h⟩ else .error .uncaught
  | _ => .error .uncaught

def envelopeFields : List String :=
  ["account_id", "client_order_id", "event_id", "event_type", "intent_id", "node_id", "payload",
    "schema_version", "trade_id", "ts_event", "ts_ingest", "venue_order_id"]

section Reading
variable (spool : JsonExecutionSpool)

/-- `UUID(str(value))` unless the value is missing or `None`. -/
def intentIdField (values : List (String × Value)) : Except Failure (Option Uuid) :=
  match lookup "intent_id" values with
  | none | some .null => .ok none
  | some value =>
    match Uuid.parse spool.unicode (spool.str value) with
    | some x => .ok (some x)
    | none => .error .uncaught

/-- `_envelope_from_payload` of a JSON object: the three conversions, then the
checks of the model, which forbids other fields. -/
def envelopeOfMembers (values : List (String × Value)) :
    Except Failure ExecutionEventEnvelopeV1 := do
  let tsEvent ← datetimeField values "ts_event"
  let tsIngest ← datetimeField values "ts_ingest"
  let intentId ← intentIdField spool values
  schemaVersionField values
  let eventId ← requiredTextField values "event_id"
  let nodeId ← requiredTextField values "node_id"
  let accountId ← requiredTextField values "account_id"
  let clientOrderId ← optionalTextField values "client_order_id"
  let venueOrderId ← optionalTextField values "venue_order_id"
  let tradeId ← optionalTextField values "trade_id"
  let eventType ← requiredTextField values "event_type"
  let payload ← payloadField values
  if values.all fun kv => kv.1 ∈ envelopeFields then
    .ok { eventId := eventId.1, nodeId := nodeId.1, accountId := accountId.1, intentId,
          clientOrderId, venueOrderId, tradeId, eventType := eventType.1, tsEvent, tsIngest,
          payload, eventId_ne := eventId.2, nodeId_ne := nodeId.2,
          accountId_ne := accountId.2, eventType_ne := eventType.2 }
  else .error .uncaught

def envelopeFromPayload : Value → Except Failure ExecutionEventEnvelopeV1
  | .obj values => envelopeOfMembers spool values
  | _ => .error .uncaught

/-! ## Reading the file -/

/-- `_decode_wal_records` from one line on: the records so far and the bytes of
their lines. -/
def decodeWalRecords (recordIndex : Nat) (records : List (List (String × Value)))
    (durableSize : Nat) :
    List (List Char) → Except Failure (List (List (String × Value)) × Bool × Nat)
  | [] => .ok (records, false, durableSize)
  | line :: lines =>
    let corrupt (what : String) : Failure :=
      .spoolCorruptionError ("execution spool WAL record " ++ Nat.repr recordIndex ++ what)
    if line.getLast? ≠ some '\n' then .ok (records, false, durableSize)
    else if line.dropLast = [] then .error (corrupt " is empty")
    else
      match loads line.dropLast with
      | none => .error (corrupt " is corrupt")
      | some (.obj record) =>
        decodeWalRecords (recordIndex + 1) (records ++ [record]) (durableSize + line.length) lines
      | some _ => .error (corrupt " must be an object")

/-- The records of a file, whether it is a snapshot of the old format, and how
many of its bytes are durable. -/
def decodeRecords (encoded : List Char) :
    Except Failure (List (List (String × Value)) × Bool × Nat) :=
  match loads encoded with
  | none => decodeWalRecords 1 [] 0 (splitLines encoded)
  | some (.obj payload) =>
    if lookup "op" payload = none then .ok ([payload], true, encoded.length)
    else if encoded.getLast? = some '\n' then .ok ([payload], false, encoded.length)
    else .ok ([], false, 0)
  | some _ => .error (.typeError "execution spool root must be a JSON object")

/-- Python's truth of a decoded value. -/
def truthy : Value → Bool
  | .null => false
  | .bool b => b
  | .int n => n ≠ 0
  | .float (.finite text _) =>
    (text.takeWhile fun c => c ≠ 'e' ∧ c ≠ 'E').any fun c => c.isDigit ∧ c ≠ '0'
  | .float _ => true
  | .str s => s ≠ ""
  | .arr items => !items.isEmpty
  | .obj members => !members.isEmpty

/-- What a loop over a decoded value visits. -/
def iterate : Value → Except Failure (List Value)
  | .arr items => .ok items
  | .obj members => .ok (members.map fun kv => .str kv.1)
  | .str s => .ok (s.toList.map fun c => .str (String.ofList [c]))
  | _ => .error .uncaught

def applyRecord (memory : Memory) (record : List (String × Value)) : Except Failure Memory :=
  let op := (lookup "op" record).getD .null
  let operation := if truthy op then spool.str op else "snapshot"
  if operation = "snapshot" then do
    let seen ← iterate ((lookup "seen_event_ids" record).getD (.arr []))
    let items ← iterate ((lookup "pending" record).getD (.arr []))
    let pending ← items.mapM (envelopeFromPayload spool)
    .ok { memory with
      pending, seenEventIds := (ids pending).foldl addKey ((seen.map spool.str).foldl addKey []) }
  else if operation = "append" then do
    let envelope ← match lookup "event" record with
      | some event => envelopeFromPayload spool event
      | none => .error .uncaught
    if envelope.eventId ∈ memory.seenEventIds then .ok memory
    else .ok { memory with
      pending := memory.pending ++ [envelope],
      seenEventIds := addKey memory.seenEventIds envelope.eventId }
  else .error (.valueError ("unknown execution spool operation: " ++ operation))

/-- One record of `_load`. -/
def loadRecord (memory : Memory) (record : List (String × Value)) : Except Failure Memory :=
  applyRecord spool
    (if lookup "op" record = some (.str "append") then
      { memory with
        lastAppendSize := max memory.lastAppendSize (encodeRecord (.obj record)).length }
    else memory) record

/-! ## Writing -/

/-- Acknowledged ids in order, the latest of them as many as are remembered,
then the pending ones. -/
def compactSeenEventIds (pending : List ExecutionEventEnvelopeV1) (seenEventIds : List String) :
    List String :=
  let ackedIds := seenEventIds.filter (· ∉ ids pending)
  let retainedAckedIds := ackedIds.drop (ackedIds.length - spool.seenEventLimit)
  (ids pending).foldl addKey (retainedAckedIds.foldl addKey [])

def assertCapacityBytes (sizeBytes : Nat) : Except Failure Unit :=
  if sizeBytes ≤ spool.maxBytes then .ok ()
  else .error (.spoolCapacityError ("execution event spool capacity exceeded: " ++
    Nat.repr sizeBytes ++ " > " ++ Nat.repr spool.maxBytes ++ " bytes"))

/-- `_commit_state`; the file is replaced whole. -/
def commitState (memory : Memory) (file : File) (pending : List ExecutionEventEnvelopeV1)
    (seenEventIds : List String) : Except Failure Memory × File :=
  let compacted := compactSeenEventIds spool pending seenEventIds
  let encoded := encodeRecord (snapshotRecord pending compacted)
  match assertCapacityBytes spool encoded.length with
  | .error e => (.error e, file)
  | .ok () =>
    (.ok { memory with pending, seenEventIds := compacted, sizeBytes := encoded.length },
      some encoded)

/-- `_append_encoded`: the whole record, or an error after the first `written`
bytes of it. -/
def appendEncoded (fault : Option Nat) (file : File) (encoded : List Char) :
    Except Failure Unit × File :=
  match fault with
  | none => (.ok (), some (file.getD [] ++ encoded))
  | some written => (.error .osError, some (file.getD [] ++ encoded.take written))

/-! ## Operations -/

/-- The constructor: `_load` on what the file holds. -/
def load (file : File) : Except Failure Memory × File :=
  let encoded := file.getD []
  if encoded = [] then (.ok Memory.empty, file)
  else
    match decodeRecords encoded with
    | .error e => (.error e, file)
    | .ok (records, legacySnapshot, durableSize) =>
      -- a torn tail is cut off before anything is applied
      let encoded := encoded.take durableSize
      match records.foldlM (loadRecord spool) Memory.empty with
      | .error e => (.error e, some encoded)
      | .ok memory =>
        let compacted := compactSeenEventIds spool memory.pending memory.seenEventIds
        let needsCompaction := compacted ≠ memory.seenEventIds
        let memory := { memory with seenEventIds := compacted, pending := sortEvents memory.pending }
        match assertCapacityBytes spool encoded.length with
        | .error e => (.error e, some encoded)
        | .ok () =>
          let memory := { memory with sizeBytes := encoded.length }
          if legacySnapshot ∨ needsCompaction then
            commitState spool memory (some encoded) memory.pending memory.seenEventIds
          else (.ok memory, some encoded)

/-- `append_once`: its answer, the memory and the file after it. -/
def appendOnce (fault : Option Nat) (memory : Memory) (file : File)
    (envelope : ExecutionEventEnvelopeV1) : Except Failure Bool × Memory × File :=
  if envelope.eventId ∈ memory.seenEventIds then (.ok false, memory, file)
  else
    let encoded := encodeRecord (appendRecord envelope)
    match assertCapacityBytes spool (memory.sizeBytes + encoded.length) with
    | .error e => (.error e, memory, file)
    | .ok () =>
      match appendEncoded fault file encoded with
      | (.error e, file) => (.error e, memory, file)
      | (.ok (), file) =>
        (.ok true,
          { pending := sortEvents (memory.pending ++ [envelope]),
            seenEventIds := addKey memory.seenEventIds envelope.eventId,
            sizeBytes := memory.sizeBytes + encoded.length,
            lastAppendSize := max memory.lastAppendSize encoded.length }, file)

/-- `mark_acked`. -/
def markAcked (memory : Memory) (file : File) (eventIds : List String) :
    Except Failure Unit × Memory × File :=
  if eventIds = [] then (.ok (), memory, file)
  else
    match commitState spool memory file
        (memory.pending.filter fun event => event.eventId ∉ eventIds) memory.seenEventIds with
    | (.error e, file) => (.error e, memory, file)
    | (.ok memory, file) => (.ok (), memory, file)

end Reading

/-! ## Runs -/

/-- A process on a spool file; without memory when its constructor raised. -/
structure Process where
  memory : Option Memory
  file : File
  deriving DecidableEq, Repr

/-- The write of an append that a crash cut short. -/
structure TornWrite where
  event : ExecutionEventEnvelopeV1
  written : Nat
  proper : written < (encodeRecord (appendRecord event)).length

/-- The file as a crash leaves it. -/
def tornFile (file : File) : Option TornWrite → File
  | none => file
  | some torn =>
    some (file.getD [] ++ (encodeRecord (appendRecord torn.event)).take torn.written)

/-- Calls that meet no error of the operating system, and crashes followed by a
new process. -/
inductive Op where
  | appendOnce (envelope : ExecutionEventEnvelopeV1)
  | markAcked (eventIds : List String)
  | restart (torn : Option TornWrite)

/-- Calls of which an append may break off after some bytes of its record. -/
inductive FaultyOp where
  | op (op : Op)
  | brokenAppend (envelope : ExecutionEventEnvelopeV1) (written : Nat)

inductive Answer where
  | appended (fresh : Bool)
  | done
  | failed (failure : Failure)
  | notRunning
  deriving DecidableEq, Repr

section Runs
variable (spool : JsonExecutionSpool)

/-- A new process on the file. -/
def start (file : File) : Answer × Process :=
  match load spool file with
  | (.ok memory, file) => (.done, ⟨some memory, file⟩)
  | (.error e, file) => (.failed e, ⟨none, file⟩)

def runAppend (fault : Option Nat) (p : Process) (envelope : ExecutionEventEnvelopeV1) :
    Answer × Process :=
  match p.memory with
  | none => (.notRunning, p)
  | some memory =>
    match Spool.appendOnce spool fault memory p.file envelope with
    | (.ok fresh, memory, file) => (.appended fresh, ⟨some memory, file⟩)
    | (.error e, memory, file) => (.failed e, ⟨some memory, file⟩)

def step (p : Process) : Op → Answer × Process
  | .appendOnce envelope => runAppend spool none p envelope
  | .markAcked eventIds =>
    match p.memory with
    | none => (.notRunning, p)
    | some memory =>
      match Spool.markAcked spool memory p.file eventIds with
      | (.ok (), memory, file) => (.done, ⟨some memory, file⟩)
      | (.error e, memory, file) => (.failed e, ⟨some memory, file⟩)
  | .restart torn => start spool (tornFile p.file torn)

def faultyStep (p : Process) : FaultyOp → Answer × Process
  | .op op => step spool p op
  | .brokenAppend envelope written => runAppend spool (some written) p envelope

def machine : Machine Process Op Answer := ⟨step spool⟩

def faultyMachine : Machine Process FaultyOp Answer := ⟨faultyStep spool⟩

/-- A new spool where no file is. -/
def fresh : Process := ⟨some Memory.empty, none⟩

end Runs

end TraderBot.Spool
