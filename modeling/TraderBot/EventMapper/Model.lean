import TraderBot.Inbox.Model
import TraderBot.Spool.Model

/-! # The projection event mapper

`ProjectionEventMapper.to_envelope` turns an execution event of the trading
engine into an envelope for the spool. The event is an object or a dict of any
shape, read through `_attr`; what the mapper makes of the values it finds rests
on the interpreter (`str`, `int`, `datetime.fromtimestamp` on a float, SHA-256),
which the model takes as parameters. -/
namespace TraderBot.EventMapper
open TraderBot.Lib TraderBot.Lib.Text TraderBot.Lib.Dict TraderBot.Lib.Json
open TraderBot.Spool (ExecutionEventEnvelopeV1 Failure)

/-! ## Source events -/

/-- What an event's attribute can hold. A dict has its keys as text; another
object has its `value` attribute, if any, and is told by its `str`. -/
inductive PyValue where
  | none
  | bool (b : Bool)
  | int (n : Int)
  | float (x : JsonFloat)
  | str (s : String)
  | datetime (x : DateTime) (offset : Option Int)
  | list (items : List PyValue)
  | dict (items : List (String × PyValue))
  | object (text : String) (value : Option PyValue)
  deriving Inhabited

inductive SourceEvent where
  | dict (items : List (String × PyValue))
  | object (className : String) (attributes : List (String × PyValue))

/-- A value unless it is `None`. -/
def present : Option PyValue → Option PyValue
  | some .none => none
  | value => value

def SourceEvent.own (name : String) : SourceEvent → Option PyValue
  | .dict items => present (lookup name items)
  | .object _ attributes => present (lookup name attributes)

/-- The nested `payload`, where it is a dict. -/
def SourceEvent.nested (name : String) (event : SourceEvent) : Option PyValue :=
  match event.own "payload" with
  | some (.dict items) => present (lookup name items)
  | _ => none

/-- `_attr`: name by name, the event's own value before the nested one. -/
def attr (event : SourceEvent) (names : List String) : Option PyValue :=
  names.findSome? fun name => event.own name <|> event.nested name

/-- `getattr(value, "value", value)`. -/
def PyValue.valueOf : PyValue → PyValue
  | .object _ (some value) => value
  | value => value

/-! ## The interpreter -/

/-- `fromtimestamp value scale` is `datetime.fromtimestamp(value / scale, utc)`
with its float arithmetic; `none` is the error it raises. `sha256` is the hex
digest of an ASCII text. -/
structure Interpreter where
  unicode : Unicode
  str : PyValue → String
  str_str : ∀ s, str (.str s) = s
  int : PyValue → Option Int
  fromtimestamp : Int → Nat → Option DateTime
  sha256 : List Char → String
  sha256_ne : ∀ cs, sha256 cs ≠ ""

structure ProjectionConfig where
  nodeId : String
  accountId : String
  allowedInstrumentIds : List String := []
  requireRobotOrderOwnership : Bool := false

/-! ## Tables -/

inductive Family where
  | order
  | position
  | account
  deriving DecidableEq, Repr

def orderEventTypes : List String :=
  ["OrderSubmitted", "OrderAccepted", "OrderFilled", "OrderCanceled", "OrderRejected",
    "OrderDenied", "OrderExpired", "OrderUpdated", "OrderPendingUpdate", "OrderPendingCancel"]

def positionEventTypes : List String := ["PositionOpened", "PositionChanged", "PositionClosed"]

def accountEventTypes : List String := ["AccountState", "AccountBalance", "AccountMargin"]

def eventMappingCatalog (eventType : String) : Option Family :=
  if eventType ∈ orderEventTypes then some .order
  else if eventType ∈ positionEventTypes then some .position
  else if eventType ∈ accountEventTypes then some .account
  else none

def payloadKeys : List String :=
  ["instrument_id", "order_side", "side", "order_type", "time_in_force", "quantity", "qty",
    "filled_qty", "leaves_qty", "price", "avg_px", "last_px", "last_qty", "quote_qty", "commission",
    "commission_asset", "position_side", "reduce_only", "maker", "buyer", "status", "recovered",
    "source", "position_id", "realized_pnl", "currency", "balance", "margin_balance", "total",
    "free", "locked", "reason"]

section Mapping
variable (py : Interpreter)

/-! ## Reading an event -/

def optionalStr : Option PyValue → Option String
  | none => none
  | some value =>
    let text := py.str value.valueOf
    if text = "" then none else some text

def eventType (event : SourceEvent) : String :=
  match optionalStr py (attr event ["event_type", "type"]) with
  | some text => text
  | none =>
    match event with
    | .dict _ => "dict"
    | .object className _ => className

/-- `_ensure_aware`; `none` is the overflow of a conversion to UTC. -/
def ensureAware (x : DateTime) : Option Int → Option DateTime
  | none => some x
  | some offset => DateTime.toUtc (x, some offset)

def timestampToDatetime : Option PyValue → Except Failure DateTime
  | some (.datetime x offset) => ofOption (ensureAware x offset)
  | none => ofOption (py.fromtimestamp 0 1)
  | some raw =>
    match py.int raw with
    | none => .error .uncaught
    | some value =>
      if value.natAbs > 10000000000000 then ofOption (py.fromtimestamp value 1000000000)
      else if value.natAbs > 10000000000 then ofOption (py.fromtimestamp value 1000)
      else ofOption (py.fromtimestamp value 1)
where
  ofOption : Option DateTime → Except Failure DateTime
    | some x => .ok x
    | none => .error .uncaught

def stableTimestampPart : Option PyValue → Except Failure String
  | some (.datetime x offset) =>
    match ensureAware x offset with
    | some x => .ok (DateTime.isoformat x)
    | none => .error .uncaught
  | none => .ok ""
  | some raw => .ok (py.str raw)

mutual
/-- `_jsonable`; `none` is the overflow of a time's conversion to UTC. -/
def jsonable : PyValue → Option Value
  | .none => some .null
  | .bool b => some (.bool b)
  | .int n => some (.int n)
  | .float x => some (.float x)
  | .str s => some (.str s)
  | .datetime x offset => (ensureAware x offset).map fun x => .str (DateTime.isoformat x)
  | .list items => (jsonableItems items).map .arr
  | .dict items => (jsonableMembers items).map fun members => .obj (dictOf members)
  | .object text value => some (.str (py.str (PyValue.object text value).valueOf))
def jsonableItems : List PyValue → Option (List Value)
  | [] => some []
  | x :: xs =>
    match jsonable x, jsonableItems xs with
    | some v, some vs => some (v :: vs)
    | _, _ => none
def jsonableMembers : List (String × PyValue) → Option (List (String × Value))
  | [] => some []
  | (k, x) :: xs =>
    match jsonable x, jsonableMembers xs with
    | some v, some vs => some ((k, v) :: vs)
    | _, _ => none
end

/-- Python's truth of a value. -/
def truthy : PyValue → Bool
  | .none => false
  | .bool b => b
  | .int n => n ≠ 0
  | .float (.finite text _) =>
    (text.takeWhile fun c => c ≠ 'e' ∧ c ≠ 'E').any fun c => c.isDigit ∧ c ≠ '0'
  | .str s => s ≠ ""
  | .list items => !items.isEmpty
  | .dict items => !items.isEmpty
  | .float _ | .datetime _ _ | .object _ _ => true

/-- The texts of the tags: what a loop over them visits, when there are any. -/
def tagTexts (event : SourceEvent) : Except Failure (List String) :=
  match attr event ["tags"] with
  | none => .ok []
  | some tags =>
    if truthy tags = false then .ok []
    else
      match tags with
      | .list items => .ok (items.map py.str)
      | .dict items => .ok (items.map Prod.fst)
      | .str s => .ok (s.toList.map fun c => String.ofList [c])
      | _ => .error .uncaught

/-- `_payload`: the enriched fields, then the event's own, then its tags. -/
def payload (event : SourceEvent) (instrumentId : Option String) (tags : List String) :
    Except Failure JsonObject :=
  let extra : List (String × PyValue) :=
    match event with
    | .dict _ => []
    | .object _ attributes =>
      match lookup "_projection_payload_extra" attributes with
      | some (.dict items) => items
      | _ => []
  let own := payloadKeys.filterMap fun key => (attr event [key]).map (key, ·)
  match jsonableMembers py extra, jsonableMembers py own with
  | some extra, some own =>
    let members := dictOf (extra ++ (instrumentId.map fun id => ("instrument_id", .str id)).toList ++
      own ++ if tags = [] then [] else [("tags", .arr (tags.map .str))])
    if h : canonical (.obj members) = true then .ok ⟨members, h⟩ else .error .uncaught
  | _, _ => .error .uncaught

/-- `_intent_from_client_order_id`. -/
def intentFromClientOrderId (clientOrderId : String) : Option Uuid :=
  if clientOrderId.toList.length = 35 ∧ clientOrderId.toList.head? = some 'B' then
    Uuid.parse py.unicode (String.ofList ((clientOrderId.toList.drop 1).take 32))
  else none

def intentTag : List Char := "intent_id=".toList

/-- `_intent_id`: the field, else the first tag that names one, else what the
client order id is made from. -/
def intentId (event : SourceEvent) (tags : List String) (clientOrderId : Option String) :
    Option Uuid :=
  match optionalStr py (attr event ["intent_id"]) with
  | some direct => Uuid.parse py.unicode direct
  | none =>
    match tags.find? fun text => intentTag.isPrefixOf text.toList with
    | some text => Uuid.parse py.unicode (String.ofList (text.toList.drop intentTag.length))
    | none => clientOrderId.bind (intentFromClientOrderId py)

/-- `is_robot_client_order_id`. -/
def isRobotClientOrderId (value : Option String) : Bool :=
  match value with
  | some text => (Inbox.clientOrderIdGroups (strip text).toList).isSome
  | none => false

def eventIsInScope (config : ProjectionConfig) (family : Family)
    (clientOrderId instrumentId positionId : Option String) : Bool :=
  if family = .account then true
  else if config.allowedInstrumentIds ≠ [] ∧
      (∀ id ∈ config.allowedInstrumentIds, instrumentId ≠ some id) then false
  else if config.requireRobotOrderOwnership = false then true
  else if family = .order then isRobotClientOrderId clientOrderId
  else
    match positionId with
    | none => false
    | some id => !"-EXTERNAL".toList.isSuffixOf (py.unicode.upper id).toList

/-! ## The mapping -/

/-- What an event is about, as the mapper reads it. -/
@[ext] structure Identity where
  eventType : String
  clientOrderId : Option String
  venueOrderId : Option String
  tradeId : Option String
  instrumentId : Option String
  positionId : Option String
  deriving DecidableEq, Repr

def identity (event : SourceEvent) : Identity where
  eventType := eventType py event
  clientOrderId := optionalStr py (attr event ["client_order_id"])
  venueOrderId := optionalStr py (attr event ["venue_order_id", "order_id"])
  tradeId := optionalStr py (attr event ["trade_id", "venue_trade_id"])
  instrumentId := optionalStr py (attr event ["instrument_id"])
  positionId := optionalStr py (attr event ["position_id"])

def tsEventRaw (event : SourceEvent) : Option PyValue :=
  attr event ["ts_event", "timestamp", "event_time"]

/-- The text under the hash, its members in key order. -/
def material (accountId eventType : String) (clientOrderId venueOrderId tradeId : Option String)
    (tsEvent : String) : Value :=
  .obj [("account_id", .str accountId), ("client_order_id", .str (clientOrderId.getD "")),
    ("event_type", .str eventType), ("trade_id", .str (tradeId.getD "")), ("ts_event", .str tsEvent),
    ("venue_order_id", .str (venueOrderId.getD ""))]

def stableEventId (accountId eventType : String)
    (clientOrderId venueOrderId tradeId : Option String) (tsEventRaw : Option PyValue) :
    Except Failure String := do
  let tsEvent ← stableTimestampPart py tsEventRaw
  return py.sha256 (render (material accountId eventType clientOrderId venueOrderId tradeId tsEvent))

/-- The start of 2020: an event that claims to be older has no time of its own. -/
def missingBefore : DateTime := ⟨2020, 1, 1, 0, 0, 0, 0, by decide⟩

/-- `to_envelope`, with the time of the clock in UTC. -/
def toEnvelope (config : ProjectionConfig) (tsIngest : DateTime) (event : SourceEvent) :
    Except Failure (Option ExecutionEventEnvelopeV1) := do
  let id := identity py event
  match eventMappingCatalog id.eventType with
  | none => return none
  | some family =>
    let tsEvent ← timestampToDatetime py (tsEventRaw event)
    let tsEvent := if tsEvent.toMicros < missingBefore.toMicros then tsIngest else tsEvent
    if eventIsInScope py config family id.clientOrderId id.instrumentId id.positionId = false then
      return none
    let tags ← tagTexts py event
    let payload ← payload py event id.instrumentId tags
    let eventId ← stableEventId py config.accountId id.eventType id.clientOrderId id.venueOrderId
      id.tradeId (tsEventRaw event)
    -- the model's `min_length=1`
    if h : eventId ≠ "" ∧ config.nodeId ≠ "" ∧ config.accountId ≠ "" ∧ id.eventType ≠ "" then
      return some {
        eventId, nodeId := config.nodeId, accountId := config.accountId,
        intentId := intentId py event tags id.clientOrderId, clientOrderId := id.clientOrderId,
        venueOrderId := id.venueOrderId, tradeId := id.tradeId, eventType := id.eventType,
        tsEvent, tsIngest, payload, eventId_ne := h.1, nodeId_ne := h.2.1, accountId_ne := h.2.2.1,
        eventType_ne := h.2.2.2 }
    else .error .uncaught

end Mapping
end TraderBot.EventMapper
