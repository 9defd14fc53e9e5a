import TraderBot.Lib.DateTime
import TraderBot.Lib.Machine
import TraderBot.Orders.Descriptor

/-! # The order projection reducer

`OrderProjectionReducer.apply_event` and what it calls. The tables are those of
the migrations, as far as the reducer reads or writes them; a call that raises
rolls its transaction back and leaves them as they were. A call reads first
(`readPhase`: the event is recorded, the order row and the fills are read and a
status is chosen) and writes then (`writePhase`).

Outside the code are the interpreter's Unicode tables and `str`, the order in
which the database sorts texts and what it makes of a JSON value in a text
column; they are parameters (`Env`). -/
namespace TraderBot.Orders
open TraderBot.Lib TraderBot.Lib.Text TraderBot.Lib.Json

/-- `textColumn v` is what a text column keeps of the parameter `v`, `none`
where the driver or the database refuses it; `collate` is the database's `<=`
on texts. -/
structure Env where
  unicode : Unicode
  str : Value → String
  str_str : ∀ s, str (.str s) = s
  textColumn : Value → Option String
  collate : String → String → Bool
  collate_total : ∀ a b, collate a b = true ∨ collate b a = true
  collate_trans : ∀ a b c, collate a b = true → collate b c = true → collate a c = true
  collate_antisymm : ∀ a b, collate a b = true → collate b a = true → a = b

/-- The environment that knows ASCII, keeps texts only and sorts by code point. -/
def Env.plain : Env where
  unicode := Unicode.ascii
  str v := match v with
    | .str s => s
    | v => String.ofList (render v)
  str_str _ := rfl
  textColumn v := match v with
    | .str s => some s
    | _ => none
  collate a b := decide (a ≤ b)
  collate_total a b := by simpa using le_total a b
  collate_trans a b c h h' := by simpa using le_trans (by simpa using h) (by simpa using h')
  collate_antisymm a b h h' := le_antisymm (by simpa using h) (by simpa using h')

/-! ## Events -/

inductive Timestamp where
  | missing
  | text (s : String)
  | datetime (x : DateTime) (offset : Option Int)
  deriving DecidableEq, Repr

/-- The dict a caller passes: an envelope of the node, its fields under their
contract types. -/
structure Event where
  eventId : String
  schemaVersion : Option String := none
  nodeId : Option String := none
  accountId : String
  intentId : Option String := none
  executionJobId : Option String := none
  clientOrderId : Option String := none
  venueOrderId : Option String := none
  tradeId : Option String := none
  instrumentId : Option String := none
  eventType : String
  tsEvent : Timestamp := .missing
  tsIngest : Timestamp := .missing
  payload : Option (Dict Value) := none

structure OrderKey where
  accountId : String
  clientOrderId : String
  deriving DecidableEq, Repr

/-- An event after `_normalize_event`; times are microseconds of UTC. -/
structure Normalized where
  event : Event
  key : OrderKey
  tsEvent : Nat
  payload : Dict Value

/-- A text as `a or b` takes it. -/
def nonEmpty : Option String → Option String
  | some s => if s = "" then none else some s
  | none => none

def ensureAware (now : DateTime) : Timestamp → Except Failure DateTime
  | .missing => .ok now
  | .text s =>
    match DateTime.fromisoformat (DateTime.replaceZulu s) with
    | some (x, none) => .ok x
    | some (x, some offset) => orRaise .badTime (DateTime.toUtc (x, some offset))
    | none => .error .badTime
  | .datetime x none => .ok x
  | .datetime x (some offset) => orRaise .badTime (DateTime.toUtc (x, some offset))

def canonicalAccountId (text : String) : Except Failure String :=
  if strip text = "" then .error (.valueError "account_id must not be empty") else .ok (strip text)

def normalizeEvent (env : Env) (now : DateTime) (event : Event) : Except Failure Normalized := do
  let payload := event.payload.getD Dict.empty
  let accountId ← canonicalAccountId event.accountId
  let clientOrderId :=
    match nonEmpty event.clientOrderId with
    | some id => id
    | none =>
      match Json.orElse (payload.get? "client_order_id") none with
      | some v => env.str v
      | none =>
        match nonEmpty event.venueOrderId with
        | some id => "venue:" ++ id
        | none => "event:" ++ event.eventId
  let payload :=
    match payload.get? "instrument_id", nonEmpty event.instrumentId with
    | none, some id => payload.set "instrument_id" (.str id)
    | _, _ => payload
  let tsEvent ← ensureAware now event.tsEvent
  return { event, key := ⟨accountId, clientOrderId⟩, tsEvent := tsEvent.toMicros, payload }

/-! ## Tables -/

/-- A row of `execution_events`. -/
structure ExecutionEvent where
  eventId : String
  nodeId : String
  accountId : String
  intentId : Option String
  clientOrderId : Option String
  venueOrderId : Option String
  tradeId : Option String
  eventType : String
  tsEvent : Nat
  tsIngest : Nat
  payload : Dict Value

inductive Side where
  | long
  | short
  deriving DecidableEq, Repr

/-- A row of `orders_projection`. -/
structure OrderRow where
  orderProjectionId : String
  key : OrderKey
  instrumentId : String
  venueSymbol : String
  intentId : Option String
  venueOrderId : Option String
  status : OrderStatus
  side : Option Side
  orderType : Option String
  quantity : Option Amount
  filledQuantity : Amount
  price : Option Numeric
  averageFillPrice : Option Numeric
  lifecycleRole : Option String
  updatedFromEventId : String
  tsEvent : Option Nat
  payload : Dict Value
  deriving DecidableEq

/-- A row of `order_events`. -/
structure OrderEvent where
  eventId : String
  executionJobId : Option String
  accountId : String
  orderProjectionId : Option String
  clientOrderId : String
  venueOrderId : Option String
  eventType : String
  lifecycleRole : Option String
  positionKey : Option String
  tsEvent : Nat
  payload : Dict Value

/-- A row of `reconciliation_runs`. -/
structure ReconciliationRun where
  runId : String
  accountId : String
  status : String
  reason : String
  payload : Dict Value

/-- A row of `reconciliation_findings`. -/
structure Finding where
  findingId : String
  runId : String
  accountId : String
  findingType : String
  severity : String
  orderProjectionId : Option String
  payload : Dict Value
  deriving DecidableEq

structure Tables where
  executionEvents : Table ExecutionEvent.eventId
  orders : Table OrderRow.key
  orderEvents : Table OrderEvent.eventId
  runs : List ReconciliationRun
  findings : List Finding

def Tables.empty : Tables := ⟨.empty, .empty, .empty, [], []⟩

/-- What `uuid4` draws during a call. -/
structure Draws where
  orderProjectionId : String
  runId : String
  findingId : String

/-- A call of `apply_event`, with what it meets on its way: the time, the drawn
ids and whether the database refuses it for reasons of its own. -/
structure Call where
  event : Event
  now : DateTime
  draws : Draws
  refused : Bool := false

structure OrderApplyResult where
  eventId : String
  status : Option OrderStatus
  applied : Bool
  duplicate : Bool := false
  anomaly : Option Finding := none
  deriving DecidableEq

/-! ## Recording the event -/

/-- A dict under a `jsonb` column. -/
def jsonColumn (d : Dict Value) : Except Failure (Dict Value) :=
  orRaise .database (Jsonb.storedDict d)

/-- The row `ensure_execution_event` inserts. -/
def executionRow (now : DateTime) (event : Normalized) : Except Failure ExecutionEvent := do
  let tsIngest ← ensureAware now event.event.tsIngest
  -- `ck_execution_events_schema_version`
  if event.event.schemaVersion.getD "1.0" ≠ "1.0" then .error .database
  else
    let payload ← jsonColumn event.payload
    return {
      eventId := event.event.eventId, nodeId := event.event.nodeId.getD "unknown",
      accountId := event.key.accountId, intentId := event.event.intentId,
      clientOrderId := some event.key.clientOrderId, venueOrderId := event.event.venueOrderId,
      tradeId := event.event.tradeId, eventType := event.event.eventType, tsEvent := event.tsEvent,
      tsIngest := tsIngest.toMicros, payload }

def Tables.record (t : Tables) (row : ExecutionEvent) : Tables :=
  { t with executionEvents := t.executionEvents.insert row }

def ensureExecutionEvent (now : DateTime) (event : Normalized) (t : Tables) :
    Except Failure Tables := do
  return t.record (← executionRow now event)

/-! ## Reducing the fills -/

/-- `ORDER BY ts_event, event_id`. -/
def fillBefore (env : Env) (a b : ExecutionEvent) : Prop :=
  a.tsEvent < b.tsEvent ∨ (a.tsEvent = b.tsEvent ∧ env.collate a.eventId b.eventId = true)

instance (env : Env) : DecidableRel (fillBefore env) :=
  fun _ _ => inferInstanceAs (Decidable (_ ∨ _))

/-- The fills of an order, in order. -/
def fillRows (env : Env) (rows : List ExecutionEvent) (key : OrderKey) : List ExecutionEvent :=
  (rows.filter fun r => r.accountId = key.accountId ∧ r.clientOrderId = some key.clientOrderId ∧
    r.eventType = "OrderFilled").insertionSort (fillBefore env)

/-- `payload.update(payload["order"])` where that is a dict. -/
def withNestedOrder (payload : Dict Value) : Dict Value :=
  match payload.get? "order" with
  | some (.obj members) => members.foldl (fun d kv => d.set kv.1 kv.2) payload
  | _ => payload

def fillNumberMessage : String := "venue fill quantities and prices must be finite and nonnegative"

/-- A number of a fill, checked. -/
def fillNumber (unicode : Unicode) (v : Option Value) : Except Failure (Option FiniteDecimal) :=
  match decimalOrNone unicode v with
  | none => .ok none
  | some (.finite d) =>
    if d.isNegative then .error (.valueError fillNumberMessage) else .ok (some d)
  | some _ => .error (.valueError fillNumberMessage)

/-- Who a fill is: its trade, or without one its event. -/
inductive FillIdentity where
  | trade (id : String)
  | event (id : String)
  deriving DecidableEq, Repr

def fillIdentity (row : ExecutionEvent) : FillIdentity :=
  match nonEmpty row.tradeId with
  | some id => .trade id
  | none => .event row.eventId

/-- The numbers of one fill row. -/
structure FillNumbers where
  cumulative : Option FiniteDecimal
  delta : Option FiniteDecimal
  price : Option FiniteDecimal
  average : Option Decimal

def fillNumbers (unicode : Unicode) (row : ExecutionEvent) : Except Failure FillNumbers := do
  let payload := withNestedOrder row.payload
  let cumulative ← fillNumber unicode (payload.get? "filled_qty")
  let delta ← fillNumber unicode (payload.get? "last_qty")
  let price ← fillNumber unicode (payload.get? "last_px")
  let average := decimalOrNone unicode
    (Json.orElse (payload.get? "avg_px") (payload.get? "average_fill_price"))
  return { cumulative, delta, price, average }

/-- The accumulators of the loop. -/
structure FillState where
  total : FiniteDecimal := .zero
  deltaTotal : FiniteDecimal := .zero
  valueTotal : FiniteDecimal := .zero
  pricedTotal : FiniteDecimal := .zero
  seen : List FillIdentity := []
  groupTime : Option Nat := none
  anchor : FiniteDecimal := .zero
  averages : List (FiniteDecimal × FiniteDecimal) := []

/-- A new timestamp closes the group: its anchor is a total. -/
def FillState.enter (s : FillState) (tsEvent : Nat) : FillState :=
  if some tsEvent = s.groupTime then s
  else { s with total := s.total.max s.anchor, anchor := .zero, groupTime := some tsEvent }

def sum (a b : FiniteDecimal) : Except Failure FiniteDecimal :=
  orRaise .decimalSignal (Decimal.add a b)

/-- The total after one fill: a cumulative quantity is an anchor, else a delta
counts unless its trade was seen. -/
def FillState.count (s : FillState) (n : FillNumbers) (duplicate : Bool) :
    Except Failure FillState := do
  match n.cumulative with
  | some cumulative =>
    if cumulative.isPositive then
      let averages := match n.average with
        | some (.finite average) =>
          if average.isNegative then s.averages else s.averages ++ [(cumulative, average)]
        | _ => s.averages
      return { s with anchor := s.anchor.max cumulative, averages }
    else countDelta s
  | none => countDelta s
where
  countDelta (s : FillState) : Except Failure FillState := do
    match duplicate, n.delta with
    | false, some delta => return { s with total := ← sum s.total delta }
    | _, _ => return s

/-- The priced part of the deltas, for the average price. -/
def FillState.price (s : FillState) (n : FillNumbers) (duplicate : Bool) :
    Except Failure FillState := do
  match duplicate, n.delta with
  | false, some delta =>
    let deltaTotal ← sum s.deltaTotal delta
    match n.price with
    | some price =>
      let pricedTotal ← sum s.pricedTotal delta
      let value ← orRaise .decimalSignal (Decimal.mul delta price)
      let valueTotal ← sum s.valueTotal value
      return { s with deltaTotal, pricedTotal, valueTotal }
    | none => return { s with deltaTotal }
  | _, _ => return s

/-- One turn of the loop. -/
def fillStep (unicode : Unicode) (s : FillState) (row : ExecutionEvent) :
    Except Failure FillState := do
  let s := s.enter row.tsEvent
  let n ← fillNumbers unicode row
  let identity := fillIdentity row
  let duplicate : Bool := s.seen.contains identity
  let s := if duplicate then s else { s with seen := identity :: s.seen }
  let s ← s.count n duplicate
  s.price n duplicate

/-- The loop, and the last group closed after it. -/
def reduceFills (unicode : Unicode) (rows : List ExecutionEvent) : Except Failure FillState := do
  let s ← rows.foldlM (fillStep unicode) {}
  return { s with total := s.total.max s.anchor }

/-- The reduced quantity: never below what the row knows. -/
def fillTotal (total : FiniteDecimal) (current : Option OrderRow) : Except Failure FiniteDecimal :=
  match current with
  | none => .ok total
  | some row =>
    match row.filledQuantity.value.toDecimal with
    | .finite known => .ok (total.max known)
    | _ => .error .decimalSignal

/-- The quantity the row knows, where the event brings none. -/
def withQuantity (payload : Dict Value) (current : Option OrderRow) : Dict Value :=
  match current with
  | none => payload
  | some row =>
    match Json.present (payload.get? "quantity"), Json.present (payload.get? "qty"), row.quantity with
    | none, none, some quantity =>
      payload.set "quantity" (.str (decimalText quantity.value.toDecimal))
    | _, _, _ => payload
where
  decimalText : Decimal → String
    | .finite d => String.ofList (Decimal.finiteText d)
    | .infinity negative => if negative then "-Infinity" else "Infinity"
    | .nan _ _ _ => "NaN"

def finiteStr (d : FiniteDecimal) : Value := .str (String.ofList (Decimal.finiteText d))

/-- The average price of the total: the last anchor's that has it, or what the
priced deltas come to. -/
def averagePrice (s : FillState) (total : FiniteDecimal) : Except Failure Value := do
  let known := s.averages.foldl (fun v p => if p.1.eq total then finiteStr p.2 else v) .null
  if total.isPositive ∧ s.pricedTotal.eq s.deltaTotal = true ∧ s.deltaTotal.eq total = true then
    return finiteStr (← orRaise .decimalSignal (Decimal.div s.valueTotal total))
  else return known

/-- `_fill_payload` over the rows of its query. -/
def fillPayload (unicode : Unicode) (rows : List ExecutionEvent) (payload : Dict Value)
    (current : Option OrderRow) : Except Failure (Dict Value) := do
  let s ← reduceFills unicode rows
  let total ← fillTotal s.total current
  let average ← averagePrice s total
  return ((withQuantity payload current).set "filled_qty" (finiteStr total)).set "avg_px" average

/-! ## Choosing a status -/

/-- `_explicit_target`. -/
def explicitTarget (env : Env) (payload : Dict Value) : Option OrderStatus :=
  (Json.present (payload.get? "target_status")).bind fun v => OrderStatus.ofText? (env.str v)

/-- The target an event names: mapped, triggered, explicit or lost. -/
def namedTarget (env : Env) (event : Normalized) (current : Option OrderStatus) :
    Except Failure OrderStatus := do
  match ← eventTarget env.unicode event.event.eventType event.payload with
  | some (.state s) => return s
  | some .self => return current.getD .submitted
  | none =>
    match transitionTarget current event.event.eventType with
    | some s => return s
    | none => return (explicitTarget env event.payload).getD .lost

/-- The target of a call: a full fill overrides the named one where it may. -/
def chooseTarget (env : Env) (event : Normalized) (current : Option OrderStatus) (hasFills : Bool) :
    Except Failure OrderStatus := do
  let named ← namedTarget env event current
  if hasFills then
    let derived ← eventTarget env.unicode "OrderFilled" event.payload
    if derived = some (.state .filled) ∧ ∀ s ∈ current, legalTransition s .filled = true then
      return .filled
    else return named
  else return named

/-- What a call does with the projection: keep an old event as history only,
refuse an illegal transition, or write the row under a status. -/
inductive Decision where
  | backfill
  | illegal (target : OrderStatus)
  | project (status : OrderStatus)
  deriving DecidableEq, Repr

/-- An event from before the row that does not advance it. -/
def staleBackfill (tsEvent : Nat) (row : OrderRow) (hasFills : Bool) (target : OrderStatus) : Bool :=
  row.tsEvent.any (fun ts => decide (tsEvent < ts)) &&
    decide (stateRank target ≤ stateRank row.status) && !(hasFills && target == .filled)

def decision (tsEvent : Nat) (current : Option OrderRow) (hasFills : Bool) (target : OrderStatus) :
    Decision :=
  match current with
  | none => .project target
  | some row =>
    if target = row.status then .project target
    else if staleBackfill tsEvent row hasFills target then
      -- fills reach the row under its own status
      if hasFills then .project row.status else .backfill
    else if legalTransition row.status target then .project target
    else if hasFills then .project row.status
    else .illegal target

/-! ## The read phase -/

/-- What a call has read and chosen before it writes the projection. -/
structure Reading where
  event : Normalized
  current : Option OrderRow
  hasFills : Bool
  target : OrderStatus

/-- `has_fills`. -/
def hasFills (event : Normalized) (current : Option OrderRow) : Bool :=
  event.event.eventType == "OrderFilled" || current.any fun row => row.filledQuantity.value.truthy

/-- The event with its fills reduced, where it has any. -/
def reducedEvent (env : Env) (event : Normalized) (t : Tables) (current : Option OrderRow) :
    Except Failure Normalized := do
  if hasFills event current then
    let payload ← fillPayload env.unicode (fillRows env t.executionEvents.rows event.key)
      event.payload current
    return { event with payload }
  else return event

/-- The read phase of a new event: it is recorded, the row and the fills are
read and a target is chosen. -/
def readPhase (env : Env) (now : DateTime) (event : Normalized) (t : Tables) :
    Except Failure (Reading × Tables) := do
  let t ← ensureExecutionEvent now event t
  let current := t.orders.find? event.key
  let reduced ← reducedEvent env event t current
  let target ← chooseTarget env reduced (current.map OrderRow.status) (hasFills event current)
  return ({ event := reduced, current, hasFills := hasFills event current, target }, t)

/-! ## The write phase -/

/-- A JSON value in a text column; no value and a null are `NULL`. -/
def textColumn (env : Env) (v : Option Value) : Except Failure (Option String) :=
  match Json.present v with
  | none => .ok none
  | some v => (orRaise .database (env.textColumn v)).map some

/-- A decimal in a numeric column. -/
def numericColumn (d : Option Decimal) : Except Failure (Option Numeric) :=
  match d with
  | none => .ok none
  | some d => (orRaise .database (Numeric.ofDecimal d)).map some

/-- A numeric column under `CHECK (column >= 0)`. -/
def amountColumn (d : Option Decimal) : Except Failure (Option Amount) := do
  match ← numericColumn d with
  | none => return none
  | some n => return some (← orRaise .database (Amount.ofNumeric? n))

/-- `venue_symbol`. -/
def venueSymbol (unicode : Unicode) (instrument : String) : String :=
  unicode.upper (strip (before '-' (before '.' (strip instrument))))

/-- `_side`. -/
def sideOf (env : Env) (payload : Dict Value) : Option Side :=
  match Json.orElse (payload.get? "side") (Json.orElse (payload.get? "order_side") none) with
  | none => none
  | some v =>
    let raw := env.unicode.lower (env.str v)
    if raw = "buy" ∨ raw = "long" then some .long
    else if raw = "sell" ∨ raw = "short" then some .short
    else none

/-- The filled quantity a call writes: the payload's, else the row's, else zero. -/
def filledParameter (unicode : Unicode) (payload : Dict Value) (current : Option OrderRow) : Decimal :=
  match (decimalOrNone unicode (payload.get? "filled_qty")).filter Decimal.truthy with
  | some d => d
  | none =>
    match current with
    | some row => if row.filledQuantity.value.truthy then row.filledQuantity.value.toDecimal
      else .finite .zero
    | none => .finite .zero

/-- The row a call proposes to insert. -/
def proposedRow (env : Env) (event : Normalized) (projectionId : String) (status : OrderStatus)
    (current : Option OrderRow) : Except Failure OrderRow := do
  let payload := event.payload
  let instrumentId := match Json.orElse (payload.get? "instrument_id") none with
    | some v => env.str v
    | none => "UNKNOWN"
  let orderType ← textColumn env (payload.get? "order_type")
  let quantity ← amountColumn (decimalOrNone env.unicode (quantityField payload))
  let filled ← amountColumn (some (filledParameter env.unicode payload current))
  let price ← numericColumn (decimalOrNone env.unicode (payload.get? "price"))
  let average ← numericColumn (decimalOrNone env.unicode
    (Json.orElse (payload.get? "avg_px") (payload.get? "average_fill_price")))
  let lifecycleRole ← textColumn env (payload.get? "lifecycle_role")
  let stored ← jsonColumn payload
  return {
    orderProjectionId := projectionId, key := event.key, instrumentId,
    venueSymbol := venueSymbol env.unicode instrumentId, intentId := event.event.intentId,
    venueOrderId := event.event.venueOrderId, status, side := sideOf env payload, orderType,
    quantity, filledQuantity := filled.getD .zero, price, averageFillPrice := average, lifecycleRole,
    updatedFromEventId := event.event.eventId, tsEvent := some event.tsEvent, payload := stored }

/-- `GREATEST` of two times, one of which may be `NULL`. -/
def greatestTime : Option Nat → Option Nat → Option Nat
  | some a, some b => some (max a b)
  | some a, none => some a
  | none, b => b

/-- `ON CONFLICT DO UPDATE`: the proposed row into the one that exists. -/
def mergeRow (averageGiven : Bool) (old new : OrderRow) : OrderRow where
  orderProjectionId := old.orderProjectionId
  key := old.key
  instrumentId := new.instrumentId
  venueSymbol := new.venueSymbol
  intentId := coalesce new.intentId old.intentId
  venueOrderId := coalesce new.venueOrderId old.venueOrderId
  status := new.status
  side := coalesce new.side old.side
  orderType := coalesce new.orderType old.orderType
  quantity := coalesce new.quantity old.quantity
  filledQuantity := Amount.greatest new.filledQuantity old.filledQuantity
  price := coalesce new.price old.price
  averageFillPrice :=
    if averageGiven then new.averageFillPrice
    else coalesce new.averageFillPrice old.averageFillPrice
  lifecycleRole := coalesce new.lifecycleRole old.lifecycleRole
  updatedFromEventId := new.updatedFromEventId
  tsEvent := greatestTime new.tsEvent old.tsEvent
  payload := new.payload.items.foldl (fun d kv => d.set kv.1 kv.2) old.payload

/-- The row under the key after the upsert. -/
def upsertedRow (existing : Option OrderRow) (averageGiven : Bool) (new : OrderRow) : OrderRow :=
  match existing with
  | none => new
  | some old => mergeRow averageGiven old new

/-- `_upsert_order_projection`: the tables and the id the row has. -/
def upsertOrderProjection (env : Env) (event : Normalized) (projectionId : String)
    (status : OrderStatus) (current : Option OrderRow) (t : Tables) :
    Except Failure (String × Tables) := do
  let new ← proposedRow env event projectionId status current
  let averageGiven := (event.payload.get? "avg_px").isSome
  let row := upsertedRow (t.orders.find? event.key) averageGiven new
  return (row.orderProjectionId, { t with orders := t.orders.put row })

def insertOrderEvent (env : Env) (event : Normalized) (projectionId : Option String) (t : Tables) :
    Except Failure Tables := do
  let lifecycleRole ← textColumn env (event.payload.get? "lifecycle_role")
  let positionKey ← textColumn env (event.payload.get? "position_key")
  let payload ← jsonColumn event.payload
  let row : OrderEvent := {
    eventId := event.event.eventId, executionJobId := event.event.executionJobId,
    accountId := event.key.accountId, orderProjectionId := projectionId,
    clientOrderId := event.key.clientOrderId, venueOrderId := event.event.venueOrderId,
    eventType := event.event.eventType, lifecycleRole, positionKey, tsEvent := event.tsEvent,
    payload }
  return { t with orderEvents := t.orderEvents.insert row }

/-- What a finding about an illegal transition says. -/
def findingPayload (event : Normalized) (source target : OrderStatus) : Dict Value :=
  (((((Dict.empty.set "event_id" (.str event.event.eventId)).set "event_type"
    (.str event.event.eventType)).set "from_status" (.str source.text)).set "to_status"
    (.str target.text)).set "client_order_id" (.str event.key.clientOrderId))

def illegalFinding (draws : Draws) (event : Normalized) (row : OrderRow) (target : OrderStatus) :
    Finding where
  findingId := draws.findingId
  runId := draws.runId
  accountId := event.key.accountId
  findingType := "illegal_order_transition"
  severity := "error"
  orderProjectionId := some row.orderProjectionId
  payload := findingPayload event row.status target

/-- `record_reconciliation_finding`, with the run it opens. -/
def recordReconciliationFinding (finding : Finding) (t : Tables) : Except Failure Tables := do
  let payload ← jsonColumn finding.payload
  let run : ReconciliationRun := {
    runId := finding.runId, accountId := finding.accountId, status := "failed",
    reason := "projection_anomaly", payload := Dict.empty.set "source" (.str finding.findingType) }
  return { t with runs := t.runs ++ [run], findings := t.findings ++ [{ finding with payload }] }

/-- The write phase, on the tables as they are when it runs. -/
def writePhase (env : Env) (draws : Draws) (r : Reading) (t : Tables) :
    Except Failure (OrderApplyResult × Tables) := do
  let eventId := r.event.event.eventId
  match decision r.event.tsEvent r.current r.hasFills r.target, r.current with
  | .backfill, current =>
    let t ← insertOrderEvent env r.event (current.map OrderRow.orderProjectionId) t
    return ({ eventId, status := current.map OrderRow.status, applied := false }, t)
  | .illegal target, some row =>
    let finding := illegalFinding draws r.event row target
    let t ← recordReconciliationFinding finding t
    let t ← insertOrderEvent env r.event (some row.orderProjectionId) t
    return ({ eventId, status := some row.status, applied := false, anomaly := some finding }, t)
  | .project status, current =>
    let candidate := (current.map OrderRow.orderProjectionId).getD draws.orderProjectionId
    let (projectionId, t) ← upsertOrderProjection env r.event candidate status current t
    let t ← insertOrderEvent env r.event (some projectionId) t
    return ({ eventId, status := some status, applied := true }, t)
  -- without a row no transition is illegal
  | .illegal _, none => .error .database

/-! ## A call -/

def applyEvent (env : Env) (call : Call) (t : Tables) :
    Except Failure (OrderApplyResult × Tables) := do
  let event ← normalizeEvent env call.now call.event
  if call.refused then .error .database
  else if t.orderEvents.has event.event.eventId then
    let status := (t.orders.find? event.key).map OrderRow.status
    return ({ eventId := event.event.eventId, status, applied := false, duplicate := true }, t)
  else
    let (reading, t) ← readPhase env call.now event t
    writePhase env call.draws reading t

/-- The reducer as a machine: a call that raises leaves the tables alone. -/
def machine (env : Env) : Machine Tables Call (Except Failure OrderApplyResult) where
  step t call :=
    match applyEvent env call t with
    | .ok (result, t') => (.ok result, t')
    | .error failure => (.error failure, t)

end TraderBot.Orders
