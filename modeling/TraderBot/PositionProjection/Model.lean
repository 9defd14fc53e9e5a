import TraderBot.Lib.Returns
import TraderBot.Orders.Model

/-! # The position projection reducer

`PositionProjectionReducer.apply_event` and the `position` domain of the state
descriptor. An event names its position by account, symbol and, in hedge mode,
side; the row of that position takes the side, the quantity and the status of
whatever event comes (`applyEvent`). Events, times, columns and the environment
are those of the order reducer. -/
namespace TraderBot.PositionProjection
open TraderBot.Lib TraderBot.Lib.Text TraderBot.Lib.Json
open TraderBot.Orders (Env Event ExecutionEvent Failure Side orRaise ensureAware canonicalAccountId nonEmpty
  venueSymbol decimal decimalOrNone quantityField numericColumn jsonColumn)

/-! ## The descriptor -/

inductive PositionStatus where
  | opening
  | opened
  | reducing
  | closed
  | external
  | reconciliationRequired
  deriving DecidableEq, Repr

/-- The name of a state in the descriptor. -/
def PositionStatus.text : PositionStatus → String
  | .opening => "opening"
  | .opened => "open"
  | .reducing => "reducing"
  | .closed => "closed"
  | .external => "external"
  | .reconciliationRequired => "reconciliation_required"

/-- `_derive_position_changed_state`. -/
def derivePositionChangedState (unicode : Unicode) (payload : Dict Value) (currentQuantity : Option Decimal) :
    Except Failure PositionStatus := do
  match decimal unicode (quantityField payload), currentQuantity with
  | some quantity, some current =>
    let new ← orRaise .decimalSignal quantity.absolute
    let old ← orRaise .decimalSignal current.absolute
    if ← orRaise .decimalSignal (new.lt? old) then return .reducing else return .opened
  | _, _ => return .opened

/-- `event_target("position", ...)`, over its `event_state_map`. -/
def eventTarget (unicode : Unicode) (eventType : String) (payload : Dict Value) (currentQuantity : Option Decimal) :
    Except Failure (Option PositionStatus) := do
  if eventType = "PositionOpened" then return some .opened
  else if eventType = "PositionChanged" then
    return some (← derivePositionChangedState unicode payload currentQuantity)
  else if eventType = "PositionClosed" then return some .closed
  else return none

/-! ## Events -/

structure PositionKey where
  accountId : String
  positionId : String
  deriving DecidableEq, Repr

structure Normalized where
  event : Event
  key : PositionKey
  instrumentId : String
  tsEvent : Nat
  payload : Dict Value

/-- `str(v or "")`. -/
def shown (env : Env) (v : Option Value) : String :=
  match Json.orElse v none with
  | some v => env.str v
  | none => ""

def Side.text : Side → String
  | .long => "long"
  | .short => "short"

/-- `_key_side`. -/
def keySide (env : Env) (payload : Dict Value) : Option Side :=
  let mode := env.unicode.upper (shown env (payload.get? "position_mode"))
  let rawSide := env.unicode.lower (shown env (Json.orElse (payload.get? "position_side") (payload.get? "side")))
  if mode = "HEDGE" then
    if rawSide = "long" then some .long else if rawSide = "short" then some .short else none
  else none

/-- `PositionKey(account_id, venue_symbol, side).key()`. -/
def positionKey (env : Env) (accountId symbol : String) (side : Option Side) : Except Failure String := do
  let accountId ← canonicalAccountId accountId
  let symbol := venueSymbol env.unicode symbol
  if symbol = "" then .error (.valueError "venue_symbol must not be empty")
  else
    match side with
    | none => return accountId ++ ":" ++ symbol
    | some side => return accountId ++ ":" ++ symbol ++ ":" ++ Side.text side

def instrumentOf (env : Env) (event : Event) (payload : Dict Value) : String :=
  match Json.orElse (payload.get? "instrument_id") none with
  | some v => env.str v
  | none => (nonEmpty event.instrumentId).getD "UNKNOWN"

def normalizeEvent (env : Env) (now : DateTime) (event : Event) : Except Failure Normalized := do
  let payload := event.payload.getD Dict.empty
  let accountId ← canonicalAccountId event.accountId
  let instrumentId := instrumentOf env event payload
  let positionId ← positionKey env accountId (venueSymbol env.unicode instrumentId) (keySide env payload)
  let tsEvent ← ensureAware now event.tsEvent
  return {
    event, key := ⟨accountId, positionId⟩, instrumentId, tsEvent := tsEvent.toMicros
    payload := payload.set "instrument_id" (.str instrumentId) }

/-- `_is_external`. -/
def isExternal (env : Env) (payload : Dict Value) : Bool :=
  env.unicode.upper (shown env (Json.orElse (payload.get? "ownership") (payload.get? "source"))) = "EXTERNAL"

/-- `_event_quantity`. -/
def eventQuantity (unicode : Unicode) (payload : Dict Value) : Except Failure Decimal :=
  orRaise .decimalSignal
    (((decimalOrNone unicode (quantityField payload)).filter Decimal.truthy).getD (.finite .zero)).absolute

/-- `_position_side`. -/
def positionSide (env : Env) (payload : Dict Value) : Except Failure Side := do
  let raw := env.unicode.lower (shown env (Json.orElse (payload.get? "side") (payload.get? "position_side")))
  if raw = "short" ∨ raw = "sell" then return .short
  else
    match decimalOrNone env.unicode (quantityField payload) with
    | some quantity =>
      if ← orRaise .decimalSignal (quantity.lt? (.finite .zero)) then return .short else return .long
    | none => return .long

/-! ## Tables -/

/-- A row of `positions_projection`. -/
structure PositionRow where
  key : PositionKey
  instrumentId : String
  side : Side
  quantity : Amount
  avgEntryPrice : Option Numeric
  markPrice : Option Numeric
  unrealizedPnl : Option Numeric
  status : PositionStatus
  updatedFromEventId : String
  tsEvent : Option Nat
  payload : Dict Value
  deriving DecidableEq

/-- What `_clear_protective_orders` reads and writes of a row. -/
structure ProtectiveOrder where
  protectiveOrderProjectionId : String
  accountId : String
  positionKey : String
  status : String
  active : Bool
  deriving DecidableEq, Repr

structure Tables where
  executionEvents : Table ExecutionEvent.eventId
  positions : Table PositionRow.key
  protectiveOrders : Table ProtectiveOrder.protectiveOrderProjectionId

def Tables.empty : Tables := ⟨.empty, .empty, .empty⟩

/-- A call of `apply_event`, with the time and whether the database refuses it
for reasons of its own. -/
structure Call where
  event : Event
  now : DateTime
  refused : Bool := false

structure PositionApplyResult where
  eventId : String
  positionKey : String
  status : PositionStatus
  deriving DecidableEq, Repr

/-- The row `ensure_execution_event` inserts. -/
def executionRow (now : DateTime) (event : Normalized) : Except Failure ExecutionEvent := do
  let tsIngest ← ensureAware now event.event.tsIngest
  -- `ck_execution_events_schema_version`
  if event.event.schemaVersion.getD "1.0" ≠ "1.0" then .error .database
  else
    let payload ← jsonColumn event.payload
    return {
      eventId := event.event.eventId, nodeId := event.event.nodeId.getD "unknown"
      accountId := event.key.accountId, intentId := event.event.intentId
      clientOrderId := event.event.clientOrderId, venueOrderId := event.event.venueOrderId
      tradeId := event.event.tradeId, eventType := event.event.eventType, tsEvent := event.tsEvent
      tsIngest := tsIngest.toMicros, payload }

/-- A number of the payload in a numeric column. -/
def numberColumn (unicode : Unicode) (payload : Dict Value) (field : String) : Except Failure (Option Numeric) :=
  numericColumn (decimalOrNone unicode (payload.get? field))

/-- `quantity numeric NOT NULL CHECK (quantity >= 0)`. -/
def quantityColumn (quantity : Decimal) : Except Failure Amount :=
  orRaise .database ((Numeric.ofDecimal quantity).bind Amount.ofNumeric?)

/-- The row a call proposes to insert. -/
def proposedRow (env : Env) (event : Normalized) (status : PositionStatus) (quantity : Decimal) :
    Except Failure PositionRow := do
  let side ← positionSide env event.payload
  let quantity ← quantityColumn quantity
  let avgEntryPrice ← numberColumn env.unicode event.payload "avg_entry_price"
  let markPrice ← numberColumn env.unicode event.payload "mark_price"
  let unrealizedPnl ← numberColumn env.unicode event.payload "unrealized_pnl"
  let payload ← jsonColumn event.payload
  return {
    key := event.key, instrumentId := event.instrumentId, side, quantity, avgEntryPrice, markPrice
    unrealizedPnl, status, updatedFromEventId := event.event.eventId, tsEvent := some event.tsEvent, payload }

/-- `ON CONFLICT DO UPDATE`: the proposed row into the one that exists. -/
def mergeRow (old new : PositionRow) : PositionRow where
  key := old.key
  instrumentId := new.instrumentId
  side := new.side
  quantity := new.quantity
  avgEntryPrice := coalesce new.avgEntryPrice old.avgEntryPrice
  markPrice := coalesce new.markPrice old.markPrice
  unrealizedPnl := coalesce new.unrealizedPnl old.unrealizedPnl
  status := new.status
  updatedFromEventId := new.updatedFromEventId
  tsEvent := new.tsEvent
  payload := new.payload.items.foldl (fun d kv => d.set kv.1 kv.2) old.payload

def upsertedRow (existing : Option PositionRow) (new : PositionRow) : PositionRow :=
  match existing with
  | none => new
  | some old => mergeRow old new

/-- `_upsert_position`. -/
def upsertPosition (env : Env) (event : Normalized) (status : PositionStatus) (quantity : Decimal) (t : Tables) :
    Except Failure Tables := do
  let new ← proposedRow env event status quantity
  return { t with positions := t.positions.put (upsertedRow (t.positions.find? event.key) new) }

/-- `_clear_protective_orders`. -/
def clearProtectiveOrders (key : PositionKey) (t : Tables) : Tables :=
  { t with
    protectiveOrders := t.protectiveOrders.update
      (fun order => order.accountId = key.accountId ∧ order.positionKey = key.positionId ∧ order.active)
      (fun order => { order with active := false, status := "cleared" }) fun _ => rfl }

/-! ## A call -/

/-- The status an event gives its position. -/
def targetOf (env : Env) (event : Normalized) (currentQuantity : Option Decimal) :
    Except Failure PositionStatus := do
  let target ← eventTarget env.unicode event.event.eventType event.payload currentQuantity
  return if isExternal env event.payload then .external else target.getD .opened

def applyEvent (env : Env) (call : Call) (t : Tables) : Except Failure (PositionApplyResult × Tables) := do
  let event ← normalizeEvent env call.now call.event
  if call.refused then .error .database
  else
    let row ← executionRow call.now event
    let current := (t.positions.find? event.key).map fun row => row.quantity.value.toDecimal
    let target ← targetOf env event current
    let quantity ← eventQuantity env.unicode event.payload
    let quantity := if target = .closed then .finite .zero else quantity
    let t ← upsertPosition env event target quantity { t with executionEvents := t.executionEvents.insert row }
    let t := if target = .closed then clearProtectiveOrders event.key t else t
    return ({ eventId := event.event.eventId, positionKey := event.key.positionId, status := target }, t)

/-! ## What a call does -/

section
variable {env : Env} {call : Call} {t t' : Tables} {result : PositionApplyResult}

theorem proposedRow_ok {event : Normalized} {status : PositionStatus} {quantity : Decimal} {new : PositionRow}
    (h : proposedRow env event status quantity = .ok new) :
    new.key = event.key ∧ new.instrumentId = event.instrumentId ∧ new.status = status ∧
      positionSide env event.payload = .ok new.side ∧ quantityColumn quantity = .ok new.quantity ∧
      new.tsEvent = some event.tsEvent ∧
      numberColumn env.unicode event.payload "avg_entry_price" = .ok new.avgEntryPrice ∧
      numberColumn env.unicode event.payload "mark_price" = .ok new.markPrice := by
  obtain ⟨side, hside, h⟩ := bind_ok h
  obtain ⟨amount, hamount, h⟩ := bind_ok h
  obtain ⟨average, haverage, h⟩ := bind_ok h
  obtain ⟨mark, hmark, h⟩ := bind_ok h
  obtain ⟨pnl, -, h⟩ := bind_ok h
  obtain ⟨payload, -, h⟩ := bind_ok h
  cases pure_ok h
  exact ⟨rfl, rfl, rfl, hside, hamount, rfl, haverage, hmark⟩

/-- What a call that returned has read and written. -/
structure Applied (env : Env) (call : Call) (t t' : Tables) (event : Normalized) (new : PositionRow) : Prop where
  normalized : normalizeEvent env call.now call.event = .ok event
  target : targetOf env event ((t.positions.find? event.key).map fun row => row.quantity.value.toDecimal) =
    .ok new.status
  proposed : ∃ quantity, eventQuantity env.unicode event.payload = .ok quantity ∧
    proposedRow env event new.status (if new.status = .closed then .finite .zero else quantity) = .ok new
  positions : t'.positions = t.positions.put (upsertedRow (t.positions.find? event.key) new)

/-- **What a call does**: it writes one row, that of its position. -/
theorem applyEvent_ok (h : applyEvent env call t = .ok (result, t')) :
    ∃ event new, Applied env call t t' event new := by
  obtain ⟨event, hevent, h⟩ := bind_ok h
  by_cases hrefused : call.refused = true
  · rw [if_pos hrefused] at h
    cases h
  rw [if_neg hrefused] at h
  obtain ⟨row, -, h⟩ := bind_ok h
  obtain ⟨target, htarget, h⟩ := bind_ok h
  obtain ⟨quantity, hquantity, h⟩ := bind_ok h
  obtain ⟨written, hwritten, h⟩ := bind_ok h
  obtain ⟨new, hnew, hwritten⟩ := bind_ok hwritten
  cases pure_ok hwritten
  have hstatus : new.status = target := (proposedRow_ok hnew).2.2.1
  have hpositions : t'.positions = t.positions.put (upsertedRow (t.positions.find? event.key) new) := by
    cases pure_ok h
    split_ifs
    · rfl
    · rfl
  subst hstatus
  exact ⟨event, new, hevent, htarget, ⟨quantity, hquantity, hnew⟩, hpositions⟩

end
end TraderBot.PositionProjection
