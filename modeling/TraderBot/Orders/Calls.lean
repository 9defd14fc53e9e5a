import TraderBot.Lib.Returns
import TraderBot.Orders.Model

/-! # What a call can do

One inversion lemma for each phase of `apply_event`: what the read phase leaves
of the tables, which decisions there are, and what each of them writes. -/
namespace TraderBot.Orders
open TraderBot.Lib TraderBot.Lib.Text TraderBot.Lib.Json

variable {env : Env} {call : Call} {now : DateTime} {draws : Draws} {t t' : Tables}
  {event : Normalized} {r : Reading} {result : OrderApplyResult}

/-! ## Decisions -/

theorem legalTransition_self (s : OrderStatus) : legalTransition s s = true := by
  simp [legalTransition]

/-- Nothing leaves a terminal state. -/
theorem legalTransition_terminal {s s' : OrderStatus} (h : legalTransition s s' = true)
    (hs : s.isTerminal = true) : s' = s := by
  by_contra hne
  rw [legalTransition, if_neg (Ne.symm hne), if_pos hs] at h
  cases h

section Decision
variable {tsEvent : Nat} {current : Option OrderRow} {fills : Bool} {target : OrderStatus}

/-- A row is only written under a status it may move to. -/
theorem decision_project {status : OrderStatus} {row : OrderRow}
    (h : decision tsEvent (some row) fills target = .project status) :
    legalTransition row.status status = true := by
  unfold decision at h
  dsimp only at h
  split_ifs at h with h1 h2 h3 h4 h5
  · cases h; rw [h1]; exact legalTransition_self _
  · cases h; exact legalTransition_self _
  · cases h; exact h4
  · cases h; exact legalTransition_self _

theorem decision_backfill (h : decision tsEvent current fills target = .backfill) :
    ∃ row, current = some row ∧ staleBackfill tsEvent row fills target = true := by
  cases current with
  | none => cases h
  | some row =>
    unfold decision at h
    dsimp only at h
    split_ifs at h with h1 h2
    exact ⟨row, rfl, h2⟩

theorem decision_illegal {refused : OrderStatus}
    (h : decision tsEvent current fills target = .illegal refused) :
    refused = target ∧ ∃ row, current = some row ∧ legalTransition row.status target = false := by
  cases current with
  | none => cases h
  | some row =>
    unfold decision at h
    dsimp only at h
    split_ifs at h with h1 h2 h3 h4 h5
    cases h
    exact ⟨rfl, row, rfl, by simpa using h4⟩

end Decision

/-! ## The read phase -/

theorem decimal_finiteStr (unicode : Unicode) (d : FiniteDecimal) :
    decimal unicode (some (finiteStr d)) = some (.finite d) := by
  unfold decimal finiteStr
  rw [Option.bind_some, Decimal.ofValue, String.toList_ofList, Decimal.ofText_text]

theorem executionRow_ok {row : ExecutionEvent} (h : executionRow now event = .ok row) :
    row.eventId = event.event.eventId ∧ row.accountId = event.key.accountId ∧
      row.clientOrderId = some event.key.clientOrderId ∧ row.tradeId = event.event.tradeId ∧
      row.eventType = event.event.eventType ∧ row.tsEvent = event.tsEvent ∧
      Jsonb.storedDict event.payload = some row.payload := by
  unfold executionRow at h
  obtain ⟨tsIngest, -, h⟩ := bind_ok h
  split_ifs at h with hv
  obtain ⟨payload, hp, h⟩ := bind_ok h
  cases pure_ok h
  refine ⟨rfl, rfl, rfl, rfl, rfl, rfl, ?_⟩
  unfold jsonColumn at hp
  cases hs : Jsonb.storedDict event.payload with
  | none => rw [hs] at hp; cases hp
  | some d => rw [hs] at hp; cases hp; rfl

theorem ensureExecutionEvent_ok (h : ensureExecutionEvent now event t = .ok t') :
    ∃ row, executionRow now event = .ok row ∧ t' = t.record row := by
  unfold ensureExecutionEvent at h
  obtain ⟨row, hrow, h⟩ := bind_ok h
  exact ⟨row, hrow, (pure_ok h).symm⟩

/-- The read phase records the event and touches nothing else. -/
theorem readPhase_ok (h : readPhase env now event t = .ok (r, t')) :
    ensureExecutionEvent now event t = .ok t' ∧ t'.orders = t.orders ∧
      t'.orderEvents = t.orderEvents ∧ t'.findings = t.findings ∧
      r.current = t.orders.find? event.key ∧ r.hasFills = hasFills event r.current ∧
      reducedEvent env event t' r.current = .ok r.event ∧
      chooseTarget env r.event (r.current.map OrderRow.status) r.hasFills = .ok r.target := by
  unfold readPhase at h
  obtain ⟨t₁, h1, h⟩ := bind_ok h
  obtain ⟨reduced, h2, h⟩ := bind_ok h
  obtain ⟨target, h3, h⟩ := bind_ok h
  cases pure_ok h
  obtain ⟨row, -, rfl⟩ := ensureExecutionEvent_ok h1
  exact ⟨h1, rfl, rfl, rfl, rfl, rfl, h2, h3⟩

variable {current : Option OrderRow} {projectionId : Option String} {status : OrderStatus}
  {new : OrderRow} {orders : Table OrderRow.key} {averageGiven : Bool}

/-- Reducing the fills changes the payload only. -/
theorem reducedEvent_ok {reduced : Normalized} (h : reducedEvent env event t current = .ok reduced) :
    reduced.event = event.event ∧ reduced.key = event.key ∧ reduced.tsEvent = event.tsEvent := by
  unfold reducedEvent at h
  split_ifs at h
  · obtain ⟨payload, -, h⟩ := bind_ok h
    cases pure_ok h
    exact ⟨rfl, rfl, rfl⟩
  · cases pure_ok h
    exact ⟨rfl, rfl, rfl⟩

/-! ## The write phase -/

theorem insertOrderEvent_ok (h : insertOrderEvent env event projectionId t = .ok t') :
    t'.orders = t.orders ∧ t'.findings = t.findings ∧ t'.executionEvents = t.executionEvents ∧
      t'.orderEvents.has event.event.eventId = true := by
  unfold insertOrderEvent at h
  obtain ⟨lifecycleRole, -, h⟩ := bind_ok h
  obtain ⟨positionKey, -, h⟩ := bind_ok h
  obtain ⟨payload, -, h⟩ := bind_ok h
  cases pure_ok h
  refine ⟨rfl, rfl, rfl, ?_⟩
  rw [Table.has, Table.find?_insert]
  simp

/-- What it adds to the history is this event. -/
theorem insertOrderEvent_has (h : insertOrderEvent env event projectionId t = .ok t') (id : String) :
    t'.orderEvents.has id = true ↔ id = event.event.eventId ∨ t.orderEvents.has id = true := by
  unfold insertOrderEvent at h
  obtain ⟨lifecycleRole, -, h⟩ := bind_ok h
  obtain ⟨positionKey, -, h⟩ := bind_ok h
  obtain ⟨payload, -, h⟩ := bind_ok h
  cases pure_ok h
  exact Table.has_insert

theorem upsertOrderProjection_ok {projectionId id : String}
    (h : upsertOrderProjection env event projectionId status current t = .ok (id, t')) :
    ∃ new, proposedRow env event projectionId status current = .ok new ∧
      t' = { t with orders := t.orders.put (upsertedRow (t.orders.find? event.key)
        (event.payload.get? "avg_px").isSome new) } := by
  unfold upsertOrderProjection at h
  obtain ⟨new, hnew, h⟩ := bind_ok h
  cases pure_ok h
  exact ⟨new, hnew, rfl⟩

theorem proposedRow_ok {projectionId : String}
    (h : proposedRow env event projectionId status current = .ok new) :
    new.key = event.key ∧ new.status = status ∧ new.tsEvent = some event.tsEvent ∧
      amountColumn (decimalOrNone env.unicode (quantityField event.payload)) = .ok new.quantity ∧
      ∃ filled, amountColumn (some (filledParameter env.unicode event.payload current)) = .ok filled ∧
        new.filledQuantity = filled.getD .zero := by
  unfold proposedRow at h
  obtain ⟨orderType, -, h⟩ := bind_ok h
  obtain ⟨quantity, hq, h⟩ := bind_ok h
  obtain ⟨filled, hf, h⟩ := bind_ok h
  obtain ⟨price, -, h⟩ := bind_ok h
  obtain ⟨average, -, h⟩ := bind_ok h
  obtain ⟨lifecycleRole, -, h⟩ := bind_ok h
  obtain ⟨stored, -, h⟩ := bind_ok h
  cases pure_ok h
  exact ⟨rfl, rfl, rfl, hq, filled, hf, rfl⟩

theorem upsertedRow_key {key : OrderKey} (h : new.key = key) :
    (upsertedRow (orders.find? key) averageGiven new).key = key := by
  cases hf : orders.find? key with
  | none => exact h
  | some old =>
    show old.key = key
    exact Table.key_of_find? hf

/-- The rows after an upsert: only the one under the key is another. -/
theorem find?_upserted {key k : OrderKey} (h : new.key = key) :
    (orders.put (upsertedRow (orders.find? key) averageGiven new)).find? k =
      if k = key then some (upsertedRow (orders.find? key) averageGiven new)
      else orders.find? k := by
  rw [Table.find?_put, upsertedRow_key h]

/-- A finding about this event. -/
def Finding.About (f : Finding) (event : Normalized) (row : OrderRow) (target : OrderStatus) : Prop :=
  f.findingType = "illegal_order_transition" ∧ f.severity = "error" ∧
    f.accountId = event.key.accountId ∧ f.orderProjectionId = some row.orderProjectionId ∧
    Jsonb.storedDict (findingPayload event row.status target) = some f.payload

/-- **What the write phase does**: history only, a finding, or the row. -/
theorem writePhase_cases (h : writePhase env draws r t = .ok (result, t')) :
    (decision r.event.tsEvent r.current r.hasFills r.target = .backfill ∧
      t'.orders = t.orders ∧ t'.findings = t.findings ∧ result.applied = false ∧
      result.duplicate = false) ∨
    (∃ row, decision r.event.tsEvent r.current r.hasFills r.target = .illegal r.target ∧
      r.current = some row ∧ t'.orders = t.orders ∧ result.applied = false ∧
      result.duplicate = false ∧
      ∃ f, t'.findings = t.findings ++ [f] ∧ f.About r.event row r.target) ∨
    (∃ status new, decision r.event.tsEvent r.current r.hasFills r.target = .project status ∧
      proposedRow env r.event ((r.current.map OrderRow.orderProjectionId).getD
        draws.orderProjectionId) status r.current = .ok new ∧
      t'.orders = t.orders.put (upsertedRow (t.orders.find? r.event.key)
        (r.event.payload.get? "avg_px").isSome new) ∧
      result.applied = true ∧ result.status = some status) := by
  unfold writePhase at h
  dsimp only at h
  cases hd : decision r.event.tsEvent r.current r.hasFills r.target with
  | backfill =>
    simp only [hd] at h
    obtain ⟨t₁, h1, h⟩ := bind_ok h
    cases pure_ok h
    obtain ⟨ho, hf, -, -⟩ := insertOrderEvent_ok h1
    exact .inl ⟨rfl, ho, hf, rfl, rfl⟩
  | illegal target =>
    obtain ⟨rfl, row, hrow, -⟩ := decision_illegal hd
    rw [hd, hrow] at h
    obtain ⟨t₁, h1, h⟩ := bind_ok h
    obtain ⟨t₂, h2, h⟩ := bind_ok h
    cases pure_ok h
    obtain ⟨ho, hf, -, -⟩ := insertOrderEvent_ok h2
    unfold recordReconciliationFinding at h1
    obtain ⟨payload, hp, h1⟩ := bind_ok h1
    cases pure_ok h1
    refine .inr (.inl ⟨row, rfl, hrow, ho, rfl, rfl, _, hf, rfl, rfl, rfl, rfl, ?_⟩)
    unfold jsonColumn at hp
    show Jsonb.storedDict (illegalFinding draws r.event row r.target).payload = some payload
    cases hs : Jsonb.storedDict (illegalFinding draws r.event row r.target).payload with
    | none => rw [hs] at hp; cases hp
    | some d => rw [hs] at hp; cases hp; rfl
  | project status =>
    simp only [hd] at h
    obtain ⟨⟨id, t₁⟩, h1, h⟩ := bind_ok h
    obtain ⟨t₂, h2, h⟩ := bind_ok h
    cases pure_ok h
    obtain ⟨new, hnew, rfl⟩ := upsertOrderProjection_ok h1
    obtain ⟨ho, -, -, -⟩ := insertOrderEvent_ok h2
    exact .inr (.inr ⟨status, new, rfl, hnew, ho, rfl, rfl⟩)

/-- Whatever it decides, the event enters the history and no fact is recorded. -/
theorem writePhase_events (h : writePhase env draws r t = .ok (result, t')) :
    t'.executionEvents = t.executionEvents ∧
      ∀ id, t'.orderEvents.has id = true ↔ id = r.event.event.eventId ∨ t.orderEvents.has id = true := by
  unfold writePhase at h
  dsimp only at h
  cases hd : decision r.event.tsEvent r.current r.hasFills r.target with
  | backfill =>
    simp only [hd] at h
    obtain ⟨t₁, h1, h⟩ := bind_ok h
    cases pure_ok h
    exact ⟨(insertOrderEvent_ok h1).2.2.1, insertOrderEvent_has h1⟩
  | illegal target =>
    obtain ⟨rfl, row, hrow, -⟩ := decision_illegal hd
    rw [hd, hrow] at h
    obtain ⟨t₁, h1, h⟩ := bind_ok h
    obtain ⟨t₂, h2, h⟩ := bind_ok h
    cases pure_ok h
    unfold recordReconciliationFinding at h1
    obtain ⟨payload, -, h1⟩ := bind_ok h1
    cases pure_ok h1
    have hhas := insertOrderEvent_has h2
    exact ⟨(insertOrderEvent_ok h2).2.2.1, hhas⟩
  | project status =>
    simp only [hd] at h
    obtain ⟨⟨id, t₁⟩, h1, h⟩ := bind_ok h
    obtain ⟨t₂, h2, h⟩ := bind_ok h
    cases pure_ok h
    obtain ⟨new, -, rfl⟩ := upsertOrderProjection_ok h1
    have hhas := insertOrderEvent_has h2
    exact ⟨(insertOrderEvent_ok h2).2.2.1, hhas⟩

/-! ## The call -/

/-- A call that returned answered a duplicate or went through both phases. -/
theorem applyEvent_ok (h : applyEvent env call t = .ok (result, t')) :
    ∃ event, normalizeEvent env call.now call.event = .ok event ∧ call.refused = false ∧
      ((t.orderEvents.has event.event.eventId = true ∧ result.applied = false ∧
          result.duplicate = true ∧ t' = t) ∨
        (t.orderEvents.has event.event.eventId = false ∧ ∃ r t₁,
          readPhase env call.now event t = .ok (r, t₁) ∧
          writePhase env call.draws r t₁ = .ok (result, t'))) := by
  unfold applyEvent at h
  obtain ⟨event, hevent, h⟩ := bind_ok h
  refine ⟨event, hevent, ?_⟩
  cases hrefused : call.refused with
  | true =>
    rw [hrefused, if_pos rfl] at h
    cases h
  | false =>
    rw [hrefused, if_neg Bool.false_ne_true] at h
    refine ⟨rfl, ?_⟩
    cases hseen : t.orderEvents.has event.event.eventId with
    | true =>
      rw [hseen, if_pos rfl] at h
      cases pure_ok h
      exact .inl ⟨rfl, rfl, rfl, rfl⟩
    | false =>
      rw [hseen, if_neg Bool.false_ne_true] at h
      obtain ⟨⟨reading, t₁⟩, h1, h⟩ := bind_ok h
      exact .inr ⟨rfl, reading, t₁, h1, h⟩

/-- Normalizing keeps the event as it came. -/
theorem normalizeEvent_event (h : normalizeEvent env now call.event = .ok event) :
    event.event = call.event := by
  unfold normalizeEvent at h
  obtain ⟨accountId, -, h⟩ := bind_ok h
  obtain ⟨tsEvent, -, h⟩ := bind_ok h
  cases pure_ok h
  rfl

/-- What one step of the machine is. -/
theorem next_eq (env : Env) (t : Tables) (call : Call) :
    (∃ result, applyEvent env call t = .ok (result, (machine env).next t call) ∧
      (machine env).answer t call = .ok result) ∨
    (∃ failure, (machine env).answer t call = .error failure ∧ (machine env).next t call = t) := by
  unfold Machine.next Machine.answer machine
  dsimp only
  cases h : applyEvent env call t with
  | ok p => exact .inl ⟨p.1, by simp, rfl⟩
  | error failure => exact .inr ⟨failure, rfl, rfl⟩

end TraderBot.Orders
