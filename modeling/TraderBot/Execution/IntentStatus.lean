import TraderBot.Execution.Model

/-! # The status of an intent

The `intent` domain of `order_state.v1.json` as data. `persist_intent_status` does
not look at the status it replaces, so the stored statuses follow the lifecycle
exactly when each event comes in turn (`statuses_follow_lifecycle_iff`). -/
namespace TraderBot.Execution
open TraderBot.Lib TraderBot.Lib.Json TraderBot.Venue

/-! ## The lifecycle -/

namespace IntentStatus

/-- `states` of the descriptor. -/
def lifecycle : List IntentStatus :=
  [.approved, .dispatched, .nodeAccepted, .executing, .completed, .rejected, .denied, .failed, .expired,
    .cancelled, .needsReview]

def isTerminal : IntentStatus → Bool
  | .completed | .rejected | .denied | .failed | .expired | .cancelled => true
  | .draft | .approved | .dispatched | .nodeAccepted | .executing | .needsReview => false

end IntentStatus

structure IntentEdge where
  source : IntentStatus
  target : IntentStatus
  trigger : String

def intentTransitions : List IntentEdge := [
  ⟨.approved, .dispatched, "execution_job_dispatched"⟩,
  ⟨.dispatched, .nodeAccepted, "node_accepted_intent"⟩,
  ⟨.nodeAccepted, .executing, "first_order_working_or_fill"⟩,
  ⟨.executing, .completed, "terminal_execution_result"⟩,
  ⟨.needsReview, .dispatched, "operator_resume"⟩,
  ⟨.needsReview, .cancelled, "operator_cancel"⟩]

/-- The targets from any state of the lifecycle that is not terminal. -/
def intentAnyStateTo : List IntentStatus :=
  [.rejected, .denied, .failed, .expired, .cancelled, .needsReview]

/-- A transition the descriptor lists, or the same state again. -/
def legalIntentTransition (current target : IntentStatus) : Bool :=
  if current = target then true
  else if current.isTerminal then false
  else (intentTransitions.any fun e => e.source = current ∧ e.target = target) ||
    (IntentStatus.lifecycle.contains current && intentAnyStateTo.contains target)

/-- A state of the lifecycle that is not terminal. -/
def IsOpen (s : IntentStatus) : Prop := s ∈ IntentStatus.lifecycle ∧ s.isTerminal = false

instance (s : IntentStatus) : Decidable (IsOpen s) := inferInstanceAs (Decidable (_ ∧ _))

/-- Where an intent must stand for an event to come in turn: at what the event
reports, or right before it on the way to completion. A refusal, a failure and an
event of another type come in turn wherever the intent is still open. -/
def InTurn (s : IntentStatus) (eventType : String) : Prop :=
  if eventType ∈ ["OrderDenied", "IntentDenied"] then IsOpen s ∨ s = .denied
  else if eventType ∈ ["OrderRejected", "IntentRejected"] then IsOpen s ∨ s = .rejected
  else if eventType ∈ ["OrderSubmitFailed", "ExecutionFailed"] then IsOpen s ∨ s = .failed
  else if eventType ∈ ["OrderFilled", "IntentCompleted"] then s = .executing ∨ s = .completed
  else if eventType = "NodeAcceptedIntent" then s = .dispatched ∨ s = .nodeAccepted
  else if eventType ∈ ["OrderWorking", "OrderAccepted"] then s = .nodeAccepted ∨ s = .executing
  else IsOpen s

/-- A terminal status is left by no legal transition. -/
theorem eq_of_legal_of_terminal {s s' : IntentStatus} (h : legalIntentTransition s s' = true)
    (hs : s.isTerminal = true) : s' = s := by
  by_contra hne
  simp [legalIntentTransition, Ne.symm hne, hs] at h

theorem legal_failure_iff {s s' : IntentStatus} (h : s' ∈ [.denied, .rejected, .failed]) :
    legalIntentTransition s s' = true ↔ IsOpen s ∨ s = s' := by
  fin_cases h <;> cases s <;> decide

theorem legal_needsReview_iff {s : IntentStatus} :
    legalIntentTransition s .needsReview = true ↔ IsOpen s := by
  cases s <;> decide

theorem legal_progress_iff {s before after : IntentStatus}
    (h : (before, after) ∈ [(IntentStatus.dispatched, .nodeAccepted), (.nodeAccepted, .executing),
      (.executing, .completed)]) :
    legalIntentTransition s after = true ↔ s = before ∨ s = after := by
  fin_cases h <;> cases s <;> decide

/-- **An event comes in turn exactly when its outcome is a legal transition.** -/
theorem legal_outcome_iff (py : Interpreter) (event : Event) (s : IntentStatus) :
    legalIntentTransition s (classifyIntentOutcome py event).intentStatus = true ↔
      InTurn s event.typeText := by
  simp only [classifyIntentOutcome, InTurn]
  split_ifs
  · exact legal_failure_iff (by simp)
  · exact legal_failure_iff (by simp)
  · exact legal_failure_iff (by simp)
  · exact legal_progress_iff (by simp)
  · exact legal_progress_iff (by simp)
  · exact legal_progress_iff (by simp)
  · exact legal_needsReview_iff

/-! ## Deliveries -/

section
variable {py : Interpreter} {enum : List IntentStatus} {d : Delivery} {t t' : Tables} {id : String}

/-- Every outcome is a state of the lifecycle. -/
theorem outcome_mem_lifecycle (py : Interpreter) (event : Event) :
    (classifyIntentOutcome py event).intentStatus ∈ IntentStatus.lifecycle := by
  simp only [classifyIntentOutcome]
  split_ifs <;> exact List.elem_iff.mp rfl

theorem Tables.intentStatus?_set {intentId : String} {status : IntentStatus} :
    (t.setIntentStatus intentId status).intentStatus? id =
      if intentId = id then (t.intentStatus? id).map fun _ => status else t.intentStatus? id := by
  unfold Tables.intentStatus? Tables.setIntentStatus
  rw [Table.find?_update, Option.map_map]
  cases hfind : t.intents.find? id with
  | none => simp
  | some row =>
    have hrow : row.intentId = id := Table.key_of_find? hfind
    by_cases hid : intentId = id
    · simp [hrow, hid]
    · simp [hrow, hid, Ne.symm hid]

/-- **What a delivery does to a stored status**: it writes its outcome over it. -/
theorem intentStatus?_persist (henum : ∀ s ∈ IntentStatus.lifecycle, s ∈ enum)
    (h : persistIntentStatus py enum d t = some t') :
    t'.intentStatus? id =
      if d.intentId = id then
        (t.intentStatus? id).map fun _ => (classifyIntentOutcome py d.event).intentStatus
      else t.intentStatus? id := by
  obtain ⟨⟨observedAt, item⟩, -, h⟩ := Option.bind_eq_some_iff.mp h
  have hdb : dbIntentStatus enum (classifyIntentOutcome py d.event).intentStatus =
      some (classifyIntentOutcome py d.event).intentStatus :=
    if_pos (henum _ (outcome_mem_lifecycle py d.event))
  simp only [hdb] at h
  rw [← Option.some.inj h, ← Tables.intentStatus?_set]
  cases d.executionJobId <;> rfl

/-- The call returns exactly when its item is taken. -/
theorem persistIntentStatus_isSome : (persistIntentStatus py enum d t).isSome = (d.item? py).isSome := by
  unfold persistIntentStatus
  cases d.item? py <;> rfl

/-- A legal transition of what is stored, and no terminal status replaced. -/
def FollowsLifecycle (id : String) (t t' : Tables) : Prop :=
  ∀ s ∈ t.intentStatus? id, ∀ s' ∈ t'.intentStatus? id,
    legalIntentTransition s s' = true ∧ (s.isTerminal = true → s' = s)

/-- A delivery for the intent that is taken finds it in turn. -/
def ComesInTurn (py : Interpreter) (id : String) (t : Tables) (d : Delivery) : Prop :=
  d.intentId = id → (d.item? py).isSome → ∀ s ∈ t.intentStatus? id, InTurn s d.event.typeText

theorem followsLifecycle_refl (id : String) (t : Tables) : FollowsLifecycle id t t := by
  intro s hs s' hs'
  obtain rfl := Option.mem_unique hs hs'
  exact ⟨by simp [legalIntentTransition], fun _ => rfl⟩

theorem followsLifecycle_next_iff (henum : ∀ s ∈ IntentStatus.lifecycle, s ∈ enum) :
    FollowsLifecycle id t ((deliveries py enum).next t d) ↔ ComesInTurn py id t d := by
  cases hp : persistIntentStatus py enum d t with
  | none =>
    have hnext : (deliveries py enum).next t d = t := by simp [Machine.next, deliveries, hp]
    have hitem : (d.item? py).isSome = false := by rw [← persistIntentStatus_isSome, hp]; rfl
    rw [hnext]
    exact iff_of_true (followsLifecycle_refl id t) fun _ h => by simp [hitem] at h
  | some t' =>
    have hnext : (deliveries py enum).next t d = t' := by simp [Machine.next, deliveries, hp]
    have hitem : (d.item? py).isSome = true := by rw [← persistIntentStatus_isSome, hp]; rfl
    rw [hnext, FollowsLifecycle, ComesInTurn, intentStatus?_persist henum hp]
    by_cases hid : d.intentId = id
    · rw [if_pos hid]
      constructor
      · intro h _ _ s hs
        have hmap : (classifyIntentOutcome py d.event).intentStatus ∈
            (t.intentStatus? id).map fun _ => (classifyIntentOutcome py d.event).intentStatus :=
          Option.mem_map_of_mem (fun _ => _) hs
        exact (legal_outcome_iff py d.event s).mp (h s hs _ hmap).1
      · intro h s hs s' hs'
        obtain ⟨_, -, rfl⟩ := Option.mem_map.mp hs'
        have hlegal := (legal_outcome_iff py d.event s).mpr (h hid hitem s hs)
        exact ⟨hlegal, eq_of_legal_of_terminal hlegal⟩
    · rw [if_neg hid]
      exact iff_of_true (followsLifecycle_refl id t) fun h => absurd h hid

/-- **The stored statuses of an intent follow the lifecycle exactly when every
delivery comes in turn**, over any sequence of deliveries. -/
theorem statuses_follow_lifecycle_iff (henum : ∀ s ∈ IntentStatus.lifecycle, s ∈ enum) (id : String)
    (t : Tables) (history : List Delivery) :
    (∀ before d, before ++ [d] <+: history →
      FollowsLifecycle id ((deliveries py enum).after t before)
        ((deliveries py enum).after t (before ++ [d]))) ↔
      (deliveries py enum).Meets (ComesInTurn py id) t history := by
  rw [Machine.consecutive_iff, Machine.meets_congr fun _ _ => followsLifecycle_next_iff henum]

end

/-! ## An acceptance after the fill -/

theorem newYear_valid : DateTime.Valid 2026 1 1 0 0 0 0 := by decide

def executingIntent : Tables where
  intents := Table.empty.insert
    { intentId := "intent", accountId := "acct", instrumentId := "BTCUSDT", action := "open_position",
      status := .executing, orderPlan := Dict.empty, riskBudget := Dict.empty,
      validUntil := ⟨2026, 1, 1, 0, 0, 0, 0, newYear_valid⟩, idempotencyKey := "key" }
  jobs := Jobs.empty
  auditEvents := []

def delivered (eventType : String) : Delivery where
  intentId := "intent"
  executionJobId := none
  event := ⟨none, some eventType, none⟩
  observedAt := none
  now := ⟨2026, 1, 1, 0, 0, 0, 0, newYear_valid⟩
  refused := false

/-- A fill of an executing intent comes in turn. -/
theorem statuses_follow_fill :
    FollowsLifecycle "intent" executingIntent
      ((deliveries ascii IntentStatus.lifecycle).after executingIntent [delivered "OrderFilled"]) := by
  have henum : ∀ s ∈ IntentStatus.lifecycle, s ∈ IntentStatus.lifecycle := fun _ h => h
  refine (statuses_follow_lifecycle_iff henum "intent" executingIntent [delivered "OrderFilled"]).mpr
    ⟨fun _ _ s hs => ?_, trivial⟩ [] _ (List.prefix_refl _)
  cases Option.mem_some.mp hs
  exact .inl rfl

/-- The acceptance that is delivered late takes the status back. -/
theorem late_acceptance_reopens :
    ¬ ∀ before d, before ++ [d] <+: [delivered "OrderFilled", delivered "OrderAccepted"] →
      FollowsLifecycle "intent" ((deliveries ascii IntentStatus.lifecycle).after executingIntent before)
        ((deliveries ascii IntentStatus.lifecycle).after executingIntent (before ++ [d])) := by
  intro h
  have hlast := (h [delivered "OrderFilled"] (delivered "OrderAccepted") (List.prefix_refl _)
    .completed rfl .executing rfl).2 rfl
  cases hlast

end TraderBot.Execution
