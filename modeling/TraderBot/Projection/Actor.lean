import TraderBot.EventMapper.Model
import TraderBot.Lib.Returns
import TraderBot.Spool.Recovery

/-! # The projection actor

The actor stands between the trading engine and the control plane: what is its own it appends to the
spool, and what is pending it posts and takes off once the sink returned its id. Appending, posting
and taking off are steps of their own, so that events come in, and a crash falls, between any two. -/
namespace TraderBot.Projection
open TraderBot.Lib TraderBot.Lib.Json TraderBot.EventMapper
open TraderBot.Spool (ExecutionEventEnvelopeV1 Failure JsonExecutionSpool Process TornWrite Memory Log
  Ledger Accounted Sorted ids tornFile)

/-- What the actor is handed: an envelope as it is, or an event to map and the time of the clock. -/
inductive Incoming where
  | envelope (e : ExecutionEventEnvelopeV1)
  | event (event : SourceEvent) (tsIngest : DateTime)

/-- `ProjectionIngestOutcome`. -/
inductive IngestOutcome where
  | durable
  | deduped
  | ignored
  | filtered
  | halted
  deriving DecidableEq, Repr

structure ProjectionConfig extends EventMapper.ProjectionConfig where
  maxFlushBatchSize : Nat := 100

/-- `ProjectionActor`: the process of its spool, why it takes nothing in, and what the sink returned
to the flushes that have not taken it off yet. -/
structure ProjectionActor where
  process : Process
  egressHaltedReason : String := ""
  acked : List (List String) := []

inductive Op where
  | ingestEvent (incoming : Incoming)
  /-- A flush up to what the sink returns; `none` where it raises. -/
  | postEvents (acked : Option (List String))
  /-- The rest of the flush that was returned this. -/
  | markAcked (acked : List String)
  | haltEgress (reason : String)
  | restart (torn : Option TornWrite)

inductive Answer where
  | ingested (outcome : IngestOutcome) (eventId : Option String)
  | posted (batch : List ExecutionEventEnvelopeV1)
  | done
  | failed (failure : Failure)
  | notRunning
  deriving DecidableEq, Repr

mutual
/-- A JSON value as the interpreter has it. -/
def pyValue : Value → PyValue
  | .null => .none
  | .bool b => .bool b
  | .int n => .int n
  | .float x => .float x
  | .str s => .str s
  | .arr items => .list (pyItems items)
  | .obj members => .dict (pyMembers members)
def pyItems : List Value → List PyValue
  | [] => []
  | v :: vs => pyValue v :: pyItems vs
def pyMembers : List (String × Value) → List (String × PyValue)
  | [] => []
  | (k, v) :: members => (k, pyValue v) :: pyMembers members
end

section
variable (py : Interpreter) (config : ProjectionConfig)

/-! ## What is the actor's own -/

def payloadText (e : ExecutionEventEnvelopeV1) (key : String) : Option String :=
  match e.payload.get? key with
  | none | some .null => none
  | some value => some (py.str (pyValue value))

def eventIsInScope (e : ExecutionEventEnvelopeV1) (family : Family) : Bool :=
  EventMapper.eventIsInScope py config.toProjectionConfig family e.clientOrderId
    (payloadText py e "instrument_id") (payloadText py e "position_id")

/-- The family of an envelope of this account and node. -/
def familyOf (e : ExecutionEventEnvelopeV1) : Option Family :=
  if e.accountId = config.accountId ∧
    e.nodeId = config.nodeId then eventMappingCatalog e.eventType else none

/-- `_canonical_envelope_in_scope`. -/
def canonicalEnvelopeInScope (e : ExecutionEventEnvelopeV1) : Bool :=
  (familyOf config e).any (eventIsInScope py config e)

/-- `_canonical_envelope_ownership_ignore`. -/
def canonicalEnvelopeOwnershipIgnore (e : ExecutionEventEnvelopeV1) : Bool :=
  (familyOf config e).any fun family => !eventIsInScope py config e family

/-- `is_expected_ownership_ignore`. -/
def isExpectedOwnershipIgnore (event : SourceEvent) : Bool :=
  let id := identity py event
  (eventMappingCatalog id.eventType).any fun family =>
    !EventMapper.eventIsInScope py config.toProjectionConfig family id.clientOrderId id.instrumentId
      id.positionId

/-- The envelope to append, or what becomes of an event without one. -/
def envelopeOf : Incoming → Except Failure (ExecutionEventEnvelopeV1 ⊕ IngestOutcome)
  | .envelope e =>
    if canonicalEnvelopeInScope py config e then .ok (.inl e)
    else .ok (.inr (if canonicalEnvelopeOwnershipIgnore py config e then .ignored else .filtered))
  | .event event tsIngest => do
    match ← toEnvelope py config.toProjectionConfig tsIngest event with
    | some e => return .inl e
    | none => return .inr (if isExpectedOwnershipIgnore py config event then .ignored else .filtered)

/-! ## Steps -/

variable (spool : JsonExecutionSpool)

def ingestEvent (actor : ProjectionActor) (incoming : Incoming) : Answer × ProjectionActor :=
  if actor.egressHaltedReason ≠ "" then (.ingested .halted none, actor)
  else
    match envelopeOf py config incoming with
    | .error failure => (.failed failure, actor)
    | .ok (.inr outcome) => (.ingested outcome none, actor)
    | .ok (.inl e) =>
      let (answer, process) := Spool.step spool actor.process (.appendOnce e)
      let actor := { actor with process }
      match answer with
      | .appended fresh => (.ingested (if fresh then .durable else .deduped) (some e.eventId), actor)
      | .failed failure => (.failed failure, actor)
      | .done | .notRunning => (.notRunning, actor)

/-- What a flush posts. -/
def batchOf (memory : Memory) : List ExecutionEventEnvelopeV1 :=
    memory.pending.take config.maxFlushBatchSize

def postEvents (actor : ProjectionActor) (acked : Option (List String)) : Answer × ProjectionActor :=
  match actor.process.memory with
  | none => (.notRunning, actor)
  | some memory =>
    if batchOf config memory = [] then (.posted [], actor)
    else (.posted (batchOf config memory), { actor with acked := actor.acked ++ acked.toList })

def markAcked (actor : ProjectionActor) (acked : List String) : Answer × ProjectionActor :=
  if acked ∈ actor.acked then
    let (answer, process) := Spool.step spool actor.process (.markAcked acked)
    let actor := { actor with process, acked := actor.acked.erase acked }
    match answer with
    | .done => (.done, actor)
    | .failed failure => (.failed failure, actor)
    | .appended _ | .notRunning => (.notRunning, actor)
  else (.notRunning, actor)

def haltEgress (actor : ProjectionActor) (reason : String) : ProjectionActor :=
  if actor.egressHaltedReason ≠ "" then actor else { actor with egressHaltedReason := reason }

def step (actor : ProjectionActor) : Op → Answer × ProjectionActor
  | .ingestEvent incoming => ingestEvent py config spool actor incoming
  | .postEvents acked => postEvents config actor acked
  | .markAcked acked => markAcked spool actor acked
  | .haltEgress reason => (.done, haltEgress actor reason)
  | .restart torn => (.done, { process := (Spool.step spool actor.process (.restart torn)).2 })

def machine : Machine ProjectionActor Op Answer := ⟨step py config spool⟩

/-- A new actor where no file is. -/
def fresh : ProjectionActor := { process := Spool.fresh }

/-! ## What a run keeps -/

/-- The account of a run: what was taken in and what was taken off, and what was posted. -/
structure Trace where
  ledger : Ledger
  posted : List ExecutionEventEnvelopeV1

def Trace.empty : Trace := ⟨.empty, []⟩

def Trace.record (trace : Trace) : Op → Answer → Trace
  | .ingestEvent incoming, .ingested .durable _ =>
    match envelopeOf py config incoming with
    | .ok (.inl e) => { trace with ledger := trace.ledger.append e }
    | _ => trace
  | .postEvents _, .posted batch => { trace with posted := trace.posted ++ batch }
  | .markAcked acked, .done => { trace with ledger := trace.ledger.ack acked }
  | _, _ => trace

/-- An envelope of the actor's account and node, of a type it maps, under an order id of the robot
where orders must be its own. -/
structure Own (e : ExecutionEventEnvelopeV1) : Prop where
  account : e.accountId = config.accountId
  node : e.nodeId = config.nodeId
  mapped : ∃ family, eventMappingCatalog e.eventType = some family ∧
    (family = .order → config.requireRobotOrderOwnership = true →
      isRobotClientOrderId e.clientOrderId = true)

/-- What was taken in and not off is pending, and only what was taken in is posted. -/
structure Kept (actor : ProjectionActor) (trace : Trace) (memory : Memory)
    (log : Log spool.seenEventLimit) : Prop where
  accounted : Accounted spool actor.process trace.ledger memory log
  taken : ∀ e ∈ trace.ledger.owed, e ∈ trace.ledger.appended
  posted : ∀ e ∈ trace.posted, e ∈ trace.ledger.appended
  own : ∀ e ∈ trace.ledger.appended, Own config e

variable {py config spool} {actor : ProjectionActor} {trace : Trace} {memory : Memory}
  {log : Log spool.seenEventLimit} {e : ExecutionEventEnvelopeV1} {incoming : Incoming}

theorem robot_of_inScope {family : Family} {clientOrderId instrumentId positionId : Option String}
    (h : EventMapper.eventIsInScope py config.toProjectionConfig family clientOrderId instrumentId
      positionId = true) :
    family = .order → config.requireRobotOrderOwnership = true → isRobotClientOrderId clientOrderId =
      true := by
  rintro rfl howned
  simp only [EventMapper.eventIsInScope, howned, reduceCtorEq, if_false, if_true] at h
  simp only [ne_eq] at h
  split_ifs at h with hinstrument
  exact h

theorem toEnvelope_own {event : SourceEvent} {tsIngest : DateTime}
    (h : toEnvelope py config.toProjectionConfig tsIngest event = .ok (some e)) : Own config e := by
  unfold toEnvelope at h
  dsimp only at h
  split at h
  · cases h
  · rename_i family hfamily
    obtain ⟨tsEvent, -, h⟩ := bind_ok h
    generalize (if tsEvent.toMicros < missingBefore.toMicros then tsIngest else tsEvent) = stamped at h
    split_ifs at h with hscope
    · cases h
    · obtain ⟨tags, -, h⟩ := bind_ok h
      obtain ⟨payload, -, h⟩ := bind_ok h
      obtain ⟨eventId, -, h⟩ := bind_ok h
      split_ifs at h with hne
      cases h
      exact ⟨rfl, rfl, family, hfamily, robot_of_inScope (by simpa using hscope)⟩

/-- Only what is the actor's own has an envelope to append. -/
theorem envelopeOf_own (h : envelopeOf py config incoming = .ok (.inl e)) : Own config e := by
  cases incoming with
  | envelope e' =>
    unfold envelopeOf at h
    dsimp only at h
    split_ifs at h with hscope hforeign
    · cases h
      unfold canonicalEnvelopeInScope familyOf at hscope
      split_ifs at hscope with hours
      · obtain ⟨family, hfamily, hscope⟩ := (Option.any_eq_true _ _).mp hscope
        exact ⟨hours.1, hours.2, family, hfamily, robot_of_inScope hscope⟩
      · cases hscope
    all_goals cases h
  | event event tsIngest =>
    obtain ⟨mapped, hmapped, h⟩ := bind_ok h
    cases mapped with
    | none => cases h
    | some e' =>
      cases h
      exact toEnvelope_own hmapped

theorem Kept.ingestEvent (h : Kept config spool actor trace memory log) (incoming : Incoming) :
    ∃ memory' log', Kept config spool (ingestEvent py config spool actor incoming).2
      (trace.record py config (.ingestEvent incoming) (ingestEvent py config spool actor incoming).1)
      memory' log' := by
  unfold Projection.ingestEvent
  split_ifs with hhalted
  · exact ⟨memory, log, h⟩
  cases hincoming : envelopeOf py config incoming with
  | error failure => exact ⟨memory, log, h⟩
  | ok answer =>
    cases answer with
    | inr outcome =>
      have hrecord : trace.record py config (.ingestEvent incoming) (.ingested outcome none) = trace := by
        cases outcome <;> simp [Trace.record, hincoming]
      exact ⟨memory, log, by rw [hrecord]; exact h⟩
    | inl e =>
      obtain ⟨memory', log', haccounted⟩ := h.accounted.append e
      dsimp only
      generalize Spool.step spool actor.process (.appendOnce e) = stepped at haccounted ⊢
      obtain ⟨answer, process⟩ := stepped
      refine ⟨memory', log', ?_⟩
      cases answer with
      | appended fresh =>
        cases fresh with
        | true =>
          have hrecord : trace.record py config (.ingestEvent incoming) (.ingested .durable e.eventId) =
              { trace with ledger := trace.ledger.append e } := by simp [Trace.record, hincoming]
          show Kept config spool _ (trace.record py config _ (.ingested .durable e.eventId)) _ _
          rw [hrecord]
          refine ⟨haccounted, fun x hx => ?_, fun x hx => List.mem_append_left _ (h.posted x hx),
            fun x hx => ?_⟩
          · exact List.mem_append.mpr ((List.mem_append.mp hx).imp_left (h.taken x))
          · rcases List.mem_append.mp hx with hx | hx
            · exact h.own x hx
            · rw [List.mem_singleton.mp hx]
              exact envelopeOf_own hincoming
        | false => exact ⟨haccounted, h.taken, h.posted, h.own⟩
      | done | failed _ | notRunning => exact ⟨haccounted, h.taken, h.posted, h.own⟩

theorem Kept.postEvents (py : Interpreter) (h : Kept config spool actor trace memory log)
    (acked : Option (List String)) :
    Kept config spool (postEvents config actor acked).2
      (trace.record py config (.postEvents acked) (postEvents config actor acked).1) memory log := by
  unfold Projection.postEvents
  rw [h.accounted.running]
  dsimp only
  split_ifs with hempty
  · exact ⟨h.accounted, h.taken, by simpa [Trace.record] using h.posted, h.own⟩
  · refine ⟨h.accounted, h.taken, fun x hx => ?_, h.own⟩
    rcases List.mem_append.mp hx with hx | hx
    · exact h.posted x hx
    · exact h.taken x (h.accounted.owed.mem_iff.mp (List.mem_of_mem_take hx))

theorem Kept.markAcked (py : Interpreter) (h : Kept config spool actor trace memory log)
    (acked : List String) :
    ∃ memory' log', Kept config spool (markAcked spool actor acked).2
      (trace.record py config (.markAcked acked) (markAcked spool actor acked).1) memory' log' := by
  unfold Projection.markAcked
  split_ifs with hreturned
  · obtain ⟨memory', log', haccounted⟩ := h.accounted.ack acked
    generalize Spool.step spool actor.process (.markAcked acked) = stepped at haccounted ⊢
    obtain ⟨answer, process⟩ := stepped
    refine ⟨memory', log', ?_⟩
    cases answer with
    | done => exact ⟨haccounted, fun x hx => h.taken x (List.mem_of_mem_filter hx), h.posted, h.own⟩
    | appended _ | failed _ | notRunning => exact ⟨haccounted, h.taken, h.posted, h.own⟩
  · exact ⟨memory, log, h⟩

theorem Kept.step (h : Kept config spool actor trace memory log) (op : Op) :
    ∃ memory' log', Kept config spool (step py config spool actor op).2
      (trace.record py config op (step py config spool actor op).1) memory' log' := by
  cases op with
  | ingestEvent incoming => exact h.ingestEvent incoming
  | postEvents acked => exact ⟨memory, log, h.postEvents py acked⟩
  | markAcked acked => exact h.markAcked py acked
  | haltEgress reason =>
    have hprocess : (haltEgress actor reason).process = actor.process := by
      unfold haltEgress
      split_ifs <;> rfl
    exact ⟨memory, log, hprocess ▸ h.accounted, h.taken, h.posted, h.own⟩
  | restart torn =>
    obtain ⟨memory', log', haccounted⟩ := h.accounted.restart torn
    exact ⟨memory', log', haccounted, h.taken, h.posted, h.own⟩

theorem kept_of_run (py : Interpreter) (config : ProjectionConfig) (spool : JsonExecutionSpool)
    (ops : List Op) :
    ∃ memory log, Kept config spool ((machine py config spool).after fresh ops)
      ((machine py config spool).observe (Trace.record py config) fresh .empty ops) memory log := by
  refine Machine.observe_invariant (m := machine py config spool)
    (R := fun actor trace => ∃ memory log, Kept config spool actor trace memory log) ?_
    ⟨_, _, Spool.accounted_fresh, by simp [Trace.empty, Ledger.empty], by simp [Trace.empty],
      by simp [Trace.empty, Ledger.empty]⟩ ops
  rintro actor trace op ⟨memory, log, h⟩
  exact h.step op

/-! ## What leaves the spool -/

variable (config spool) in
/-- What an actor owes: in order what it took in and what was not taken off, also after a crash; and
nothing was posted that it did not take in or that is not its own. -/
structure Egress (actor : ProjectionActor) (trace : Trace) (memory : Memory) : Prop where
  running : actor.process.memory = some memory
  ordered : Sorted memory.pending
  pending : ∀ e ∈ trace.ledger.appended, e.eventId ∉ trace.ledger.acked → memory.pending.count e = 1
  durable : ∀ torn, ∃ recovered file,
    Spool.load spool (tornFile actor.process.file torn) = (.ok recovered, file) ∧
      recovered.pending = memory.pending
  posted : ∀ e ∈ trace.posted, e ∈ trace.ledger.appended ∧ Own config e

/-- **No event is lost on its way to the control plane, and only the actor's own go there.** -/
theorem egress_of_run (py : Interpreter) (config : ProjectionConfig) (spool : JsonExecutionSpool)
    (ops : List Op) :
    ∃ memory, Egress config spool ((machine py config spool).after fresh ops)
      ((machine py config spool).observe (Trace.record py config) fresh .empty ops) memory := by
  obtain ⟨memory, log, h⟩ := kept_of_run py config spool ops
  refine ⟨memory, h.accounted.running, ?_, fun e he hacked => ?_, fun torn => ?_, fun e he => ?_⟩
  · rw [h.accounted.holds.pending]
    exact Spool.sorted_sortEvents _
  · exact List.count_eq_one_of_mem h.accounted.holds.pending_nodup.of_map
      (h.accounted.owed.mem_iff.mpr (h.accounted.never e he hacked))
  · obtain ⟨recovered, file, hload, hholds⟩ := h.accounted.holds.restart torn
    exact ⟨recovered, file, hload, by rw [hholds.pending, h.accounted.holds.pending]⟩
  · exact ⟨h.posted e he, h.own e (h.posted e he)⟩

/-! ## Flushes -/

variable (py config spool)

/-- What a sink returns that acknowledges all of what is posted. -/
def allOf (actor : ProjectionActor) : List String :=
  ids ((actor.process.memory.map (batchOf config)).getD [])

/-- The actor after so many flushes that were acknowledged. -/
def flushed : Nat → ProjectionActor → ProjectionActor
  | 0, actor => actor
  | k + 1, actor =>
    flushed k ((machine py config spool).after actor
      [.postEvents (some (allOf config actor)), .markAcked (allOf config actor)])

/-- The spool has no room for the snapshot without what was acknowledged. -/
def Overflows (actor : ProjectionActor) : Prop :=
  ∃ message, (markAcked spool (postEvents config actor (allOf config actor)).2 (allOf config actor)).1 =
    .failed (.spoolCapacityError message)

variable {py config spool}

theorem filter_ids_append {l r : List ExecutionEventEnvelopeV1} (h : (ids (l ++ r)).Nodup) :
    (l ++ r).filter (·.eventId ∉ ids l) = r := by
  rw [ids, List.map_append, List.nodup_append] at h
  rw [List.filter_append, List.filter_eq_nil_iff.mpr, List.filter_eq_self.mpr, List.nil_append]
  · intro e he
    rw [decide_eq_true_eq]
    intro hmem
    exact h.2.2 _ hmem _ (List.mem_map_of_mem he) rfl
  · intro e he
    rw [decide_eq_true_eq, not_not]
    exact List.mem_map_of_mem he

theorem remaining_take {n : Nat} (h : (ids memory.pending).Nodup) :
    Spool.remaining memory (ids (memory.pending.take n)) = memory.pending.drop n := by
  have hsplit := List.take_append_drop n memory.pending
  have hrest := filter_ids_append (l := memory.pending.take n) (r := memory.pending.drop n) (hsplit.symm ▸ h)
  rwa [hsplit] at hrest

/-- A flush takes its batch off the front. -/
theorem flush_drops (h : Kept config spool actor trace memory log)
    (hfits : ¬ Overflows config spool actor) :
    ∃ memory' trace' log', Kept config spool (flushed py config spool 1 actor) trace' memory' log' ∧
      memory'.pending = memory.pending.drop config.maxFlushBatchSize := by
  obtain ⟨memory', log', hkept⟩ :=
    (h.postEvents py (some (allOf config actor))).markAcked py (allOf config actor)
  refine ⟨memory', _, log', hkept, ?_⟩
  have hrunning := hkept.accounted.running
  have hall : allOf config actor = ids (batchOf config memory) := by
    unfold allOf
    rw [h.accounted.running]
    rfl
  unfold Overflows at hfits
  rw [hall] at hfits hrunning
  unfold Projection.postEvents at hfits hrunning
  rw [h.accounted.running] at hfits hrunning
  dsimp only at hfits hrunning
  by_cases hempty : batchOf config memory = []
  · -- nothing is pending, or a batch is empty
    rw [if_pos hempty, hempty] at hrunning
    have hsame : memory' = memory := by
      unfold Projection.markAcked at hrunning
      split_ifs at hrunning
      · rw [show ids [] = [] from rfl, Spool.step_ack_nil spool h.accounted.running] at hrunning
        exact Option.some.inj (hrunning.symm.trans h.accounted.running)
      · exact Option.some.inj (hrunning.symm.trans h.accounted.running)
    rw [hsame]
    have hparts := List.take_append_drop config.maxFlushBatchSize memory.pending
    rw [show memory.pending.take config.maxFlushBatchSize = [] from hempty] at hparts
    exact hparts.symm
  · have hne : ids (batchOf config memory) ≠ [] := by simpa [ids] using hempty
    rw [if_neg hempty] at hfits hrunning
    unfold Projection.markAcked at hfits hrunning
    rw [if_pos (by simp)] at hfits hrunning
    by_cases hroom : (Spool.snapshotBytes spool memory (ids (batchOf config memory))).length ≤ spool.maxBytes
    · rw [Spool.step_ack spool h.accounted.running hne hroom] at hrunning
      cases hrunning
      exact remaining_take h.accounted.holds.pending_nodup
    · obtain ⟨message, hmessage⟩ := Spool.step_ack_overflows spool h.accounted.running hne hroom
      rw [hmessage] at hfits
      exact absurd ⟨message, rfl⟩ hfits

/-- **Pending events go out in order**: in any state of a run, flushes that are acknowledged take the
pending events off the front, a batch each, as long as the spool has room for its snapshots. -/
theorem flushes_drain (py : Interpreter) (config : ProjectionConfig) (spool : JsonExecutionSpool)
    (ops : List Op) (k : Nat) :
    (∃ j < k, Overflows config spool (flushed py config spool j ((machine py config spool).after fresh ops))) ∨
    ∃ memory memory', ((machine py config spool).after fresh ops).process.memory = some memory ∧
      (flushed py config spool k ((machine py config spool).after fresh ops)).process.memory =
        some memory' ∧
      memory'.pending = memory.pending.drop (k * config.maxFlushBatchSize) := by
  obtain ⟨memory, log, h⟩ := kept_of_run py config spool ops
  generalize (machine py config spool).after fresh ops = actor at h ⊢
  revert h
  generalize (machine py config spool).observe (Trace.record py config) fresh .empty ops = trace
  intro h
  induction k generalizing actor trace memory log with
  | zero => exact .inr ⟨memory, memory, h.accounted.running, h.accounted.running, by simp⟩
  | succ k ih =>
    by_cases hover : Overflows config spool actor
    · exact .inl ⟨0, k.succ_pos, hover⟩
    · obtain ⟨memory', trace', log', hkept, hpending⟩ := flush_drops h hover
      rcases ih _ _ _ _ hkept with ⟨j, hj, hover⟩ | ⟨memory₁, memory₂, h₁, h₂, hdrop⟩
      · exact .inl ⟨j + 1, Nat.succ_lt_succ hj, hover⟩
      · cases h₁.symm.trans hkept.accounted.running
        refine .inr ⟨memory, memory₂, h.accounted.running, h₂, ?_⟩
        rw [hdrop, hpending, List.drop_drop, Nat.succ_mul, Nat.add_comm]

end
end TraderBot.Projection
