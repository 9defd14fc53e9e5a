import TraderBot.Spool.Recovery

/-! # The window of seen events

Seen ids are forgotten first acknowledged, first forgotten. The order is that of a dict which a
compaction rebuilds: the acknowledged ids as they were, then the ids of the events just
acknowledged. So an id stays until as many others as the spool remembers came after it. -/
namespace TraderBot.Spool
open TraderBot.Lib

/-- The account of acknowledgements: the events taken and not acknowledged since, and the ids
that each acknowledgement took away, oldest first. -/
structure Acknowledged where
  owed : List ExecutionEventEnvelopeV1
  calls : List (List String)

namespace Acknowledged

def empty : Acknowledged := ⟨[], []⟩

def ack (a : Acknowledged) (eventIds : List String) : Acknowledged where
  owed := a.owed.filter fun e => e.eventId ∉ eventIds
  calls := a.calls ++ [ids (a.owed.filter fun e => e.eventId ∈ eventIds)]

def record (a : Acknowledged) : Op → Answer → Acknowledged
  | .appendOnce e, .appended true => { a with owed := a.owed ++ [e] }
  | .markAcked eventIds, .done => a.ack eventIds
  | _, _ => a

theorem record_refused (a : Acknowledged) (e : ExecutionEventEnvelopeV1) {answer : Answer}
    (h : answer ≠ .appended true) : a.record (.appendOnce e) answer = a := by
  cases answer with
  | appended fresh =>
    cases fresh with
    | true => exact absurd rfl h
    | false => rfl
  | done | failed _ | notRunning => rfl

end Acknowledged

/-! ## First in, first out -/

/-- The other ids of a call and of those after it. -/
def since (call : List String) (later : List (List String)) (id : String) : Finset String :=
  (call ++ later.flatten).toFinset.erase id

/-- An id that fewer others followed than are remembered has its place, and all behind it came after it. -/
def Remembers (limit : Nat) (acked : List String) (calls : List (List String)) : Prop :=
  ∀ before call later, calls = before ++ call :: later → ∀ id ∈ call, (since call later id).card < limit →
    ∃ older newer, acked = older ++ id :: newer ∧ ∀ other ∈ newer, other ∈ call ++ later.flatten

theorem drop_of_few {older newer : List String} {id : String} {limit : Nat} (h : newer.length < limit) :
    (older ++ id :: newer).drop ((older ++ id :: newer).length - limit) =
      older.drop ((older ++ id :: newer).length - limit) ++ id :: newer := by
  refine List.drop_append_of_le_length ?_
  rw [List.length_append, List.length_cons]
  omega

theorem Remembers.ack {limit : Nat} {acked fresh call : List String} {calls : List (List String)}
    (h : Remembers limit acked calls) (hnodup : (acked ++ fresh).Nodup) (hcall : ∀ id, id ∈ fresh ↔ id ∈ call) :
    Remembers limit ((acked ++ fresh).drop ((acked ++ fresh).length - limit)) (calls ++ [call]) := by
  intro before call' later heq id hid hfew
  -- before compaction the id has its place, whether it was there or is new
  have hplace : ∃ older newer, acked ++ fresh = older ++ id :: newer ∧
      ∀ other ∈ newer, other ∈ call' ++ later.flatten := by
    rcases List.eq_nil_or_concat later with rfl | ⟨later', last, rfl⟩
    · obtain ⟨hcalls, hlast⟩ := List.append_inj' heq rfl
      cases hlast
      obtain ⟨older, newer, hfresh⟩ := List.append_of_mem ((hcall id).mpr hid)
      refine ⟨acked ++ older, newer, by rw [hfresh, List.append_assoc], fun other hother => ?_⟩
      refine List.mem_append_left _ ((hcall other).mp ?_)
      rw [hfresh]
      exact List.mem_append_right _ (List.mem_cons_of_mem _ hother)
    · rw [List.concat_eq_append] at heq hfew ⊢
      rw [← List.cons_append, ← List.append_assoc] at heq
      obtain ⟨hcalls, hlast⟩ := List.append_inj' heq rfl
      cases hlast
      have hsub : since call' later' id ⊆ since call' (later' ++ [call]) id := by
        refine Finset.erase_subset_erase _ fun other hother => ?_
        simp only [List.mem_toFinset, List.mem_append, List.flatten_append] at hother ⊢
        exact hother.imp_right .inl
      obtain ⟨older, newer, hacked, hnewer⟩ :=
        h before call' later' hcalls id hid ((Finset.card_le_card hsub).trans_lt hfew)
      refine ⟨older, newer ++ fresh, by rw [hacked, List.append_assoc, List.cons_append], fun other hother => ?_⟩
      simp only [List.mem_append, List.flatten_append, List.flatten_cons, List.flatten_nil, List.append_nil]
      rcases List.mem_append.mp hother with hother | hother
      · exact (List.mem_append.mp (hnewer other hother)).imp_right .inl
      · exact .inr (.inr ((hcall other).mp hother))
  obtain ⟨older, newer, hacked, hnewer⟩ := hplace
  rw [hacked] at hnodup ⊢
  have hnew : (id :: newer).Nodup := (List.nodup_append.mp hnodup).2.1
  have hlength : newer.length ≤ (since call' later id).card := by
    rw [← List.toFinset_card_of_nodup (List.nodup_cons.mp hnew).2]
    refine Finset.card_le_card fun other hother => ?_
    have hmem := List.mem_toFinset.mp hother
    refine Finset.mem_erase.mpr ⟨fun hsame => (List.nodup_cons.mp hnew).1 (hsame ▸ hmem), ?_⟩
    exact List.mem_toFinset.mpr (hnewer other hmem)
  exact ⟨_, newer, drop_of_few (hlength.trans_lt hfew), hnewer⟩

/-! ## Runs -/

section
variable {spool : JsonExecutionSpool}

/-- A running process that has its events in order, each once, and remembers what it must. -/
structure Windowed (spool : JsonExecutionSpool) (p : Process) (a : Acknowledged) (memory : Memory)
    (log : Log spool.seenEventLimit) : Prop where
  running : p.memory = some memory
  holds : Holds spool log memory p.file
  owed : memory.pending.Perm a.owed
  remembers : Remembers spool.seenEventLimit log.acked a.calls

theorem windowed_fresh : Windowed spool fresh .empty Memory.empty Log.empty :=
  ⟨rfl, ⟨rfl, rfl, rfl, rfl, Nat.zero_le _⟩, .refl _, fun before _ _ heq => by
    cases before <;> cases heq⟩

variable {p : Process} {a : Acknowledged} {memory : Memory} {log : Log spool.seenEventLimit}

theorem Windowed.append (h : Windowed spool p a memory log) (e : ExecutionEventEnvelopeV1) :
    ∃ memory' log', Windowed spool (step spool p (.appendOnce e)).2
      (a.record (.appendOnce e) (step spool p (.appendOnce e)).1) memory' log' := by
  by_cases hw : Writes spool memory e
  · rw [step_append spool h.running hw]
    exact ⟨_, log.add e, rfl, h.holds.withEvent hw, (sortEvents_perm _).trans (h.owed.append_right _), h.remembers⟩
  · obtain ⟨answer, hanswer, hrefused⟩ := runAppend_refused spool h.running none hw
    rw [step, hrefused, a.record_refused e hanswer]
    exact ⟨memory, log, h⟩

theorem mem_ids_filter (events : List ExecutionEventEnvelopeV1) (P : String → Prop) [DecidablePred P] (id : String) :
    id ∈ ids (events.filter fun e => P e.eventId) ↔ id ∈ ids events ∧ P id := by
  simp only [ids, List.mem_map, List.mem_filter, decide_eq_true_eq]
  constructor
  · intro h
    obtain ⟨e, ⟨he, hP⟩, rfl⟩ := h
    exact ⟨⟨e, he, rfl⟩, hP⟩
  · intro h
    obtain ⟨⟨e, he, rfl⟩, hP⟩ := h
    exact ⟨e, ⟨he, hP⟩, rfl⟩

/-- The ids that an acknowledgement has to order: those it knew as acknowledged, then its own. -/
theorem Holds.acked_fresh {file : File} (h : Holds spool log memory file) (eventIds : List String) :
    ∃ fresh, memory.seenEventIds.filter (· ∉ ids (remaining memory eventIds)) = log.acked ++ fresh ∧
      (log.acked ++ fresh).Nodup ∧
      ∀ id, id ∈ fresh ↔ id ∈ ids (memory.pending.filter fun e => e.eventId ∈ eventIds) := by
  have hremaining : ∀ id, id ∈ ids (remaining memory eventIds) ↔ id ∈ ids log.pending ∧ id ∉ eventIds := by
    intro id
    have hmem := mem_ids_filter memory.pending (fun id => id ∉ eventIds) id
    rw [h.pending, mem_ids_sortEvents, ← h.pending] at hmem
    exact hmem
  have hacked : log.acked.filter (· ∉ ids (remaining memory eventIds)) = log.acked := by
    rw [List.filter_eq_self]
    intro id hid
    rw [decide_eq_true_eq, hremaining]
    exact fun hmem => (List.nodup_append.mp log.seen_nodup).2.2 id hid id hmem.1 rfl
  have hseen : memory.seenEventIds.filter (· ∉ ids (remaining memory eventIds)) =
      log.acked ++ (ids log.pending).filter (· ∉ ids (remaining memory eventIds)) := by
    rw [h.seen, Log.seen, List.filter_append, hacked]
  refine ⟨_, hseen, hseen ▸ h.seen_nodup.filter _, fun id => ?_⟩
  have hmem := mem_ids_filter memory.pending (fun id => id ∈ eventIds) id
  rw [hmem, h.pending, mem_ids_sortEvents, List.mem_filter, decide_eq_true_eq, hremaining]
  tauto

theorem Windowed.ack (h : Windowed spool p a memory log) (eventIds : List String) :
    ∃ memory' log', Windowed spool (step spool p (.markAcked eventIds)).2
      (a.record (.markAcked eventIds) (step spool p (.markAcked eventIds)).1) memory' log' := by
  by_cases hne : eventIds = []
  · subst hne
    rw [step_ack_nil spool h.running]
    have hnodup : (log.acked ++ []).Nodup := by
      rw [List.append_nil]
      exact (List.nodup_append.mp log.seen_nodup).1
    have hremembers := h.remembers.ack hnodup fun id => (Iff.rfl : id ∈ [] ↔ id ∈ [])
    rw [List.append_nil, Nat.sub_eq_zero_of_le log.acked_bounded, List.drop_zero] at hremembers
    refine ⟨memory, log, h.running, h.holds, ?_, ?_⟩
    · simpa [Acknowledged.record, Acknowledged.ack] using h.owed
    · simpa [Acknowledged.record, Acknowledged.ack, ids] using hremembers
  by_cases hfits : (snapshotBytes spool memory eventIds).length ≤ spool.maxBytes
  · rw [step_ack spool h.running hne hfits]
    refine ⟨_, _, rfl, h.holds.withAcks hfits, h.owed.filter _, ?_⟩
    obtain ⟨fresh, hseen, hnodup, hfresh⟩ := h.holds.acked_fresh eventIds
    have hcall : ∀ id, id ∈ fresh ↔ id ∈ ids (a.owed.filter fun e => e.eventId ∈ eventIds) :=
      fun id => (hfresh id).trans (ids_perm (h.owed.filter _)).mem_iff
    have hretained : retainedAckedIds spool (remaining memory eventIds) memory.seenEventIds =
        (log.acked ++ fresh).drop ((log.acked ++ fresh).length - spool.seenEventLimit) := by
      unfold retainedAckedIds
      rw [hseen]
    show Remembers _ (retainedAckedIds spool (remaining memory eventIds) memory.seenEventIds) (a.calls ++ [_])
    rw [hretained]
    exact h.remembers.ack hnodup hcall
  · obtain ⟨message, hmessage⟩ := step_ack_overflows spool h.running hne hfits
    rw [hmessage]
    exact ⟨memory, log, h⟩

theorem Windowed.restart (h : Windowed spool p a memory log) (torn : Option TornWrite) :
    ∃ memory' log', Windowed spool (step spool p (.restart torn)).2
      (a.record (.restart torn) (step spool p (.restart torn)).1) memory' log' := by
  obtain ⟨recovered, file', hload, hholds⟩ := h.holds.restart torn
  rw [step_restart spool hload]
  refine ⟨recovered, log, rfl, hholds, ?_, h.remembers⟩
  rw [hholds.pending, ← h.holds.pending]
  exact h.owed

/-- Every run keeps the window. -/
theorem windowed_of_run (spool : JsonExecutionSpool) (ops : List Op) :
    ∃ memory log, Windowed spool ((machine spool).after fresh ops)
      ((machine spool).observe Acknowledged.record fresh .empty ops) memory log := by
  refine Machine.observe_invariant (m := machine spool)
    (R := fun p a => ∃ memory log, Windowed spool p a memory log) ?_ ⟨_, _, windowed_fresh⟩ ops
  intro p a op h
  obtain ⟨memory, log, h⟩ := h
  cases op with
  | appendOnce e => exact h.append e
  | markAcked eventIds => exact h.ack eventIds
  | restart torn => exact h.restart torn

/-- What is pending is in order, each event once and seen, and the size is that of the file; an
event that was acknowledged is not taken again before as many others as are remembered were
acknowledged with it or after it. -/
theorem window_of_run (spool : JsonExecutionSpool) (ops : List Op) :
    ∃ memory, ((machine spool).after fresh ops).memory = some memory ∧
      (ids memory.pending).Nodup ∧ (∀ id ∈ ids memory.pending, id ∈ memory.seenEventIds) ∧
      Sorted memory.pending ∧
      memory.sizeBytes = (((machine spool).after fresh ops).file.getD []).length ∧
      ∀ before call later,
        ((machine spool).observe Acknowledged.record fresh .empty ops).calls = before ++ call :: later →
        ∀ e : ExecutionEventEnvelopeV1, e.eventId ∈ call →
          (since call later e.eventId).card < spool.seenEventLimit →
          (machine spool).answer ((machine spool).after fresh ops) (.appendOnce e) = .appended false := by
  obtain ⟨memory, log, h⟩ := windowed_of_run spool ops
  refine ⟨memory, h.running, h.holds.pending_nodup, fun id hid => ?_, ?_, ?_,
    fun before call later hcalls e he hfew => ?_⟩
  · rw [h.holds.pending, mem_ids_sortEvents] at hid
    rw [h.holds.seen]
    exact List.mem_append_right _ hid
  · rw [h.holds.pending]
    exact sorted_sortEvents _
  · rw [h.holds.size, h.holds.file]
  · obtain ⟨older, newer, hacked, -⟩ := h.remembers before call later hcalls _ he hfew
    have hseen : e.eventId ∈ memory.seenEventIds := by
      rw [h.holds.seen, Log.seen, hacked]
      exact List.mem_append_left _ (List.mem_append_right _ List.mem_cons_self)
    show (step spool _ (.appendOnce e)).1 = _
    rw [step, runAppend, h.running]
    simp only [appendOnce, if_pos hseen]

end
end TraderBot.Spool
