import TraderBot.Spool.Log

/-! # Crash recovery

Between operations the memory of a running spool is what its file's log says
(`Holds`). Every operation that meets no error of the operating system keeps
that, and so does a crash followed by a new process: the log is untouched, the
torn tail is cut off. The account of a run that a client could keep (`Ledger`)
then says what is pending: the events appended and not acknowledged since. -/
namespace TraderBot.Spool
open TraderBot.Lib TraderBot.Lib.Json

section Steps
variable (spool : JsonExecutionSpool)

/-! ## What an operation does -/

/-- The bytes of one append. -/
def recordSize (e : ExecutionEventEnvelopeV1) : Nat := (encodeRecord (appendRecord e)).length

/-- The memory after an append went through. -/
def Memory.withEvent (memory : Memory) (e : ExecutionEventEnvelopeV1) : Memory :=
  { pending := sortEvents (memory.pending ++ [e]), seenEventIds := addKey memory.seenEventIds e.eventId,
    sizeBytes := memory.sizeBytes + recordSize e,
    lastAppendSize := max memory.lastAppendSize (recordSize e) }

/-- An append that gets as far as writing. -/
def Writes (memory : Memory) (e : ExecutionEventEnvelopeV1) : Prop :=
  e.eventId ∉ memory.seenEventIds ∧ memory.sizeBytes + recordSize e ≤ spool.maxBytes

instance (memory : Memory) (e : ExecutionEventEnvelopeV1) : Decidable (Writes spool memory e) :=
  inferInstanceAs (Decidable (_ ∧ _))

variable {e : ExecutionEventEnvelopeV1} {pending : List ExecutionEventEnvelopeV1}
  {seenEventIds eventIds : List String}

theorem appendOnce_writes {memory : Memory} (file : File) (h : Writes spool memory e) :
    appendOnce spool none memory file e =
      (.ok true, memory.withEvent e, some (file.getD [] ++ encodeRecord (appendRecord e))) := by
  have hcapacity : memory.sizeBytes + (encodeRecord (appendRecord e)).length ≤ spool.maxBytes := h.2
  simp [appendOnce, h.1, assertCapacityBytes, hcapacity, appendEncoded, Memory.withEvent, recordSize]

theorem appendOnce_breaks {memory : Memory} (file : File) (written : Nat)
    (h : Writes spool memory e) :
    appendOnce spool (some written) memory file e = (.error .osError, memory,
      some (file.getD [] ++ (encodeRecord (appendRecord e)).take written)) := by
  have hcapacity : memory.sizeBytes + (encodeRecord (appendRecord e)).length ≤ spool.maxBytes := h.2
  simp [appendOnce, h.1, assertCapacityBytes, hcapacity, appendEncoded]

/-- An append that does not write answers false or raises, and changes nothing. -/
theorem appendOnce_refused {memory : Memory} (fault : Option Nat) (file : File)
    (h : ¬ Writes spool memory e) :
    ∃ answer, answer ≠ .ok true ∧ appendOnce spool fault memory file e = (answer, memory, file) := by
  unfold appendOnce
  split_ifs with hseen
  · exact ⟨.ok false, by simp, rfl⟩
  · have hcapacity : ¬ memory.sizeBytes + (encodeRecord (appendRecord e)).length ≤ spool.maxBytes :=
      fun hfits => h ⟨hseen, hfits⟩
    simp only [assertCapacityBytes, hcapacity, if_false]
    exact ⟨_, by simp, rfl⟩

/-- What stays pending after an acknowledgement. -/
def remaining (memory : Memory) (eventIds : List String) : List ExecutionEventEnvelopeV1 :=
  memory.pending.filter fun event => event.eventId ∉ eventIds

/-- The snapshot an acknowledgement writes. -/
def snapshotBytes (memory : Memory) (eventIds : List String) : List Char :=
  encodeRecord (snapshotRecord (remaining memory eventIds)
    (compactSeenEventIds spool (remaining memory eventIds) memory.seenEventIds))

theorem commitState_fits (memory : Memory) (file : File) (h : (encodeRecord (snapshotRecord pending
      (compactSeenEventIds spool pending seenEventIds))).length ≤ spool.maxBytes) :
    commitState spool memory file pending seenEventIds =
      (.ok { memory with
        pending, seenEventIds := compactSeenEventIds spool pending seenEventIds,
        sizeBytes := (encodeRecord (snapshotRecord pending
          (compactSeenEventIds spool pending seenEventIds))).length },
      some (encodeRecord (snapshotRecord pending
        (compactSeenEventIds spool pending seenEventIds)))) := by
  simp only [commitState, assertCapacityBytes, h, if_true]

theorem commitState_overflows (memory : Memory) (file : File)
    (h : ¬ (encodeRecord (snapshotRecord pending
      (compactSeenEventIds spool pending seenEventIds))).length ≤ spool.maxBytes) :
    ∃ message, commitState spool memory file pending seenEventIds =
      (.error (.spoolCapacityError message), file) := by
  simp only [commitState, assertCapacityBytes, h, if_false]
  exact ⟨_, rfl⟩

/-- The memory after an acknowledgement went through. -/
def Memory.withAcks (memory : Memory) (eventIds : List String) : Memory :=
  { memory with
    pending := remaining memory eventIds,
    seenEventIds := compactSeenEventIds spool (remaining memory eventIds) memory.seenEventIds,
    sizeBytes := (snapshotBytes spool memory eventIds).length }

theorem markAcked_eq (memory : Memory) (file : File) (hne : eventIds ≠ []) :
    markAcked spool memory file eventIds =
      match commitState spool memory file (remaining memory eventIds) memory.seenEventIds with
      | (.error e, file) => (.error e, memory, file)
      | (.ok memory, file) => (.ok (), memory, file) := by
  rw [markAcked, if_neg hne]
  rfl

theorem markAcked_fits {memory : Memory} (file : File) (hne : eventIds ≠ [])
    (h : (snapshotBytes spool memory eventIds).length ≤ spool.maxBytes) :
    markAcked spool memory file eventIds =
      (.ok (), memory.withAcks spool eventIds, some (snapshotBytes spool memory eventIds)) := by
  rw [markAcked_eq spool memory file hne, commitState_fits spool memory file h]
  rfl

theorem markAcked_overflows {memory : Memory} (file : File) (hne : eventIds ≠ [])
    (h : ¬ (snapshotBytes spool memory eventIds).length ≤ spool.maxBytes) :
    ∃ message, markAcked spool memory file eventIds =
      (.error (.spoolCapacityError message), memory, file) := by
  obtain ⟨message, hmessage⟩ := commitState_overflows spool memory file h
  exact ⟨message, by rw [markAcked_eq spool memory file hne, hmessage]⟩

/-! ## Steps of a running process -/

section Running
variable {p : Process} {memory : Memory} (hrun : p.memory = some memory)
include hrun

variable {e : ExecutionEventEnvelopeV1} {eventIds : List String}

theorem step_append (h : Writes spool memory e) :
    step spool p (.appendOnce e) = (.appended true,
      ⟨some (memory.withEvent e), some (p.file.getD [] ++ encodeRecord (appendRecord e))⟩) := by
  rw [step, runAppend, hrun]
  simp only [appendOnce_writes spool p.file h]

theorem runAppend_refused (fault : Option Nat) (h : ¬ Writes spool memory e) :
    ∃ answer, answer ≠ .appended true ∧ runAppend spool fault p e = (answer, p) := by
  obtain ⟨answer, hanswer, hrefused⟩ := appendOnce_refused spool fault p.file h
  have hp : (⟨some memory, p.file⟩ : Process) = p := by rw [← hrun]
  rw [runAppend, hrun]
  simp only [hrefused]
  cases answer with
  | ok fresh =>
    have hfresh : fresh = false := by simpa using hanswer
    exact ⟨.appended false, by simp, by rw [hfresh]; exact congrArg _ hp⟩
  | error e => exact ⟨.failed e, by simp, congrArg _ hp⟩

theorem step_ack_nil : step spool p (.markAcked []) = (.done, p) := by
  rw [step, hrun]
  simp only [markAcked, if_true, ← hrun]

theorem step_ack (hne : eventIds ≠ [])
    (h : (snapshotBytes spool memory eventIds).length ≤ spool.maxBytes) :
    step spool p (.markAcked eventIds) = (.done,
      ⟨some (memory.withAcks spool eventIds), some (snapshotBytes spool memory eventIds)⟩) := by
  rw [step, hrun]
  simp only [markAcked_fits spool p.file hne h]

theorem step_ack_overflows (hne : eventIds ≠ [])
    (h : ¬ (snapshotBytes spool memory eventIds).length ≤ spool.maxBytes) :
    ∃ message, step spool p (.markAcked eventIds) =
      (.failed (.spoolCapacityError message), p) := by
  obtain ⟨message, hmessage⟩ := markAcked_overflows spool p.file hne h
  refine ⟨message, ?_⟩
  rw [step, hrun]
  simp only [hmessage, ← hrun]

end Running

theorem step_restart {p : Process} {torn : Option TornWrite} {memory : Memory} {file : File}
    (h : load spool (tornFile p.file torn) = (.ok memory, file)) :
    step spool p (.restart torn) = (.done, ⟨some memory, file⟩) := by
  rw [step, start, h]

/-! ## The memory is what the log says -/

structure Holds (log : Log spool.seenEventLimit) (memory : Memory) (file : File) : Prop where
  file : file.getD [] = log.bytes
  pending : memory.pending = sortEvents log.pending
  seen : memory.seenEventIds = log.seen
  size : memory.sizeBytes = log.bytes.length
  fits : log.bytes.length ≤ spool.maxBytes

variable {spool} {log : Log spool.seenEventLimit} {memory : Memory} {file : File}

theorem Holds.pending_nodup (h : Holds spool log memory file) : (ids memory.pending).Nodup := by
  rw [h.pending]
  exact (ids_perm (sortEvents_perm _)).nodup_iff.mpr log.pending_nodup

theorem Holds.seen_nodup (h : Holds spool log memory file) : memory.seenEventIds.Nodup := by
  rw [h.seen]
  exact log.seen_nodup

theorem Holds.withEvent (h : Holds spool log memory file) (hw : Writes spool memory e) :
    Holds spool (log.add e) (memory.withEvent e)
      (some (file.getD [] ++ encodeRecord (appendRecord e))) := by
  have hseen : e.eventId ∉ log.acked ++ ids log.pending := by
    have := hw.1
    rwa [h.seen] at this
  have hpending : (log.add e).pending = log.pending ++ [e] := by
    rw [Log.pending_add, Log.absorb, if_neg hseen]
  have hnodup : (ids (log.pending ++ [e])).Nodup := hpending ▸ Log.pending_nodup
  have hbytes : (log.add e).bytes.length = memory.sizeBytes + recordSize e := by
    rw [Log.bytes_add, List.length_append, h.size, recordSize]
  refine ⟨?_, ?_, ?_, hbytes.symm, hbytes ▸ hw.2⟩
  · rw [Log.bytes_add, Option.getD_some, h.file]
  · rw [hpending]
    refine sortEvents_eq_of_perm ?_ hnodup
    rw [h.pending]
    exact (sortEvents_perm _).append_right _
  · have hkey : addKey log.seen e.eventId = log.seen ++ [e.eventId] := if_neg hseen
    change addKey memory.seenEventIds e.eventId = _
    rw [h.seen, hkey, Log.seen, Log.seen, hpending]
    simp [ids]

/-- The snapshot of what an acknowledgement leaves. -/
def snapshotOf (spool : JsonExecutionSpool) (memory : Memory) (eventIds : List String)
    (hseen : memory.seenEventIds.Nodup) (hpending : (ids (remaining memory eventIds)).Nodup) :
    Snapshot spool.seenEventLimit where
  acked := retainedAckedIds spool (remaining memory eventIds) memory.seenEventIds
  pending := remaining memory eventIds
  nodup := retained_nodup spool hseen hpending
  bounded := retainedAckedIds_length spool _ _

theorem remaining_nodup (eventIds : List String) (h : (ids memory.pending).Nodup) :
    (ids (remaining memory eventIds)).Nodup :=
  (List.filter_sublist.map _).nodup h

/-- The log of a file that holds one snapshot and nothing else. -/
theorem snapshotBytes_eq (spool : JsonExecutionSpool) (hseen : memory.seenEventIds.Nodup)
    (hpending : (ids (remaining memory eventIds)).Nodup) :
    snapshotBytes spool memory eventIds =
      Log.bytes ⟨some (snapshotOf spool memory eventIds hseen hpending), []⟩ := by
  unfold snapshotBytes
  rw [compactSeenEventIds_eq spool hseen hpending]
  simp [Log.bytes, Log.records, linesOf, snapshotOf, snapshotRecord_eq]

theorem Holds.withAcks (h : Holds spool log memory file)
    (hfits : (snapshotBytes spool memory eventIds).length ≤ spool.maxBytes) :
    Holds spool
      ⟨some (snapshotOf spool memory eventIds h.seen_nodup (remaining_nodup eventIds h.pending_nodup)), []⟩
      (memory.withAcks spool eventIds) (some (snapshotBytes spool memory eventIds)) := by
  have hrest := remaining_nodup eventIds h.pending_nodup
  have hbytes := snapshotBytes_eq spool h.seen_nodup hrest
  have hsorted : Sorted (remaining memory eventIds) := by
    unfold remaining
    rw [h.pending]
    exact (sorted_sortEvents _).filter _
  refine ⟨hbytes, ?_, ?_, congrArg List.length hbytes, hbytes ▸ hfits⟩
  · exact hsorted.sortEvents_eq.symm
  · exact compactSeenEventIds_eq spool h.seen_nodup hrest

/-- **A new process on the file of a crash is the process before it.** -/
theorem Holds.restart (h : Holds spool log memory file) (torn : Option TornWrite) :
    ∃ recovered file', load spool (tornFile file torn) = (.ok recovered, file') ∧
      Holds spool log recovered file' := by
  obtain ⟨tail, htail, hfile⟩ : ∃ tail, Torn tail ∧
      (tornFile file torn).getD [] = log.bytes ++ tail := by
    cases torn with
    | none => exact ⟨[], torn_nil, by rw [tornFile, h.file, List.append_nil]⟩
    | some t => exact ⟨_, torn_take t.proper, by rw [tornFile, Option.getD_some, h.file]⟩
  obtain ⟨n, file', hload, hfile'⟩ := load_log spool log htail hfile h.fits
  exact ⟨_, file', hload, ⟨hfile', rfl, rfl, rfl, h.fits⟩⟩

end Steps

/-! ## Whole runs -/

/-- The account of a run: the events `append_once` said it took, the ids of the
acknowledgements that returned, and the events taken and not acknowledged since. -/
structure Ledger where
  appended : List ExecutionEventEnvelopeV1
  acked : List String
  owed : List ExecutionEventEnvelopeV1

def Ledger.empty : Ledger := ⟨[], [], []⟩

def Ledger.append (ledger : Ledger) (e : ExecutionEventEnvelopeV1) : Ledger :=
  { ledger with appended := ledger.appended ++ [e], owed := ledger.owed ++ [e] }

def Ledger.ack (ledger : Ledger) (eventIds : List String) : Ledger :=
  { ledger with
    acked := ledger.acked ++ eventIds, owed := ledger.owed.filter fun e => e.eventId ∉ eventIds }

def Ledger.record (ledger : Ledger) : Op → Answer → Ledger
  | .appendOnce e, .appended true => ledger.append e
  | .markAcked eventIds, .done => ledger.ack eventIds
  | _, _ => ledger

variable (ledger : Ledger)

theorem Ledger.ack_nil : ledger.ack [] = ledger := by simp [Ledger.ack]

/-- An append that was not taken does not count. -/
theorem Ledger.record_refused (e : ExecutionEventEnvelopeV1) {answer : Answer}
    (h : answer ≠ .appended true) : ledger.record (.appendOnce e) answer = ledger := by
  cases answer with
  | appended fresh =>
    cases fresh with
    | true => exact absurd rfl h
    | false => rfl
  | done | failed _ | notRunning => rfl

section Runs
variable {spool : JsonExecutionSpool}

/-- A running process whose memory is what its file says and whose pending
events are those the account owes. -/
structure Accounted (spool : JsonExecutionSpool) (p : Process) (ledger : Ledger) (memory : Memory)
    (log : Log spool.seenEventLimit) : Prop where
  running : p.memory = some memory
  holds : Holds spool log memory p.file
  owed : memory.pending.Perm ledger.owed
  never : ∀ e ∈ ledger.appended, e.eventId ∉ ledger.acked → e ∈ ledger.owed

theorem accounted_fresh : Accounted spool fresh .empty Memory.empty Log.empty :=
  ⟨rfl, ⟨rfl, rfl, rfl, rfl, Nat.zero_le _⟩, .refl _, nofun⟩

variable {p : Process} {ledger : Ledger} {memory : Memory} {log : Log spool.seenEventLimit}

theorem Accounted.append (h : Accounted spool p ledger memory log) (e : ExecutionEventEnvelopeV1) :
    ∃ memory' log', Accounted spool (step spool p (.appendOnce e)).2
      (ledger.record (.appendOnce e) (step spool p (.appendOnce e)).1) memory' log' := by
  by_cases hw : Writes spool memory e
  · rw [step_append spool h.running hw]
    refine ⟨_, log.add e, rfl, h.holds.withEvent hw, ?_, ?_⟩
    · exact (sortEvents_perm _).trans (h.owed.append_right _)
    · intro x hx hacked
      rcases List.mem_append.mp hx with hx | hx
      · exact List.mem_append_left _ (h.never x hx hacked)
      · exact List.mem_append_right _ hx
  · obtain ⟨answer, hanswer, hrefused⟩ := runAppend_refused spool h.running none hw
    rw [step, hrefused, ledger.record_refused e hanswer]
    exact ⟨memory, log, h⟩

theorem Accounted.ack (h : Accounted spool p ledger memory log) (eventIds : List String) :
    ∃ memory' log', Accounted spool (step spool p (.markAcked eventIds)).2
      (ledger.record (.markAcked eventIds) (step spool p (.markAcked eventIds)).1) memory' log' := by
  by_cases hne : eventIds = []
  · subst hne
    rw [step_ack_nil spool h.running]
    change ∃ memory' log', Accounted spool p (ledger.ack []) memory' log'
    rw [ledger.ack_nil]
    exact ⟨memory, log, h⟩
  by_cases hfits : (snapshotBytes spool memory eventIds).length ≤ spool.maxBytes
  · rw [step_ack spool h.running hne hfits]
    refine ⟨_, _, rfl, h.holds.withAcks hfits, h.owed.filter _, ?_⟩
    intro e he hacked
    have hsplit : e.eventId ∉ ledger.acked ∧ e.eventId ∉ eventIds := by
      simpa [Ledger.record, Ledger.ack] using hacked
    exact List.mem_filter.mpr ⟨h.never e he hsplit.1, by simpa using hsplit.2⟩
  · obtain ⟨message, hmessage⟩ := step_ack_overflows spool h.running hne hfits
    rw [hmessage]
    exact ⟨memory, log, h⟩

theorem Accounted.restart (h : Accounted spool p ledger memory log) (torn : Option TornWrite) :
    ∃ memory' log', Accounted spool (step spool p (.restart torn)).2
      (ledger.record (.restart torn) (step spool p (.restart torn)).1) memory' log' := by
  obtain ⟨recovered, file', hload, hholds⟩ := h.holds.restart torn
  rw [step_restart spool hload]
  refine ⟨recovered, log, rfl, hholds, ?_, h.never⟩
  rw [hholds.pending, ← h.holds.pending]
  exact h.owed

/-- Every run keeps the account. -/
theorem accounted_of_run (spool : JsonExecutionSpool) (ops : List Op) :
    ∃ memory log, Accounted spool ((machine spool).after fresh ops)
      ((machine spool).observe Ledger.record fresh .empty ops) memory log := by
  refine Machine.observe_invariant (m := machine spool)
    (R := fun p ledger => ∃ memory log, Accounted spool p ledger memory log) ?_
    ⟨_, _, accounted_fresh⟩ ops
  intro p ledger op h
  obtain ⟨memory, log, h⟩ := h
  cases op with
  | appendOnce e => exact h.append e
  | markAcked eventIds => exact h.ack eventIds
  | restart torn => exact h.restart torn

/-- **Crash recovery.** After every run the process is up; whatever a crash
leaves of an interrupted append, a new process on the file holds the same
pending events and the same seen ids. Pending, each once, are the events
appended and not acknowledged since; an event whose id was never acknowledged is
one of them. -/
theorem recovery_of_run (spool : JsonExecutionSpool) (ops : List Op) :
    ∃ memory, ((machine spool).after fresh ops).memory = some memory ∧
      (∀ torn, ∃ recovered file',
        load spool (tornFile ((machine spool).after fresh ops).file torn) = (.ok recovered, file') ∧
          recovered.pending = memory.pending ∧ recovered.seenEventIds = memory.seenEventIds) ∧
      (∀ e ∈ ((machine spool).observe Ledger.record fresh .empty ops).appended,
        e.eventId ∉ ((machine spool).observe Ledger.record fresh .empty ops).acked →
          memory.pending.count e = 1) ∧
      memory.pending.Perm ((machine spool).observe Ledger.record fresh .empty ops).owed ∧
      (ids memory.pending).Nodup := by
  obtain ⟨memory, log, h⟩ := accounted_of_run spool ops
  have hnodup := h.holds.pending_nodup
  refine ⟨memory, h.running, ?_, ?_, h.owed, hnodup⟩
  · intro torn
    obtain ⟨recovered, file', hload, hholds⟩ := h.holds.restart torn
    exact ⟨recovered, file', hload, by rw [hholds.pending, h.holds.pending],
      by rw [hholds.seen, h.holds.seen]⟩
  · intro e he hacked
    exact List.count_eq_one_of_mem hnodup.of_map (h.owed.mem_iff.mpr (h.never e he hacked))

variable {x : ExecutionEventEnvelopeV1}

theorem writes_fresh (h : recordSize x ≤ spool.maxBytes) : Writes spool Memory.empty x :=
  ⟨by simp [Memory.empty], by simpa [Memory.empty] using h⟩

theorem next_append_fresh (h : recordSize x ≤ spool.maxBytes) :
    (machine spool).after fresh [.appendOnce x] =
      ⟨some (Memory.empty.withEvent x), some (encodeRecord (appendRecord x))⟩ :=
  congrArg Prod.snd (step_append spool (p := fresh) rfl (writes_fresh h))

/-- An event under an id the spool has just taken is no new event. -/
theorem append_duplicate {y : ExecutionEventEnvelopeV1} (h : recordSize x ≤ spool.maxBytes)
    (hid : x.eventId = y.eventId) :
    (machine spool).answer ((machine spool).after fresh [.appendOnce x]) (.appendOnce y) =
      .appended false := by
  have hseen : y.eventId ∈ (Memory.empty.withEvent x).seenEventIds := by
    simp [Memory.withEvent, Memory.empty, addKey, hid]
  rw [next_append_fresh h]
  change (step spool _ (.appendOnce y)).1 = _
  simp [step, runAppend, appendOnce, hseen]

/-- The bytes of a snapshot with nothing pending. -/
def drainedSize (id : String) : Nat := (encodeRecord (snapshotRecord [] [id])).length

theorem step_append_drained (spool : JsonExecutionSpool) {e : ExecutionEventEnvelopeV1}
    {seen : List String} {n : Nat} (k : Nat) (file : File) (hseen : e.eventId ∉ seen) (hfits : n + recordSize e ≤ spool.maxBytes) :
    ∃ k' file', step spool ⟨some ⟨[], seen, n, k⟩, file⟩ (.appendOnce e) =
      (.appended true, ⟨some ⟨[e], seen ++ [e.eventId], n + recordSize e, k'⟩, file'⟩) := by
  have hw : Writes spool ⟨[], seen, n, k⟩ e := ⟨hseen, hfits⟩
  refine ⟨max k (recordSize e), some (file.getD [] ++ encodeRecord (appendRecord e)), ?_⟩
  rw [step_append spool rfl hw]
  simp only [Memory.withEvent, addKey, hseen, if_false]
  rfl

theorem step_ack_single (hlimit : spool.seenEventLimit = 1) (e : ExecutionEventEnvelopeV1)
    (seen : List String) (n k : Nat) (file : File)
    (hfits : drainedSize e.eventId ≤ spool.maxBytes) :
    ∃ file', step spool ⟨some ⟨[e], seen ++ [e.eventId], n, k⟩, file⟩ (.markAcked [e.eventId]) =
      (.done, ⟨some ⟨[], [e.eventId], drainedSize e.eventId, k⟩, file'⟩) := by
  have hrest : remaining ⟨[e], seen ++ [e.eventId], n, k⟩ [e.eventId] = [] := by simp [remaining]
  have hseen : compactSeenEventIds spool [] (seen ++ [e.eventId]) = [e.eventId] := by
    simp [compactSeenEventIds, ids, addKey, hlimit]
  have hbytes : snapshotBytes spool ⟨[e], seen ++ [e.eventId], n, k⟩ [e.eventId] =
      encodeRecord (snapshotRecord [] [e.eventId]) := by
    rw [snapshotBytes, hrest, hseen]
  refine ⟨some (encodeRecord (snapshotRecord [] [e.eventId])), ?_⟩
  rw [step_ack spool rfl (by simp) (by rw [hbytes]; exact hfits), Memory.withAcks, hbytes, hrest, hseen]
  rfl

/-- A spool that remembers one acknowledged id takes an event again after the
next event was acknowledged: it is pending, and its id has been acknowledged. -/
theorem forgotten_event_returns (hlimit : spool.seenEventLimit = 1) {y : ExecutionEventEnvelopeV1}
    (hxy : x.eventId ≠ y.eventId) (hx : recordSize x ≤ spool.maxBytes)
    (hxd : drainedSize x.eventId + recordSize y ≤ spool.maxBytes)
    (hyd : drainedSize y.eventId + recordSize x ≤ spool.maxBytes) :
    ∃ memory, ((machine spool).after fresh [.appendOnce x, .markAcked [x.eventId], .appendOnce y,
        .markAcked [y.eventId], .appendOnce x]).memory = some memory ∧ x ∈ memory.pending ∧
      x.eventId ∈ ((machine spool).observe Ledger.record fresh .empty [.appendOnce x,
        .markAcked [x.eventId], .appendOnce y, .markAcked [y.eventId], .appendOnce x]).acked := by
  have hnext : ∀ p op, (machine spool).next p op = (step spool p op).2 := fun _ _ => rfl
  have hanswer : ∀ p op, (machine spool).answer p op = (step spool p op).1 := fun _ _ => rfl
  have hfresh : fresh = ⟨some ⟨[], [], 0, 0⟩, none⟩ := rfl
  have hyx : y.eventId ∉ [x.eventId] := by simpa using hxy.symm
  have hx_y : x.eventId ∉ [y.eventId] := by simpa using hxy
  obtain ⟨k1, f1, h1⟩ := step_append_drained spool (e := x) (n := 0) 0 none
    (List.not_mem_nil (a := x.eventId)) (by omega)
  obtain ⟨f2, h2⟩ := step_ack_single hlimit x [] (0 + recordSize x) k1 f1 (by omega)
  obtain ⟨k3, f3, h3⟩ := step_append_drained spool (e := y) k1 f2 hyx hxd
  obtain ⟨f4, h4⟩ := step_ack_single hlimit y [x.eventId] (drainedSize x.eventId + recordSize y) k3 f3
    (by omega)
  obtain ⟨k5, f5, h5⟩ := step_append_drained spool (e := x) k3 f4 hx_y hyd
  refine ⟨⟨[x], [y.eventId] ++ [x.eventId], drainedSize y.eventId + recordSize x, k5⟩, ?_, by simp, ?_⟩
  · simp only [Machine.after_cons, Machine.after_nil, hnext, hfresh, h1, h2, h3, h4, h5]
  · simp only [Machine.observe, hnext, hanswer, hfresh, h1, h2, h3, h4, h5]
    simp [Ledger.record, Ledger.append, Ledger.ack]

end Runs

theorem sampleTime_valid : DateTime.Valid 2026 7 1 12 0 0 0 := by decide
theorem canonical_empty : canonical (.obj []) = true := rfl

def sampleTime : DateTime := ⟨2026, 7, 1, 12, 0, 0, 0, sampleTime_valid⟩

def sampleEvent (eventId : String) (h : eventId ≠ "") : ExecutionEventEnvelopeV1 where
  eventId
  nodeId := "node-1"
  accountId := "account-1"
  eventType := "OrderAccepted"
  tsEvent := sampleTime
  tsIngest := sampleTime
  payload := ⟨[], canonical_empty⟩
  eventId_ne := h
  nodeId_ne := by decide
  accountId_ne := by decide
  eventType_ne := by decide

def strOfText : Value → String
  | .str s => s
  | _ => ""

def sampleSpool (maxBytes seenEventLimit : Nat) (h : 0 < maxBytes) (h' : 0 < seenEventLimit) :
    JsonExecutionSpool where
  unicode := .ascii
  str := strOfText
  str_str _ := rfl
  maxBytes
  maxBytes_pos := h
  seenEventLimit
  seenEventLimit_pos := h'

def eventX : ExecutionEventEnvelopeV1 := sampleEvent "event-x" (by decide)

def eventY : ExecutionEventEnvelopeV1 := sampleEvent "event-y" (by decide)

theorem sample_sizes : recordSize eventX ≤ 400 ∧ recordSize eventY ≤ 400 ∧
    drainedSize "event-x" ≤ 100 ∧ drainedSize "event-y" ≤ 100 := by decide +kernel

/-- A spool with the default budget that remembers one id has an acknowledged
event pending. -/
theorem acked_event_pending_again :
    let spool := sampleSpool (64 * 1024 * 1024) 1 (by decide) (by decide)
    let ops : List Op := [.appendOnce eventX, .markAcked ["event-x"], .appendOnce eventY,
      .markAcked ["event-y"], .appendOnce eventX]
    ∃ memory, ((machine spool).after fresh ops).memory = some memory ∧ eventX ∈ memory.pending ∧
      eventX.eventId ∈ ((machine spool).observe Ledger.record fresh .empty ops).acked := by
  obtain ⟨hx, hy, hxd, hyd⟩ := sample_sizes
  intro spool
  have hroom : spool.maxBytes = 64 * 1024 * 1024 := rfl
  have hxid : eventX.eventId = "event-x" := rfl
  have hyid : eventY.eventId = "event-y" := rfl
  exact forgotten_event_returns (x := eventX) (y := eventY) (rfl : spool.seenEventLimit = 1) (by decide)
    (by omega) (by rw [hxid]; omega) (by rw [hyid]; omega)

end TraderBot.Spool
