import TraderBot.Spool.Recovery

/-! # Appends that break off

An append that the operating system breaks off raises and leaves the memory as
it was, but the file keeps the bytes that reached it. The next append goes
behind them: glued to a torn record, its line is no JSON text, and a new process
refuses the whole log. `CleanWrite` says when that cannot happen: every write
starts a line, and a record that gets complete fits the budget with what the
file really holds. A run of such steps keeps a readable log under the memory
(`Backed`) that holds every event the spool said it took. -/
namespace TraderBot.Spool
open TraderBot.Lib TraderBot.Lib.Json

section Conditions
variable (spool : JsonExecutionSpool)

/-- The next byte of the file starts a line. -/
def AtLineStart (file : File) : Prop := file.getD [] = [] ∨ (file.getD []).getLast? = some '\n'

instance (file : File) : Decidable (AtLineStart file) := inferInstanceAs (Decidable (_ ∨ _))

/-- The record fits the budget behind what the file holds. -/
def FitsFile (file : File) (e : ExecutionEventEnvelopeV1) : Prop :=
  (file.getD []).length + recordSize e ≤ spool.maxBytes

/-- A step that writes behind the file's end starts a line there, and a record
that gets complete fits. -/
def CleanWrite (p : Process) : FaultyOp → Prop
  | .op (.appendOnce e) => ∀ memory, p.memory = some memory → Writes spool memory e →
      AtLineStart p.file ∧ FitsFile spool p.file e
  | .op (.markAcked _) => True
  | .op (.restart torn) => ∀ t, torn = some t → 0 < t.written → AtLineStart p.file
  | .brokenAppend e written => ∀ memory, p.memory = some memory → Writes spool memory e →
      0 < written → AtLineStart p.file ∧ (recordSize e ≤ written → FitsFile spool p.file e)

end Conditions

/-- An append that raised is no event taken. -/
def Ledger.recordFaulty (ledger : Ledger) : FaultyOp → Answer → Ledger
  | .op op, answer => ledger.record op answer
  | .brokenAppend _ _, _ => ledger

/-! ## What a run keeps -/

/-- A running process over a readable log with a torn tail, which holds every
event the account owes, by its id. -/
structure Backed (spool : JsonExecutionSpool) (p : Process) (ledger : Ledger) (memory : Memory)
    (log : Log spool.seenEventLimit) (torn : List Char) : Prop where
  running : p.memory = some memory
  tail : Torn torn
  file : p.file.getD [] = log.bytes ++ torn
  fits : log.bytes.length ≤ spool.maxBytes
  seen_nodup : memory.seenEventIds.Nodup
  pending_nodup : (ids memory.pending).Nodup
  acked : ∀ id ∈ log.acked, id ∈ memory.seenEventIds
  known : ∀ id ∈ ids memory.pending, id ∈ memory.seenEventIds
  stored : ∀ id ∈ ids memory.pending, id ∈ ids log.pending
  owed : ∀ e ∈ ledger.owed, e.eventId ∈ ids memory.pending

section Steps
variable {spool : JsonExecutionSpool} {p : Process} {ledger : Ledger} {memory : Memory}
  {log : Log spool.seenEventLimit} {torn : List Char}

theorem backed_fresh : Backed spool fresh .empty Memory.empty Log.empty [] where
  running := rfl
  tail := torn_nil
  file := rfl
  fits := Nat.zero_le _
  seen_nodup := List.nodup_nil
  pending_nodup := List.nodup_nil
  acked := nofun
  known := nofun
  stored := nofun
  owed := nofun

/-- At a line start nothing is torn. -/
theorem Backed.torn_nil (h : Backed spool p ledger memory log torn) (hstart : AtLineStart p.file) :
    torn = [] := by
  by_contra hne
  rw [AtLineStart, h.file] at hstart
  rcases hstart with hempty | hlast
  · exact hne (List.append_eq_nil_iff.mp hempty).2
  · have htorn : torn.getLast? = some '\n' := by
      rw [List.getLast?_append] at hlast
      cases hlast' : torn.getLast? with
      | none => exact absurd (List.getLast?_eq_none_iff.mp hlast') hne
      | some c => simpa [hlast'] using hlast
    exact h.tail.printable.getLast_ne htorn

variable {id : String} {e : ExecutionEventEnvelopeV1} {written : Nat}

/-- A log that takes one more event keeps what it held. -/
theorem mem_ids_add (e : ExecutionEventEnvelopeV1) (h : id ∈ ids log.pending) :
    id ∈ ids (log.add e).pending := by
  rw [Log.pending_add, Log.absorb]
  split_ifs
  · exact h
  · simp only [ids, List.map_append, List.mem_append]
    exact .inl h

theorem mem_ids_add_self (h : e.eventId ∉ log.acked) : e.eventId ∈ ids (log.add e).pending := by
  rw [Log.pending_add, Log.absorb]
  split_ifs with he
  · exact (List.mem_append.mp he).resolve_left h
  · simp [ids]

theorem mem_ids_withEvent :
    id ∈ ids (memory.withEvent e).pending ↔ id ∈ ids memory.pending ∨ id = e.eventId := by
  rw [Memory.withEvent, mem_ids_sortEvents]
  simp [ids]

/-- A record that got complete: the log has it, the memory may or may not. -/
theorem Backed.grow (h : Backed spool p ledger memory log []) (hfits : FitsFile spool p.file e) :
    Backed spool ⟨some memory, some (p.file.getD [] ++ encodeRecord (appendRecord e))⟩ ledger memory
      (log.add e) [] where
  running := rfl
  tail := Spool.torn_nil
  file := by rw [Log.bytes_add, Option.getD_some, h.file, List.append_nil, List.append_nil]
  fits := by
    have hfile := h.file
    rw [List.append_nil] at hfile
    rw [FitsFile, hfile] at hfits
    rw [Log.bytes_add, List.length_append]
    exact hfits
  seen_nodup := h.seen_nodup
  pending_nodup := h.pending_nodup
  acked := h.acked
  known := h.known
  stored id hid := mem_ids_add e (h.stored id hid)
  owed := h.owed

theorem Backed.append (h : Backed spool p ledger memory log torn)
    (hclean : CleanWrite spool p (.op (.appendOnce e))) :
    ∃ memory' log' torn', Backed spool (step spool p (.appendOnce e)).2
      (ledger.record (.appendOnce e) (step spool p (.appendOnce e)).1) memory' log' torn' := by
  by_cases hw : Writes spool memory e
  · obtain ⟨hstart, hfits⟩ := hclean memory h.running hw
    obtain rfl := h.torn_nil hstart
    have hgrow := h.grow hfits
    rw [step_append spool h.running hw]
    refine ⟨memory.withEvent e, log.add e, [], rfl, Spool.torn_nil, hgrow.file, hgrow.fits, ?_, ?_, ?_,
      ?_, ?_, ?_⟩
    · rw [Memory.withEvent, addKey, if_neg hw.1]
      exact List.nodup_append.mpr ⟨h.seen_nodup, List.nodup_singleton _, fun a ha b hb hab =>
        hw.1 (List.mem_singleton.mp hb ▸ hab ▸ ha)⟩
    · have hperm := ids_perm (sortEvents_perm (memory.pending ++ [e]))
      refine hperm.nodup_iff.mpr ?_
      have hids : ids (memory.pending ++ [e]) = ids memory.pending ++ [e.eventId] := by simp [ids]
      rw [hids]
      exact List.nodup_append.mpr ⟨h.pending_nodup, List.nodup_singleton _, fun a ha b hb hab =>
        hw.1 (List.mem_singleton.mp hb ▸ hab ▸ h.known a ha)⟩
    · intro id hid
      rw [Memory.withEvent, addKey, if_neg hw.1]
      exact List.mem_append_left _ (h.acked id hid)
    · intro id hid
      rw [Memory.withEvent, addKey, if_neg hw.1]
      rcases mem_ids_withEvent.mp hid with hid | rfl
      · exact List.mem_append_left _ (h.known id hid)
      · exact List.mem_append_right _ (List.mem_singleton_self _)
    · intro id hid
      rcases mem_ids_withEvent.mp hid with hid | rfl
      · exact mem_ids_add e (h.stored id hid)
      · exact mem_ids_add_self fun hacked => hw.1 (h.acked _ hacked)
    · intro x hx
      rcases List.mem_append.mp hx with hx | hx
      · exact mem_ids_withEvent.mpr (.inl (h.owed x hx))
      · exact mem_ids_withEvent.mpr (.inr (by rw [List.mem_singleton.mp hx]))
  · obtain ⟨answer, hanswer, hrefused⟩ := runAppend_refused spool h.running none hw
    rw [step, hrefused, ledger.record_refused e hanswer]
    exact ⟨memory, log, torn, h⟩

/-- Bytes that complete no record only lengthen the torn tail. -/
theorem Backed.tear (h : Backed spool p ledger memory log []) (hshort : written < recordSize e) :
    Backed spool
      ⟨some memory, some (p.file.getD [] ++ (encodeRecord (appendRecord e)).take written)⟩ ledger
      memory log ((encodeRecord (appendRecord e)).take written) :=
  { h with
    running := rfl
    tail := torn_take hshort
    file := by rw [Option.getD_some, h.file, List.append_nil] }

theorem Backed.breaks (h : Backed spool p ledger memory log torn)
    (hclean : CleanWrite spool p (.brokenAppend e written)) :
    ∃ log' torn', Backed spool (runAppend spool (some written) p e).2 ledger memory log' torn' := by
  by_cases hw : Writes spool memory e
  · have hstep : runAppend spool (some written) p e = (.failed .osError,
        ⟨some memory, some (p.file.getD [] ++ (encodeRecord (appendRecord e)).take written)⟩) := by
      rw [runAppend, h.running]
      simp only [appendOnce_breaks spool p.file written hw]
    rw [hstep]
    by_cases hzero : written = 0
    · -- nothing reached the file
      exact ⟨log, torn, { h with
        running := rfl
        file := by rw [hzero, List.take_zero, List.append_nil, Option.getD_some, h.file] }⟩
    · obtain ⟨hstart, hfits⟩ := hclean memory h.running hw (Nat.pos_of_ne_zero hzero)
      obtain rfl := h.torn_nil hstart
      by_cases hshort : written < recordSize e
      · exact ⟨log, _, h.tear hshort⟩
      · -- the whole record reached the file, line break included
        have hwhole : (encodeRecord (appendRecord e)).take written = encodeRecord (appendRecord e) :=
          List.take_of_length_le (Nat.not_lt.mp hshort)
        rw [hwhole]
        exact ⟨log.add e, [], h.grow (hfits (Nat.not_lt.mp hshort))⟩
  · obtain ⟨answer, -, hrefused⟩ := runAppend_refused spool h.running (some written) hw
    rw [hrefused]
    exact ⟨log, torn, h⟩

theorem mem_ids_remaining {eventIds : List String} :
    id ∈ ids (remaining memory eventIds) ↔ id ∈ ids memory.pending ∧ id ∉ eventIds := by
  simp only [ids, remaining, List.mem_map, List.mem_filter, decide_eq_true_eq]
  constructor
  · rintro ⟨e, ⟨he, hid⟩, rfl⟩
    exact ⟨⟨e, he, rfl⟩, hid⟩
  · rintro ⟨⟨e, he, rfl⟩, hid⟩
    exact ⟨e, ⟨he, hid⟩, rfl⟩

theorem Backed.ack (h : Backed spool p ledger memory log torn) (eventIds : List String) :
    ∃ memory' log' torn', Backed spool (step spool p (.markAcked eventIds)).2
      (ledger.record (.markAcked eventIds) (step spool p (.markAcked eventIds)).1) memory' log'
        torn' := by
  by_cases hne : eventIds = []
  · subst hne
    rw [step_ack_nil spool h.running]
    change ∃ memory' log' torn', Backed spool p (ledger.ack []) memory' log' torn'
    rw [ledger.ack_nil]
    exact ⟨memory, log, torn, h⟩
  by_cases hfits : (snapshotBytes spool memory eventIds).length ≤ spool.maxBytes
  · have hrest := remaining_nodup eventIds h.pending_nodup
    have hbytes := snapshotBytes_eq spool h.seen_nodup hrest
    have hseen := compactSeenEventIds_eq spool h.seen_nodup hrest
    rw [step_ack spool h.running hne hfits]
    refine ⟨memory.withAcks spool eventIds,
      ⟨some (snapshotOf spool memory eventIds h.seen_nodup hrest), []⟩, [], rfl, Spool.torn_nil, ?_,
      hbytes ▸ hfits, ?_, hrest, ?_, ?_, fun id hid => hid, ?_⟩
    · rw [Option.getD_some, hbytes, List.append_nil]
    · rw [Memory.withAcks, hseen]
      exact retained_nodup spool h.seen_nodup hrest
    · intro id hid
      rw [Memory.withAcks, hseen]
      exact List.mem_append_left _ hid
    · intro id hid
      rw [Memory.withAcks, hseen]
      exact List.mem_append_right _ hid
    · intro e he
      obtain ⟨howed, hid⟩ := List.mem_filter.mp he
      exact mem_ids_remaining.mpr ⟨h.owed e howed, by simpa using hid⟩
  · obtain ⟨message, hmessage⟩ := step_ack_overflows spool h.running hne hfits
    rw [hmessage]
    exact ⟨memory, log, torn, h⟩

/-- **A new process on the file holds every event the account owes.** -/
theorem Backed.reload (h : Backed spool p ledger memory log torn) {file : File} {tail : List Char}
    (htail : Torn tail) (hfile : file.getD [] = log.bytes ++ tail) :
    ∃ recovered file', load spool file = (.ok recovered, file') ∧
      Backed spool ⟨some recovered, file'⟩ ledger recovered log [] := by
  obtain ⟨n, file', hload, hfile'⟩ := load_log spool log htail hfile h.fits
  refine ⟨_, file', hload, rfl, Spool.torn_nil, by rw [hfile', List.append_nil], h.fits,
    log.seen_nodup, ?_, ?_, ?_, ?_, ?_⟩
  · exact (ids_perm (sortEvents_perm _)).nodup_iff.mpr log.pending_nodup
  · exact fun id hid => List.mem_append_left _ hid
  · exact fun id hid => List.mem_append_right _ (mem_ids_sortEvents.mp hid)
  · exact fun id hid => mem_ids_sortEvents.mp hid
  · exact fun e he => mem_ids_sortEvents.mpr (h.stored _ (h.owed e he))

theorem Backed.restart (h : Backed spool p ledger memory log torn) {t : Option TornWrite}
    (hclean : CleanWrite spool p (.op (.restart t))) :
    ∃ memory' log' torn', Backed spool (step spool p (.restart t)).2
      (ledger.record (.restart t) (step spool p (.restart t)).1) memory' log' torn' := by
  obtain ⟨tail, htail, hfile⟩ : ∃ tail, Torn tail ∧
      (tornFile p.file t).getD [] = log.bytes ++ tail := by
    cases t with
    | none => exact ⟨torn, h.tail, h.file⟩
    | some t =>
      by_cases hzero : t.written = 0
      · exact ⟨torn, h.tail, by
          rw [tornFile, hzero, List.take_zero, List.append_nil, Option.getD_some, h.file]⟩
      · obtain rfl := h.torn_nil (hclean t rfl (Nat.pos_of_ne_zero hzero))
        exact ⟨_, torn_take t.proper, by rw [tornFile, Option.getD_some, h.file, List.append_nil]⟩
  obtain ⟨recovered, file', hload, hbacked⟩ := h.reload htail hfile
  rw [step_restart spool hload]
  exact ⟨recovered, log, [], hbacked⟩

/-! ## Whole runs -/

theorem backed_of_run {ops : List FaultyOp}
    (hops : (faultyMachine spool).Meets (CleanWrite spool) fresh ops) :
    ∃ memory log torn, Backed spool ((faultyMachine spool).after fresh ops)
      ((faultyMachine spool).observe Ledger.recordFaulty fresh .empty ops) memory log torn := by
  refine Machine.observe_of_meets (m := faultyMachine spool)
    (R := fun p ledger => ∃ memory log torn, Backed spool p ledger memory log torn) ?_
    ⟨_, _, _, backed_fresh⟩ hops
  intro p ledger op h hclean
  obtain ⟨memory, log, torn, h⟩ := h
  cases op with
  | op op =>
    cases op with
    | appendOnce e => exact h.append hclean
    | markAcked eventIds => exact h.ack eventIds
    | restart t => exact h.restart hclean
  | brokenAppend e written =>
    obtain ⟨log', torn', h'⟩ := h.breaks hclean
    exact ⟨memory, log', torn', h'⟩

end Steps

/-- **Broken appends that no write is glued to leave the spool recoverable.** In
a run whose writes are all clean, a new process on the file comes up and holds,
by its id, every event `append_once` said it took and no acknowledgement has
returned for since. -/
theorem recoverable_of_cleanWrites (spool : JsonExecutionSpool) (ops : List FaultyOp)
    (hops : (faultyMachine spool).Meets (CleanWrite spool) fresh ops) :
    ∃ recovered file',
      load spool ((faultyMachine spool).after fresh ops).file = (.ok recovered, file') ∧
      ∀ e ∈ ((faultyMachine spool).observe Ledger.recordFaulty fresh .empty ops).owed,
        e.eventId ∈ ids recovered.pending := by
  obtain ⟨memory, log, torn, h⟩ := backed_of_run hops
  obtain ⟨recovered, file', hload, hbacked⟩ := h.reload h.tail h.file
  exact ⟨recovered, file', hload, hbacked.owed⟩

/-! ## One byte of a record -/

section OneByte
variable {spool : JsonExecutionSpool} {x : ExecutionEventEnvelopeV1}

theorem faultyStep_oneByte (h : recordSize x ≤ spool.maxBytes) :
    faultyStep spool fresh (.brokenAppend x 1) =
      (.failed .osError, ⟨some Memory.empty, some ['{']⟩) := by
  have hone : (encodeRecord (appendRecord x)).take 1 = ['{'] := by
    rw [encodeRecord, line, appendRecord_eq, render]
    rfl
  simp only [faultyStep, runAppend, fresh, appendOnce_breaks spool none 1 (writes_fresh h), hone]
  rfl

theorem one_lt_recordSize : 1 < recordSize x := by
  have := render_length_pos (appendRecord x)
  simp only [recordSize, encodeRecord, line, List.length_append, List.length_singleton]
  omega

/-- An acknowledgement puts an empty snapshot in the place of the torn file. -/
theorem faultyStep_mend (id : String) (file : File)
    (h : (encodeRecord (snapshotRecord [] [])).length ≤ spool.maxBytes) :
    faultyStep spool ⟨some Memory.empty, file⟩ (.op (.markAcked [id])) =
      (.done, ⟨some ⟨[], [], (encodeRecord (snapshotRecord [] [])).length, 0⟩,
        some (encodeRecord (snapshotRecord [] []))⟩) := by
  have hrest : remaining Memory.empty [id] = [] := rfl
  have hseen : compactSeenEventIds spool [] Memory.empty.seenEventIds = [] := by
    simp [compactSeenEventIds, Memory.empty, ids]
  have hbytes : snapshotBytes spool Memory.empty [id] = encodeRecord (snapshotRecord [] []) := by
    rw [snapshotBytes, hrest, hseen]
  have hne : [id] ≠ [] := List.cons_ne_nil _ _
  have hstep := step_ack spool (p := ⟨some Memory.empty, file⟩) rfl hne (hbytes ▸ h)
  rw [faultyStep, hstep, Memory.withAcks, hbytes, hrest, hseen]
  rfl

end OneByte

/-- An acknowledgement between a broken append and the next one replaces the
torn file, so the event taken then is read back. -/
theorem recoverable_after_ack :
    let spool := sampleSpool (64 * 1024 * 1024) 4096 (by decide) (by decide)
    let ops : List FaultyOp := [.brokenAppend eventX 1, .op (.markAcked ["event-x"]),
      .op (.appendOnce eventY)]
    (faultyMachine spool).Meets (CleanWrite spool) fresh ops ∧
      ∃ recovered file', load spool ((faultyMachine spool).after fresh ops).file =
          (.ok recovered, file') ∧
        ∀ e ∈ ((faultyMachine spool).observe Ledger.recordFaulty fresh .empty ops).owed,
          e.eventId ∈ ids recovered.pending := by
  intro spool ops
  have hroom : spool.maxBytes = 64 * 1024 * 1024 := rfl
  obtain ⟨hx, hy, -⟩ := sample_sizes
  have hsnapshot : (encodeRecord (snapshotRecord [] [])).length ≤ 100 := by decide +kernel
  have hops : (faultyMachine spool).Meets (CleanWrite spool) fresh ops := by
    refine ⟨?_, trivial, ?_, trivial⟩
    · intro memory _ _ _
      exact ⟨.inl rfl, fun hwhole => absurd (one_lt_recordSize (x := eventX)) (by omega)⟩
    · have hnext : ∀ p op, (faultyMachine spool).next p op = (faultyStep spool p op).2 :=
        fun _ _ => rfl
      rw [hnext, hnext, faultyStep_oneByte (by omega), faultyStep_mend _ _ (by omega)]
      intro memory _ _
      refine ⟨.inr (by simp [encodeRecord, line]), ?_⟩
      rw [FitsFile, Option.getD_some]
      omega
  exact ⟨hops, recoverable_of_cleanWrites spool ops hops⟩


/-! ## A write glued to a torn record -/

theorem loads_two_braces (t : List Char) : loads ('{' :: '{' :: t) = none := by
  simp [loads, skipBlanks, isBlank, parseValue, parseMembers]

theorem load_glued (spool : JsonExecutionSpool) (e : ExecutionEventEnvelopeV1) :
    load spool (some ('{' :: encodeRecord (appendRecord e))) =
      (.error (.spoolCorruptionError "execution spool WAL record 1 is corrupt"),
        some ('{' :: encodeRecord (appendRecord e))) := by
  obtain ⟨t, ht⟩ : ∃ t, render (appendRecord e) = '{' :: t := ⟨_, by rw [appendRecord_eq, render]; rfl⟩
  have hprintable : Printable ('{' :: '{' :: t) :=
    printable_cons.mpr ⟨by decide, ht ▸ printable_render (appendRecord e)⟩
  have hfile : '{' :: encodeRecord (appendRecord e) = ('{' :: '{' :: t) ++ '\n' :: [] := by
    rw [encodeRecord, line, ht]
    rfl
  have hdecode : decodeRecords ('{' :: encodeRecord (appendRecord e)) =
      .error (.spoolCorruptionError "execution spool WAL record 1 is corrupt") := by
    have hsplit := splitLines_line hprintable []
    have hwhole : loads (('{' :: '{' :: t) ++ '\n' :: []) = none := loads_two_braces _
    rw [hfile]
    simp only [decodeRecords, hwhole, hsplit]
    simp only [decodeWalRecords, List.getLast?_append, List.getLast?_singleton, Option.some_or,
      ne_eq, not_true_eq_false, if_false, List.dropLast_concat, loads_two_braces]
    rfl
  simp only [load, Option.getD_some, hdecode]
  rfl

/-- One byte of a broken append makes the next event that is taken unreadable,
and the file with it. -/
theorem glued_append_unreadable {spool : JsonExecutionSpool} {x y : ExecutionEventEnvelopeV1}
    (hx : recordSize x ≤ spool.maxBytes) (hy : recordSize y ≤ spool.maxBytes) :
    ((faultyMachine spool).observe Ledger.recordFaulty fresh .empty
        [.brokenAppend x 1, .op (.appendOnce y)]).owed = [y] ∧
      (load spool ((faultyMachine spool).after fresh
        [.brokenAppend x 1, .op (.appendOnce y)]).file).1 =
        .error (.spoolCorruptionError "execution spool WAL record 1 is corrupt") := by
  have hwy : Writes spool Memory.empty y := writes_fresh hy
  have h1 := faultyStep_oneByte hx
  have h2 : faultyStep spool ⟨some Memory.empty, some ['{']⟩ (.op (.appendOnce y)) =
      (.appended true, ⟨some (Memory.empty.withEvent y),
        some ('{' :: encodeRecord (appendRecord y))⟩) := by
    exact step_append spool (p := ⟨some Memory.empty, some ['{']⟩) rfl hwy
  have hnext : ∀ p op, (faultyMachine spool).next p op = (faultyStep spool p op).2 := fun _ _ => rfl
  have hanswer : ∀ p op, (faultyMachine spool).answer p op = (faultyStep spool p op).1 :=
    fun _ _ => rfl
  constructor
  · simp only [Machine.observe, hnext, hanswer, h1, h2]
    rfl
  · simp only [Machine.after_cons, Machine.after_nil, hnext, h1, h2, load_glued]

/-- A spool with the default budget and memory: the event it took is not read
back, the log is corrupt. -/
theorem not_recoverable_glued :
    let spool := sampleSpool (64 * 1024 * 1024) 4096 (by decide) (by decide)
    let ops : List FaultyOp := [.brokenAppend eventX 1, .op (.appendOnce eventY)]
    ((faultyMachine spool).observe Ledger.recordFaulty fresh .empty ops).owed = [eventY] ∧
      (load spool ((faultyMachine spool).after fresh ops).file).1 =
        .error (.spoolCorruptionError "execution spool WAL record 1 is corrupt") := by
  obtain ⟨hx, hy, -⟩ := sample_sizes
  intro spool
  have hroom : spool.maxBytes = 64 * 1024 * 1024 := rfl
  exact glued_append_unreadable (by omega) (by omega)

end TraderBot.Spool
