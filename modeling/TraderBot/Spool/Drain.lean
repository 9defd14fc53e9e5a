import TraderBot.Spool.Recovery

/-! # Draining a full spool

An append adds a line with the event; an acknowledgement writes a snapshot, in
which every event left costs its text and its id once more. So a snapshot of
fewer events can be longer than the log it replaces. `snapshotSize` gives its
length from the sizes of the events and ids it holds; an acknowledgement goes
through exactly when that is within the budget. -/
namespace TraderBot.Spool
open TraderBot.Lib TraderBot.Lib.Json

/-! ## Sizes -/

/-- The bytes of an envelope's JSON text. -/
def payloadSize (e : ExecutionEventEnvelopeV1) : Nat := (render (envelopeToPayload e)).length

/-- The bytes of an id in quotes. -/
def quotedSize (id : String) : Nat := (renderString id).length

/-- The bytes of a snapshot: 74 around the two lists, each event with its id
behind it, the acknowledged ids, and the commas between. -/
def snapshotSize (pending : List ExecutionEventEnvelopeV1) (acked : List String) : Nat :=
  74 + (pending.map fun e => payloadSize e + quotedSize e.eventId).sum +
    (acked.map quotedSize).sum + (pending.length - 1) + (acked.length + pending.length - 1)

theorem renderItems_length (xs : List Value) :
    (renderItems xs).length = (xs.map fun x => (render x).length).sum + (xs.length - 1) := by
  induction xs with
  | nil => rfl
  | cons x xs ih =>
    cases xs with
    | nil => simp [renderItems]
    | cons y xs =>
      rw [renderItems, List.length_append, List.length_cons, ih]
      simp only [List.map_cons, List.sum_cons, List.length_cons]
      omega

theorem recordSize_eq (e : ExecutionEventEnvelopeV1) : recordSize e = payloadSize e + 25 := by
  have hevent : (renderString "event").length = 7 := by decide
  have hop : (renderString "op").length = 4 := by decide
  have happend : (renderString "append").length = 8 := by decide
  simp only [recordSize, encodeRecord, line, appendRecord, render, renderMembers, List.length_append,
    List.length_cons, List.length_nil, hevent, hop, happend, payloadSize]
  omega

theorem snapshotRecord_length (pending : List ExecutionEventEnvelopeV1) (acked : List String) :
    (encodeRecord (snapshotRecord pending (acked ++ ids pending))).length =
      snapshotSize pending acked := by
  have hop : (renderString "op").length = 4 := by decide
  have hsnapshot : (renderString "snapshot").length = 10 := by decide
  have hpending : (renderString "pending").length = 9 := by decide
  have hschema : (renderString "schema_version").length = 16 := by decide
  have hversion : (renderString "2.0").length = 5 := by decide
  have hseen : (renderString "seen_event_ids").length = 16 := by decide
  have hevents : ((pending.map envelopeToPayload).map fun x => (render x).length).sum +
      ((ids pending).map quotedSize).sum =
        (pending.map fun e => payloadSize e + quotedSize e.eventId).sum := by
    rw [List.sum_map_add, ids, List.map_map, List.map_map]
    rfl
  have hids : ((acked ++ ids pending).map Value.str |>.map fun x => (render x).length).sum =
      (acked.map quotedSize).sum + ((ids pending).map quotedSize).sum := by
    rw [List.map_map, List.map_append, List.sum_append]
    rfl
  have hlength : (ids pending).length = pending.length := List.length_map _
  simp only [encodeRecord, line, snapshotRecord, render, renderMembers, renderItems_length,
    List.length_append, List.length_cons, List.length_nil, List.length_map, hop, hsnapshot, hpending,
    hschema, hversion, hseen, hids, hlength, snapshotSize, ← hevents]
  omega

/-! ## When an acknowledgement goes through -/

section Runs
variable {spool : JsonExecutionSpool}

theorem snapshotBytes_length {memory : Memory} {eventIds : List String}
    (hseen : memory.seenEventIds.Nodup) (hpending : (ids memory.pending).Nodup) :
    (snapshotBytes spool memory eventIds).length =
      snapshotSize (remaining memory eventIds)
        (retainedAckedIds spool (remaining memory eventIds) memory.seenEventIds) := by
  rw [snapshotBytes, compactSeenEventIds_eq spool hseen (remaining_nodup eventIds hpending),
    snapshotRecord_length]

/-- **Draining.** In every state a run reaches, acknowledging some ids
raises no `SpoolCapacityError` exactly when the events that stay, their ids and
the acknowledged ids that are kept fit into the budget as a snapshot. -/
theorem drains_iff (spool : JsonExecutionSpool) (ops : List Op) (memory : Memory)
    (eventIds : List String)
    (hrun : ((machine spool).after fresh ops).memory = some memory) (hne : eventIds ≠ []) :
    (∀ message, (machine spool).answer ((machine spool).after fresh ops) (.markAcked eventIds) ≠
        .failed (.spoolCapacityError message)) ↔
      snapshotSize (remaining memory eventIds)
        (retainedAckedIds spool (remaining memory eventIds) memory.seenEventIds) ≤
          spool.maxBytes := by
  obtain ⟨memory', log, h⟩ := accounted_of_run spool ops
  obtain rfl : memory' = memory := Option.some.inj (h.running.symm.trans hrun)
  rw [← snapshotBytes_length h.holds.seen_nodup h.holds.pending_nodup]
  constructor
  · intro hok
    by_contra hfits
    obtain ⟨message, hmessage⟩ := step_ack_overflows spool hrun hne hfits
    exact hok message (congrArg Prod.fst hmessage)
  · intro hfits message
    have hanswer : (machine spool).answer ((machine spool).after fresh ops) (.markAcked eventIds) =
        .done := congrArg Prod.fst (step_ack spool hrun hne hfits)
    rw [hanswer]
    exact nofun

/-- A spool with the default budget gives up its one pending event. -/
theorem drains_single :
    let spool := sampleSpool (64 * 1024 * 1024) 4096 (by decide) (by decide)
    let memory := Memory.empty.withEvent eventX
    ((machine spool).after fresh [.appendOnce eventX]).memory = some memory ∧
      ((∀ message, (machine spool).answer ((machine spool).after fresh [.appendOnce eventX])
          (.markAcked ["event-x"]) ≠ .failed (.spoolCapacityError message)) ↔
        snapshotSize (remaining memory ["event-x"])
          (retainedAckedIds spool (remaining memory ["event-x"]) memory.seenEventIds) ≤
            spool.maxBytes) := by
  intro spool memory
  have hroom : spool.maxBytes = 64 * 1024 * 1024 := rfl
  have hx := sample_sizes.1
  have hrun : ((machine spool).after fresh [.appendOnce eventX]).memory = some memory := by
    rw [next_append_fresh (by omega)]
  exact ⟨hrun, drains_iff spool [.appendOnce eventX] memory ["event-x"] hrun
    (List.cons_ne_nil _ _)⟩

/-! ## A full spool -/

variable {xs ys events : List ExecutionEventEnvelopeV1}

theorem snapshotSize_perm (h : xs.Perm ys) (acked : List String) :
    snapshotSize xs acked = snapshotSize ys acked := by
  rw [snapshotSize, snapshotSize, (h.map _).sum_eq, h.length_eq]

theorem retainedAckedIds_perm (h : xs.Perm ys) (seen : List String) :
    retainedAckedIds spool xs seen = retainedAckedIds spool ys seen := by
  have hmem : ∀ id, id ∈ ids xs ↔ id ∈ ids ys := fun id => (ids_perm h).mem_iff
  simp only [retainedAckedIds, hmem]

theorem recordSize_sum (events : List ExecutionEventEnvelopeV1) :
    (events.map recordSize).sum = (events.map payloadSize).sum + 25 * events.length := by
  induction events with
  | nil => rfl
  | cons e events ih =>
    simp only [List.map_cons, List.sum_cons, List.length_cons, ih, recordSize_eq]
    omega

/-- New events that fit are all taken. -/
theorem after_appends {p : Process} (memory : Memory) (hrun : p.memory = some memory)
    (events : List ExecutionEventEnvelopeV1)
    (hnew : (memory.seenEventIds ++ ids events).Nodup)
    (hfits : memory.sizeBytes + (events.map recordSize).sum ≤ spool.maxBytes) :
    ∃ memory', ((machine spool).after p (events.map Op.appendOnce)).memory = some memory' ∧
      memory'.pending.Perm (memory.pending ++ events) ∧
      memory'.seenEventIds = memory.seenEventIds ++ ids events := by
  induction events generalizing p memory with
  | nil => exact ⟨memory, hrun, by simp, by simp [ids]⟩
  | cons e events ih =>
    have hids : ids (e :: events) = e.eventId :: ids events := rfl
    rw [List.map_cons, List.sum_cons] at hfits
    rw [hids] at hnew
    have hseen : e.eventId ∉ memory.seenEventIds := fun hmem =>
      (List.nodup_append.mp hnew).2.2 _ hmem _ List.mem_cons_self rfl
    have hw : Writes spool memory e := ⟨hseen, by omega⟩
    have hkeys : (memory.withEvent e).seenEventIds = memory.seenEventIds ++ [e.eventId] := if_neg hseen
    have hnext : (machine spool).next p (.appendOnce e) =
        ⟨some (memory.withEvent e), some (p.file.getD [] ++ encodeRecord (appendRecord e))⟩ :=
      congrArg Prod.snd (step_append spool hrun hw)
    have hsize : (memory.withEvent e).sizeBytes = memory.sizeBytes + recordSize e := rfl
    obtain ⟨memory', hmemory, hpending, hseen'⟩ := ih (p := (machine spool).next p (.appendOnce e))
      (memory.withEvent e) (by rw [hnext])
      (by rw [hkeys, List.append_assoc]; exact hnew) (by omega)
    refine ⟨memory', hmemory, ?_, ?_⟩
    · have hperm : (memory.withEvent e).pending.Perm (memory.pending ++ [e]) := sortEvents_perm _
      refine hpending.trans ((hperm.append_right events).trans ?_)
      rw [List.append_assoc]
      rfl
    · rw [hseen', hkeys, List.append_assoc]
      rfl

theorem after_appends_fresh (spool : JsonExecutionSpool) (hnew : (ids events).Nodup)
    (hfull : spool.maxBytes = (events.map recordSize).sum) :
    ∃ memory, ((machine spool).after fresh (events.map Op.appendOnce)).memory = some memory ∧
      memory.pending.Perm events ∧ memory.seenEventIds = ids events :=
  after_appends Memory.empty rfl events hnew (by rw [hfull]; simp [Memory.empty])

/-- A spool that is full to the byte refuses the acknowledgement of its first
event when the ids cost more than that event and the lines of the log. -/
theorem full_spool_refuses {x : ExecutionEventEnvelopeV1} {rest : List ExecutionEventEnvelopeV1}
    (hevents : events = x :: rest) (hnew : (ids events).Nodup)
    (hfull : spool.maxBytes = (events.map recordSize).sum)
    (hgrow : payloadSize x + 25 * (rest.length + 1) <
      74 + ((ids events).map quotedSize).sum + (rest.length - 1) + rest.length) :
    ∃ message, (machine spool).answer
        ((machine spool).after fresh (events.map Op.appendOnce)) (.markAcked [x.eventId]) =
      .failed (.spoolCapacityError message) := by
  subst hevents
  obtain ⟨memory, hrun, hpending, hseen⟩ := after_appends_fresh spool hnew hfull
  have hx : x.eventId ∉ ids rest := (List.nodup_cons.mp hnew).1
  have hrest : (remaining memory [x.eventId]).Perm rest := by
    have hperm := hpending.filter fun event => event.eventId ∉ [x.eventId]
    refine hperm.trans ?_
    rw [List.filter_cons_of_neg (by simp), List.filter_eq_self.mpr]
    intro e he
    have : e.eventId ≠ x.eventId := fun h => hx (h ▸ List.mem_map_of_mem he)
    simpa using this
  have hkept : retainedAckedIds spool (remaining memory [x.eventId]) memory.seenEventIds =
      [x.eventId] := by
    have hlimit : [x.eventId].length ≤ spool.seenEventLimit := spool.seenEventLimit_pos
    rw [retainedAckedIds_perm hrest, hseen]
    exact retainedAckedIds_log spool [x.eventId] hnew hlimit
  have hlength : (snapshotBytes spool memory [x.eventId]).length = snapshotSize rest [x.eventId] := by
    have hseen_nodup : memory.seenEventIds.Nodup := by rw [hseen]; exact hnew
    have hpending_nodup : (ids memory.pending).Nodup := (ids_perm hpending).nodup_iff.mpr hnew
    rw [snapshotBytes_length hseen_nodup hpending_nodup, hkept, snapshotSize_perm hrest]
  have hover : ¬ (snapshotBytes spool memory [x.eventId]).length ≤ spool.maxBytes := by
    rw [hlength, hfull, recordSize_sum, snapshotSize, List.sum_map_add]
    have hquoted : (rest.map fun e => quotedSize e.eventId).sum = ((ids rest).map quotedSize).sum := by
      rw [ids, List.map_map]; rfl
    have hids : ids (x :: rest) = x.eventId :: ids rest := rfl
    rw [hids, List.map_cons, List.sum_cons] at hgrow
    rw [hquoted]
    simp only [List.map_cons, List.map_nil, List.sum_cons, List.sum_nil, List.length_cons,
      List.length_nil]
    omega
  obtain ⟨message, hmessage⟩ := step_ack_overflows spool hrun (List.cons_ne_nil _ _) hover
  exact ⟨message, congrArg Prod.fst hmessage⟩

end Runs

/-! ## Seven events with hashed ids -/

def hexId (c : Char) : String := String.ofList (List.replicate 63 '0' ++ [c])

theorem hexId_ne (c : Char) : hexId c ≠ "" := by
  intro h
  have := congrArg String.toList h
  simp [hexId] at this

theorem hexId_injective : Function.Injective hexId := by
  intro c d h
  have := congrArg String.toList h
  simpa [hexId] using this

def hexEvent (c : Char) : ExecutionEventEnvelopeV1 := sampleEvent (hexId c) (hexId_ne c)

theorem quotedSize_hexId {c : Char} (h : escapeChar c = [c]) : quotedSize (hexId c) = 66 := by
  have h0 : escapeChar '0' = ['0'] := by decide
  simp [quotedSize, renderString, hexId, h0, h]

def hexEvents : List ExecutionEventEnvelopeV1 :=
  hexEvent '0' :: ['1', '2', '3', '4', '5', '6'].map hexEvent

theorem hexEvents_cons :
    hexEvents = hexEvent '0' :: ['1', '2', '3', '4', '5', '6'].map hexEvent := rfl

theorem ids_hexEvents : ids hexEvents = ['0', '1', '2', '3', '4', '5', '6'].map hexId := rfl

theorem quotedSize_hexEvents : ((ids hexEvents).map quotedSize).sum = 462 := by
  rw [ids_hexEvents, List.map_map]
  have hplain : (['0', '1', '2', '3', '4', '5', '6'].all fun c => escapeChar c = [c]) = true := by
    decide
  have hquoted : ∀ c ∈ ['0', '1', '2', '3', '4', '5', '6'], (quotedSize ∘ hexId) c = 66 := by
    intro c hc
    exact quotedSize_hexId (by simpa using List.all_eq_true.mp hplain c hc)
  rw [List.map_congr_left hquoted]
  rfl

theorem hexEvents_pos : 0 < (hexEvents.map recordSize).sum := by
  have hpos : 0 < recordSize (hexEvent '0') := by rw [recordSize_eq]; omega
  rw [hexEvents_cons, List.map_cons, List.sum_cons]
  exact Nat.add_pos_left hpos _

/-- A spool whose budget seven pending events fill to the byte cannot
acknowledge the first of them. -/
theorem not_drains_full :
    let spool := sampleSpool (hexEvents.map recordSize).sum 4096 hexEvents_pos (by decide)
    ∃ memory, ((machine spool).after fresh (hexEvents.map Op.appendOnce)).memory = some memory ∧
      hexId '0' ∈ ids memory.pending ∧
      ∃ message, (machine spool).answer ((machine spool).after fresh (hexEvents.map Op.appendOnce))
        (.markAcked [hexId '0']) = .failed (.spoolCapacityError message) := by
  intro spool
  have hnodup : (ids hexEvents).Nodup := by
    rw [ids_hexEvents]
    exact List.Nodup.map hexId_injective (by decide)
  have hpayload : payloadSize (hexEvent '0') = 345 := by decide +kernel
  obtain ⟨memory, hrun, hpending, -⟩ := after_appends_fresh spool hnodup rfl
  refine ⟨memory, hrun, ?_, ?_⟩
  · exact (ids_perm hpending).mem_iff.mpr List.mem_cons_self
  · refine full_spool_refuses (x := hexEvent '0') hexEvents_cons hnodup rfl ?_
    rw [hpayload, quotedSize_hexEvents]
    decide

end TraderBot.Spool
