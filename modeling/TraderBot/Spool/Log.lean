import TraderBot.Spool.Codec

/-! # The log behind a spool file

A file is a log: at most one snapshot, then the events appended since. `Log` is
that log as data, with what a snapshot guarantees as fields; `Log.pending` and
`Log.seen` say what a reader makes of it. `load_log` connects the two: a new
process on the lines of a log, with or without a torn tail, holds exactly that. -/
namespace TraderBot.Spool
open TraderBot.Lib TraderBot.Lib.Dict TraderBot.Lib.Json

/-! ## Keys -/

theorem foldl_addKey_new {keys ks : List String} (h : (keys ++ ks).Nodup) :
    ks.foldl addKey keys = keys ++ ks := by
  induction ks generalizing keys with
  | nil => simp
  | cons k ks ih =>
    have hk : k ∉ keys := fun hmem => List.nodup_append.mp h |>.2.2 k hmem k List.mem_cons_self rfl
    rw [List.foldl_cons, addKey, if_neg hk, ih (by simpa using h)]
    simp

theorem foldl_addKey_old {keys ks : List String} (h : ∀ k ∈ ks, k ∈ keys) :
    ks.foldl addKey keys = keys := by
  induction ks with
  | nil => rfl
  | cons k ks ih =>
    rw [List.forall_mem_cons] at h
    rw [List.foldl_cons, addKey, if_pos h.1, ih h.2]

/-! ## Order -/

theorem sortEvents_perm (events : List ExecutionEventEnvelopeV1) :
    (sortEvents events).Perm events := List.perm_insertionSort _ _

variable {xs ys events : List ExecutionEventEnvelopeV1}

theorem ids_perm (h : xs.Perm ys) : (ids xs).Perm (ids ys) :=
  h.map _

@[simp] theorem mem_ids_sortEvents {id : String} :
    id ∈ ids (sortEvents events) ↔ id ∈ ids events := (ids_perm (sortEvents_perm events)).mem_iff

def Sorted (events : List ExecutionEventEnvelopeV1) : Prop :=
  events.Pairwise fun a b => eventOrderKey a ≤ eventOrderKey b

theorem sorted_sortEvents (events : List ExecutionEventEnvelopeV1) : Sorted (sortEvents events) := by
  have htotal : Std.Total fun a b : ExecutionEventEnvelopeV1 => eventOrderKey a ≤ eventOrderKey b :=
    ⟨fun a b => le_total _ _⟩
  have htrans : IsTrans _ fun a b : ExecutionEventEnvelopeV1 => eventOrderKey a ≤ eventOrderKey b :=
    ⟨fun a b c => le_trans⟩
  exact List.pairwise_insertionSort _ events

theorem Sorted.sortEvents_eq (h : Sorted events) :
    sortEvents events = events := List.Pairwise.insertionSort_eq h

theorem eventOrderKey_eventId {a b : ExecutionEventEnvelopeV1}
    (h : eventOrderKey a = eventOrderKey b) : a.eventId = b.eventId := by
  have h2 := congrArg (fun k => (ofLex (ofLex k).2).2) h
  exact h2

theorem eq_of_eventId (h : (ids events).Nodup) {a b : ExecutionEventEnvelopeV1} (ha : a ∈ events)
    (hb : b ∈ events) (hab : a.eventId = b.eventId) : a = b :=
  List.inj_on_of_nodup_map h ha hb hab

/-- Events of distinct ids have one order. -/
theorem sortEvents_eq_of_perm (h : xs.Perm ys) (hnodup : (ids ys).Nodup) :
    sortEvents xs = sortEvents ys := by
  have hx := (sortEvents_perm xs).trans h
  have hperm : (sortEvents xs).Perm (sortEvents ys) := hx.trans (sortEvents_perm ys).symm
  refine hperm.eq_of_pairwise ?_ (sorted_sortEvents xs) (sorted_sortEvents ys)
  intro a b ha hb hab hba
  have hkey : eventOrderKey a = eventOrderKey b := le_antisymm hab hba
  exact eq_of_eventId hnodup (hx.subset ha) ((sortEvents_perm ys).subset hb)
    (eventOrderKey_eventId hkey)

/-! ## Logs -/

/-- A snapshot: the acknowledged ids it remembers and the events pending at the
time, no id among them twice and no more ids than `limit`. -/
structure Snapshot (limit : Nat) where
  acked : List String
  pending : List ExecutionEventEnvelopeV1
  nodup : (acked ++ ids pending).Nodup
  bounded : acked.length ≤ limit

structure Log (limit : Nat) where
  snapshot : Option (Snapshot limit)
  appended : List ExecutionEventEnvelopeV1

namespace Log
variable {limit : Nat} (log : Log limit)

def empty : Log limit := ⟨none, []⟩

def acked : List String := (log.snapshot.map Snapshot.acked).getD []

def base : List ExecutionEventEnvelopeV1 := (log.snapshot.map Snapshot.pending).getD []

/-- An appended event counts unless its id is known. -/
def absorb (acked : List String) (pending : List ExecutionEventEnvelopeV1)
    (e : ExecutionEventEnvelopeV1) : List ExecutionEventEnvelopeV1 :=
  if e.eventId ∈ acked ++ ids pending then pending else pending ++ [e]

def pending : List ExecutionEventEnvelopeV1 := log.appended.foldl (absorb log.acked) log.base

def seen : List String := log.acked ++ ids log.pending

def add (e : ExecutionEventEnvelopeV1) : Log limit := { log with appended := log.appended ++ [e] }

def records : List (List (String × Value)) :=
  (log.snapshot.toList.map fun s => snapshotMembers s.pending (s.acked ++ ids s.pending)) ++
    log.appended.map appendMembers

/-- The bytes of the log. -/
def bytes : List Char := linesOf log.records

variable {log}

variable (e : ExecutionEventEnvelopeV1) {acked : List String}
  {pending : List ExecutionEventEnvelopeV1}

@[simp] theorem acked_add : (log.add e).acked = log.acked := rfl

theorem pending_add : (log.add e).pending = absorb log.acked log.pending e := by
  simp [pending, add, base, acked]

theorem bytes_add : (log.add e).bytes = log.bytes ++ encodeRecord (appendRecord e) := by
  have hrecords : (log.add e).records = log.records ++ [appendMembers e] := by
    simp [records, add]
  rw [bytes, hrecords, linesOf_append]
  simp [linesOf, bytes, appendRecord_eq]

theorem written : ∀ r ∈ log.records, Written r := by
  intro r hr
  rcases List.mem_append.mp hr with hr | hr
  · obtain ⟨s, -, rfl⟩ := List.mem_map.mp hr
    exact snapshotMembers_written _ _
  · obtain ⟨e, -, rfl⟩ := List.mem_map.mp hr
    exact appendMembers_written e

theorem absorb_nodup (h : (acked ++ ids pending).Nodup) (e : ExecutionEventEnvelopeV1) :
    (acked ++ ids (absorb acked pending e)).Nodup := by
  unfold absorb
  split_ifs with he
  · exact h
  · have hids : ids (pending ++ [e]) = ids pending ++ [e.eventId] := by simp [ids]
    rw [hids, ← List.append_assoc, List.nodup_append]
    refine ⟨h, List.nodup_singleton _, ?_⟩
    intro a ha b hb hab
    rw [List.mem_singleton.mp hb] at hab
    exact he (hab ▸ ha)

theorem base_nodup : (log.acked ++ ids log.base).Nodup := by
  unfold acked base
  cases log.snapshot with
  | none => exact List.nodup_nil
  | some s => exact s.nodup

theorem foldl_absorb_nodup (h : (acked ++ ids pending).Nodup)
    (events : List ExecutionEventEnvelopeV1) :
    (acked ++ ids (events.foldl (absorb acked) pending)).Nodup := by
  induction events generalizing pending with
  | nil => exact h
  | cons e events ih => exact ih (absorb_nodup h e)

/-- **No id is in a log's view twice.** -/
theorem seen_nodup : log.seen.Nodup := foldl_absorb_nodup log.base_nodup log.appended

theorem pending_nodup : (ids log.pending).Nodup := (List.nodup_append.mp log.seen_nodup).2.1

theorem acked_bounded : log.acked.length ≤ limit := by
  unfold acked
  cases log.snapshot with
  | none => exact Nat.zero_le _
  | some s => exact s.bounded

end Log

/-! ## Compaction -/

section Reading
variable (spool : JsonExecutionSpool)

/-- The acknowledged ids a snapshot keeps. -/
def retainedAckedIds (pending : List ExecutionEventEnvelopeV1) (seenEventIds : List String) :
    List String :=
  let ackedIds := seenEventIds.filter (· ∉ ids pending)
  ackedIds.drop (ackedIds.length - spool.seenEventLimit)

theorem retainedAckedIds_length (pending : List ExecutionEventEnvelopeV1)
    (seenEventIds : List String) :
    (retainedAckedIds spool pending seenEventIds).length ≤ spool.seenEventLimit := by
  unfold retainedAckedIds
  rw [List.length_drop]
  omega

variable {pending : List ExecutionEventEnvelopeV1} {seenEventIds : List String}
  (log : Log spool.seenEventLimit)

theorem mem_retainedAckedIds {id : String} (h : id ∈ retainedAckedIds spool pending seenEventIds) :
    id ∈ seenEventIds ∧ id ∉ ids pending := by
  have hmem := List.mem_filter.mp (List.mem_of_mem_drop h)
  exact ⟨hmem.1, by simpa using hmem.2⟩

theorem retained_nodup (hseen : seenEventIds.Nodup) (hpending : (ids pending).Nodup) :
    (retainedAckedIds spool pending seenEventIds ++ ids pending).Nodup := by
  rw [List.nodup_append]
  refine ⟨(List.drop_sublist _ _).nodup (hseen.filter _), hpending, ?_⟩
  intro a ha b hb hab
  exact (mem_retainedAckedIds spool ha).2 (hab ▸ hb)

theorem compactSeenEventIds_eq (hseen : seenEventIds.Nodup) (hpending : (ids pending).Nodup) :
    compactSeenEventIds spool pending seenEventIds =
      retainedAckedIds spool pending seenEventIds ++ ids pending := by
  have hnodup := retained_nodup spool hseen hpending
  have hretained : (retainedAckedIds spool pending seenEventIds).foldl addKey [] =
      retainedAckedIds spool pending seenEventIds :=
    foldl_addKey_new (List.nodup_append.mp hnodup).1
  unfold compactSeenEventIds
  change (ids pending).foldl addKey ((retainedAckedIds spool pending seenEventIds).foldl addKey []) = _
  rw [hretained]
  exact foldl_addKey_new hnodup

/-- What a log's view remembers is already compact. -/
theorem retainedAckedIds_log (acked : List String) (hnodup : (acked ++ ids pending).Nodup)
    (hbound : acked.length ≤ spool.seenEventLimit) :
    retainedAckedIds spool pending (acked ++ ids pending) = acked := by
  have hfilter : (acked ++ ids pending).filter (· ∉ ids pending) = acked := by
    rw [List.filter_append]
    have hleft : acked.filter (· ∉ ids pending) = acked := by
      rw [List.filter_eq_self]
      intro a ha
      simp only [decide_eq_true_eq]
      exact fun hmem => (List.nodup_append.mp hnodup).2.2 a ha a hmem rfl
    have hright : (ids pending).filter (· ∉ ids pending) = [] := by simp
    rw [hleft, hright, List.append_nil]
  unfold retainedAckedIds
  rw [hfilter]
  have hzero : acked.length - spool.seenEventLimit = 0 := by omega
  simp [hzero]

theorem compactSeenEventIds_log : compactSeenEventIds spool log.pending log.seen = log.seen := by
  rw [compactSeenEventIds_eq spool log.seen_nodup log.pending_nodup]
  unfold Log.seen
  rw [retainedAckedIds_log spool log.acked log.seen_nodup log.acked_bounded]

/-! ## Reading -/

theorem loadRecord_snapshot {acked : List String} (h : (acked ++ ids pending).Nodup)
    (memory : Memory) :
    loadRecord spool memory (snapshotMembers pending (acked ++ ids pending)) =
      .ok { memory with pending, seenEventIds := acked ++ ids pending } := by
  have hstr : spool.str ∘ Value.str = id := funext spool.str_str
  have hkeys : (acked ++ ids pending).foldl addKey [] = acked ++ ids pending := foldl_addKey_new h
  have hold : (ids pending).foldl addKey (acked ++ ids pending) = acked ++ ids pending :=
    foldl_addKey_old fun k hk => List.mem_append_right _ hk
  simp only [loadRecord, snapshotMembers, applyRecord, lookup_cons, String.reduceEq, if_true, if_false,
    Option.getD_some, truthy, ne_eq, not_false_eq_true, decide_true, spool.str_str, iterate,
    Option.some.injEq, Value.str.injEq, bind, Except.bind, mapM_envelopes, List.map_map, hstr,
    List.map_id, hkeys, hold]

theorem loadRecord_append (e : ExecutionEventEnvelopeV1) (memory : Memory) {acked : List String}
    (h : memory.seenEventIds = acked ++ ids memory.pending) :
    ∃ n, loadRecord spool memory (appendMembers e) =
      .ok { memory with
        pending := Log.absorb acked memory.pending e,
        seenEventIds := acked ++ ids (Log.absorb acked memory.pending e), lastAppendSize := n } := by
  refine ⟨max memory.lastAppendSize (encodeRecord (.obj (appendMembers e))).length, ?_⟩
  simp only [loadRecord, applyRecord, appendMembers, lookup_cons, String.reduceEq, if_true, if_false,
    Option.getD_some, truthy, ne_eq, not_false_eq_true, decide_true, spool.str_str, bind,
    Except.bind, envelopeFromPayload_toPayload, h, Log.absorb, addKey]
  by_cases he : e.eventId ∈ acked ++ ids memory.pending
  · simp only [he, if_true]
  · simp only [he, if_false]
    simp [ids]

theorem foldlM_appends (events : List ExecutionEventEnvelopeV1) (memory : Memory)
    (acked : List String) (h : memory.seenEventIds = acked ++ ids memory.pending) :
    ∃ n, (events.map appendMembers).foldlM (loadRecord spool) memory =
      .ok { memory with
        pending := events.foldl (Log.absorb acked) memory.pending,
        seenEventIds := acked ++ ids (events.foldl (Log.absorb acked) memory.pending),
        lastAppendSize := n } := by
  induction events generalizing memory with
  | nil => exact ⟨memory.lastAppendSize, by simp [← h, pure, Except.pure]⟩
  | cons e events ih =>
    obtain ⟨n, hn⟩ := loadRecord_append spool e memory h
    rw [List.map_cons, List.foldlM_cons, hn]
    exact ih _ rfl

theorem foldlM_log :
    ∃ n, log.records.foldlM (loadRecord spool) Memory.empty =
      .ok { pending := log.pending, seenEventIds := log.seen, sizeBytes := 0, lastAppendSize := n } := by
  obtain ⟨snapshot, appended⟩ := log
  cases snapshot with
  | none =>
    exact foldlM_appends spool appended Memory.empty [] rfl
  | some s =>
    have hsnapshot := loadRecord_snapshot spool s.nodup Memory.empty
    obtain ⟨n, hn⟩ := foldlM_appends spool appended
      { Memory.empty with pending := s.pending, seenEventIds := s.acked ++ ids s.pending }
      s.acked rfl
    refine ⟨n, ?_⟩
    simp only [Log.records, Option.toList_some, List.map_cons, List.map_nil, List.singleton_append,
      List.foldlM_cons, hsnapshot, bind, Except.bind]
    exact hn

/-- **A new process on the lines of a log holds what the log says**, whatever a
broken write left after them; the tail is gone from the file. -/
theorem load_log {file : File} {torn : List Char} (htorn : Torn torn)
    (hfile : file.getD [] = log.bytes ++ torn) (hfits : log.bytes.length ≤ spool.maxBytes) :
    ∃ n file', load spool file =
        (.ok { pending := sortEvents log.pending, seenEventIds := log.seen,
               sizeBytes := log.bytes.length, lastAppendSize := n }, file') ∧
      file'.getD [] = log.bytes := by
  by_cases hempty : log.bytes ++ torn = []
  · -- nothing was ever written
    have hbytes : log.bytes = [] := (List.append_eq_nil_iff.mp hempty).1
    have hlog : log.records = [] := by
      cases hrecords : log.records with
      | nil => rfl
      | cons r records => simp [Log.bytes, hrecords, linesOf_cons] at hbytes
    obtain ⟨n, hn⟩ := foldlM_log spool log
    rw [hlog, List.foldlM_nil] at hn
    have hmemory := Except.ok.inj hn
    have hpending : log.pending = [] := (congrArg Memory.pending hmemory).symm
    have hseen : log.seen = [] := (congrArg Memory.seenEventIds hmemory).symm
    refine ⟨0, file, ?_, by rw [hfile, hempty, hbytes]⟩
    have hcontent : file.getD [] = [] := hfile.trans hempty
    rw [load, if_pos hcontent, hpending, hseen, hbytes]
    rfl
  · obtain ⟨n, hn⟩ := foldlM_log spool log
    have hdecode := decodeRecords_log log.written htorn hempty
    change decodeRecords (log.bytes ++ torn) = .ok (log.records, false, log.bytes.length) at hdecode
    refine ⟨n, some log.bytes, ?_, rfl⟩
    unfold load
    simp only [hfile, hempty, if_false, hdecode, List.take_left, hn, compactSeenEventIds_log,
      assertCapacityBytes, hfits, if_true]
    simp

end Reading
end TraderBot.Spool
