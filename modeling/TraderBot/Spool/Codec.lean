import TraderBot.Spool.Model

/-! # What the spool writes, it reads back

Envelopes, the two kinds of records, and a whole file: the lines of records the
spool wrote, then what is left of one broken write. The reader first takes the
file for one JSON text; that succeeds on a single record only, with or without
its line break, so the cases are a torn first line, one complete line, and more. -/
namespace TraderBot.Spool
open TraderBot.Lib TraderBot.Lib.Text TraderBot.Lib.Dict TraderBot.Lib.Json

/-! ## Envelopes -/

variable (e : ExecutionEventEnvelopeV1) (x : DateTime) {values : List (String × Value)} {k : String}
  (pending : List ExecutionEventEnvelopeV1) (seenEventIds : List String) {tail : List Char}

theorem canonical_envelopeToPayload : canonical (envelopeToPayload e) = true := by
  have hoption : ∀ x, canonical (optionalText x) = true := by intro x; cases x <;> rfl
  have hpayload := e.payload.canonical
  simp only [envelopeToPayload, canonical, canonicalMembers, hoption, Bool.and_true,
    Bool.and_eq_true, Bool.true_and] at hpayload ⊢
  refine ⟨?_, hpayload⟩
  simp only [sortedKeys, List.map_cons, List.map_nil]
  decide

theorem datetimeFromIso_isoformat : datetimeFromIso (DateTime.isoformat x) = .ok x := by
  simp [datetimeFromIso, DateTime.replaceZulu_isoformat, DateTime.toUtc]

variable (spool : JsonExecutionSpool)

theorem intentIdField_optionalText (x : Option Uuid)
    (h : lookup "intent_id" values = some (optionalText (x.map Uuid.str))) :
    intentIdField spool values = .ok x := by
  cases x with
  | none => simp [intentIdField, h, optionalText]
  | some x => simp [intentIdField, h, optionalText, spool.str_str]

theorem optionalTextField_optionalText (x : Option String)
    (h : lookup k values = some (optionalText x)) : optionalTextField values k = .ok x := by
  cases x <;> simp [optionalTextField, h, optionalText]

theorem requiredTextField_text {s : String} (hs : s ≠ "") (h : lookup k values = some (.str s)) :
    requiredTextField values k = .ok ⟨s, hs⟩ := by
  simp [requiredTextField, h, hs]

theorem datetimeField_isoformat (h : lookup k values = some (.str (DateTime.isoformat x))) :
    datetimeField values k = .ok x := by
  simp [datetimeField, h, datetimeFromIso_isoformat]

/-- **An envelope reads back.** -/
@[simp] theorem envelopeFromPayload_toPayload :
    envelopeFromPayload spool (envelopeToPayload e) = .ok e := by
  unfold envelopeToPayload
  rw [envelopeFromPayload]
  unfold envelopeOfMembers
  rw [datetimeField_isoformat e.tsEvent (by simp [lookup_cons]),
    datetimeField_isoformat e.tsIngest (by simp [lookup_cons]),
    intentIdField_optionalText spool e.intentId (by simp [lookup_cons]),
    requiredTextField_text e.eventId_ne (by simp [lookup_cons]),
    requiredTextField_text e.nodeId_ne (by simp [lookup_cons]),
    requiredTextField_text e.accountId_ne (by simp [lookup_cons]),
    optionalTextField_optionalText e.clientOrderId (by simp [lookup_cons]),
    optionalTextField_optionalText e.venueOrderId (by simp [lookup_cons]),
    optionalTextField_optionalText e.tradeId (by simp [lookup_cons]),
    requiredTextField_text e.eventType_ne (by simp [lookup_cons])]
  have hpayload : ∀ kvs, lookup "payload" kvs = some (.obj e.payload.members) → payloadField kvs = .ok e.payload := by
    intro kvs hget
    simp [payloadField, hget, e.payload.canonical]
  have hschema : ∀ kvs, lookup "schema_version" kvs = some (.str "1.0") → schemaVersionField kvs = .ok () := by
    intro kvs hget
    simp [schemaVersionField, hget]
  rw [hpayload _ (by simp [lookup_cons]), hschema _ (by simp [lookup_cons])]
  simp [bind, Except.bind, envelopeFields]

theorem mapM_envelopes (events : List ExecutionEventEnvelopeV1) :
    (events.map envelopeToPayload).mapM (envelopeFromPayload spool) = .ok events := by
  induction events with
  | nil => rfl
  | cons e events ih =>
    rw [List.map_cons, List.mapM_cons, envelopeFromPayload_toPayload, ih]
    rfl

/-! ## Records -/

/-- The members of a record the spool writes: a JSON object in key order that
says what it does. -/
structure Written (record : List (String × Value)) : Prop where
  canonical : canonical (.obj record) = true
  op : lookup "op" record ≠ none

def appendMembers (e : ExecutionEventEnvelopeV1) : List (String × Value) :=
  [("event", envelopeToPayload e), ("op", .str "append")]

def snapshotMembers (pending : List ExecutionEventEnvelopeV1) (seenEventIds : List String) :
    List (String × Value) :=
  [("op", .str "snapshot"), ("pending", .arr (pending.map envelopeToPayload)),
    ("schema_version", .str "2.0"), ("seen_event_ids", .arr (seenEventIds.map .str))]

theorem appendRecord_eq : appendRecord e = .obj (appendMembers e) := rfl

theorem snapshotRecord_eq :
    snapshotRecord pending seenEventIds = .obj (snapshotMembers pending seenEventIds) := rfl

theorem canonicalItems_of_forall {xs : List Value} (h : ∀ x ∈ xs, canonical x = true) :
    canonicalItems xs = true := by
  induction xs with
  | nil => rfl
  | cons x xs ih =>
    rw [List.forall_mem_cons] at h
    rw [canonicalItems, h.1, ih h.2]
    rfl

theorem appendMembers_written : Written (appendMembers e) := by
  refine ⟨?_, by simp [appendMembers, lookup_cons]⟩
  have hkeys : sortedKeys (appendMembers e) = true := by
    simp only [appendMembers, sortedKeys, List.map_cons, List.map_nil]
    decide
  rw [canonical, hkeys]
  simp [appendMembers, canonicalMembers, canonical_envelopeToPayload, canonical]

theorem snapshotMembers_written : Written (snapshotMembers pending seenEventIds) := by
  refine ⟨?_, by simp [snapshotMembers, lookup_cons]⟩
  have hkeys : sortedKeys (snapshotMembers pending seenEventIds) = true := by
    simp only [snapshotMembers, sortedKeys, List.map_cons, List.map_nil]
    decide
  have hpending : canonicalItems (pending.map envelopeToPayload) = true := by
    refine canonicalItems_of_forall fun x hx => ?_
    obtain ⟨e, -, rfl⟩ := List.mem_map.mp hx
    exact canonical_envelopeToPayload e
  have hseen : canonicalItems (seenEventIds.map .str) = true := by
    refine canonicalItems_of_forall fun x hx => ?_
    obtain ⟨s, -, rfl⟩ := List.mem_map.mp hx
    rfl
  rw [canonical, hkeys]
  simp [snapshotMembers, canonicalMembers, canonical, hpending, hseen]

/-! ## Files -/

/-- What a broken write leaves behind: a proper beginning of a record's line. -/
def Torn (tail : List Char) : Prop :=
  ∃ record rest, Written record ∧ rest ≠ [] ∧ tail ++ rest = encodeRecord (.obj record)

theorem torn_take {e : ExecutionEventEnvelopeV1} {n : Nat}
    (h : n < (encodeRecord (appendRecord e)).length) :
    Torn ((encodeRecord (appendRecord e)).take n) := by
  refine ⟨appendMembers e, (encodeRecord (appendRecord e)).drop n, appendMembers_written e, ?_,
    List.take_append_drop _ _⟩
  rw [Ne, List.drop_eq_nil_iff]
  omega

theorem torn_nil : Torn [] :=
  ⟨snapshotMembers [] [], encodeRecord (.obj (snapshotMembers [] [])), snapshotMembers_written [] [],
    line_ne_nil _, List.nil_append _⟩

/-- A torn tail is a record's text or a proper beginning of it. -/
theorem Torn.cases (h : Torn tail) :
    ∃ record, Written record ∧ (tail = render (.obj record) ∨
      ∃ rest, rest ≠ [] ∧ tail ++ rest = render (.obj record)) := by
  obtain ⟨record, rest, hw, hne, h⟩ := h
  refine ⟨record, hw, ?_⟩
  obtain ⟨init, last, rfl⟩ := List.eq_nil_or_concat rest |>.resolve_left hne
  rw [encodeRecord, line, List.concat_eq_append, ← List.append_assoc] at h
  have h := List.append_inj' h rfl
  by_cases hinit : init = []
  · left
    rw [← h.1, hinit, List.append_nil]
  · exact .inr ⟨init, hinit, h.1⟩

theorem Torn.printable (h : Torn tail) : Printable tail := by
  obtain ⟨record, -, h | ⟨rest, -, h⟩⟩ := h.cases
  · rw [h]; exact printable_render _
  · exact (printable_append.mp (h ▸ printable_render (.obj record))).1

theorem Torn.head {c : Char} (h : Torn (c :: tail)) : c = '{' := by
  obtain ⟨record, rest, -, -, h⟩ := h
  rw [encodeRecord, line, render] at h
  exact (List.cons.inj h).1

/-- The lines of records. -/
def linesOf (records : List (List (String × Value))) : List Char :=
  (records.map Value.obj).flatMap encodeRecord

theorem linesOf_cons (r : List (String × Value)) (records : List (List (String × Value))) :
    linesOf (r :: records) = render (.obj r) ++ '\n' :: linesOf records := by
  simp [linesOf, encodeRecord, line]

theorem linesOf_append (rs ss : List (List (String × Value))) :
    linesOf (rs ++ ss) = linesOf rs ++ linesOf ss := by
  simp [linesOf]

theorem decodeWalRecords_log (records acc : List (List (String × Value))) (index size : Nat)
    (h : ∀ r ∈ records, Written r) (tail : List (List Char))
    (htail : ∀ cs ∈ tail, cs.getLast? ≠ some '\n') :
    decodeWalRecords index acc size (records.map (fun r => encodeRecord (.obj r)) ++ tail) =
      .ok (acc ++ records, false, size + (linesOf records).length) := by
  induction records generalizing acc index size with
  | nil =>
    cases tail with
    | nil => simp [decodeWalRecords, linesOf]
    | cons cs tail =>
      have hcs := htail cs List.mem_cons_self
      simp [decodeWalRecords, linesOf, hcs]
  | cons r records ih =>
    rw [List.forall_mem_cons] at h
    have hne : render (.obj r) ≠ [] := by simp [render]
    rw [List.map_cons, List.cons_append, decodeWalRecords]
    simp only [encodeRecord, line, List.getLast?_append, List.getLast?_singleton, Option.some_or,
      ne_eq, not_true_eq_false, if_false, List.dropLast_concat, hne, loads_render h.1.canonical]
    have hstep := ih (acc ++ [r]) (index + 1) (size + (render (.obj r) ++ ['\n']).length) h.2
    simp only [encodeRecord, line] at hstep
    rw [hstep, linesOf_cons, List.append_assoc, List.singleton_append]
    congr 3
    simp only [List.length_append, List.length_cons, List.length_nil]
    omega

/-- **The reader of a file gives back its records and cuts off a torn tail.** -/
theorem decodeRecords_log {records : List (List (String × Value))} (h : ∀ r ∈ records, Written r)
    {torn : List Char} (htorn : Torn torn) (hne : linesOf records ++ torn ≠ []) :
    decodeRecords (linesOf records ++ torn) = .ok (records, false, (linesOf records).length) := by
  -- read line by line, which is right whenever the whole is no JSON text
  have hwal : loads (linesOf records ++ torn) = none →
      decodeRecords (linesOf records ++ torn) = .ok (records, false, (linesOf records).length) := by
    intro hloads
    have hsplit := splitLines_log (records.map Value.obj) htorn.printable
    rw [List.map_map] at hsplit
    have hdecode := decodeWalRecords_log records [] 1 0 h
      (if torn = [] then [] else [torn]) (fun cs hcs => by
        split_ifs at hcs with ht
        · cases hcs
        · rw [List.mem_singleton.mp hcs]; exact htorn.printable.getLast_ne)
    simp only [decodeRecords, hloads]
    rw [List.nil_append, Nat.zero_add] at hdecode
    rw [← hdecode]
    exact congrArg _ hsplit
  cases records with
  | nil =>
    have hlines : linesOf [] = [] := rfl
    rw [hlines, List.nil_append] at hne hwal ⊢
    obtain ⟨record, hw, ht | ⟨rest, hrest, ht⟩⟩ := htorn.cases
    · -- the record is complete but for its line break
      have hlast : torn.getLast? ≠ some '\n' := htorn.printable.getLast_ne
      have hloads : loads torn = some (.obj record) := by
        rw [ht]; exact loads_render hw.canonical
      simp [decodeRecords, hloads, hw.op, hlast]
    · exact hwal ( loads_proper_prefix hw.canonical ht hrest)
  | cons r records =>
    rw [List.forall_mem_cons] at h
    rw [linesOf_cons, List.append_assoc, List.cons_append] at hwal ⊢
    by_cases hrest : linesOf records ++ torn = []
    · -- one complete line: the whole file is a JSON text
      have hempty := List.append_eq_nil_iff.mp hrest
      have hrecords : records = [] := by
        cases records with
        | nil => rfl
        | cons r' records => simp [linesOf_cons] at hempty
      subst hrecords
      rw [hrest]
      have hloads := loads_render_blanks h.1.canonical (t := ['\n']) rfl
      simp [decodeRecords, hloads, h.1.op, hempty.1]
    · refine hwal (loads_render_extra h.1.canonical ?_)
      have hblank : skipBlanks ('\n' :: (linesOf records ++ torn)) =
          skipBlanks (linesOf records ++ torn) := by simp [skipBlanks, isBlank]
      rw [hblank]
      cases records with
      | nil =>
        have hlines : linesOf [] = [] := rfl
        rw [hlines, List.nil_append] at hrest ⊢
        cases torn with
        | nil => exact absurd rfl hrest
        | cons c torn =>
          rw [htorn.head, skipBlanks_cons (by decide)]
          simp
      | cons r' records =>
        rw [linesOf_cons, List.append_assoc, skipBlanks_render]
        simp [render]

end TraderBot.Spool
