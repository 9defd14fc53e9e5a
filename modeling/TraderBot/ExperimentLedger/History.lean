import TraderBot.ExperimentLedger.Attempts

/-! # The history of the experiment ledger

The log only grows, and in the order of its file names, so that what an operation saw is
a beginning of what comes later. An event is written after the latest one of its attempt
was read inside the lock, which makes the log one that is accepted. -/
namespace TraderBot.ExperimentLedger.Attempts
open TraderBot.Lib TraderBot.Lib.Text

/-! ## File names -/

/-- Lists of one length compare before what follows them. -/
theorem append_lt_append {xs ys : List Char} (hlen : xs.length = ys.length) (h : xs < ys) (us vs : List Char) :
    xs ++ us < ys ++ vs := by
  induction xs generalizing ys with
  | nil =>
    cases ys with
    | nil => exact absurd h (List.lt_irrefl [])
    | cons y ys => cases hlen
  | cons x xs ih =>
    cases ys with
    | nil => cases hlen
    | cons y ys =>
      rw [List.cons_append, List.cons_append, List.cons_lt_cons_iff]
      rcases List.cons_lt_cons_iff.mp h with hlt | ⟨heq, hlt⟩
      · exact .inl hlt
      · exact .inr ⟨heq, ih (Nat.succ.inj hlen) hlt⟩

theorem digitChar_lt {a b : Nat} (h : a < b) (hb : b < 10) : digitChar a < digitChar b := by
  have all : ∀ b < 10, ∀ a < b, digitChar a < digitChar b := by decide
  exact all b hb a h

/-- Lists with one beginning compare after it. -/
theorem append_lt_append_left (xs : List Char) {us vs : List Char} (h : us < vs) : xs ++ us < xs ++ vs := by
  induction xs with
  | nil => exact h
  | cons x xs ih =>
    rw [List.cons_append, List.cons_append, List.cons_lt_cons_iff]
    exact .inr ⟨rfl, ih⟩

theorem decPad_succ (k n : Nat) : decPad (k + 1) n = decPad k (n / 10) ++ [digitChar (n % 10)] := by
  unfold decPad
  rw [digits, List.map_append]
  rfl

theorem decPad_lt {k m n : Nat} (h : m < n) (hn : n < 10 ^ k) : decPad k m < decPad k n := by
  induction k generalizing m n with
  | zero =>
    rw [pow_zero] at hn
    omega
  | succ k ih =>
    rw [decPad_succ, decPad_succ]
    rcases (Nat.div_le_div_right h.le : m / 10 ≤ n / 10).lt_or_eq with hlt | heq
    · have hdiv : n / 10 < 10 ^ k := by
        rw [pow_succ] at hn
        omega
      exact append_lt_append (by simp) (ih hlt hdiv) _ _
    · have hlast : digitChar (m % 10) < digitChar (n % 10) := digitChar_lt (by omega) (by omega)
      rw [heq]
      exact append_lt_append_left _ (List.cons_lt_cons_iff.mpr (.inl hlast))

theorem fileName_toList {e : Event} (h : e.seq < 10 ^ 12) :
    (fileName e).toList =
      decPad 12 e.seq ++ ('-' :: e.row.attemptId.toList ++ '-' :: e.row.status.text.toList ++ ".json".toList) := by
  unfold fileName padded
  rw [String.toList_ofList, if_pos h]

theorem fileName_lt {e f : Event} (h : e.seq < f.seq) (hf : f.seq < 10 ^ 12) : fileName e < fileName f := by
  rw [String.lt_iff_toList_lt, fileName_toList (h.trans hf), fileName_toList hf]
  exact append_lt_append (by simp) (decPad_lt h hf) _ _

/-! ## The latest events -/

section
variable {evs : List Event} {e : Event} {id : String}

theorem latest_append (evs : List Event) (e : Event) :
    latest (evs ++ [e]) = (latest evs).set e.row.attemptId e := by
  unfold latest
  rw [List.foldl_append]
  rfl

/-- The latest event of an attempt is one of its own. -/
theorem latest_mem (h : (latest evs).get? id = some e) : e ∈ evs ∧ e.row.attemptId = id := by
  induction evs using List.reverseRecOn with
  | nil => cases h
  | append_singleton evs f ih =>
    rw [latest_append, OrderedDict.get?_set] at h
    split_ifs at h with hid
    · cases h
      exact ⟨List.mem_append_right _ List.mem_cons_self, hid.symm⟩
    · exact (ih h).imp_left (List.mem_append_left _)

theorem rowOf_eq (evs : List Event) (id : String) : rowOf evs id = ((latest evs).get? id).map (·.row) := by
  unfold rowOf
  induction evs using List.reverseRecOn with
  | nil => rfl
  | append_singleton evs f ih =>
    rw [latest_append, OrderedDict.get?_set, List.filter_append]
    by_cases hid : f.row.attemptId = id
    · rw [if_pos hid.symm, List.filter_cons_of_pos (by simpa using hid), List.filter_nil, List.getLast?_concat]
    · rw [if_neg (Ne.symm hid), List.filter_cons_of_neg (by simpa using hid), List.filter_nil, List.append_nil]
      exact ih

theorem rowOf_some {r : Row} (h : rowOf evs id = some r) :
    ∃ p, (latest evs).get? id = some p ∧ p ∈ evs ∧ p.row = r ∧ r.attemptId = id := by
  rw [rowOf_eq] at h
  obtain ⟨p, hp, rfl⟩ := Option.map_eq_some_iff.mp h
  obtain ⟨hmem, hid⟩ := latest_mem hp
  exact ⟨p, hp, hmem, rfl, hid⟩

end

/-! ## The log is accepted -/

theorem checkFrom_append {seqs : List Nat} {previous : OrderedDict String Event} {files : List EventFile}
    {evs : List Event} {f : EventFile} (h : checkFrom seqs previous files = some evs) (hseq : f.event.seq ≠ 0)
    (hname : f.name = fileName f.event) (hnew : f.event.seq ∉ seqs ∧ f.event.seq ∉ files.map (·.event.seq))
    (hid : isAttemptId f.event.row.attemptId = true)
    (hvalid : valid ((evs.foldl (fun d e => d.set e.row.attemptId e) previous).get? f.event.row.attemptId) f.event = true) :
    checkFrom seqs previous (files ++ [f]) = some (evs ++ [f.event]) := by
  induction files generalizing seqs previous evs with
  | nil =>
    cases h
    unfold checkFrom
    dsimp only [List.nil_append]
    rw [if_neg (by simp [hseq, hname, hnew.1])]
    rw [if_pos (by rw [hid]; exact hvalid)]
    rfl
  | cons g files ih =>
    unfold checkFrom at h
    dsimp only at h
    rw [List.cons_append]
    unfold checkFrom
    dsimp only
    split_ifs at h ⊢ with hbad hgood
    obtain ⟨rest, hrest, rfl⟩ := Option.map_eq_some_iff.mp h
    rw [List.map_cons, List.mem_cons, not_or] at hnew
    rw [ih hrest ⟨fun hmem => (List.mem_cons.mp hmem).elim hnew.2.1 hnew.1, hnew.2.2⟩ hvalid]
    rfl

/-- Numbers and names of a log in its order. -/
structure Numbered (files : List EventFile) : Prop where
  increasing : files.Pairwise fun f g => f.event.seq < g.event.seq
  positive : ∀ f ∈ files, 0 < f.event.seq
  short : ∀ f ∈ files, f.event.seq < 10 ^ 12
  names : ∀ f ∈ files, f.name = fileName f.event

section
variable {files : List EventFile}

theorem Numbered.listing (h : Numbered files) : listing files = files := by
  refine List.Pairwise.insertionSort_eq ?_
  refine h.increasing.imp_of_mem fun {f g} hf hg hlt => ?_
  rw [h.names f hf, h.names g hg]
  exact le_of_lt (fileName_lt hlt (h.short g hg))

theorem foldl_max_le {xs : List Nat} {a b : Nat} : xs.foldl max a ≤ b ↔ a ≤ b ∧ ∀ x ∈ xs, x ≤ b := by
  induction xs generalizing a with
  | nil => simp
  | cons x xs ih => simp [ih, and_assoc]

theorem le_maxSeq {f : EventFile} (h : f ∈ files) : f.event.seq ≤ maxSeq files :=
  (foldl_max_le.mp le_rfl).2 _ (List.mem_map_of_mem h)

theorem Numbered.append (h : Numbered files) {f : EventFile} (hseq : f.event.seq = maxSeq files + 1)
    (hroom : maxSeq files + 1 < 10 ^ 12) (hname : f.name = fileName f.event) : Numbered (files ++ [f]) where
  increasing := by
    rw [List.pairwise_append]
    refine ⟨h.increasing, List.pairwise_singleton _ _, fun g hg f' hf => ?_⟩
    rw [List.mem_singleton.mp hf, hseq]
    exact Nat.lt_succ_of_le (le_maxSeq hg)
  positive g hg := by
    rcases List.mem_append.mp hg with hg | hg
    · exact h.positive g hg
    · rw [List.mem_singleton.mp hg, hseq]
      exact Nat.succ_pos _
  short g hg := by
    rcases List.mem_append.mp hg with hg | hg
    · exact h.short g hg
    · rw [List.mem_singleton.mp hg, hseq]
      exact hroom
  names g hg := by
    rcases List.mem_append.mp hg with hg | hg
    · exact h.names g hg
    · rw [List.mem_singleton.mp hg]
      exact hname

end
end TraderBot.ExperimentLedger.Attempts
