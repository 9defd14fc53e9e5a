import TraderBot.ResearchProtocol.Purge

/-! # Splits do not leak

The windows of a walk follow one another, so the index of a fold says where its window
is, and a cluster belongs to the first window that has a member of it. A test is in the
window of its fold and of no cluster that an earlier window has; what a fold trains on,
the purge has looked at. -/
namespace TraderBot.ResearchProtocol
open TraderBot.Lib

theorem foldId_injective {i j : Nat} (h : foldId i = foldId j) : i = j := by
  unfold foldId at h
  have hchars := List.cons.inj (List.cons.inj (String.ofList_injective h)).2
  have hvalue := congrArg (fun cs => Nat.ofDigitChars 10 cs 0) hchars.2
  simpa [Nat.ofDigitChars_append, Nat.ofDigitChars_replicate_zero] using hvalue

/-! ## Rows by their ids -/

section
variable {rows : List Anchor} {e c : Anchor}

theorem eq_of_id (hids : (rows.map (·.episodeId)).Nodup) (he : e ∈ rows) (hc : c ∈ rows)
    (h : e.episodeId = c.episodeId) : e = c :=
  List.inj_on_of_nodup_map hids he hc h

theorem mem_of_id (hids : (rows.map (·.episodeId)).Nodup) {xs : List Anchor} (hxs : ∀ x ∈ xs, x ∈ rows)
    (he : e ∈ rows) (h : e.episodeId ∈ xs.map (·.episodeId)) : e ∈ xs := by
  obtain ⟨x, hx, heq⟩ := List.mem_map.mp h
  exact eq_of_id hids (hxs x hx) he heq ▸ hx

theorem check_rows {anchors : Anchors} (h : check anchors = .ok rows) :
    (rows.map (·.episodeId)).Nodup ∧ rows.Perm (anchors.rows.map (withDefaults anchors)) := by
  unfold check at h
  split_ifs at h with hcolumns hutc hids
  cases h
  have hperm := List.perm_insertionSort (fun r q => anchorLe r q = true) (anchors.rows.map (withDefaults anchors))
  refine ⟨(hperm.map _).nodup_iff.mpr ?_, hperm⟩
  rw [List.map_map]
  exact hids

end

/-! ## One fold -/

/-- An episode that a fold trains on: decided and mature before the window, and foreign to each test. -/
structure Trained (labelMaturity testStart : Int) (tests : List Anchor) (e : Anchor) : Prop where
  decided : ∃ t0, e.tDec = some t0 ∧ t0 < testStart
  mature : ∃ t1, e.t1 = some t1 ∧ t1 + labelMaturity ≤ testStart
  foreign : ∀ t ∈ tests, t.clusterId ≠ e.clusterId ∧ t.duplicateGroupId ≠ e.duplicateGroupId
  apart : ∀ t ∈ tests, Apart e t

/-- The tests of a fold among the rows. -/
def testsOf (rows : List Anchor) (fold : Fold) : List Anchor :=
  rows.filter fun r => fold.testIds.contains r.episodeId

/-- What a fold says of a window. -/
structure Clean (labelMaturity : Int) (rows : List Anchor) (testStart testEnd : Int) (fold : Fold) : Prop where
  window : fold.testStart = some testStart ∧ fold.testEnd = some testEnd
  train_mem : ∀ id ∈ fold.trainIds, id ∈ rows.map (·.episodeId)
  train : ∀ e ∈ rows, e.episodeId ∈ fold.trainIds → Trained labelMaturity testStart (testsOf rows fold) e
  accounted : fold.testIds ≠ [] → ∀ e ∈ rows, startsBefore testStart e = true →
    e.episodeId ∈ fold.trainIds ∧ fold.purged.get? e.episodeId = none ∨
      e.episodeId ∉ fold.trainIds ∧ (fold.purged.get? e.episodeId).isSome

theorem startsBefore_iff {limit : Int} {r : Anchor} : startsBefore limit r = true ↔ ∃ t, r.tDec = some t ∧ t < limit := by
  unfold startsBefore
  cases r.tDec <;> simp

theorem not_startsBefore_of_inWindow {start stop : Int} {r : Anchor} (h : inWindow start stop r = true) :
    startsBefore start r = false := by
  unfold inWindow at h
  unfold startsBefore
  cases hr : r.tDec with
  | none => rfl
  | some t =>
    rw [hr] at h
    simp only [Option.any_some, Bool.and_eq_true, decide_eq_true_eq] at h
    simpa using h.1

section
variable {p : WalkForward} {rows tests boundary : List Anchor} {testStart testEnd : Int}

/-- The candidates and what is left out of them are the rows before the window. -/
theorem trainSpanOf_split {cands excluded : List Anchor} (h : trainSpanOf p rows testStart = .ok (cands, excluded)) :
    cands.Sublist (rows.filter (startsBefore testStart)) ∧ excluded.Sublist (rows.filter (startsBefore testStart)) ∧
      ∀ e ∈ rows, startsBefore testStart e = true → e ∈ cands ∧ e ∉ excluded ∨ e ∉ cands ∧ e ∈ excluded := by
  unfold trainSpanOf at h
  dsimp only at h
  split_ifs at h
  · obtain ⟨lo, -, heq⟩ := map_ok h
    cases heq
    refine ⟨List.filter_sublist, List.filter_sublist, fun e he hbefore => ?_⟩
    have hmem : e ∈ rows.filter (startsBefore testStart) := List.mem_filter.mpr ⟨he, hbefore⟩
    cases hlo : startsBefore lo e with
    | true => exact .inr ⟨by simp [hlo], List.mem_filter.mpr ⟨hmem, hlo⟩⟩
    | false => exact .inl ⟨List.mem_filter.mpr ⟨hmem, by rw [hlo]; rfl⟩, by simp [hlo]⟩
  · cases h
    refine ⟨List.Sublist.refl _, List.nil_sublist _, fun e he hbefore => ?_⟩
    exact .inl ⟨List.mem_filter.mpr ⟨he, hbefore⟩, List.not_mem_nil⟩

theorem testFold_clean {fid : String} {fold : Fold} (hids : (rows.map (·.episodeId)).Nodup)
    (htests : ∀ t ∈ tests, t ∈ rows) (hboundary : ∀ b ∈ boundary, b ∈ rows ∧ startsBefore testStart b = false)
    (h : testFold p rows fid testStart testEnd tests boundary = .ok fold) :
    Clean p.labelMaturity rows testStart testEnd fold ∧ fold.testIds = tests.map (·.episodeId) := by
  unfold testFold at h
  obtain ⟨⟨cands, excluded⟩, hspan, h⟩ := bind_ok h
  obtain ⟨⟨keep, why⟩, hpurge, h⟩ := bind_ok h
  obtain ⟨interval, -, h⟩ := bind_ok h
  obtain ⟨hcands, hexcluded, hsplit⟩ := trainSpanOf_split hspan
  have hcandRows : ∀ c ∈ cands, c ∈ rows := fun c hc => List.mem_of_mem_filter (hcands.subset hc)
  have hexcludedRows : ∀ c ∈ excluded, c ∈ rows := fun c hc => List.mem_of_mem_filter (hexcluded.subset hc)
  have hcandIds : (cands.map (·.episodeId)).Nodup :=
    hids.sublist ((hcands.trans List.filter_sublist).map _)
  obtain ⟨-, -, heach⟩ := purgeTrain_decides hcandIds hpurge
  have hfold := pure_ok h
  subst hfold
  have htrain : ∀ e ∈ rows, e.episodeId ∈ (cands.filter fun r => keep.contains r.episodeId).map (·.episodeId) ↔
      e ∈ cands ∧ e.episodeId ∈ keep := by
    intro e he
    constructor
    · intro hmem
      have hkept := mem_of_id hids (fun x hx => hcandRows x (List.mem_of_mem_filter hx)) he hmem
      exact (List.mem_filter.mp hkept).imp_right (by simp)
    · rintro ⟨hec, hkeep⟩
      exact List.mem_map_of_mem (List.mem_filter.mpr ⟨hec, by simpa using hkeep⟩)
  have htestsOf : ∀ t ∈ rows, t.episodeId ∈ tests.map (·.episodeId) → t ∈ tests := fun t ht hmem =>
    mem_of_id hids htests ht hmem
  refine ⟨⟨⟨rfl, rfl⟩, fun id hid => ?_, fun e he hmem => ?_, fun _ e he hbefore => ?_⟩, rfl⟩
  · obtain ⟨c, hc, rfl⟩ := List.mem_map.mp hid
    exact List.mem_map_of_mem (hcandRows c (List.mem_of_mem_filter hc))
  · obtain ⟨hec, hkeep⟩ := (htrain e he).mp hmem
    have hbefore := (List.mem_filter.mp (hcands.subset hec)).2
    rcases heach e hec with ⟨-, -, hreason⟩ | ⟨hnot, -⟩
    · obtain ⟨⟨t0, t1, -, h1, -, hmature⟩, hforeign, hapart⟩ := kept_of_purgeReason hreason
      refine ⟨startsBefore_iff.mp hbefore, ⟨t1, h1, hmature _ rfl⟩, fun t ht => ?_, fun t ht => ?_⟩
      all_goals
        obtain ⟨htr, hid⟩ := List.mem_filter.mp ht
        have htt := htestsOf t htr (by simpa using hid)
      · exact hforeign t htt
      · exact hapart t htt
    · exact absurd hkeep hnot
  · have hnotBoundary : e.episodeId ∉ boundary.map (·.episodeId) := by
      intro hmem
      have heb := mem_of_id hids (fun b hb => (hboundary b hb).1) he hmem
      rw [(hboundary e heb).2] at hbefore
      cases hbefore
    have hpurged : (mark (mark why excluded .outOfTrainSpan) boundary .clusterBoundary).get? e.episodeId =
        if e.episodeId ∈ excluded.map (·.episodeId) then some .outOfTrainSpan else why.get? e.episodeId := by
      rw [mark_get?, if_neg hnotBoundary, mark_get?]
    dsimp only
    rw [hpurged, htrain e he]
    rcases hsplit e he hbefore with ⟨hec, hnot⟩ | ⟨hnot, hex⟩
    · rw [if_neg fun hmem => hnot (mem_of_id hids hexcludedRows he hmem)]
      rcases heach e hec with ⟨hkeep, hnone, -⟩ | ⟨hnotKeep, hsome⟩
      · exact .inl ⟨⟨hec, hkeep⟩, hnone⟩
      · exact .inr ⟨fun hk => hnotKeep hk.2, hsome⟩
    · rw [if_pos (List.mem_map_of_mem hex)]
      exact .inr ⟨fun hk => hnot hk.1, rfl⟩

theorem emptyFold_clean (fid : String) :
    Clean p.labelMaturity rows testStart testEnd (emptyFold fid testStart testEnd boundary) :=
  ⟨⟨rfl, rfl⟩, fun id hid => (by cases hid), fun e _ hid => (by cases hid), fun h => absurd rfl h⟩

end
/-! ## The windows -/

section
variable (p : WalkForward) (rows : List Anchor) (start : Int)

/-- Where a window starts. -/
def windowStart (i : Nat) : Int := start + i * p.testSpan

def inWindowAt (i : Nat) (r : Anchor) : Bool :=
  inWindow (windowStart p start i) (windowStart p start (i + 1)) r

/-- A window has a member of a cluster. -/
def Seen (i : Nat) (cluster : Option String) : Prop :=
  ∃ r ∈ rows, r.clusterId = cluster ∧ inWindowAt p start i r = true

/-- The first window that has a member of a cluster. -/
def FirstSeen (i : Nat) (cluster : Option String) : Prop :=
  Seen p rows start i cluster ∧ ∀ j < i, ¬ Seen p rows start j cluster

/-- The fold of a window. -/
structure FoldAt (i : Nat) (fold : Fold) : Prop where
  clean : Clean p.labelMaturity rows (windowStart p start i) (windowStart p start (i + 1)) fold
  sub : fold.testIds.Sublist (rows.map (·.episodeId))
  tests : ∀ r ∈ rows, r.episodeId ∈ fold.testIds ↔
    inWindowAt p start i r = true ∧ ∀ j < i, ¬ Seen p rows start j r.clusterId

/-- The loop between two windows. -/
structure Walked (s : Progress) : Prop where
  testStart : s.testStart = windowStart p start s.k
  length : s.folds.length = s.k
  assigned : ∀ cluster fid, s.assigned.get? cluster = some fid ↔
    ∃ i < s.k, fid = foldId i ∧ FirstSeen p rows start i cluster
  folds : ∀ i fold, s.folds[i]? = some fold → FoldAt p rows start i fold

end

/-- A row of a window is a test unless its cluster belongs to another fold. -/
theorem assign_spec (fid : String) (assigned : Assigned) (rows : List Anchor) :
    (∀ cluster, (assign fid assigned rows).1.get? cluster =
      (assigned.get? cluster).or (if cluster ∈ rows.map (·.clusterId) then some fid else none)) ∧
    (assign fid assigned rows).2.1 = rows.filter (fun r => (assigned.get? r.clusterId).all (· = fid)) ∧
    (assign fid assigned rows).2.2 = rows.filter (fun r => !(assigned.get? r.clusterId).all (· = fid)) := by
  induction rows using List.reverseRecOn with
  | nil => simp [assign]
  | append_singleton rows r ih =>
    obtain ⟨hassigned, htests, hboundary⟩ := ih
    have hstep : assign fid assigned (rows ++ [r]) = assignRow fid (assign fid assigned rows) r := by
      unfold assign
      rw [List.foldl_append]
      rfl
    rw [hstep]
    generalize assign fid assigned rows = acc at *
    have howner : (acc.1.setDefault r.clusterId fid).get? r.clusterId = some fid ↔
        (assigned.get? r.clusterId).all (· = fid) = true := by
      rw [OrderedDict.get?_setDefault, if_pos rfl, hassigned]
      cases assigned.get? r.clusterId with
      | none => by_cases hmem : r.clusterId ∈ rows.map (·.clusterId) <;> simp [hmem]
      | some owner => simp
    have hget : ∀ cluster, (acc.1.setDefault r.clusterId fid).get? cluster =
        (assigned.get? cluster).or (if cluster ∈ (rows ++ [r]).map (·.clusterId) then some fid else none) := by
      intro cluster
      rw [OrderedDict.get?_setDefault, hassigned, hassigned]
      by_cases hc : cluster = r.clusterId
      · subst hc
        cases assigned.get? r.clusterId with
        | none => by_cases hmem : r.clusterId ∈ rows.map (·.clusterId) <;> simp [hmem]
        | some owner => simp
      · simp [hc]
    unfold assignRow
    dsimp only
    rw [List.filter_append, List.filter_append, ← htests, ← hboundary]
    by_cases hmine : (assigned.get? r.clusterId).all (· = fid) = true
    · rw [if_pos (howner.mpr hmine)]
      exact ⟨hget, by simp [hmine], by simp [hmine]⟩
    · rw [if_neg fun h => hmine (howner.mp h)]
      exact ⟨hget, by simp [hmine], by simp [hmine]⟩

section
variable {p : WalkForward} {rows : List Anchor} {start : Int} {s s' : Progress}

theorem windowStart_succ (i : Nat) : windowStart p start (i + 1) = windowStart p start i + p.testSpan := by
  unfold windowStart
  push_cast
  ring

theorem exists_firstSeen {cluster : Option String} {k : Nat} (h : ∃ j < k, Seen p rows start j cluster) :
    ∃ i < k, FirstSeen p rows start i cluster := by
  classical
  obtain ⟨j, hj, hseen⟩ := h
  have hex : ∃ i, Seen p rows start i cluster := ⟨j, hseen⟩
  exact ⟨Nat.find hex, (Nat.find_min' hex hseen).trans_lt hj, Nat.find_spec hex, fun i hi => Nat.find_min hex hi⟩

/-- A cluster is open to a fold unless an earlier window has a member of it. -/
theorem Walked.open_iff (h : Walked p rows start s) (cluster : Option String) :
    (s.assigned.get? cluster).all (· = foldId s.k) = true ↔ ∀ j < s.k, ¬ Seen p rows start j cluster := by
  cases hget : s.assigned.get? cluster with
  | none =>
    refine iff_of_true rfl fun j hj hseen => ?_
    obtain ⟨i, hi, hfirst⟩ := exists_firstSeen ⟨j, hj, hseen⟩
    have hsome := (h.assigned cluster (foldId i)).mpr ⟨i, hi, rfl, hfirst⟩
    rw [hget] at hsome
    cases hsome
  | some fid =>
    obtain ⟨i, hi, rfl, hseen, -⟩ := (h.assigned cluster fid).mp hget
    refine iff_of_false (fun hall => ?_) fun hall => hall i hi hseen
    have heq : foldId i = foldId s.k := by simpa using hall
    exact hi.ne (foldId_injective heq)

/-- After a window, its clusters are assigned. -/
theorem Walked.assigned_next (h : Walked p rows start s) {assigned : Assigned}
    (hget : ∀ cluster, assigned.get? cluster = (s.assigned.get? cluster).or
      (if cluster ∈ (rows.filter (inWindowAt p start s.k)).map (·.clusterId) then some (foldId s.k) else none))
    (cluster : Option String) (fid : String) :
    assigned.get? cluster = some fid ↔ ∃ i < s.k + 1, fid = foldId i ∧ FirstSeen p rows start i cluster := by
  have hseen : cluster ∈ (rows.filter (inWindowAt p start s.k)).map (·.clusterId) ↔ Seen p rows start s.k cluster := by
    simp only [List.mem_map, List.mem_filter, Seen]
    exact exists_congr fun r => by tauto
  have hopen := h.open_iff cluster
  rw [hget]
  cases hold : s.assigned.get? cluster with
  | some old =>
    obtain ⟨i, hi, rfl, hfirst⟩ := (h.assigned cluster old).mp hold
    rw [Option.some_or, Option.some_inj]
    constructor
    · rintro rfl
      exact ⟨i, hi.trans (Nat.lt_succ_self _), rfl, hfirst⟩
    · rintro ⟨j, -, rfl, hj⟩
      -- a cluster is first seen in one window only
      rcases lt_trichotomy i j with hlt | rfl | hgt
      · exact absurd hfirst.1 (hj.2 i hlt)
      · rfl
      · exact absurd hj.1 (hfirst.2 j hgt)
  | none =>
    rw [hold] at hopen
    have hnever := hopen.mp rfl
    rw [Option.none_or]
    constructor
    · intro hsome
      split_ifs at hsome with hmem
      cases hsome
      exact ⟨s.k, Nat.lt_succ_self _, rfl, hseen.mp hmem, hnever⟩
    · rintro ⟨i, hi, rfl, hfirst⟩
      have hik : i = s.k := by
        by_contra hne
        exact hnever i (by omega) hfirst.1
      subst hik
      rw [if_pos (hseen.mpr hfirst.1)]

/-- A window adds its fold. -/
theorem Walked.turn (hids : (rows.map (·.episodeId)).Nodup) (h : Walked p rows start s)
    (hturn : turn p rows s = .ok s') : Walked p rows start s' ∧ s'.k = s.k + 1 := by
  unfold ResearchProtocol.turn at hturn
  obtain ⟨testEnd, hend, hturn⟩ := bind_ok hturn
  dsimp only at hturn
  obtain ⟨fold, hfold, hturn⟩ := bind_ok hturn
  have hs' := pure_ok hturn
  have hstop : testEnd = windowStart p start (s.k + 1) := by
    rw [plus_ok hend, windowStart_succ, h.testStart]
  rw [h.testStart, hstop] at hfold
  rw [h.testStart, hstop] at hs'
  obtain ⟨hget, htests, hboundary⟩ := assign_spec (foldId s.k) s.assigned (rows.filter (inWindowAt p start s.k))
  have hassign : assign (foldId s.k) s.assigned (rows.filter (inWindow (windowStart p start s.k)
      (windowStart p start (s.k + 1)))) = assign (foldId s.k) s.assigned (rows.filter (inWindowAt p start s.k)) := rfl
  rw [hassign] at hfold hs'
  have hmem : ∀ t, t ∈ (assign (foldId s.k) s.assigned (rows.filter (inWindowAt p start s.k))).2.1 ↔
      t ∈ rows ∧ inWindowAt p start s.k t = true ∧ ∀ j < s.k, ¬ Seen p rows start j t.clusterId := by
    intro t
    rw [htests, List.mem_filter, List.mem_filter, and_assoc, h.open_iff]
  have hclean : Clean p.labelMaturity rows (windowStart p start s.k) (windowStart p start (s.k + 1)) fold ∧
      fold.testIds = (assign (foldId s.k) s.assigned (rows.filter (inWindowAt p start s.k))).2.1.map
        (·.episodeId) := by
    unfold windowFold at hfold
    split_ifs at hfold with hempty
    · cases hfold
      rw [hempty]
      exact ⟨emptyFold_clean _, rfl⟩
    · refine testFold_clean hids (fun t ht => ((hmem t).mp ht).1) (fun b hb => ?_) hfold
      rw [hboundary] at hb
      obtain ⟨hbrow, hbwin⟩ := List.mem_filter.mp (List.mem_of_mem_filter hb)
      exact ⟨hbrow, not_startsBefore_of_inWindow hbwin⟩
  have hat : FoldAt p rows start s.k fold := by
    refine ⟨hclean.1, ?_, fun r hr => ?_⟩
    · rw [hclean.2, htests]
      exact (List.filter_sublist.trans List.filter_sublist).map _
    · rw [hclean.2]
      constructor
      · intro hid
        exact ((hmem r).mp (mem_of_id hids (fun t ht => ((hmem t).mp ht).1) hr hid)).2
      · intro hr'
        exact List.mem_map_of_mem ((hmem r).mpr ⟨hr, hr'⟩)
  subst hs'
  refine ⟨⟨rfl, ?_, h.assigned_next hget, fun i f hf => ?_⟩, rfl⟩
  · rw [List.length_append, h.length]
    rfl
  · rcases lt_or_ge i s.k with hlt | hge
    · rw [List.getElem?_append_left (by rw [h.length]; exact hlt)] at hf
      exact h.folds i f hf
    · rw [List.getElem?_append_right (by rw [h.length]; exact hge), h.length] at hf
      have hik : i = s.k := by
        by_contra hne
        rw [List.getElem?_eq_none (by rw [List.length_singleton]; omega)] at hf
        cases hf
      subst hik
      rw [Nat.sub_self] at hf
      cases hf
      exact hat

/-! ## The loop -/

theorem Walked.begin : Walked p rows start ⟨start, 0, .empty, []⟩ where
  testStart := by simp [windowStart]
  length := rfl
  assigned cluster fid := by simp
  folds i fold h := by cases h

/-- With a window that moves on, the loop ends, and what it returns was walked. -/
theorem loop_ends (hids : (rows.map (·.episodeId)).Nodup) (hspan : 0 < p.testSpan) (last : Int) {m : Nat}
    (h : Walked p rows start s) (hm : (last + 1 - s.testStart).toNat ≤ m) :
    ∃ outcome, (∀ n, m < n → loop p rows last n s = some outcome) ∧
      ∀ folds, outcome = .ok folds → ∃ t, Walked p rows start t ∧ t.folds = folds := by
  induction m generalizing s with
  | zero =>
    refine ⟨.ok s.folds, fun n hn => ?_, fun folds hf => ⟨s, h, Except.ok.inj hf⟩⟩
    obtain ⟨n, rfl⟩ := Nat.exists_eq_succ_of_ne_zero hn.ne'
    unfold loop
    rw [if_neg fun hon => absurd hon.1 (by omega)]
  | succ m ih =>
    by_cases hon : s.testStart ≤ last ∧ p.maxFolds.all (fun limit => (s.k : Int) < limit) = true
    · cases hturn : turn p rows s with
      | error e =>
        refine ⟨.error e, fun n hn => ?_, fun folds hf => by cases hf⟩
        obtain ⟨n, rfl⟩ := Nat.exists_eq_succ_of_ne_zero (Nat.ne_zero_of_lt hn)
        unfold loop
        rw [if_pos hon, hturn]
      | ok t =>
        obtain ⟨ht, hk⟩ := h.turn hids hturn
        have hmoved : t.testStart = s.testStart + p.testSpan := by
          rw [ht.testStart, hk, windowStart_succ, h.testStart]
        obtain ⟨outcome, hrun, hout⟩ := ih ht (by omega)
        refine ⟨outcome, fun n hn => ?_, hout⟩
        obtain ⟨n, rfl⟩ := Nat.exists_eq_succ_of_ne_zero (Nat.ne_zero_of_lt hn)
        unfold loop
        rw [if_pos hon, hturn]
        exact hrun n (by omega)
    · refine ⟨.ok s.folds, fun n hn => ?_, fun folds hf => ⟨s, h, Except.ok.inj hf⟩⟩
      obtain ⟨n, rfl⟩ := Nat.exists_eq_succ_of_ne_zero (Nat.ne_zero_of_lt hn)
      unfold loop
      rw [if_neg hon]

end

/-- A row is in the window of a fold. -/
def InWindowOf (fold : Fold) (r : Anchor) : Prop :=
  ∃ start stop, fold.testStart = some start ∧ fold.testEnd = some stop ∧ inWindow start stop r = true

/-- The folds of a walk: one window after the other, each episode tested once at most, in
the first window of its cluster, and nothing of a test in what is trained on. -/
structure LeakFree (labelMaturity : Int) (rows : List Anchor) (folds : List Fold) : Prop where
  contiguous : ∀ i a b, folds[i]? = some a → folds[i + 1]? = some b → b.testStart = a.testEnd
  clean : ∀ fold ∈ folds, ∃ testStart testEnd, Clean labelMaturity rows testStart testEnd fold
  tested : ∀ id ∈ folds.flatMap (·.testIds), id ∈ rows.map (·.episodeId)
  tested_once : (folds.flatMap (·.testIds)).Nodup
  earliest : ∀ i fold, folds[i]? = some fold → ∀ r ∈ rows, r.episodeId ∈ fold.testIds →
    InWindowOf fold r ∧ ∀ (j : Nat) (earlier : Fold), j < i → folds[j]? = some earlier →
      ∀ q ∈ rows, q.clusterId = r.clusterId → ¬ InWindowOf earlier q

section
variable {p : WalkForward} {rows : List Anchor} {start : Int} {s : Progress}

theorem inWindowOf_iff {i : Nat} {fold : Fold} (h : FoldAt p rows start i fold) (r : Anchor) :
    InWindowOf fold r ↔ inWindowAt p start i r = true := by
  obtain ⟨hstart, hstop⟩ := h.clean.window
  constructor
  · rintro ⟨a, b, ha, hb, hin⟩
    cases hstart.symm.trans ha
    cases hstop.symm.trans hb
    exact hin
  · exact fun hin => ⟨_, _, hstart, hstop, hin⟩

/-- No time is in two windows. -/
theorem inWindowAt_unique (hspan : 0 < p.testSpan) {i j : Nat} {r : Anchor} (hi : inWindowAt p start i r = true)
    (hj : inWindowAt p start j r = true) : i = j := by
  unfold inWindowAt inWindow at hi hj
  cases hr : r.tDec with
  | none =>
    rw [hr] at hi
    cases hi
  | some t =>
    rw [hr] at hi hj
    simp only [Option.any_some, Bool.and_eq_true, decide_eq_true_eq] at hi hj
    unfold windowStart at hi hj
    have before : ∀ {a b : Nat}, start + a * p.testSpan ≤ t → t < start + ((b + 1 : Nat) : Int) * p.testSpan → a ≤ b := by
      intro a b ha hb
      by_contra hlt
      have hle : ((b + 1 : Nat) : Int) ≤ a := by exact_mod_cast not_le.mp hlt
      have hmul := mul_le_mul_of_nonneg_right hle hspan.le
      omega
    exact le_antisymm (before hi.1 hj.2) (before hj.1 hi.2)

theorem Walked.leakFree (hids : (rows.map (·.episodeId)).Nodup) (hspan : 0 < p.testSpan)
    (h : Walked p rows start s) : LeakFree p.labelMaturity rows s.folds where
  contiguous i a b ha hb := by
    rw [(h.folds _ _ hb).clean.window.1, (h.folds _ _ ha).clean.window.2]
  clean fold hfold := by
    obtain ⟨i, hi⟩ := List.getElem?_of_mem hfold
    exact ⟨_, _, (h.folds i fold hi).clean⟩
  tested id hid := by
    obtain ⟨fold, hfold, hid⟩ := List.mem_flatMap.mp hid
    obtain ⟨i, hi⟩ := List.getElem?_of_mem hfold
    exact (h.folds i fold hi).sub.subset hid
  tested_once := by
    rw [List.nodup_flatMap]
    constructor
    · intro fold hfold
      obtain ⟨i, hi⟩ := List.getElem?_of_mem hfold
      exact hids.sublist (h.folds i fold hi).sub
    · rw [List.pairwise_iff_getElem]
      intro i j hi hj hlt
      have hati := h.folds i _ (List.getElem?_eq_getElem hi)
      have hatj := h.folds j _ (List.getElem?_eq_getElem hj)
      rw [Function.onFun, List.disjoint_left]
      intro id hidi hidj
      obtain ⟨r, hr, rfl⟩ := List.mem_map.mp (hati.sub.subset hidi)
      exact hlt.ne (inWindowAt_unique hspan ((hati.tests r hr).mp hidi).1 ((hatj.tests r hr).mp hidj).1)
  earliest i fold hfold r hr hid := by
    have hat := h.folds i fold hfold
    obtain ⟨hin, hnever⟩ := (hat.tests r hr).mp hid
    refine ⟨(inWindowOf_iff hat r).mpr hin, fun j earlier hj hearlier q hq hcluster hqin => ?_⟩
    exact hnever j hj ⟨q, hq, hcluster, (inWindowOf_iff (h.folds j earlier hearlier) q).mp hqin⟩

end

/-- A walk over any frame ends, and its folds do not leak. -/
theorem walkForward_leakFree (p : WalkForward) (anchors : Anchors) (hspan : 0 < p.testSpan) :
    ∃ turns outcome, (∀ n, turns ≤ n → walkForward p anchors n = some outcome) ∧
      ∀ folds, outcome = .ok folds → ∃ rows, check anchors = .ok rows ∧ LeakFree p.labelMaturity rows folds := by
  unfold walkForward
  by_cases hscheme : p.scheme ≠ "expanding" ∧ p.scheme ≠ "rolling"
  · exact ⟨0, .error .valueError, fun n _ => if_pos hscheme, fun folds hf => by cases hf⟩
  · simp only [if_neg hscheme]
    cases hcheck : check anchors with
    | error e => exact ⟨0, .error e, fun n _ => rfl, fun folds hf => by cases hf⟩
    | ok rows =>
      dsimp only
      by_cases hempty : rows = []
      · refine ⟨0, .ok [], fun n _ => if_pos hempty, fun folds hf => ⟨rows, rfl, ?_⟩⟩
        cases hf
        exact ⟨fun i a b ha => (by cases ha), fun fold hf => (by cases hf), fun id hid => (by cases hid),
          List.nodup_nil, fun i fold hf => (by cases hf)⟩
      · simp only [if_neg hempty]
        cases hbegin : beginning p rows with
        | error e => exact ⟨0, .error e, fun n _ => rfl, fun folds hf => by cases hf⟩
        | ok found =>
          obtain ⟨last, testStart⟩ := found
          have hids := (check_rows hcheck).1
          have hwalked : Walked p rows testStart ⟨testStart, 0, .empty, []⟩ := Walked.begin
          obtain ⟨outcome, hrun, hout⟩ := loop_ends hids hspan last hwalked le_rfl
          refine ⟨_, outcome, fun n hn => hrun n hn, fun folds hf => ⟨rows, rfl, ?_⟩⟩
          obtain ⟨t, ht, rfl⟩ := hout folds hf
          exact ht.leakFree hids hspan

end TraderBot.ResearchProtocol
