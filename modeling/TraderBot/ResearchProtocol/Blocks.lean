import TraderBot.ResearchProtocol.NoLeak

/-! # Folds over blocks

The bounds of the blocks rise from zero to the number of rows, whatever the rounding, so
the blocks are the rows cut in pieces. With a negative number of splits there are no
bounds and nothing is tested. -/
namespace TraderBot.ResearchProtocol
open TraderBot.Lib

/-! ## Rounding -/

theorem roundEven_bounds (q : ℚ) : ⌊q⌋ ≤ roundEven q ∧ roundEven q ≤ ⌊q⌋ + 1 := by
  unfold roundEven
  split_ifs <;> omega

theorem roundEven_mono {q r : ℚ} (h : q ≤ r) : roundEven q ≤ roundEven r := by
  rcases (Int.floor_mono h).lt_or_eq with hlt | heq
  · exact (roundEven_bounds q).2.trans (hlt.trans_le (roundEven_bounds r).1)
  · unfold roundEven
    rw [heq]
    split_ifs <;> first | omega | exact absurd h (by linarith)

theorem roundEven_intCast (z : Int) : roundEven (z : ℚ) = z := by
  unfold roundEven
  rw [Int.floor_intCast, sub_self, if_pos (by norm_num)]

/-! ## The bounds -/

/-- Bounds that rise from one to another. -/
def Rises (a b : Int) (xs : List Int) : Prop := xs.head? = some a ∧ xs.getLast? = some b ∧ xs.IsChain (· ≤ ·)

theorem bounds_rises {d : TrueDivision} {n : Nat} {nSplits : Int} {xs : List Int} (hn : (n : Int) < 2 ^ 53)
    (hpos : 0 ≤ nSplits) (h : bounds d n nSplits = .ok xs) : Rises 0 n xs := by
  unfold bounds at h
  split_ifs at h with hzero
  cases h
  have hlt : 0 < nSplits := lt_of_le_of_ne hpos (Ne.symm hzero)
  obtain ⟨m, hm⟩ : ∃ m : Nat, (nSplits + 1).toNat = m + 1 ∧ (m : Int) = nSplits := ⟨nSplits.toNat, by omega, by omega⟩
  have hfirst : roundEven (d.div ((0 : Nat) * n) nSplits) = 0 := by
    have hexact := d.exact (m := 0) hlt (by rw [abs_zero]; exact pow_pos two_pos 53)
    rw [Nat.cast_zero, zero_mul]
    rw [mul_zero] at hexact
    rw [hexact]
    exact roundEven_intCast 0
  have hlast : roundEven (d.div ((m : Nat) * n) nSplits) = n := by
    have hexact := d.exact hlt (lt_of_eq_of_lt (Nat.abs_cast n) hn)
    rw [hm.2, hexact]
    exact roundEven_intCast n
  rw [hm.1]
  refine ⟨?_, ?_, ?_⟩
  · rw [List.range_succ_eq_map, List.map_cons, List.head?_cons, hfirst]
  · rw [List.range_succ, List.map_append, List.map_singleton, List.getLast?_concat, hlast]
  · rw [List.isChain_map]
    refine (List.isChain_range_succ _ _).mpr fun i _ => ?_
    have hle : ((i : Nat) : Int) * n ≤ ((i + 1 : Nat) : Int) * n :=
      mul_le_mul_of_nonneg_right (by omega) (Int.natCast_nonneg n)
    exact roundEven_mono (d.mono hlt hle)

/-! ## The blocks -/

/-- A fold that trains on nothing of its tests. -/
structure Foreign (rows : List Anchor) (fold : Fold) : Prop where
  train_mem : ∀ id ∈ fold.trainIds, id ∈ rows.map (·.episodeId)
  untested : ∀ id ∈ fold.trainIds, id ∉ fold.testIds
  foreign : ∀ e ∈ rows, e.episodeId ∈ fold.trainIds → ∀ t ∈ testsOf rows fold,
    t.clusterId ≠ e.clusterId ∧ t.duplicateGroupId ≠ e.duplicateGroupId ∧ Apart e t

section
variable {s : PurgedKFold} {rows : List Anchor}

theorem take_append_slice {a b : Int} (h : a ≤ b) :
    rows.take a.toNat ++ slice rows a b = rows.take b.toNat := by
  have hle : a.toNat ≤ b.toNat := Int.toNat_le_toNat h
  unfold slice
  conv_rhs => rw [← List.take_append_drop a.toNat (rows.take b.toNat), List.take_take, min_eq_left hle]

theorem slice_sublist (a b : Int) : (slice rows a b).Sublist rows :=
  (List.drop_sublist _ _).trans (List.take_sublist _ _)

theorem block_foreign {k : Nat} {a b : Int} {fold : Option Fold} (hids : (rows.map (·.episodeId)).Nodup)
    (hab : a ≤ b) (h : block s rows k a b = .ok fold) :
    fold.toList.flatMap (·.testIds) = (slice rows a b).map (·.episodeId) ∧ ∀ f ∈ fold, Foreign rows f := by
  unfold block at h
  dsimp only at h
  split_ifs at h with hempty
  · cases h
    rw [hempty]
    exact ⟨rfl, fun f hf => by cases hf⟩
  · obtain ⟨⟨keep, why⟩, hpurge, h⟩ := bind_ok h
    obtain ⟨start, -, h⟩ := bind_ok h
    obtain ⟨interval, -, h⟩ := bind_ok h
    have hfold := pure_ok h
    subst hfold
    -- the rows are what is before the block, the block and what is after it
    have hrows : rows = rows.take a.toNat ++ slice rows a b ++ rows.drop b.toNat := by
      rw [take_append_slice hab, List.take_append_drop]
    have hperm : rows.Perm (slice rows a b ++ (rows.take a.toNat ++ rows.drop b.toNat)) := by
      conv_lhs => rw [hrows]
      rw [← List.append_assoc]
      exact (List.perm_append_comm.append_right _)
    have hparts := (hperm.map (·.episodeId)).nodup_iff.mp hids
    rw [List.map_append, List.nodup_append] at hparts
    obtain ⟨-, hcandIds, hdisjoint⟩ := hparts
    obtain ⟨hkeepMem, -, heach⟩ := purgeTrain_decides hcandIds hpurge
    have hcandRows : ∀ c ∈ rows.take a.toNat ++ rows.drop b.toNat, c ∈ rows := fun c hc =>
      hperm.mem_iff.mpr (List.mem_append_right _ hc)
    refine ⟨by simp, fun f hf => ?_⟩
    cases hf
    refine ⟨fun id hid => ?_, fun id hid hmem => ?_, fun e he hmem t ht => ?_⟩
    · obtain ⟨c, hc, rfl⟩ := List.mem_map.mp hid
      exact List.mem_map_of_mem (hcandRows c (List.mem_of_mem_filter hc))
    · obtain ⟨c, hc, rfl⟩ := List.mem_map.mp hid
      exact hdisjoint _ hmem _ (List.mem_map_of_mem (List.mem_of_mem_filter hc)) rfl
    · have hkept := mem_of_id hids (fun x hx => hcandRows x (List.mem_of_mem_filter hx)) he hmem
      obtain ⟨hec, hkeep⟩ := List.mem_filter.mp hkept
      rcases heach e hec with ⟨-, -, hreason⟩ | ⟨hnot, -⟩
      · obtain ⟨-, hforeign, hapart⟩ := kept_of_purgeReason hreason
        obtain ⟨htr, hid⟩ := List.mem_filter.mp ht
        have htt := mem_of_id hids (fun x hx => (slice_sublist a b).subset hx) htr (by simpa using hid)
        exact ⟨(hforeign t htt).1, (hforeign t htt).2, hapart t htt⟩
      · exact absurd (by simpa using hkeep) hnot

/-- Blocks between rising bounds are the rows between the first and the last. -/
theorem blocks_spec (hids : (rows.map (·.episodeId)).Nodup) {xs : List Int} {a b : Int}
    (hrises : Rises a b xs) {k : Nat} {folds : List Fold} (h : blocks s rows k xs = .ok folds) :
    (rows.take a.toNat).map (·.episodeId) ++ folds.flatMap (·.testIds) = (rows.take b.toNat).map (·.episodeId) ∧
      ∀ fold ∈ folds, Foreign rows fold := by
  induction xs generalizing a k folds with
  | nil => cases hrises.1
  | cons x xs ih =>
    obtain ⟨hfirst, hlast, hchain⟩ := hrises
    cases hfirst
    cases xs with
    | nil =>
      cases hlast
      cases h
      exact ⟨by simp, fun fold hf => by cases hf⟩
    | cons y ys =>
      obtain ⟨fold, hfold, h⟩ := bind_ok h
      obtain ⟨rest, hrest, h⟩ := bind_ok h
      have hfolds := pure_ok h
      subst hfolds
      rw [List.isChain_cons_cons] at hchain
      obtain ⟨htests, hforeign⟩ := block_foreign hids hchain.1 hfold
      obtain ⟨hrestTests, hrestForeign⟩ := ih ⟨rfl, by simpa using hlast, hchain.2⟩ hrest
      constructor
      · rw [List.flatMap_append, htests, ← List.append_assoc, ← List.map_append, take_append_slice hchain.1]
        exact hrestTests
      · intro f hf
        rcases List.mem_append.mp hf with hf | hf
        · exact hforeign f (Option.mem_toList.mp hf)
        · exact hrestForeign f hf

end

/-- The blocks test each row once and train on nothing of their tests. -/
theorem split_foreign (d : TrueDivision) (s : PurgedKFold) (hsplits : 0 ≤ s.nSplits) {folds : List Fold}
    (h : split d s = .ok folds) : ∃ rows, check s.t1 = .ok rows ∧
      folds.flatMap (·.testIds) = rows.map (·.episodeId) ∧ ∀ fold ∈ folds, Foreign rows fold := by
  unfold split at h
  obtain ⟨rows, hcheck, h⟩ := bind_ok h
  obtain ⟨xs, hbounds, h⟩ := bind_ok h
  obtain ⟨hids, hperm⟩ := check_rows hcheck
  have hlength : rows.length < 2 ^ 32 := by
    rw [hperm.length_eq, List.length_map]
    exact s.t1.indexed
  have hrises := bounds_rises (by omega) hsplits hbounds
  obtain ⟨htests, hforeign⟩ := blocks_spec hids hrises h
  refine ⟨rows, hcheck, ?_, hforeign⟩
  simpa using htests

/-- **Walks and blocks do not leak.** A walk with a positive test span ends, and its folds
are free of leaks; blocks of a number of splits that is not negative test every row
once, and train on nothing of their tests. -/
theorem splits_do_not_leak :
    (∀ (p : WalkForward) (anchors : Anchors), 0 < p.testSpan → ∃ turns outcome,
      (∀ n, turns ≤ n → walkForward p anchors n = some outcome) ∧
        ∀ folds, outcome = .ok folds → ∃ rows, check anchors = .ok rows ∧ LeakFree p.labelMaturity rows folds) ∧
      ∀ (d : TrueDivision) (s : PurgedKFold), 0 ≤ s.nSplits → ∀ folds, split d s = .ok folds →
        ∃ rows, check s.t1 = .ok rows ∧ folds.flatMap (·.testIds) = rows.map (·.episodeId) ∧
          ∀ fold ∈ folds, Foreign rows fold :=
  ⟨walkForward_leakFree, fun d s hsplits _ => split_foreign d s hsplits⟩

/-! ## Two episodes -/

/-- Division without rounding. -/
def exactDivision : TrueDivision where
  div a n := a / n
  mono hn hab := by
    have hpos : (0 : ℚ) < (_ : Int) := Int.cast_pos.mpr hn
    exact div_le_div_of_nonneg_right (Int.cast_le.mpr hab) hpos.le
  exact {m n} hn _ := by
    have hne : (n : ℚ) ≠ 0 := Int.cast_ne_zero.mpr hn.ne'
    rw [Int.cast_mul, mul_div_cancel_left₀ _ hne]

def day : Int := 86400000000

/-- An episode of the first cluster, and one of the second a hundred days later. -/
def twoEpisodes : Anchors where
  hasEpisodeId := true
  hasClusterId := true
  hasTDec := true
  hasT1 := true
  hasDuplicateGroupId := false
  tDecUtc := true
  t1Utc := true
  rows :=
    [⟨some "e-1", some "c-1", none, some (738000 * day), some (738001 * day)⟩,
      ⟨some "e-2", some "c-2", none, some (738100 * day), some (738101 * day)⟩]
  indexed := by decide

def monthly : WalkForward where
  scheme := "expanding"
  minTrainClusters := 1
  embargo := 0
  labelMaturity := 0
  testSpan := 30 * day
  minTrainSpan := 90 * day
  trainSpan := none
  origin := none
  maxFolds := none

theorem splits_do_not_leak_twoEpisodes :
    (∃ turns outcome, (∀ n, turns ≤ n → walkForward monthly twoEpisodes n = some outcome) ∧
      ∀ folds, outcome = .ok folds → ∃ rows, check twoEpisodes = .ok rows ∧ LeakFree 0 rows folds) ∧
      ∀ folds, split exactDivision ⟨twoEpisodes, 2, 0, 0⟩ = .ok folds →
        ∃ rows, check twoEpisodes = .ok rows ∧ folds.flatMap (·.testIds) = rows.map (·.episodeId) ∧
          ∀ fold ∈ folds, Foreign rows fold :=
  ⟨splits_do_not_leak.1 monthly twoEpisodes (by decide),
    splits_do_not_leak.2 exactDivision ⟨twoEpisodes, 2, 0, 0⟩ (by decide)⟩

/-- The walk tests the second episode, trained on the first. -/
example : (walkForward monthly twoEpisodes 2).map (fun folds => folds.toOption.map fun folds =>
    folds.map fun fold => (fold.trainIds, fold.testIds)) = some (some [([some "e-1"], [some "e-2"])]) := by
  decide +kernel

/-- A negative number of splits tests nothing. -/
theorem negative_splits : split exactDivision ⟨twoEpisodes, -1, 0, 0⟩ = .ok [] ∧
    ¬ ∃ rows, check twoEpisodes = .ok rows ∧ ([] : List Fold).flatMap (·.testIds) = rows.map (·.episodeId) := by
  have hcheck : (check twoEpisodes).map (·.map (·.episodeId)) = .ok [some "e-1", some "e-2"] := by decide +kernel
  refine ⟨by decide +kernel, ?_⟩
  rintro ⟨rows, hrows, htests⟩
  rw [hrows] at hcheck
  have hids : rows.map (·.episodeId) = [some "e-1", some "e-2"] := Except.ok.inj hcheck
  rw [hids] at htests
  cases htests

end TraderBot.ResearchProtocol
