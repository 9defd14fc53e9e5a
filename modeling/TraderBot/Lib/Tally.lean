import Mathlib

/-! # Tallies

A quantity tallied from reports that are sorted by time. A report is about an
identity and says how much it added (`delta`) or how much there was in all
(`anchor`). An identity adds once, with its first report; the anchors of one
time count when that time is over.

The tally is the largest of what was added in all and, for every report, of its
anchor and what was added at later times (`tally_lt_iff`). -/
namespace TraderBot.Lib
set_option linter.unusedSectionVars false

variable {T ι K : Type} [LinearOrder T] [DecidableEq ι]
  [Field K] [LinearOrder K] [IsStrictOrderedRing K]

/-- What one report says; an amount it does not give is zero. -/
structure Report (T ι K : Type) [Zero K] [LE K] where
  time : T
  identity : ι
  anchor : K
  delta : K
  anchor_nonneg : 0 ≤ anchor
  delta_nonneg : 0 ≤ delta

structure Tally (T ι K : Type) [Zero K] where
  total : K := 0
  anchor : K := 0
  seen : Finset ι := ∅
  time : Option T := none

namespace Tally

/-- A new time ends the one before it. -/
def enter (s : Tally T ι K) (t : T) : Tally T ι K :=
  if some t = s.time then s
  else { s with total := max s.total s.anchor, anchor := 0, time := some t }

def step (s : Tally T ι K) (r : Report T ι K) : Tally T ι K :=
  { s.enter r.time with
    total := if r.identity ∈ s.seen then (s.enter r.time).total
      else (s.enter r.time).total + r.delta
    anchor := max (s.enter r.time).anchor r.anchor
    seen := insert r.identity s.seen }

def result (s : Tally T ι K) : K := max s.total s.anchor

variable {s : Tally T ι K}

theorem enter_same {t : T} (h : s.time = some t) : s.enter t = s :=
  if_pos h.symm

theorem enter_other {t : T} (h : s.time ≠ some t) :
    s.enter t = { s with total := s.result, anchor := 0, time := some t } :=
  if_neg (Ne.symm h)

@[simp] theorem step_time (s : Tally T ι K) (r : Report T ι K) : (s.step r).time = some r.time := by
  show (s.enter r.time).time = some r.time
  unfold enter
  split_ifs with h
  · exact h.symm
  · rfl

/-- The total after a report: what the time before it left, and what is new. -/
theorem step_total (s : Tally T ι K) (r : Report T ι K) :
    (s.step r).total = (s.enter r.time).total + if r.identity ∈ s.seen then 0 else r.delta := by
  show (if r.identity ∈ s.seen then _ else _) = _
  split_ifs
  · rw [add_zero]
  · rfl

theorem step_anchor (s : Tally T ι K) (r : Report T ι K) :
    (s.step r).anchor = max (s.enter r.time).anchor r.anchor := rfl

@[simp] theorem step_seen (s : Tally T ι K) (r : Report T ι K) :
    (s.step r).seen = insert r.identity s.seen := rfl

theorem enter_result (h : 0 ≤ s.total) (t : T) :
    (s.enter t).result = s.result ∧ s.total ≤ (s.enter t).total := by
  unfold enter
  split_ifs
  · exact ⟨rfl, le_rfl⟩
  · have hle : s.total ≤ max s.total s.anchor := le_max_left _ _
    exact ⟨max_eq_left (h.trans hle), hle⟩

/-- A report never takes anything away. -/
theorem step_result (h : 0 ≤ s.total) (r : Report T ι K) :
    s.total ≤ (s.step r).total ∧ s.result ≤ (s.step r).result := by
  obtain ⟨heq, hle⟩ := enter_result h r.time
  have hdelta := r.delta_nonneg
  have htotal : (s.enter r.time).total ≤ (s.step r).total := by
    rw [step_total]
    split_ifs <;> linarith
  refine ⟨hle.trans htotal, ?_⟩
  rw [← heq]
  exact max_le_max htotal (le_max_left _ _)

theorem foldl_result (h : 0 ≤ s.total) (rs : List (Report T ι K)) :
    0 ≤ (rs.foldl step s).total ∧ s.result ≤ (rs.foldl step s).result := by
  induction rs generalizing s with
  | nil => exact ⟨h, le_rfl⟩
  | cons r rs ih =>
    obtain ⟨htotal, hresult⟩ := step_result h r
    obtain ⟨h1, h2⟩ := ih (h.trans htotal)
    exact ⟨h1, hresult.trans h2⟩

end Tally

/-- The tally of a list of reports. -/
def tally (rs : List (Report T ι K)) : K := (rs.foldl Tally.step {}).result

/-! ## What is added -/

/-- What reports add at the times that count, by identities not seen before. -/
def added (p : T → Bool) : Finset ι → List (Report T ι K) → K
  | _, [] => 0
  | seen, r :: rs =>
    (if r.identity ∉ seen ∧ p r.time = true then r.delta else 0) + added p (insert r.identity seen) rs

variable (seen : Finset ι) (p : T → Bool) {rs : List (Report T ι K)} {s : Tally T ι K} {t : T}

/-- Where every time counts. -/
theorem added_all_cons (r : Report T ι K) (rs : List (Report T ι K)) :
    added (fun _ => true) seen (r :: rs) =
      (if r.identity ∈ seen then 0 else r.delta) + added (fun _ => true) (insert r.identity seen) rs := by
  rw [added]
  by_cases h : r.identity ∈ seen <;> simp [h]

theorem added_nonneg (seen : Finset ι) (rs : List (Report T ι K)) : 0 ≤ added p seen rs := by
  induction rs generalizing seen with
  | nil => exact le_rfl
  | cons r rs ih =>
    have hdelta := r.delta_nonneg
    have hrest := ih (insert r.identity seen)
    rw [added]
    split_ifs <;> linarith

theorem added_mono {p q : T → Bool} (h : ∀ r ∈ rs, p r.time = true → q r.time = true) :
    added p seen rs ≤ added q seen rs := by
  induction rs generalizing seen with
  | nil => exact le_rfl
  | cons r rs ih =>
    have hrest := ih (insert r.identity seen) fun x hx => h x (List.mem_cons_of_mem _ hx)
    have hdelta := r.delta_nonneg
    have hr := h r (by simp)
    rw [added, added]
    by_cases hp : r.identity ∉ seen ∧ p r.time = true
    · rw [if_pos hp, if_pos ⟨hp.1, hr hp.2⟩]
      linarith
    · rw [if_neg hp]
      split_ifs <;> linarith

/-- The times that count only matter where there are reports. -/
theorem added_congr {p q : T → Bool} (h : ∀ r ∈ rs, p r.time = q r.time) :
    added p seen rs = added q seen rs := by
  refine le_antisymm (added_mono seen fun r hr hp => ?_) (added_mono seen fun r hr hq => ?_)
  · rw [← h r hr]; exact hp
  · rw [h r hr]; exact hq

/-! ## The tally in closed form -/

theorem Tally.foldl_lt_iff (rs : List (Report T ι K)) {x : K} (ht : s.time = some t)
    (hle : ∀ r ∈ rs, t ≤ r.time) (hs : rs.Pairwise fun a b => a.time ≤ b.time) :
    (rs.foldl step s).result < x ↔
      s.total + added (fun _ => true) s.seen rs < x ∧
        s.anchor + added (fun u => decide (t < u)) s.seen rs < x ∧
        ∀ r ∈ rs, r.anchor + added (fun u => decide (r.time < u)) s.seen rs < x := by
  induction rs generalizing s t with
  | nil => simp [added, result]
  | cons r rs ih =>
    obtain ⟨hr, hs⟩ := List.pairwise_cons.mp hs
    rw [List.foldl_cons, ih (step_time s r) hr hs, step_seen]
    -- later anchors do not see what `r` adds
    have hlater : ∀ r' ∈ r :: rs, added (fun u => decide (r'.time < u)) s.seen (r :: rs) =
        added (fun u => decide (r'.time < u)) (insert r.identity s.seen) rs := by
      intro r' hr'
      have hnot : ¬ (r'.time < r.time) := by
        rcases List.mem_cons.mp hr' with rfl | hr'
        · exact lt_irrefl _
        · exact not_lt.mpr (hr r' hr')
      rw [added, if_neg (by simp [hnot]), zero_add]
    have hrest : (∀ r' ∈ rs, r'.anchor + added (fun u => decide (r'.time < u))
        (insert r.identity s.seen) rs < x) ↔
        ∀ r' ∈ rs, r'.anchor + added (fun u => decide (r'.time < u)) s.seen (r :: rs) < x := by
      refine forall₂_congr fun r' hr' => ?_
      rw [hlater r' (List.mem_cons_of_mem _ hr')]
    rw [hrest, List.forall_mem_cons, hlater r (by simp), added_all_cons, step_total, step_anchor]
    by_cases hsame : t = r.time
    · subst hsame
      rw [enter_same ht, hlater r (by simp), ← max_add_add_right, max_lt_iff, ← add_assoc]
      tauto
    · -- the time before is over: its anchor is a total now
      have hlt : t < r.time := lt_of_le_of_ne (hle r (by simp)) hsame
      have hpast : added (fun u => decide (t < u)) s.seen (r :: rs) =
          added (fun _ => true) s.seen (r :: rs) := by
        refine added_congr _ fun r' hr' => decide_eq_true ?_
        rcases List.mem_cons.mp hr' with rfl | hr'
        · exact hlt
        · exact hlt.trans_le (hr r' hr')
      rw [enter_other (by rw [ht]; simpa using hsame), hpast, added_all_cons,
        max_eq_right r.anchor_nonneg]
      show max s.total s.anchor + _ + _ < x ∧ _ ↔ _
      rw [add_assoc, ← max_add_add_right, max_lt_iff]
      tauto

/-- **The tally is the largest start**: nothing, or some report's anchor, and what
was added after it. -/
theorem tally_lt_iff (hs : rs.Pairwise fun a b => a.time ≤ b.time) {x : K} :
    tally rs < x ↔ added (fun _ => true) ∅ rs < x ∧
      ∀ r ∈ rs, r.anchor + added (fun u => decide (r.time < u)) ∅ rs < x := by
  cases rs with
  | nil => simp [tally, added, Tally.result]
  | cons r rs =>
    have hle : ∀ r' ∈ r :: rs, r.time ≤ r'.time := by
      intro r' hr'
      rcases List.mem_cons.mp hr' with rfl | hr'
      · exact le_rfl
      · exact (List.pairwise_cons.mp hs).1 r' hr'
    -- nothing stands before the first time
    have hfirst : tally (r :: rs) =
        ((r :: rs).foldl Tally.step { time := some r.time }).result := by
      have hstep : Tally.step {} r = Tally.step { time := some r.time } r := by
        simp [Tally.step, Tally.enter]
      rw [tally, List.foldl_cons, List.foldl_cons, hstep]
    rw [hfirst, Tally.foldl_lt_iff (r :: rs) rfl hle hs]
    show 0 + _ < x ∧ 0 + _ < x ∧ _ ↔ _
    rw [zero_add, zero_add]
    refine ⟨fun h => ⟨h.1, h.2.2⟩, fun h => ⟨h.1, ?_, h.2⟩⟩
    exact (added_mono _ fun _ _ _ => rfl).trans_lt h.1

/-! ## Sums over identities -/

/-- Who the reports are about. -/
def identities (rs : List (Report T ι K)) : Finset ι := (rs.map Report.identity).toFinset

/-- What an identity adds: its first report, where its time counts. -/
def addedBy (p : T → Bool) (rs : List (Report T ι K)) (i : ι) : K :=
  match rs.find? fun r => r.identity = i with
  | some r => if p r.time then r.delta else 0
  | none => 0

theorem mem_identities {i : ι} : i ∈ identities rs ↔ ∃ r ∈ rs, r.identity = i := by
  simp [identities]

theorem addedBy_cons_self (r : Report T ι K) (rs : List (Report T ι K)) :
    addedBy p (r :: rs) r.identity = if p r.time then r.delta else 0 := by
  simp [addedBy]

theorem addedBy_cons_of_ne {r : Report T ι K} (rs : List (Report T ι K)) {i : ι}
    (h : i ≠ r.identity) : addedBy p (r :: rs) i = addedBy p rs i := by
  simp [addedBy, Ne.symm h]

/-- What is added is the sum over the identities that are new. -/
theorem added_eq_sum (seen : Finset ι) (rs : List (Report T ι K)) :
    added p seen rs = ∑ i ∈ identities rs \ seen, addedBy p rs i := by
  induction rs generalizing seen with
  | nil => simp [added, identities]
  | cons r rs ih =>
    have hrest : ∑ i ∈ identities rs \ insert r.identity seen, addedBy p (r :: rs) i =
        added p (insert r.identity seen) rs := by
      rw [ih]
      refine Finset.sum_congr rfl fun i hi => addedBy_cons_of_ne p rs ?_
      rintro rfl
      simp at hi
    have hids : identities (r :: rs) = insert r.identity (identities rs) := by simp [identities]
    rw [added, ← hrest, hids]
    by_cases hseen : r.identity ∈ seen
    · have hsets : insert r.identity (identities rs) \ seen =
          identities rs \ insert r.identity seen := by
        ext i
        by_cases hi : i = r.identity <;> simp [hi, hseen]
      rw [hsets, if_neg (by simp [hseen]), zero_add]
    · have hsets : insert r.identity (identities rs) \ seen =
          insert r.identity (identities rs \ insert r.identity seen) := by
        ext i
        by_cases hi : i = r.identity <;> simp [hi, hseen]
      rw [hsets, Finset.sum_insert (by simp), addedBy_cons_self]
      simp [hseen]

/-- Reports about one identity say the same about when and how much. -/
def Consistent (rs : List (Report T ι K)) : Prop :=
  ∀ a ∈ rs, ∀ b ∈ rs, a.identity = b.identity → a.time = b.time ∧ a.delta = b.delta

theorem addedBy_of_mem {p : T → Bool} {r : Report T ι K} (h : Consistent rs) (hr : r ∈ rs) :
    addedBy p rs r.identity = if p r.time then r.delta else 0 := by
  unfold addedBy
  cases hf : rs.find? fun x => x.identity = r.identity with
  | none =>
    have hnone := List.find?_eq_none.mp hf r hr
    simp at hnone
  | some x =>
    have hx : x.identity = r.identity := by simpa using List.find?_some hf
    obtain ⟨htime, hdelta⟩ := h x (List.mem_of_find?_eq_some hf) r hr hx
    simp only [htime, hdelta]

theorem added_subset {p : T → Bool} {rs' : List (Report T ι K)} (h : Consistent rs')
    (hsub : rs ⊆ rs') : added p ∅ rs ≤ added p ∅ rs' := by
  have hcon : Consistent rs := fun a ha b hb => h a (hsub ha) b (hsub hb)
  rw [added_eq_sum, added_eq_sum, Finset.sdiff_empty, Finset.sdiff_empty]
  have hids : identities rs ⊆ identities rs' := by
    intro i hi
    obtain ⟨r, hr, rfl⟩ := mem_identities.mp hi
    exact mem_identities.mpr ⟨r, hsub hr, rfl⟩
  calc ∑ i ∈ identities rs, addedBy p rs i = ∑ i ∈ identities rs, addedBy p rs' i := by
        refine Finset.sum_congr rfl fun i hi => ?_
        obtain ⟨r, hr, rfl⟩ := mem_identities.mp hi
        rw [addedBy_of_mem hcon hr, addedBy_of_mem h (hsub hr)]
    _ ≤ ∑ i ∈ identities rs', addedBy p rs' i := by
        refine Finset.sum_le_sum_of_subset_of_nonneg hids fun i hi _ => ?_
        obtain ⟨r, hr, rfl⟩ := mem_identities.mp hi
        rw [addedBy_of_mem h hr]
        split_ifs
        · exact r.delta_nonneg
        · exact le_rfl

/-- **More reports never tally less**, in whatever order they came. -/
theorem tally_subset {rs' : List (Report T ι K)} (h : Consistent rs') (hsub : rs ⊆ rs')
    (hs : rs.Pairwise fun a b => a.time ≤ b.time) (hs' : rs'.Pairwise fun a b => a.time ≤ b.time) :
    tally rs ≤ tally rs' := by
  by_contra hlt
  obtain ⟨hall, hstart⟩ := (tally_lt_iff hs').mp (not_le.mp hlt)
  refine lt_irrefl (tally rs) ((tally_lt_iff hs).mpr ⟨?_, fun r hr => ?_⟩)
  · exact (added_subset h hsub).trans_lt hall
  · exact (add_le_add_right (added_subset h hsub) _).trans_lt (hstart r (hsub hr))

/-! ## One time at a time -/

/-- The largest anchor of one time. -/
def anchorAt (t : T) (rs : List (Report T ι K)) : K :=
  (rs.filter fun r => decide (r.time = t)).foldl (fun a r => max a r.anchor) 0

theorem foldl_seen (rs : List (Report T ι K)) (s : Tally T ι K) :
    (rs.foldl Tally.step s).seen = s.seen ∪ identities rs := by
  induction rs generalizing s with
  | nil => simp [identities]
  | cons r rs ih =>
    rw [List.foldl_cons, ih, Tally.step_seen]
    ext i
    simp [identities]

theorem added_append (seen : Finset ι) (as bs : List (Report T ι K)) :
    added p seen (as ++ bs) = added p seen as + added p (seen ∪ identities as) bs := by
  induction as generalizing seen with
  | nil => simp [added, identities]
  | cons r rs ih =>
    have hseen : insert r.identity seen ∪ identities rs = seen ∪ identities (r :: rs) := by
      ext i
      simp [identities]
    rw [List.cons_append, added, added, ih, hseen, add_assoc]

/-- The reports of one time, from the state they find. -/
theorem Tally.foldl_same (rs : List (Report T ι K)) (ht : s.time = some t)
    (hs : ∀ r ∈ rs, r.time = t) :
    (rs.foldl step s).total = s.total + added (fun _ => true) s.seen rs ∧
      (rs.foldl step s).anchor = rs.foldl (fun a r => max a r.anchor) s.anchor := by
  induction rs generalizing s with
  | nil => simp [added]
  | cons r rs ih =>
    have hr := hs r (by simp)
    have htime : (s.step r).time = some t := by rw [step_time, hr]
    obtain ⟨htotal, hanchor⟩ := ih htime fun x hx => hs x (List.mem_cons_of_mem _ hx)
    have henter : s.enter r.time = s := enter_same (by rw [ht, hr])
    rw [List.foldl_cons, htotal, hanchor, added_all_cons, step_total, step_anchor, henter, step_seen]
    exact ⟨by rw [add_assoc], rfl⟩

theorem added_eq_zero {p : T → Bool} (h : ∀ r ∈ rs, p r.time = false) : added p seen rs = 0 := by
  refine le_antisymm ?_ (added_nonneg p seen rs)
  calc added p seen rs ≤ added (fun _ => false) seen rs :=
        added_mono seen fun r hr hp => by rw [h r hr] at hp; cases hp
    _ = 0 := by
        clear h
        induction rs generalizing seen with
        | nil => rfl
        | cons r rs ih =>
          rw [added, ih]
          simp

/-- Sorted reports: those before a time, those of it and those after it. -/
theorem split_at_time (hs : rs.Pairwise fun a b => a.time ≤ b.time) (t : T) :
    (rs.filter fun r => decide (r.time ≤ t)) =
        (rs.filter fun r => decide (r.time < t)) ++ rs.filter (fun r => decide (r.time = t)) ∧
      rs = (rs.filter fun r => decide (r.time ≤ t)) ++ rs.filter fun r => decide (t < r.time) := by
  induction rs with
  | nil => simp
  | cons r rs ih =>
    obtain ⟨hr, hs⟩ := List.pairwise_cons.mp hs
    obtain ⟨hle, hall⟩ := ih hs
    rcases lt_trichotomy r.time t with hlt | rfl | hgt
    · constructor
      · simp [hlt, hlt.le, hlt.ne, hle]
      · simp only [List.filter_cons, hlt.le, not_lt_of_gt hlt, decide_true, decide_false, if_true,
          Bool.false_eq_true, if_false, List.cons_append]
        rw [← hall]
    · have hnone : (rs.filter fun x => decide (x.time < r.time)) = [] := by
        simpa using hr
      constructor
      · simp [hnone, hle]
      · simp only [List.filter_cons, le_refl, lt_irrefl, decide_true, decide_false, if_true,
          Bool.false_eq_true, if_false, List.cons_append]
        rw [← hall]
    · have hnone : (rs.filter fun x => decide (x.time ≤ t)) = [] := by
        simpa using fun x hx => hgt.trans_le (hr x hx)
      have hrest : (rs.filter fun x => decide (t < x.time)) = rs := by
        simpa using fun x hx => hgt.trans_le (hr x hx)
      rw [hnone] at hle
      obtain ⟨h1, h2⟩ := List.append_eq_nil_iff.mp hle.symm
      constructor
      · simp [not_le_of_gt hgt, not_lt_of_gt hgt, hgt.ne', hnone, h1, h2]
      · simp [not_le_of_gt hgt, hgt, hnone, hrest]

theorem tally_nonneg (rs : List (Report T ι K)) : 0 ≤ tally rs :=
  (Tally.foldl_result le_rfl rs).1.trans (le_max_left _ _)

theorem Tally.foldl_time (rs : List (Report T ι K)) (h : (rs.foldl step s).time = some t) :
    s.time = some t ∨ ∃ r ∈ rs, r.time = t := by
  induction rs generalizing s with
  | nil => exact .inl h
  | cons r rs ih =>
    rcases ih h with h | ⟨x, hx, hxt⟩
    · rw [step_time, Option.some.injEq] at h
      exact .inr ⟨r, by simp, h⟩
    · exact .inr ⟨x, List.mem_cons_of_mem _ hx, hxt⟩

/-- The reports up to a time never tally more than all of them. -/
theorem tally_filter_le (hs : rs.Pairwise fun a b => a.time ≤ b.time) (t : T) :
    tally (rs.filter fun r => decide (r.time ≤ t)) ≤ tally rs := by
  have hsplit := (split_at_time hs t).2
  have hall : tally rs = ((rs.filter fun r => decide (t < r.time)).foldl Tally.step
      ((rs.filter fun r => decide (r.time ≤ t)).foldl Tally.step {})).result := by
    rw [← List.foldl_append, ← hsplit]
    rfl
  rw [hall]
  exact (Tally.foldl_result (Tally.foldl_result le_rfl _).1 _).2

theorem added_filter_le (hs : rs.Pairwise fun a b => a.time ≤ b.time) (p : T → Bool) (t : T) :
    added p ∅ (rs.filter fun r => decide (r.time ≤ t)) ≤ added p ∅ rs := by
  conv_rhs => rw [(split_at_time hs t).2, added_append]
  exact le_add_of_nonneg_right (added_nonneg _ _ _)

/-- **How one time changes a tally**: what was new is added, and the largest anchor
takes over where it is larger. -/
theorem tally_upTo (hs : rs.Pairwise fun a b => a.time ≤ b.time) (t : T) :
    tally (rs.filter fun r => decide (r.time ≤ t)) =
      max (tally (rs.filter fun r => decide (r.time < t)) + added (fun u => decide (u = t)) ∅ rs)
        (anchorAt t rs) := by
  obtain ⟨hsplit, hall⟩ := split_at_time hs t
  set early := rs.filter fun r => decide (r.time < t) with hearly
  set same := rs.filter fun r => decide (r.time = t) with hsame
  have hsame_time : ∀ r ∈ same, r.time = t := fun r hr => by simpa using (List.mem_filter.mp hr).2
  have hearly_time : ∀ r ∈ early, r.time < t := fun r hr => by simpa using (List.mem_filter.mp hr).2
  have hadded : added (fun u => decide (u = t)) ∅ rs =
      added (fun _ => true) (identities early) same := by
    have h1 : added (fun u => decide (u = t)) ∅ early = 0 :=
      added_eq_zero _ fun r hr => decide_eq_false (hearly_time r hr).ne
    have h2 : added (fun u => decide (u = t)) (∅ ∪ identities (early ++ same))
        (rs.filter fun r => decide (t < r.time)) = 0 := by
      refine added_eq_zero _ fun r hr => decide_eq_false ?_
      have := (List.mem_filter.mp hr).2
      exact ne_of_gt (by simpa using this)
    rw [hall, hsplit, added_append, added_append, h1, h2, zero_add, add_zero, Finset.empty_union]
    exact added_congr _ fun r hr => decide_eq_true (hsame_time r hr)
  rw [hsplit, hadded]
  cases hcase : same with
  | nil =>
    have hanchor : anchorAt t rs = 0 := by
      show same.foldl _ 0 = 0
      rw [hcase]
      rfl
    rw [hanchor, List.append_nil, added, add_zero, max_eq_left (tally_nonneg early)]
  | cons r rest =>
    rw [← hcase]
    have hr : r.time = t := hsame_time r (by rw [hcase]; simp)
    set s := early.foldl Tally.step ({} : Tally T ι K) with hstate
    have hseen : s.seen = identities early := by
      rw [hstate, foldl_seen]
      simp
    have hother : s.time ≠ some t := by
      intro htime
      rcases Tally.foldl_time early htime with h | ⟨x, hx, hxt⟩
      · cases h
      · exact absurd hxt (hearly_time x hx).ne
    -- the first report of this time ends the one before
    have hentered : same.foldl Tally.step s = same.foldl Tally.step (s.enter t) := by
      have htwice : (s.enter t).enter t = s.enter t := by
        rw [Tally.enter_other hother]
        exact Tally.enter_same rfl
      have hseen' : (s.enter t).seen = s.seen := by rw [Tally.enter_other hother]
      rw [hcase, List.foldl_cons, List.foldl_cons]
      congr 1
      unfold Tally.step
      rw [hr, htwice, hseen']
    obtain ⟨htotal, hanchor⟩ := Tally.foldl_same same
      (show (s.enter t).time = some t by rw [Tally.enter_other hother]) hsame_time
    show ((early ++ same).foldl Tally.step {}).result = _
    rw [List.foldl_append, ← hstate, hentered, Tally.result, htotal, hanchor,
      Tally.enter_other hother, ← hseen]
    rfl

end TraderBot.Lib
