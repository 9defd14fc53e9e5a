import TraderBot.Lib.Grid

/-! # Gaps in a grid of bars

The times of the bars are matched with the grid of their interval one after the other. A cursor stands on the
grid point that comes next, and only a bar on it moves it on. -/
namespace TraderBot.Market
open TraderBot.Lib

/-! ## Times -/

/-- The bounds of `datetime` in UTC, in microseconds since the epoch. -/
def timeMin : Int := -62135596800000000
def timeMax : Int := 253402300799999999

/-- `timedelta.max` in microseconds. -/
def deltaMax : Int := 86399999999999999999

/-- An aware `datetime` in UTC. -/
structure Time where
  us : Int
  inRange : timeMin ≤ us ∧ us ≤ timeMax
  deriving DecidableEq

/-- `at + timedelta(microseconds=delta)` for a delta that is not negative; `none` is an `OverflowError`. -/
def Time.add (t : Time) (delta : Int) : Option Time :=
  if deltaMax < delta then none
  else if h : timeMin ≤ t.us + delta ∧ t.us + delta ≤ timeMax then some ⟨t.us + delta, h⟩
  else none

/-! ## The grid -/

/-- `first_grid_point`, for an interval that is not zero. -/
def firstGridPoint (t : Time) (intervalS : Int) : Option Time :=
  let iv := intervalS * 1000000
  let rem := t.us.fmod iv
  if rem = 0 then some t else t.add (iv - rem)

/-- `grid_points_between`, for an interval that is not zero. -/
def gridPointsBetween (a b : Time) (intervalS : Int) : Int :=
  if b.us ≤ a.us then 0
  else
    let iv := intervalS * 1000000
    let firstIdx := -(-a.us).fdiv iv
    let lastIdx := (b.us - 1).fdiv iv
    max 0 (lastIdx - firstIdx + 1)

/-! ## The scan -/

/-- What the scan reads of a `Bar`. -/
structure Bar where
  openTime : Time
  intervalS : Int

/-- The open times from the start on and before the end, as the bars have them. -/
def opensIn (tStart stop : Time) (bars : List Bar) : List Time :=
  (bars.map Bar.openTime).filter fun t => tStart.us ≤ t.us ∧ t.us < stop.us

/-- `sorted(opens)`. -/
def sortedTimes (opens : List Time) : List Time := opens.insertionSort fun s t => s.us ≤ t.us

/-- The loop of `_first_bar_gap` over the open times, and what follows it. -/
def scanOpens (intervalS : Int) (stop : Time) : Time → List Time → Option (Option Time)
  | expected, [] => some (if 0 < gridPointsBetween expected stop intervalS then some expected else none)
  | expected, opened :: opens =>
    if opened ≠ expected then some (some (if expected.us < stop.us then expected else opened))
    else do scanOpens intervalS stop (← expected.add (intervalS * 1000000)) opens

/-- `_first_bar_gap`; the outer `none` raises. -/
def firstBarGap (tStart : Time) (bars : List Bar) (stop : Time) : Option (Option Time) :=
  match bars with
  | [] => some none
  | bar :: _ =>
    -- `timedelta(seconds=interval_s)`
    if deltaMax < bar.intervalS * 1000000 then none
    else do
      let expected ← firstGridPoint tStart bar.intervalS
      let opens := sortedTimes (opensIn tStart stop bars)
      if opens = [] then return none
      else scanOpens bar.intervalS stop expected opens

/-! ## The grid of the interval -/

section
variable {intervalS : Int}

variable {t : Time} {delta : Int}

theorem Time.ext_us {s : Time} (h : s.us = t.us) : s = t := by
  cases s
  cases t
  cases h
  rfl

theorem Time.add_of_le (hdelta : 0 ≤ delta) (hmax : delta ≤ deltaMax) (h : t.us + delta ≤ timeMax) :
    ∃ s, t.add delta = some s ∧ s.us = t.us + delta := by
  unfold Time.add
  rw [if_neg (not_lt.mpr hmax), dif_pos ⟨t.inRange.1.trans (by omega), h⟩]
  exact ⟨_, rfl, rfl⟩

theorem Time.add_us {s : Time} (h : t.add delta = some s) : s.us = t.us + delta := by
  unfold Time.add at h
  split_ifs at h
  cases h
  rfl

/-- The interval in microseconds. -/
def stepUs (intervalS : Int) : Int := intervalS * 1000000

theorem stepUs_pos (h : 0 < intervalS) : 0 < stepUs intervalS := by
  unfold stepUs
  omega

theorem rest_eq (hpos : 0 < intervalS) (x : Int) : x.fmod (stepUs intervalS) = x % stepUs intervalS :=
  Int.fmod_eq_emod_of_nonneg _ (stepUs_pos hpos).le

theorem quot_eq (hpos : 0 < intervalS) (x : Int) : x.fdiv (stepUs intervalS) = x / stepUs intervalS :=
  Int.fdiv_eq_ediv_of_nonneg _ (stepUs_pos hpos).le

/-- From a number that is not on the grid, the next point is the rest of a step away. -/
theorem next_eq (hpos : 0 < intervalS) {x : Int} (h : x % stepUs intervalS ≠ 0) :
    Grid.next (stepUs intervalS) x = x + (stepUs intervalS - x % stepUs intervalS) := by
  have hstep := stepUs_pos hpos
  have hrest := Int.emod_nonneg x hstep.ne'
  have hlt := Int.emod_lt_of_pos x hstep
  have hdvd : stepUs intervalS ∣ x + (stepUs intervalS - x % stepUs intervalS) := by
    have hsplit : x + (stepUs intervalS - x % stepUs intervalS) =
      (x - x % stepUs intervalS) + stepUs intervalS := by ring
    rw [hsplit]
    exact dvd_add Int.dvd_self_sub_emod (dvd_refl _)
  refine le_antisymm (Grid.next_le hstep hdvd (by omega)) ?_
  by_contra hlow
  have hnext := Grid.le_next hstep x
  have hback : stepUs intervalS ∣ x + (stepUs intervalS - x % stepUs intervalS) - Grid.next (stepUs intervalS) x :=
    dvd_sub hdvd (Grid.dvd_next _ _)
  have hle := Int.le_of_dvd (by omega) hback
  omega

/-- **`first_grid_point` is the first point from the time on.** -/
theorem firstGridPoint_us (hpos : 0 < intervalS) {g : Time}
    (h : firstGridPoint t intervalS = some g) : g.us = Grid.next (stepUs intervalS) t.us := by
  unfold firstGridPoint at h
  change (if t.us.fmod (stepUs intervalS) = 0 then some t else t.add (stepUs intervalS - t.us.fmod (stepUs intervalS))) =
    some g at h
  rw [rest_eq hpos] at h
  split_ifs at h with hrest
  · cases h
    exact (Grid.next_of_dvd (stepUs_pos hpos) (Int.dvd_of_emod_eq_zero hrest)).symm
  · rw [Time.add_us h, next_eq hpos hrest]

theorem firstGridPoint_some (hpos : 0 < intervalS) (hdelta : stepUs intervalS ≤ deltaMax)
    (h : Grid.next (stepUs intervalS) t.us ≤ timeMax) :
    ∃ g, firstGridPoint t intervalS = some g := by
  have hstep := stepUs_pos hpos
  unfold firstGridPoint
  show ∃ g, (if t.us.fmod (stepUs intervalS) = 0 then some t
    else t.add (stepUs intervalS - t.us.fmod (stepUs intervalS))) = some g
  rw [rest_eq hpos]
  split_ifs with hrest
  · exact ⟨t, rfl⟩
  · have hnonneg := Int.emod_nonneg t.us hstep.ne'
    have hlt := Int.emod_lt_of_pos t.us hstep
    rw [next_eq hpos hrest] at h
    obtain ⟨g, hg, -⟩ := Time.add_of_le (by omega) (by omega) h
    exact ⟨g, hg⟩

/-- **`grid_points_between` counts the points of the range.** -/
theorem gridPointsBetween_eq (hpos : 0 < intervalS) (a b : Time) : gridPointsBetween a b intervalS =
    (Grid.points (stepUs intervalS) a.us b.us).length := by
  have hstep := stepUs_pos hpos
  unfold gridPointsBetween
  rw [Grid.length_points]
  split_ifs with h
  · have hle := Grid.index_mono hstep h
    omega
  · show max 0 ((b.us - 1).fdiv (stepUs intervalS) - -(-a.us).fdiv (stepUs intervalS) + 1) = _
    rw [quot_eq hpos, quot_eq hpos]
    have hlast := Grid.ediv_pred hstep b.us
    change max 0 ((b.us - 1) / stepUs intervalS - Grid.index (stepUs intervalS) a.us + 1) = _
    omega

/-! ## The scan of the open times -/

theorem gridPointsBetween_pos_iff (hpos : 0 < intervalS) {a b : Time} (ha : stepUs intervalS ∣ a.us) :
    0 < gridPointsBetween a b intervalS ↔ a.us < b.us := by
  have hstep := stepUs_pos hpos
  rw [gridPointsBetween_eq hpos]
  constructor
  · intro h
    by_contra hle
    rw [Grid.points_nil hstep (not_lt.mp hle)] at h
    exact absurd h (lt_irrefl _)
  · intro h
    rw [Grid.points_cons hstep ha h, List.length_cons]
    omega

/-- The points of the grid up to a time are covered by open times. -/
def Covered (intervalS : Int) (start stop : Int) (opens : List Time) : Prop :=
  ∀ p, stepUs intervalS ∣ p → start ≤ p → p < stop → ∃ t ∈ opens, t.us = p

/-- **The scan**, from a cursor on the grid on: it finds nothing exactly where the open times are the grid, and
what it finds has the grid before it covered. The room is for the cursor behind the last point. -/
theorem scanOpens_spec (hpos : 0 < intervalS) (hdelta : stepUs intervalS ≤ deltaMax) {stop : Time}
    (hroom : Grid.next (stepUs intervalS) stop.us ≤ timeMax) {opens : List Time}
    (hopens : ∀ t ∈ opens, t.us < stop.us) {expected : Time} (hgrid : stepUs intervalS ∣ expected.us) :
    ∃ r, scanOpens intervalS stop expected opens = some r ∧
      (r = none ↔ opens.map Time.us = Grid.points (stepUs intervalS) expected.us stop.us) ∧
      ∀ g, r = some g → Covered intervalS expected.us g.us opens := by
  have hstep := stepUs_pos hpos
  induction opens generalizing expected with
  | nil =>
    have hcount := @gridPointsBetween_pos_iff _ hpos expected stop hgrid
    refine ⟨_, rfl, ?_, ?_⟩
    · rw [gridPointsBetween_eq hpos]
      cases Grid.points (stepUs intervalS) expected.us stop.us <;> simp
    · intro g hg p _ hle hlt
      split_ifs at hg
      cases hg
      exact absurd hlt (not_lt.mpr hle)
  | cons opened opens ih =>
    by_cases heq : opened = expected
    · subst heq
      have hopened := hopens opened List.mem_cons_self
      -- the next point is no later than the first one from the end on
      have hnext : opened.us + stepUs intervalS ≤ timeMax := by
        refine le_trans ?_ hroom
        by_contra hlow
        have hend := Grid.le_next hstep stop.us
        have hle := Int.le_of_dvd (by omega) (dvd_sub (Grid.dvd_next (stepUs intervalS) stop.us) hgrid)
        omega
      obtain ⟨s, hs, hus⟩ := Time.add_of_le hstep.le hdelta hnext
      obtain ⟨r, hr, hnone, hcovered⟩ := ih (fun t ht => hopens t (List.mem_cons_of_mem _ ht))
        (hus ▸ dvd_add hgrid (dvd_refl _) : stepUs intervalS ∣ s.us)
      refine ⟨r, ?_, ?_, ?_⟩
      · rw [scanOpens, if_neg (not_not.mpr rfl)]
        show (opened.add (stepUs intervalS) >>= fun next => scanOpens intervalS stop next opens) = some r
        rw [hs]
        exact hr
      · rw [hnone, Grid.points_cons hstep hgrid hopened, List.map_cons, List.cons.injEq, hus]
        exact (and_iff_right rfl).symm
      · intro g hg p hp hle hlt
        rcases hle.eq_or_lt with hfirst | hlater
        · exact ⟨opened, List.mem_cons_self, hfirst⟩
        · have hfar := Int.le_of_dvd (by omega) (dvd_sub hp hgrid)
          obtain ⟨t, ht, htp⟩ := hcovered g hg p hp (by omega) hlt
          exact ⟨t, List.mem_cons_of_mem _ ht, htp⟩
    · have hopened := hopens opened List.mem_cons_self
      refine ⟨some (if expected.us < stop.us then expected else opened), by rw [scanOpens, if_pos heq], ?_, ?_⟩
      · refine iff_of_false nofun fun hsame => ?_
        rw [List.map_cons] at hsame
        by_cases hlt : expected.us < stop.us
        · rw [Grid.points_cons hstep hgrid hlt, List.cons.injEq] at hsame
          exact heq (Time.ext_us hsame.1)
        · rw [Grid.points_nil hstep (not_lt.mp hlt)] at hsame
          cases hsame
      · intro g hg p _ hle hlt
        cases hg
        split_ifs at hlt with hbefore
        · exact absurd hlt (not_lt.mpr hle)
        · omega

/-! ## The gap of the bars -/

variable {tStart stop : Time} {bars : List Bar}

theorem mem_opensIn :
    t ∈ opensIn tStart stop bars ↔ (∃ b ∈ bars, b.openTime = t) ∧ tStart.us ≤ t.us ∧ t.us < stop.us := by
  rw [opensIn, List.mem_filter, List.mem_map, decide_eq_true_eq]

/-- The open times in the window are the grid points of the window, each once. -/
structure OnGrid (intervalS : Int) (tStart stop : Time) (bars : List Bar) : Prop where
  once : ((opensIn tStart stop bars).map Time.us).Nodup
  grid : ∀ p, (∃ b ∈ bars, b.openTime.us = p ∧ tStart.us ≤ p ∧ p < stop.us) ↔
    tStart.us ≤ p ∧ p < stop.us ∧ stepUs intervalS ∣ p

theorem mem_map_opensIn {p : Int} : p ∈ (opensIn tStart stop bars).map Time.us ↔
    ∃ b ∈ bars, b.openTime.us = p ∧ tStart.us ≤ p ∧ p < stop.us := by
  constructor
  · intro h
    obtain ⟨t, ht, rfl⟩ := List.mem_map.mp h
    obtain ⟨⟨b, hb, rfl⟩, hwindow⟩ := mem_opensIn.mp ht
    exact ⟨b, hb, rfl, hwindow⟩
  · rintro ⟨b, hb, rfl, hwindow⟩
    exact List.mem_map.mpr ⟨_, mem_opensIn.mpr ⟨⟨b, hb, rfl⟩, hwindow⟩, rfl⟩

/-- Sorted, the open times are the list of the points exactly where they are on the grid. -/
theorem sorted_eq_iff (hpos : 0 < intervalS) :
    (sortedTimes (opensIn tStart stop bars)).map Time.us =
      Grid.points (stepUs intervalS) tStart.us stop.us ↔ OnGrid intervalS tStart stop bars := by
  have hstep := stepUs_pos hpos
  have hpoints := Grid.points_sorted hstep tStart.us stop.us
  have hperm : ((sortedTimes (opensIn tStart stop bars)).map Time.us).Perm
      ((opensIn tStart stop bars).map Time.us) := (List.perm_insertionSort _ _).map _
  constructor
  · intro heq
    rw [heq] at hperm
    refine ⟨hperm.nodup_iff.mp (hpoints.imp fun h => h.ne), fun p => ?_⟩
    rw [← mem_map_opensIn, ← hperm.mem_iff, Grid.mem_points hstep]
  · intro h
    have hsame : ((opensIn tStart stop bars).map Time.us).Perm (Grid.points (stepUs intervalS) tStart.us stop.us) := by
      refine (List.perm_ext_iff_of_nodup h.once (hpoints.imp fun h => h.ne)).mpr fun p => ?_
      rw [mem_map_opensIn, h.grid p, Grid.mem_points hstep]
    have hsorted : ((sortedTimes (opensIn tStart stop bars)).map Time.us).Pairwise (· ≤ ·) := by
      rw [sortedTimes, List.map_insertionSort _ (· ≤ ·) Time.us _ fun _ _ _ _ => Iff.rfl]
      exact List.pairwise_insertionSort _ _
    exact (hperm.trans hsame).eq_of_pairwise (fun _ _ _ _ => le_antisymm) hsorted (hpoints.imp fun h => h.le)

/-- The gap of a window with bars of one interval. -/
theorem firstBarGap_spec (hpos : 0 < intervalS) (hwindow : tStart.us < stop.us) (hbars : bars ≠ [])
    (hinterval : ∀ b ∈ bars, b.intervalS = intervalS) (hdelta : stepUs intervalS ≤ deltaMax)
    (hroom : Grid.next (stepUs intervalS) stop.us ≤ timeMax) :
    ∃ r, firstBarGap tStart bars stop = some r ∧
      (r = none ↔ opensIn tStart stop bars = [] ∨ OnGrid intervalS tStart stop bars) ∧
      ∀ g, r = some g → ∀ p, stepUs intervalS ∣ p → tStart.us ≤ p → p < g.us → ∃ b ∈ bars,
        b.openTime.us = p := by
  have hstep := stepUs_pos hpos
  have hfirst : Grid.next (stepUs intervalS) tStart.us ≤ timeMax :=
    (Grid.next_le hstep (Grid.dvd_next _ _) (hwindow.le.trans (Grid.le_next hstep _))).trans hroom
  obtain ⟨expected, hexpected⟩ := firstGridPoint_some hpos hdelta hfirst
  have hus := firstGridPoint_us hpos hexpected
  obtain ⟨bar, rest, rfl⟩ := List.exists_cons_of_ne_nil hbars
  set opens := sortedTimes (opensIn tStart stop (bar :: rest)) with hopens
  have hmem : ∀ t, t ∈ opens ↔ t ∈ opensIn tStart stop (bar :: rest) := fun t => List.mem_insertionSort _
  have hempty : opens = [] ↔ opensIn tStart stop (bar :: rest) = [] := by
    rw [List.eq_nil_iff_forall_not_mem, List.eq_nil_iff_forall_not_mem]
    exact forall_congr' fun t => not_congr (hmem t)
  have hrun : firstBarGap tStart (bar :: rest) stop =
      if opens = [] then some none else scanOpens intervalS stop expected opens := by
    unfold firstBarGap
    dsimp only
    rw [hinterval bar List.mem_cons_self]
    change (if deltaMax < stepUs intervalS then none else _) = _
    rw [if_neg (not_lt.mpr hdelta), hexpected]
    rfl
  rw [hrun]
  by_cases hnone : opens = []
  · rw [if_pos hnone]
    exact ⟨none, rfl, iff_of_true rfl (.inl (hempty.mp hnone)), fun g hg => by cases hg⟩
  · obtain ⟨r, hr, hiff, hcovered⟩ := @scanOpens_spec _ hpos hdelta stop hroom opens
      (fun t ht => (mem_opensIn.mp ((hmem t).mp ht)).2.2) expected
      (by rw [hus]; exact Grid.dvd_next _ _)
    rw [if_neg hnone]
    refine ⟨r, hr, ?_, ?_⟩
    · rw [hiff, hus, Grid.points_from_next hstep, hopens, sorted_eq_iff hpos]
      exact (or_iff_right fun h => hnone (hempty.mpr h)).symm
    · intro g hg p hp hle hlt
      obtain ⟨t, ht, rfl⟩ := hcovered g hg p hp (by rw [hus]; exact Grid.next_le hstep hp hle) hlt
      obtain ⟨⟨b, hb, rfl⟩, -⟩ := mem_opensIn.mp ((hmem t).mp ht)
      exact ⟨b, hb, rfl⟩

/-- **The bar gaps are exact**, as long as the first grid point from the end on can be written, where the cursor
may come to stand: nothing is found exactly where the window has no bar or its bars are the grid,
  a gap that is
found has the grid before it covered, and the number of grid points adds up and is what it says. -/
theorem bar_gaps_exact (hpos : 0 < intervalS) :
    (∀ (tStart stop next : Time) (bars : List Bar), tStart.us < stop.us → bars ≠ [] →
      (∀ b ∈ bars, b.intervalS = intervalS) → stepUs intervalS ≤ deltaMax →
      firstGridPoint stop intervalS = some next →
      ∃ r, firstBarGap tStart bars stop = some r ∧
        (r = none ↔ opensIn tStart stop bars = [] ∨ OnGrid intervalS tStart stop bars) ∧
        ∀ g, r = some g → ∀ p, stepUs intervalS ∣ p → tStart.us ≤ p → p < g.us → ∃ b ∈ bars,
          b.openTime.us = p) ∧
    (∀ a b c : Time, a.us ≤ b.us → b.us ≤ c.us →
      gridPointsBetween a c intervalS = gridPointsBetween a b intervalS + gridPointsBetween b c intervalS) ∧
    ∀ a b : Time,
      gridPointsBetween a b intervalS = ((Finset.Ico a.us b.us).filter (stepUs intervalS ∣ ·)).card ∧
      ∀ g, firstGridPoint a intervalS = some g →
        gridPointsBetween a b intervalS = ((Finset.Ico g.us b.us).filter (stepUs intervalS ∣ ·)).card := by
  have hstep := stepUs_pos hpos
  refine ⟨?_, ?_, ?_⟩
  · intro tStart stop next bars hwindow hbars hinterval hdelta hnext
    exact firstBarGap_spec hpos hwindow hbars hinterval hdelta (firstGridPoint_us hpos hnext ▸ next.inRange.2)
  · intro a b c hab hbc
    have hleft := Grid.index_mono hstep hab
    have hright := Grid.index_mono hstep hbc
    rw [gridPointsBetween_eq hpos, gridPointsBetween_eq hpos, gridPointsBetween_eq hpos, Grid.length_points,
      Grid.length_points, Grid.length_points]
    omega
  · intro a b
    refine ⟨?_, fun g hg => ?_⟩
    · rw [gridPointsBetween_eq hpos, Grid.length_points, Grid.card_points hstep]
    · rw [gridPointsBetween_eq hpos, ← Grid.points_from_next hstep, Grid.length_points, Grid.card_points hstep,
        firstGridPoint_us hpos hg]

end

/-- A time so many seconds after the epoch. -/
def second (k : Int) (h : timeMin ≤ k * 1000000 ∧ k * 1000000 ≤ timeMax := by decide) : Time :=
    ⟨k * 1000000, h⟩

/-- Three minutes with the second one missing: the window is no grid, and the gap is where it is missing. -/
theorem bar_gaps_exact_missingMinute : ∃ r,
    firstBarGap (second 0) [⟨second 120, 60⟩, ⟨second 0, 60⟩] (second 180) = some r ∧ r = some (second 60) ∧
      ∀ p, stepUs 60 ∣ p → 0 ≤ p → p < 60000000 →
        ∃ b ∈ ([⟨second 120, 60⟩, ⟨second 0, 60⟩] : List Bar), b.openTime.us = p := by
  obtain ⟨r, hr, -, hcovered⟩ := (@bar_gaps_exact 60 (by decide)).1 (second 0) (second 180) (second 180)
    [⟨second 120, 60⟩, ⟨second 0, 60⟩] (by decide) (List.cons_ne_nil _ _)
    (by
      intro b hb
      rcases List.mem_cons.mp hb with rfl | hb
      · rfl
      · rw [List.mem_singleton.mp hb])
    (by decide) rfl
  have hrun : firstBarGap (second 0) [⟨second 120, 60⟩, ⟨second 0, 60⟩] (second 180) =
    some (some (second 60)) := by
    decide +kernel
  refine ⟨r, hr, ?_, ?_⟩
  · rw [hr] at hrun
    exact Option.some.inj hrun
  · rw [hr] at hrun
    exact hcovered _ (Option.some.inj hrun)

/-- In the last minute of the calendar a complete grid raises: the cursor cannot be moved past its end. -/
theorem last_minute_raises :
    OnGrid 60 (second 253402300740) (second 253402300770) [⟨second 253402300740, 60⟩] ∧
    firstBarGap (second 253402300740) [⟨second 253402300740, 60⟩] (second 253402300770) = none := by
  refine ⟨⟨by decide +kernel, fun p => ?_⟩, by decide +kernel⟩
  constructor
  · rintro ⟨b, hb, rfl, hlow, hhigh⟩
    rw [List.mem_singleton.mp hb]
    exact ⟨by decide, by decide, by decide⟩
  · rintro ⟨hlow, hhigh, hdvd⟩
    refine ⟨_, List.mem_singleton_self _, ?_, hlow, hhigh⟩
    change (253402300740 * 1000000 : Int) ≤ p at hlow
    change p < (253402300770 * 1000000 : Int) at hhigh
    change (60 * 1000000 : Int) ∣ p at hdvd
    show (253402300740 * 1000000 : Int) = p
    omega

end TraderBot.Market
