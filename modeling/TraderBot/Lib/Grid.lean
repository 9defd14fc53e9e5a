import Mathlib

/-! # The grid of a step

The multiples of a step, counted by the index of the first one from a number on. The points of a half-open
range are a list, in order; the number of them is a difference of two indices, so that it adds up over
ranges that follow each other. -/
namespace TraderBot.Lib.Grid
variable {r : Int}

/-- The index of the first multiple of the step from a number on. -/
def index (r x : Int) : Int := -(-x / r)

theorem index_le_iff (hr : 0 < r) {x k : Int} : index r x ≤ k ↔ x ≤ k * r := by
  unfold index
  rw [neg_le, Int.le_ediv_iff_mul_le hr, neg_mul, neg_le_neg_iff]

theorem lt_index_iff (hr : 0 < r) {x k : Int} : k < index r x ↔ k * r < x := by
  rw [← not_le, index_le_iff hr, not_le]

theorem index_mono (hr : 0 < r) {a b : Int} (h : a ≤ b) : index r a ≤ index r b :=
  (index_le_iff hr).mpr (h.trans ((index_le_iff hr).mp le_rfl))

theorem index_mul (hr : 0 < r) (k : Int) : index r (k * r) = k := by
  unfold index
  rw [← neg_mul, Int.mul_ediv_cancel _ hr.ne', neg_neg]

/-- The last multiple before a number is the one before the first from it on. -/
theorem ediv_pred (hr : 0 < r) (x : Int) : (x - 1) / r + 1 = index r x := by
  refine eq_of_forall_ge_iff fun k => ?_
  rw [index_le_iff hr, Int.add_one_le_iff, Int.ediv_lt_iff_lt_mul hr, Int.sub_one_lt_iff]

/-- The first multiple from a number on. -/
def next (r x : Int) : Int := index r x * r

theorem dvd_next (r x : Int) : r ∣ next r x := Int.dvd_mul_left _ _

theorem le_next (hr : 0 < r) (x : Int) : x ≤ next r x := (index_le_iff hr).mp le_rfl

theorem next_le (hr : 0 < r) {x p : Int} (hp : r ∣ p) (h : x ≤ p) : next r x ≤ p := by
  obtain ⟨k, rfl⟩ := hp
  rw [mul_comm] at h ⊢
  exact mul_le_mul_of_nonneg_right ((index_le_iff hr).mpr h) hr.le

theorem next_of_dvd (hr : 0 < r) {x : Int} (h : r ∣ x) : next r x = x :=
  le_antisymm (next_le hr h le_rfl) (le_next hr x)

theorem index_next (hr : 0 < r) (x : Int) : index r (next r x) = index r x := index_mul hr _

/-! ## The points of a range -/

/-- The multiples of the step from `a` on and before `b`. -/
def points (r a b : Int) : List Int :=
  (List.range (index r b - index r a).toNat).map fun i : Nat => (index r a + i) * r

theorem mem_points (hr : 0 < r) {a b p : Int} : p ∈ points r a b ↔ a ≤ p ∧ p < b ∧ r ∣ p := by
  unfold points
  constructor
  · intro h
    obtain ⟨i, hi, rfl⟩ := List.mem_map.mp h
    rw [List.mem_range] at hi
    refine ⟨(index_le_iff hr).mp (by omega), (lt_index_iff hr).mp (by omega), Int.dvd_mul_left _ _⟩
  · rintro ⟨ha, hb, k, rfl⟩
    rw [mul_comm] at ha hb
    have hlow := (index_le_iff hr).mpr ha
    have hhigh := (lt_index_iff hr).mpr hb
    refine List.mem_map.mpr ⟨(k - index r a).toNat, List.mem_range.mpr (by omega), ?_⟩
    have hk : index r a + ((k - index r a).toNat : Int) = k := by omega
    rw [hk, mul_comm]

theorem points_sorted (hr : 0 < r) (a b : Int) : (points r a b).Pairwise (· < ·) := by
  unfold points
  refine List.pairwise_map.mpr (List.pairwise_lt_range.imp fun h => ?_)
  exact mul_lt_mul_of_pos_right (by omega) hr

theorem points_nil (hr : 0 < r) {a b : Int} (h : b ≤ a) : points r a b = [] := by
  have hle := index_mono hr h
  unfold points
  rw [Int.toNat_of_nonpos (by omega)]
  rfl

theorem points_cons (hr : 0 < r) {a b : Int} (ha : r ∣ a) (h : a < b) :
    points r a b = a :: points r (a + r) b := by
  obtain ⟨k, rfl⟩ := ha
  rw [mul_comm] at h ⊢
  have hlt := (lt_index_iff hr).mpr h
  have hnext : k * r + r = (k + 1) * r := by ring
  unfold points
  rw [hnext, index_mul hr, index_mul hr]
  have hsucc : (index r b - k).toNat = (index r b - (k + 1)).toNat + 1 := by omega
  rw [hsucc, List.range_succ_eq_map, List.map_cons, List.map_map]
  congr 1
  · rw [Nat.cast_zero, add_zero]
  · refine List.map_congr_left fun i _ => ?_
    show (k + ((i + 1 : Nat) : Int)) * r = (k + 1 + i) * r
    push_cast
    ring

theorem points_from_next (hr : 0 < r) (a b : Int) : points r (next r a) b = points r a b := by
  unfold points
  rw [index_next hr]

/-- How many points there are. -/
theorem length_points (r a b : Int) : (points r a b).length = (index r b - index r a).toNat := by
  rw [points, List.length_map, List.length_range]

theorem card_points (hr : 0 < r) (a b : Int) :
    ((Finset.Ico a b).filter (r ∣ ·)).card = (index r b - index r a).toNat := by
  rw [← length_points, ← List.toFinset_card_of_nodup ((points_sorted hr a b).imp fun h => h.ne)]
  congr 1
  ext p
  rw [Finset.mem_filter, Finset.mem_Ico, List.mem_toFinset, mem_points hr, and_assoc]

end TraderBot.Lib.Grid
