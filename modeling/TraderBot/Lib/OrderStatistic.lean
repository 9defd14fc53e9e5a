import Mathlib

/-! # Order statistics and ranks

A value is above the k-th of a sorted list iff few enough of the list are not below it. Where k is a rounded-up
share of one more than the length, this is the test of a p-value that counts the value itself. -/
namespace TraderBot.Lib

section
variable {α : Type} [LinearOrder α]

/-- How many of the list are not below a value. -/
def exceedances (l : List α) (t : α) : Nat := l.countP (t ≤ ·)

theorem exceedances_le_length (l : List α) (t : α) : exceedances l t ≤ l.length := List.countP_le_length

theorem exceedances_antitone (l : List α) {s t : α} (h : s ≤ t) : exceedances l t ≤ exceedances l s := by
  refine List.countP_mono_left fun x _ hx => ?_
  rw [decide_eq_true_eq] at hx ⊢
  exact h.trans hx

/-- In a sorted list what exceeds a value stands behind what does not. -/
theorem getElem_lt_iff_of_sorted {s : List α} (hs : s.Pairwise (· ≤ ·)) {k : Nat} (hk : k < s.length) (t : α) :
    s[k] < t ↔ exceedances s t + k < s.length := by
  have hsplit : exceedances s t = (s.take (k + 1)).countP (t ≤ ·) + (s.drop (k + 1)).countP (t ≤ ·) := by
    rw [← List.countP_append, List.take_append_drop]
    rfl
  have hsplit' : exceedances s t = (s.take k).countP (t ≤ ·) + (s.drop k).countP (t ≤ ·) := by
    rw [← List.countP_append, List.take_append_drop]
    rfl
  constructor
  · intro hlt
    have hfront : (s.take (k + 1)).countP (t ≤ ·) = 0 := by
      refine List.countP_eq_zero.mpr fun x hx => ?_
      obtain ⟨i, hi, rfl⟩ := List.mem_iff_getElem.mp hx
      rw [List.length_take] at hi
      have hle : s[i] ≤ s[k] := by
        rcases Nat.lt_or_eq_of_le (Nat.lt_succ_iff.mp (lt_of_lt_of_le hi (min_le_left _ _))) with hik | rfl
        · exact List.pairwise_iff_getElem.mp hs i k _ hk hik
        · exact le_refl _
      rw [List.getElem_take, decide_eq_true_eq, not_le]
      exact lt_of_le_of_lt hle hlt
    have hback : (s.drop (k + 1)).countP (t ≤ ·) ≤ s.length - (k + 1) :=
      List.length_drop (l := s) ▸ List.countP_le_length
    omega
  · intro hfew
    by_contra hge
    have hback : (s.drop k).countP (t ≤ ·) = (s.drop k).length := by
      refine List.countP_eq_length.mpr fun x hx => ?_
      obtain ⟨i, hi, rfl⟩ := List.mem_iff_getElem.mp hx
      have hki : k + i < s.length := by
        rw [List.length_drop] at hi
        omega
      have hle : s[k] ≤ s[k + i] := by
        rcases Nat.eq_zero_or_pos i with rfl | hi'
        · exact le_refl _
        · exact List.pairwise_iff_getElem.mp hs k (k + i) hk hki (by omega)
      rw [List.getElem_drop, decide_eq_true_eq]
      exact (not_lt.mp hge).trans hle
    rw [List.length_drop] at hback
    omega

/-- **An order statistic is below a value iff few enough of the list are not.** -/
theorem orderStatistic_lt_iff (l : List α) {k : Nat} (hk : k < (l.insertionSort (· ≤ ·)).length) (t : α) :
    (l.insertionSort (· ≤ ·))[k] < t ↔ exceedances l t + k < l.length := by
  have hperm := List.perm_insertionSort (· ≤ ·) l
  rw [getElem_lt_iff_of_sorted (List.pairwise_insertionSort _ l), hperm.length_eq]
  exact iff_of_eq (congrArg (· + k < l.length) (hperm.countP_eq _))

end

/-! ## Shares that are rounded up -/

/-- A rank that counts the value itself is a share of at most α iff the others leave the rest of the ranks. -/
theorem rank_le_iff {n m : Nat} {alpha : ℚ} :
    (1 + (m : ℚ)) / ((n : ℚ) + 1) ≤ alpha ↔ ⌈(1 - alpha) * ((n : ℚ) + 1)⌉ + (m : Int) ≤ n := by
  have hpos : (0 : ℚ) < (n : ℚ) + 1 := by positivity
  rw [div_le_iff₀ hpos, ← le_sub_iff_add_le (b := (m : Int)), Int.ceil_le]
  push_cast
  constructor
  · intro h
    linarith
  · intro h
    linarith

theorem rank_pos {n m : Nat} : 1 / ((n : ℚ) + 1) ≤ (1 + (m : ℚ)) / ((n : ℚ) + 1) :=
  div_le_div_of_nonneg_right (le_add_of_nonneg_right (Nat.cast_nonneg m)) (by positivity)

theorem rank_le_one {n m : Nat} (h : m ≤ n) : (1 + (m : ℚ)) / ((n : ℚ) + 1) ≤ 1 := by
  rw [div_le_one (by positivity), add_comm (n : ℚ) 1]
  exact add_le_add_right (Nat.cast_le.mpr h) 1

theorem rank_mono {n m m' : Nat} (h : m ≤ m') : (1 + (m : ℚ)) / ((n : ℚ) + 1) ≤ (1 + (m' : ℚ)) / ((n : ℚ) + 1) :=
  div_le_div_of_nonneg_right (add_le_add_right (Nat.cast_le.mpr h) 1) (by positivity)

end TraderBot.Lib
