import TraderBot.Lib.DecimalValue

/-! # Sums of sizes

Decimals without a sign, added one after the other. Where none of them has a
digit past a place and the total has at most 28 digits before it, nothing is
rounded: the sum is the exact one, written at the smallest exponent, in whatever
order it is taken. -/
namespace TraderBot.Lib

namespace FiniteDecimal

/-- `copy_abs`. -/
def magnitude (d : FiniteDecimal) : FiniteDecimal := { d with negative := false }

theorem magnitude_value (d : FiniteDecimal) : d.magnitude.value = |d.value| := by
  rw [abs_value]
  rfl

variable {d : FiniteDecimal}

/-- A decimal is its sign, its exponent and the number it writes. -/
theorem ext_value {c : FiniteDecimal} (hsign : c.negative = d.negative)
    (hexp : c.exponent = d.exponent) (hvalue : c.value = d.value) : c = d := by
  have hcoeff : c.coeff = d.coeff := by
    have habs : |c.value| = |d.value| := by rw [hvalue]
    rw [abs_value, abs_value, hexp, mul_left_inj' (ten_zpow_pos _).ne'] at habs
    exact_mod_cast habs
  cases c
  cases d
  cases hsign
  cases hexp
  cases hcoeff
  rfl

/-- No sign, and no digit past the place. -/
structure Plain (e : Int) (d : FiniteDecimal) : Prop where
  unsigned : d.negative = false
  place : e ≤ d.exponent

theorem Plain.value_eq {e : Int} (h : d.Plain e) : d.value = d.coeff * 10 ^ d.exponent := by
  rw [value, signed, h.unsigned]
  simp

theorem Plain.nonneg {e : Int} (h : d.Plain e) : 0 ≤ d.value := by
  have := ten_zpow_pos d.exponent
  rw [h.value_eq]
  positivity

end FiniteDecimal

namespace Decimal
open FiniteDecimal (Plain)

variable {e : Int} {a b : FiniteDecimal}

/-- At most 28 digits before a place, and none past it: nothing is rounded. -/
theorem fix_unrounded (negative : Bool) {coeff : Nat} {exponent : Int} (he : InContext e)
    (hplace : e ≤ exponent) (hsize : (coeff : ℚ) * 10 ^ exponent < limit e)
    (hexp : 0 < coeff ∨ exponent ≤ 0) :
    ∃ d, fix negative coeff exponent = some d ∧ d.negative = negative ∧ d.coeff = coeff ∧
      d.exponent = exponent := by
  have hetiny : etiny ≤ exponent := he.1.trans hplace
  rcases Nat.eq_zero_or_pos coeff with rfl | hc
  · have hle : exponent ≤ 0 := hexp.resolve_left (lt_irrefl 0)
    have hclamp : min (max exponent etiny) emax = exponent := by
      rw [max_eq_left hetiny, min_eq_left (hle.trans (by decide))]
    have hrange : InRange 0 exponent := ⟨le_trans (by decide) hetiny, by
      have hwidth : width 0 = 1 := by decide
      rw [hwidth]
      exact le_trans (by omega) (show (0 : Int) ≤ maxEmax by decide)⟩
    refine ⟨⟨negative, 0, exponent, hrange⟩, ?_, rfl, rfl, rfl⟩
    rw [fix, if_pos rfl, hclamp]
    exact FiniteDecimal.mk?_self ⟨negative, 0, exponent, hrange⟩
  · have hwidth : width coeff ≤ prec := by
      rw [width_le_iff (by decide)]
      have hlow : (coeff : ℚ) * 10 ^ e < limit e :=
        (mul_le_mul_of_nonneg_left (zpow_le_zpow_right₀ (by norm_num) hplace) (Nat.cast_nonneg _)).trans_lt
          hsize
      exact Whole.lt_limit_iff.mp hlow
    have hlimit : limit e ≤ 10 ^ (emax + 1) := by
      rw [limit, ← zpow_natCast, ← zpow_add₀ (by norm_num)]
      exact zpow_le_zpow_right₀ (by norm_num) (by rw [add_comm]; exact he.2)
    have hadjusted := adjusted_le hc (hsize.trans_le hlimit)
    have hrounded : rounded coeff exponent = (coeff, exponent) := by
      unfold rounded
      dsimp only
      rw [if_neg (not_lt.mpr (max_le (by omega) hetiny))]
    have hrange : InRange coeff exponent :=
      ⟨le_trans (by decide) hetiny, hadjusted.trans (by decide)⟩
    refine ⟨⟨negative, coeff, exponent, hrange⟩, ?_, rfl, rfl, rfl⟩
    have hnot : ¬ emax < (rounded coeff exponent).2 + width (rounded coeff exponent).1 - 1 := by
      rw [hrounded]
      exact not_lt.mpr hadjusted
    rw [fix, if_neg hc.ne', if_neg (not_lt.mpr hadjusted), dif_neg hnot]
    simp only [hrounded]

/-- **A sum of two is exact**, at the smaller exponent. -/
theorem add_plain (he : InContext e) (ha : a.Plain e) (hb : b.Plain e) (hexp : a.exponent ≤ 0)
    (hsum : a.value + b.value < limit e) :
    ∃ c, add a b = some c ∧ c.Plain e ∧ c.exponent = min a.exponent b.exponent ∧
      c.value = a.value + b.value := by
  have hvalue := @sum_eq a b
  have hsize := @abs_sum_eq a b
  rw [abs_of_nonneg (add_nonneg ha.nonneg hb.nonneg)] at hsize
  unfold add
  dsimp only
  set low := min a.exponent b.exponent with hlow
  have hplace : e ≤ low := le_min ha.place hb.place
  have hlow0 : low ≤ 0 := (min_le_left _ _).trans hexp
  have hnonneg : 0 ≤ a.scaled low + b.scaled low := by
    have hprod : (0 : ℚ) ≤ ((a.scaled low + b.scaled low : Int) : ℚ) * 10 ^ low := by
      rw [← hvalue]
      exact add_nonneg ha.nonneg hb.nonneg
    exact_mod_cast nonneg_of_mul_nonneg_left hprod (ten_zpow_pos _)
  have hsign : (if a.scaled low + b.scaled low = 0 then a.negative && b.negative
      else decide (a.scaled low + b.scaled low < 0)) = false := by
    rw [ha.unsigned]
    split_ifs with h0
    · rfl
    · exact decide_eq_false (not_lt.mpr hnonneg)
  rw [hsign]
  obtain ⟨c, hc, hcsign, hcoeff, hcexp⟩ := fix_unrounded false he hplace (by rw [← hsize]; exact hsum)
    (.inr hlow0)
  have hplain : c.Plain e := ⟨hcsign, by rw [hcexp]; exact hplace⟩
  refine ⟨c, hc, hplain, hcexp, ?_⟩
  rw [hplain.value_eq, hcoeff, hcexp, hsize]

variable {xs : List FiniteDecimal}

/-- **A sum of many is exact**, at the smallest exponent. -/
theorem foldlM_add_plain (he : InContext e) (ha : a.Plain e) (hexp : a.exponent ≤ 0)
    (hxs : ∀ x ∈ xs, x.Plain e) (hsum : a.value + (xs.map FiniteDecimal.value).sum < limit e) :
    ∃ c, xs.foldlM add a = some c ∧ c.Plain e ∧
      c.exponent = (xs.map FiniteDecimal.exponent).foldl min a.exponent ∧
      c.value = a.value + (xs.map FiniteDecimal.value).sum := by
  induction xs generalizing a with
  | nil => exact ⟨a, rfl, ha, rfl, by simp⟩
  | cons x xs ih =>
    have hx : x.Plain e := hxs x List.mem_cons_self
    have hrest : ∀ y ∈ xs, y.Plain e := fun y hy => hxs y (List.mem_cons_of_mem _ hy)
    have hrest0 : 0 ≤ (xs.map FiniteDecimal.value).sum := by
      refine List.sum_nonneg fun y hy => ?_
      obtain ⟨z, hz, rfl⟩ := List.mem_map.mp hy
      exact (hrest z hz).nonneg
    rw [List.map_cons, List.sum_cons, ← add_assoc] at hsum
    obtain ⟨s, hs, hplain, hsexp, hsvalue⟩ := add_plain he ha hx hexp (by linarith)
    obtain ⟨c, hc, hcplain, hcexp, hcvalue⟩ := ih hplain (by rw [hsexp]; exact (min_le_left _ _).trans hexp)
      hrest (by rw [hsvalue]; exact hsum)
    refine ⟨c, ?_, hcplain, ?_, ?_⟩
    · rw [List.foldlM_cons, hs]
      exact hc
    · rw [hcexp, hsexp, List.map_cons, List.foldl_cons]
    · rw [hcvalue, hsvalue, List.map_cons, List.sum_cons, add_assoc]

/-- **In any order the sum is the same.** -/
theorem foldlM_add_perm {ys : List FiniteDecimal} (h : xs.Perm ys) (he : InContext e)
    (ha : a.Plain e) (hexp : a.exponent ≤ 0) (hxs : ∀ x ∈ xs, x.Plain e)
    (hsum : a.value + (xs.map FiniteDecimal.value).sum < limit e) :
    ys.foldlM add a = xs.foldlM add a := by
  have hvalues : (ys.map FiniteDecimal.value).sum = (xs.map FiniteDecimal.value).sum :=
    (h.map _).sum_eq.symm
  have hexps : (ys.map FiniteDecimal.exponent).foldl min a.exponent =
      (xs.map FiniteDecimal.exponent).foldl min a.exponent :=
    (h.map _).symm.foldl_eq' (fun x _ y _ z => by omega) _
  obtain ⟨c, hc, hcplain, hcexp, hcvalue⟩ := foldlM_add_plain he ha hexp hxs hsum
  obtain ⟨d, hd, hdplain, hdexp, hdvalue⟩ := foldlM_add_plain he ha hexp
    (fun y (hy : y ∈ ys) => hxs y (h.mem_iff.mpr hy)) (by rw [hvalues]; exact hsum)
  have hsame : d = c := FiniteDecimal.ext_value (by rw [hdplain.unsigned, hcplain.unsigned])
    (by rw [hdexp, hcexp, hexps]) (by rw [hdvalue, hcvalue, hvalues])
  rw [hc, hd, hsame]

/-- Where only the value of the sum matters, its numbers may be written at any exponents. -/
theorem foldlM_add_exact (he : InContext e) (ha : Whole e a.value) (hxs : ∀ x ∈ xs, Whole e x.value)
    (hsum : a.value + (xs.map FiniteDecimal.value).sum < limit e) :
    ∃ c, xs.foldlM add a = some c ∧ c.value = a.value + (xs.map FiniteDecimal.value).sum := by
  induction xs generalizing a with
  | nil => exact ⟨a, rfl, by simp⟩
  | cons x xs ih =>
    have hrest : ∀ y ∈ xs, Whole e y.value := fun y hy => hxs y (List.mem_cons_of_mem _ hy)
    have hrest0 : 0 ≤ (xs.map FiniteDecimal.value).sum := by
      refine List.sum_nonneg fun y hy => ?_
      obtain ⟨z, hz, rfl⟩ := List.mem_map.mp hy
      exact (hrest z hz).nonneg
    rw [List.map_cons, List.sum_cons, ← add_assoc] at hsum ⊢
    have hwhole := ha.add (hxs x List.mem_cons_self)
    obtain ⟨s, hs, hvalue⟩ := add_exact he (hwhole.fits (by linarith))
    rw [← hvalue] at hwhole hsum ⊢
    obtain ⟨c, hc, hcvalue⟩ := ih hwhole hrest hsum
    refine ⟨c, ?_, hcvalue⟩
    rw [List.foldlM_cons, hs]
    exact hc

end Decimal
end TraderBot.Lib
