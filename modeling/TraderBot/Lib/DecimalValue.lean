import TraderBot.Lib.Postgres

/-! # What a decimal is worth

The number a decimal writes, what comparisons say about it, and when arithmetic
keeps it. A number of at most 28 digits is kept as it is (`fix_exact`), and what
is bounded by one stays bounded by it (`fix_le`): rounding never passes a number
the context can write. -/
namespace TraderBot.Lib

theorem ten_zpow_pos (e : Int) : (0 : ℚ) < 10 ^ e := zpow_pos (by norm_num) e

/-- A power of ten at a lower exponent. -/
theorem ten_zpow_split {e x : Int} (h : e ≤ x) :
    (10 : ℚ) ^ x = ((10 ^ (x - e).toNat : Nat) : ℚ) * 10 ^ e := by
  rw [Nat.cast_pow, Nat.cast_ofNat, ← zpow_natCast, ← zpow_add₀ (by norm_num)]
  congr 1
  omega

namespace FiniteDecimal

/-! ## Comparisons -/

/-- The number a decimal writes. -/
def value (d : FiniteDecimal) : ℚ := d.signed * 10 ^ d.exponent

variable {d a b : FiniteDecimal}

theorem value_eq_scaled {e : Int} (h : e ≤ d.exponent) : d.value = d.scaled e * 10 ^ e := by
  unfold value scaled
  rw [ten_zpow_split h]
  push_cast
  ring

theorem le_iff : a.le b = true ↔ a.value ≤ b.value := by
  rw [value_eq_scaled (min_le_left a.exponent b.exponent),
    value_eq_scaled (min_le_right a.exponent b.exponent),
    mul_le_mul_iff_left₀ (ten_zpow_pos _), Int.cast_le]
  simp [le]

theorem lt_iff : a.lt b = true ↔ a.value < b.value := by
  rw [← not_le, ← le_iff]
  simp [lt]

theorem eq_iff : a.eq b = true ↔ a.value = b.value := by
  rw [eq, Bool.and_eq_true, le_iff, le_iff, le_antisymm_iff]

@[simp] theorem max_value (a b : FiniteDecimal) : (a.max b).value = Max.max a.value b.value := by
  unfold max
  split_ifs with h
  · rw [max_eq_right (lt_iff.mp h).le]
  · rw [max_eq_left (not_lt.mp (mt lt_iff.mpr h))]

@[simp] theorem min_value (a b : FiniteDecimal) : (a.min b).value = Min.min a.value b.value := by
  unfold FiniteDecimal.min
  split_ifs with h
  · rw [min_eq_right (lt_iff.mp h).le]
  · rw [min_eq_left (not_lt.mp (mt lt_iff.mpr h))]

@[simp] theorem zero_value : zero.value = 0 := by
  simp [value, zero, signed]

@[simp] theorem spread_value (d : FiniteDecimal) : d.spread.value = d.value := by
  have hsigned : (d.spread.signed : ℚ) = d.signed * 10 ^ d.exponent.toNat := by
    unfold spread signed
    split_ifs <;> push_cast <;> ring
  have hsplit : d.exponent = d.exponent.toNat + min d.exponent 0 := by omega
  rw [value, value, hsigned]
  conv_rhs => rw [hsplit, zpow_add₀ (by norm_num), zpow_natCast]
  show _ * 10 ^ min d.exponent 0 = _
  ring

/-- The size of a decimal, its sign apart. -/
theorem abs_value (d : FiniteDecimal) : |d.value| = d.coeff * 10 ^ d.exponent := by
  have hsize : |(d.signed : ℚ)| = d.coeff := by
    unfold signed
    split_ifs <;> simp
  rw [value, abs_mul, hsize, abs_of_pos (ten_zpow_pos _)]

theorem value_of_sign (d : FiniteDecimal) : d.value = if d.negative then -|d.value| else |d.value| := by
  rw [abs_value, value, signed]
  split_ifs <;> push_cast <;> ring

theorem isNegative_iff : d.isNegative = true ↔ d.value < 0 := by
  rw [value, ← not_le, mul_nonneg_iff_of_pos_right (ten_zpow_pos _), not_le, Int.cast_lt_zero]
  unfold isNegative signed
  cases d.negative <;> simp [Nat.pos_iff_ne_zero]

theorem isPositive_iff : d.isPositive = true ↔ 0 < d.value := by
  rw [value, mul_pos_iff_of_pos_right (ten_zpow_pos _), Int.cast_pos]
  unfold isPositive signed
  cases d.negative <;> simp [Nat.pos_iff_ne_zero]

/-- A zero may carry a minus, no other number that is not negative does. -/
theorem coeff_eq_zero (h : 0 ≤ d.value) (hsign : d.negative = true) : d.coeff = 0 := by
  by_contra hne
  refine absurd h (not_le.mpr (isNegative_iff.mp ?_))
  simp [isNegative, hsign, hne]

theorem nonneg_iff : d.isNegative = false ↔ 0 ≤ d.value := by
  rw [← not_lt, ← isNegative_iff, Bool.not_eq_true]

end FiniteDecimal

namespace Decimal

/-! ## Rounding -/

theorem lt_pow_width (n : Nat) : n < 10 ^ width n := (width_le_iff (width_pos n)).mp le_rfl

theorem pow_width_le {n : Nat} (h : 0 < n) : 10 ^ (width n - 1) ≤ n := by
  by_contra hlt
  rcases Nat.eq_zero_or_pos (width n - 1) with h0 | hpos
  · rw [h0] at hlt
    omega
  · have := (width_le_iff hpos).mpr (not_le.mp hlt)
    omega

theorem roundHalfEven_le {n p bound : Nat} (hp : 0 < p) (h : n ≤ bound * p) :
    roundHalfEven n p ≤ bound := by
  have hdiv : n / p ≤ bound := Nat.div_le_of_le_mul (by rwa [mul_comm] at h)
  unfold roundHalfEven
  split_ifs with hup
  · -- it only goes up when something is left over, and then below the bound
    have hrest : 0 < n % p := by omega
    have hsplit := Nat.div_add_mod n p
    by_contra hgt
    have heq : n / p = bound := by omega
    rw [heq, mul_comm] at hsplit
    omega
  · exact hdiv

theorem le_roundHalfEven (n p : Nat) : n / p ≤ roundHalfEven n p := by
  unfold roundHalfEven
  split_ifs
  · exact Nat.le_succ _
  · exact le_rfl

theorem roundHalfEven_of_eq {n k p : Nat} (hp : 0 < p) (h : n = k * p) : roundHalfEven n p = k := by
  unfold roundHalfEven
  rw [h, Nat.mul_mod_left, Nat.mul_div_cancel k hp]
  split_ifs with h
  · omega
  · rfl

/-- What the context makes of a coefficient at an exponent. -/
def roundedValue (coeff : Nat) (exponent : Int) : ℚ :=
  (rounded coeff exponent).1 * 10 ^ (rounded coeff exponent).2

/-- The exponent the context rounds at. -/
def expMin (coeff : Nat) (exponent : Int) : Int := max (exponent + width coeff - prec) etiny

variable {coeff : Nat} {exponent : Int} {negative : Bool} {d : FiniteDecimal}

theorem kept_le (h : exponent < expMin coeff exponent) :
    roundHalfEven coeff (10 ^ (expMin coeff exponent - exponent).toNat) ≤ 10 ^ prec := by
  refine roundHalfEven_le (by positivity) ?_
  rw [← pow_add]
  refine (lt_pow_width coeff).le.trans (Nat.pow_le_pow_right (by norm_num) ?_)
  have hmin : exponent + width coeff - prec ≤ expMin coeff exponent := le_max_left _ _
  omega

/-- A digit too many is a zero and is dropped without loss. -/
theorem roundedValue_eq (h : exponent < expMin coeff exponent) :
    roundedValue coeff exponent =
      (roundHalfEven coeff (10 ^ (expMin coeff exponent - exponent).toNat) : Nat) *
        10 ^ expMin coeff exponent := by
  have hkept := kept_le h
  unfold roundedValue rounded
  dsimp only
  change exponent < expMin coeff exponent at h
  rw [if_pos (show exponent < max (exponent + width coeff - prec) etiny from h)]
  change _ = _ * (10 : ℚ) ^ (max (exponent + width coeff - prec) etiny)
  generalize hk : roundHalfEven coeff
    (10 ^ (max (exponent + ↑(width coeff) - ↑prec) etiny - exponent).toNat) = kept
  rw [expMin, hk] at hkept
  rw [expMin, hk]
  split_ifs with hw
  · have hge : 10 ^ prec ≤ kept := by
      by_contra hlt
      exact absurd ((width_le_iff (by decide : 0 < prec)).mpr (not_le.mp hlt)) (not_le.mpr hw)
    have heq : kept = kept / 10 * 10 := by
      rw [le_antisymm hkept hge]
      rfl
    show ((kept / 10 : Nat) : ℚ) * 10 ^ (_ + 1) = _
    rw [zpow_add_one₀ (by norm_num), mul_comm ((10 : ℚ) ^ _) 10, ← mul_assoc]
    congr 1
    exact_mod_cast heq.symm
  · rfl

theorem roundedValue_of_le (h : expMin coeff exponent ≤ exponent) :
    roundedValue coeff exponent = coeff * 10 ^ exponent := by
  unfold roundedValue rounded
  dsimp only
  rw [if_neg (not_lt.mpr (show max (exponent + width coeff - prec) etiny ≤ exponent from h))]

theorem roundedValue_zero (exponent : Int) : roundedValue 0 exponent = 0 := by
  rcases le_or_gt (expMin 0 exponent) exponent with hle | hlt
  · simp [roundedValue_of_le hle]
  · rw [roundedValue_eq hlt, roundHalfEven_of_eq (k := 0) (by positivity) (by simp)]
    simp

/-- Where rounding drops digits, the number has 28 digits before the cut, or the
cut is at the last place there is. -/
theorem le_value_of_expMin (hc : 0 < coeff) (h : etiny < expMin coeff exponent) :
    (10 : ℚ) ^ (expMin coeff exponent + (prec - 1)) ≤ coeff * 10 ^ exponent := by
  have hmin : expMin coeff exponent = exponent + width coeff - prec := by
    unfold expMin at h ⊢
    exact max_eq_left (by omega)
  have hwidth := width_pos coeff
  have hexp : expMin coeff exponent + (prec - 1) = ((width coeff - 1 : Nat) : Int) + exponent := by
    omega
  rw [hexp, zpow_add₀ (by norm_num), zpow_natCast]
  have hpow : ((10 ^ (width coeff - 1) : Nat) : ℚ) ≤ coeff := by
    exact_mod_cast pow_width_le hc
  push_cast at hpow
  exact mul_le_mul_of_nonneg_right hpow (ten_zpow_pos _).le

section
variable {coeff m : Nat} {exponent x : Int}

/-- A bound on the number is a bound on its coefficient. -/
theorem coeff_le_of_le {cut : Int} (hcut : exponent ≤ cut) (hx : cut ≤ x)
    (h : (coeff : ℚ) * 10 ^ exponent ≤ m * 10 ^ x) :
    coeff ≤ m * 10 ^ (x - cut).toNat * 10 ^ (cut - exponent).toNat := by
  rw [ten_zpow_split hx, ten_zpow_split hcut] at h
  rw [← mul_assoc, ← mul_assoc, mul_le_mul_iff_left₀ (ten_zpow_pos exponent)] at h
  exact_mod_cast h

/-- **Rounding never passes a number the context can write.** -/
theorem roundedValue_le (hc : 0 < coeff) (hx : etiny ≤ x) (hm : m ≤ 10 ^ prec)
    (h : (coeff : ℚ) * 10 ^ exponent ≤ m * 10 ^ x) : roundedValue coeff exponent ≤ m * 10 ^ x := by
  rcases le_or_gt (expMin coeff exponent) exponent with hle | hlt
  · rw [roundedValue_of_le hle]
    exact h
  · rw [roundedValue_eq hlt]
    rcases le_or_gt (expMin coeff exponent) x with hxle | hxlt
    · have hkept := roundHalfEven_le (p := 10 ^ (expMin coeff exponent - exponent).toNat)
        (by positivity) (coeff_le_of_le hlt.le hxle h)
      rw [ten_zpow_split hxle, ← mul_assoc]
      refine mul_le_mul_of_nonneg_right ?_ (ten_zpow_pos _).le
      exact_mod_cast hkept
    · -- the bound lies below the cut: number and bound are the same power of ten
      have hlow := le_value_of_expMin hc (hx.trans_lt hxlt)
      have hbound : (m : ℚ) * 10 ^ x ≤ 10 ^ (expMin coeff exponent + (prec - 1)) := by
        have hm' : (m : ℚ) ≤ 10 ^ (prec : Int) := by
          rw [zpow_natCast]
          exact_mod_cast hm
        calc (m : ℚ) * 10 ^ x ≤ 10 ^ (prec : Int) * 10 ^ x :=
              mul_le_mul_of_nonneg_right hm' (ten_zpow_pos _).le
          _ = 10 ^ ((prec : Int) + x) := (zpow_add₀ (by norm_num) _ _).symm
          _ ≤ 10 ^ (expMin coeff exponent + (prec - 1)) :=
              zpow_le_zpow_right₀ (by norm_num) (by omega)
      have heq : (coeff : ℚ) * 10 ^ exponent =
          ((10 ^ (prec - 1) : Nat) : ℚ) * 10 ^ expMin coeff exponent := by
        rw [le_antisymm (h.trans hbound) hlow, add_comm, zpow_add₀ (by norm_num), Nat.cast_pow,
          ← zpow_natCast]
        rfl
      have hcoeff : coeff = 10 ^ (prec - 1) * 10 ^ (expMin coeff exponent - exponent).toNat := by
        rw [ten_zpow_split hlt.le, ← mul_assoc, mul_left_inj' (ten_zpow_pos exponent).ne'] at heq
        exact_mod_cast heq
      have hkept : roundHalfEven coeff (10 ^ (expMin coeff exponent - exponent).toNat) =
          10 ^ (prec - 1) := roundHalfEven_of_eq (by positivity) hcoeff
      rw [hkept, ← heq]
      exact h

/-- A number of at most 28 digits is not rounded. -/
theorem roundedValue_exact (hc : 0 < coeff) (hx : etiny ≤ x) (hm : m < 10 ^ prec)
    (h : (coeff : ℚ) * 10 ^ exponent = m * 10 ^ x) :
    roundedValue coeff exponent = coeff * 10 ^ exponent := by
  rcases le_or_gt (expMin coeff exponent) exponent with hle | hlt
  · exact roundedValue_of_le hle
  · have hxle : expMin coeff exponent ≤ x := by
      by_contra hxlt
      rw [not_le] at hxlt
      have hlow := le_value_of_expMin hc (hx.trans_lt hxlt)
      have hm' : (m : ℚ) < 10 ^ (prec : Int) := by
        rw [zpow_natCast]
        exact_mod_cast hm
      have hhigh : (m : ℚ) * 10 ^ x < 10 ^ (expMin coeff exponent + (prec - 1)) :=
        calc (m : ℚ) * 10 ^ x < 10 ^ (prec : Int) * 10 ^ x :=
              mul_lt_mul_of_pos_right hm' (ten_zpow_pos _)
          _ = 10 ^ ((prec : Int) + x) := (zpow_add₀ (by norm_num) _ _).symm
          _ ≤ 10 ^ (expMin coeff exponent + (prec - 1)) :=
              zpow_le_zpow_right₀ (by norm_num) (by omega)
      rw [h] at hlow
      exact absurd hhigh (not_lt.mpr hlow)
    have hcoeff : coeff = m * 10 ^ (x - expMin coeff exponent).toNat *
        10 ^ (expMin coeff exponent - exponent).toNat := by
      have heq := h
      rw [ten_zpow_split hxle, ten_zpow_split hlt.le, ← mul_assoc, ← mul_assoc,
        mul_left_inj' (ten_zpow_pos exponent).ne'] at heq
      exact_mod_cast heq
    have hkept : roundHalfEven coeff (10 ^ (expMin coeff exponent - exponent).toNat) =
        m * 10 ^ (x - expMin coeff exponent).toNat := roundHalfEven_of_eq (by positivity) hcoeff
    rw [roundedValue_eq hlt, hkept, h, ten_zpow_split hxle]
    push_cast
    ring

/-! ## Arithmetic -/

/-- The leading digit of a number below the limit is within the context. -/
theorem adjusted_le (hc : 0 < coeff) (h : (coeff : ℚ) * 10 ^ exponent < 10 ^ (emax + 1)) :
    exponent + width coeff - 1 ≤ emax := by
  have hpow : ((10 ^ (width coeff - 1) : Nat) : ℚ) ≤ coeff := by exact_mod_cast pow_width_le hc
  have hlead : (10 : ℚ) ^ (((width coeff - 1 : Nat) : Int) + exponent) < 10 ^ (emax + 1) := by
    rw [zpow_add₀ (by norm_num), zpow_natCast]
    push_cast at hpow
    exact (mul_le_mul_of_nonneg_right hpow (ten_zpow_pos _).le).trans_lt h
  have hexp := (zpow_lt_zpow_iff_right₀ (by norm_num : (1 : ℚ) < 10)).mp hlead
  have hwidth := width_pos coeff
  omega

theorem rounded_zero (hc : 0 < coeff) (h : (rounded coeff exponent).1 = 0) :
    (rounded coeff exponent).2 = expMin coeff exponent := by
  unfold rounded at h ⊢
  dsimp only at h ⊢
  split_ifs at h ⊢ with h1 h2
  · -- a kept coefficient of 29 digits is not below ten
    have hkept := (width_le_iff (by decide : 0 < prec)).not.mp (not_le.mpr h2)
    have hten : 10 ^ prec < 10 := (not_lt.mp hkept).trans_lt
      ((Nat.div_eq_zero_iff.mp h).resolve_left (by norm_num))
    exact absurd hten (by decide)
  · rfl
  · exact absurd h hc.ne'

/-- A number the context can write, of at most 28 digits or the power of ten
after them. -/
def Writable (r : ℚ) : Prop :=
  ∃ (m : Nat) (x : Int), m ≤ 10 ^ prec ∧ etiny ≤ x ∧ r = m * 10 ^ x ∧ r < 10 ^ (emax + 1)

variable (negative : Bool) {r : ℚ}

/-- **Bounds stay bounds**: below a number the context can write there is a
result, and it is not above that number. -/
theorem fix_le (hr : Writable r) (h : (coeff : ℚ) * 10 ^ exponent ≤ r) :
    ∃ d, fix negative coeff exponent = some d ∧ d.negative = negative ∧ |d.value| ≤ r ∧
      |d.value| = roundedValue coeff exponent := by
  obtain ⟨m, x, hm, hx, rfl, hmax⟩ := hr
  rcases Nat.eq_zero_or_pos coeff with rfl | hc
  · have hrange : InRange 0 (min (max exponent etiny) emax) := by
      have hw : width 0 = 1 := by decide
      unfold InRange minEtiny maxEmax
      rw [hw]
      unfold emax etiny
      omega
    have hzero : |(⟨negative, 0, _, hrange⟩ : FiniteDecimal).value| = 0 := by
      rw [FiniteDecimal.abs_value]
      simp
    refine ⟨⟨negative, 0, _, hrange⟩, ?_, rfl, ?_, ?_⟩
    · rw [fix, if_pos rfl, FiniteDecimal.mk?, dif_pos hrange]
    · rw [hzero]
      simpa using h
    · rw [hzero, roundedValue_zero]
  · have hround := roundedValue_le hc hx hm h
    have hbefore := adjusted_le hc (h.trans_lt hmax)
    have hafter : ¬ emax < (rounded coeff exponent).2 + width (rounded coeff exponent).1 - 1 := by
      rw [not_lt]
      rcases Nat.eq_zero_or_pos (rounded coeff exponent).1 with h0 | hpos
      · rw [h0, rounded_zero hc h0]
        have hw : width 0 = 1 := by decide
        rw [hw]
        unfold expMin prec
        unfold emax etiny at *
        omega
      · exact adjusted_le hpos (hround.trans_lt hmax)
    have hfix : ∃ hrange, fix negative coeff exponent =
        some ⟨negative, (rounded coeff exponent).1, (rounded coeff exponent).2, hrange⟩ := by
      rw [fix, if_neg hc.ne', if_neg (not_lt.mpr hbefore), dif_neg hafter]
      exact ⟨_, rfl⟩
    obtain ⟨hrange, hfix⟩ := hfix
    refine ⟨_, hfix, rfl, ?_, ?_⟩
    · rw [FiniteDecimal.abs_value]
      exact hround
    · rw [FiniteDecimal.abs_value]
      rfl

theorem fix_some (coeff : Nat) (exponent : Int) (hr : Writable r)
    (h : (coeff : ℚ) * 10 ^ exponent ≤ r) : ∃ d, fix negative coeff exponent = some d := by
  obtain ⟨d, hd, -⟩ := fix_le negative hr h
  exact ⟨d, hd⟩

theorem rounded_le (coeff : Nat) (exponent : Int) : (rounded coeff exponent).1 ≤ 10 ^ prec := by
  rcases le_or_gt (expMin coeff exponent) exponent with hle | hlt
  · have hcoeff : (rounded coeff exponent).1 = coeff := by
      unfold rounded
      dsimp only
      rw [if_neg (not_lt.mpr (show max (exponent + width coeff - prec) etiny ≤ exponent from hle))]
    have hmin : exponent + width coeff - prec ≤ expMin coeff exponent := le_max_left _ _
    rw [hcoeff]
    exact ((width_le_iff (by decide : 0 < prec)).mp (by omega)).le
  · have hkept := kept_le hlt
    unfold rounded
    dsimp only
    rw [if_pos (show exponent < max (exponent + width coeff - prec) etiny from hlt)]
    rw [expMin] at hkept
    split_ifs
    · exact (Nat.div_le_self _ _).trans hkept
    · exact hkept

variable {d : FiniteDecimal}

/-- A result is a number the context can write. -/
theorem fix_writable (h : fix negative coeff exponent = some d) : Writable |d.value| := by
  unfold fix at h
  split_ifs at h with hzero hbig hover
  · have hcoeff : d.coeff = 0 := by
      unfold FiniteDecimal.mk? at h
      split_ifs at h
      cases h
      rfl
    refine ⟨0, 0, Nat.zero_le _, by decide, ?_, ?_⟩
    · rw [FiniteDecimal.abs_value, hcoeff]
      simp
    · rw [FiniteDecimal.abs_value, hcoeff]
      simp [ten_zpow_pos]
  · cases h
    refine ⟨_, _, rounded_le coeff exponent, etiny_le_rounded coeff exponent, FiniteDecimal.abs_value _, ?_⟩
    rw [FiniteDecimal.abs_value]
    show ((rounded coeff exponent).1 : ℚ) * 10 ^ (rounded coeff exponent).2 < _
    have hwidth : ((rounded coeff exponent).1 : ℚ) < 10 ^ ((width (rounded coeff exponent).1 : Nat) : Int) := by
      rw [zpow_natCast]
      exact_mod_cast lt_pow_width _
    calc ((rounded coeff exponent).1 : ℚ) * 10 ^ (rounded coeff exponent).2
        < 10 ^ ((width (rounded coeff exponent).1 : Nat) : Int) * 10 ^ (rounded coeff exponent).2 :=
          mul_lt_mul_of_pos_right hwidth (ten_zpow_pos _)
      _ = 10 ^ (((width (rounded coeff exponent).1 : Nat) : Int) + (rounded coeff exponent).2) :=
          (zpow_add₀ (by norm_num) _ _).symm
      _ ≤ 10 ^ (emax + 1) := zpow_le_zpow_right₀ (by norm_num) (by omega)

theorem fix_exponent (h : fix negative coeff exponent = some d) : etiny ≤ d.exponent := by
  unfold fix at h
  split_ifs at h
  · unfold FiniteDecimal.mk? at h
    split_ifs at h
    cases h
    show etiny ≤ min (max exponent etiny) emax
    exact le_min (le_max_right _ _) (by decide)
  · cases h
    exact etiny_le_rounded coeff exponent

theorem fix_zero_value (h : fix negative 0 exponent = some d) : d.value = 0 := by
  rw [fix, if_pos rfl, FiniteDecimal.mk?] at h
  split_ifs at h
  cases h
  simp [FiniteDecimal.value, FiniteDecimal.signed]

theorem fix_nonneg (h : fix false coeff exponent = some d) : 0 ≤ d.value := by
  rcases Nat.eq_zero_or_pos coeff with rfl | hc
  · exact (fix_zero_value false h).ge
  · rw [fix, if_neg hc.ne'] at h
    split_ifs at h
    cases h
    exact FiniteDecimal.nonneg_iff.mp rfl

/-- A number that is rounded already is not rounded up. -/
theorem fix_le_of_fixed {c x : FiniteDecimal} {coeff' : Nat} {exponent' : Int}
    (hc : fix negative coeff' exponent' = some c) (hd : fix false x.coeff x.exponent = some d)
    (h : |x.value| ≤ |c.value|) : d.value ≤ |c.value| := by
  rw [FiniteDecimal.abs_value x] at h
  obtain ⟨r, hr, -, hle, -⟩ := fix_le false (fix_writable negative hc) h
  rw [hd] at hr
  cases hr
  exact (le_abs_self _).trans hle

/-- Rounding that keeps 28 digits keeps half of the number at least. -/
theorem half_le_roundedValue (coeff : Nat) (hx : etiny ≤ exponent) :
    (coeff : ℚ) * 10 ^ exponent ≤ 2 * roundedValue coeff exponent := by
  rcases le_or_gt (expMin coeff exponent) exponent with hle | hlt
  · rw [roundedValue_of_le hle]
    have hnonneg : (0 : ℚ) ≤ coeff * 10 ^ exponent := mul_nonneg (Nat.cast_nonneg _) (ten_zpow_pos _).le
    linarith
  · have hmin : expMin coeff exponent = exponent + width coeff - prec := by
      unfold expMin at hlt ⊢
      omega
    have hc : 0 < coeff := by
      rw [Nat.pos_iff_ne_zero]
      rintro rfl
      have hw : width 0 = 1 := by decide
      rw [hmin, hw] at hlt
      unfold prec at hlt
      omega
    have hpos : 0 < 10 ^ (expMin coeff exponent - exponent).toNat := by positivity
    have hone : 1 ≤ coeff / 10 ^ (expMin coeff exponent - exponent).toNat := by
      refine (Nat.one_le_div_iff hpos).mpr ?_
      refine (Nat.pow_le_pow_right (by norm_num) ?_).trans (pow_width_le hc)
      rw [hmin]
      unfold prec
      omega
    have hkept := le_roundHalfEven coeff (10 ^ (expMin coeff exponent - exponent).toNat)
    have hnat : coeff ≤ 2 * roundHalfEven coeff (10 ^ (expMin coeff exponent - exponent).toNat) *
        10 ^ (expMin coeff exponent - exponent).toNat := by
      refine (Nat.lt_mul_of_div_lt (Nat.lt_succ_self _) hpos).le.trans ?_
      exact Nat.mul_le_mul_right _ (by omega)
    rw [roundedValue_eq hlt, ten_zpow_split hlt.le]
    have hrat := Nat.cast_le (α := ℚ) |>.mpr hnat
    push_cast at hrat
    have hscale := mul_le_mul_of_nonneg_right hrat (ten_zpow_pos exponent).le
    push_cast
    linarith

theorem half_le_fix (hx : etiny ≤ exponent) (h : fix negative coeff exponent = some d) :
    (coeff : ℚ) * 10 ^ exponent ≤ 2 * |d.value| := by
  rcases Nat.eq_zero_or_pos coeff with rfl | hc
  · simp
  · rw [fix, if_neg hc.ne'] at h
    split_ifs at h
    cases h
    rw [FiniteDecimal.abs_value]
    exact half_le_roundedValue coeff hx

/-- A number beyond the context overflows. -/
theorem fix_none (h : 10 ^ (emax + 1) ≤ (coeff : ℚ) * 10 ^ exponent) : fix negative coeff exponent = none := by
  have hc : coeff ≠ 0 := by
    rintro rfl
    rw [Nat.cast_zero, zero_mul] at h
    exact not_lt.mpr h (ten_zpow_pos (emax + 1))
  have hwidth : (coeff : ℚ) < 10 ^ ((width coeff : Nat) : Int) := by
    rw [zpow_natCast]
    exact_mod_cast lt_pow_width coeff
  have hlt : (10 : ℚ) ^ (emax + 1) < 10 ^ ((width coeff : Int) + exponent) := by
    rw [zpow_add₀ (by norm_num) (width coeff : Int) exponent]
    exact h.trans_lt (mul_lt_mul_of_pos_right hwidth (ten_zpow_pos _))
  have hexp := (zpow_lt_zpow_iff_right₀ (by norm_num : (1 : ℚ) < 10)).mp hlt
  rw [fix, if_neg hc, if_pos (by omega)]

end

theorem rounded_lt (coeff : Nat) (exponent : Int) : (rounded coeff exponent).1 < 10 ^ prec := by
  have hpow : (10 : Nat) ^ prec / 10 < 10 ^ prec := Nat.div_lt_self (by positivity) (by decide)
  rcases le_or_gt (expMin coeff exponent) exponent with hle | hlt
  · have hmin : exponent + width coeff - prec ≤ expMin coeff exponent := le_max_left _ _
    have hcoeff : (rounded coeff exponent).1 = coeff := by
      unfold rounded
      dsimp only
      rw [if_neg (not_lt.mpr (show max (exponent + width coeff - prec) etiny ≤ exponent from hle))]
    rw [hcoeff, ← width_le_iff (by decide : 0 < prec)]
    omega
  · have hkept := kept_le hlt
    unfold rounded
    dsimp only
    rw [if_pos (show exponent < max (exponent + width coeff - prec) etiny from hlt)]
    rw [expMin] at hkept
    split_ifs with hwide
    · exact (Nat.div_le_div_right hkept).trans_lt hpow
    · exact (width_le_iff (by decide)).mp (not_lt.mp hwide)

/-- A result has 28 digits at most. -/
theorem fix_coeff_lt (h : fix negative coeff exponent = some d) : d.coeff < 10 ^ prec := by
  unfold fix at h
  split_ifs at h
  · unfold FiniteDecimal.mk? at h
    split_ifs at h
    cases h
    exact Nat.pow_pos (by decide)
  · cases h
    exact rounded_lt coeff exponent

/-- What is rounded already keeps its worth, and a number of the same size takes it. -/
theorem fix_of_fixed {x : FiniteDecimal} (h : fix negative coeff exponent = some d)
    (hx : |x.value| = |d.value|) (sign : Bool) :
    ∃ r, fix sign x.coeff x.exponent = some r ∧ r.negative = sign ∧ |r.value| = |x.value| := by
  obtain ⟨r, hr, hsign, -, hvalue⟩ :=
    fix_le sign (fix_writable negative h) ((FiniteDecimal.abs_value x).ge.trans hx.le)
  refine ⟨r, hr, hsign, ?_⟩
  rw [hvalue, FiniteDecimal.abs_value]
  rcases Nat.eq_zero_or_pos x.coeff with hzero | hpos
  · rw [hzero, roundedValue_zero]
    simp
  · rw [FiniteDecimal.abs_value, FiniteDecimal.abs_value] at hx
    exact roundedValue_exact hpos (fix_exponent negative h) (fix_coeff_lt h) hx

theorem fix_fixed (h : fix negative coeff exponent = some d) :
    ∃ r, fix d.negative d.coeff d.exponent = some r ∧ r.value = d.value := by
  obtain ⟨r, hr, hsign, hvalue⟩ := fix_of_fixed h rfl d.negative
  refine ⟨r, hr, ?_⟩
  rw [FiniteDecimal.value_of_sign r, FiniteDecimal.value_of_sign d, hvalue, hsign]

/-- A result of zero is that of a number that is rounded to zero. -/
theorem roundedValue_of_fix_zero (h : fix negative coeff exponent = some d) (hzero : d.coeff = 0) :
    roundedValue coeff exponent = 0 := by
  unfold fix at h
  split_ifs at h with hcoeff
  · rw [hcoeff, roundedValue_zero]
  · cases h
    have hkept : (rounded coeff exponent).1 = 0 := hzero
    rw [roundedValue, hkept]
    simp

/-! ## The order -/

def isNaN : Decimal → Bool
  | .nan _ _ _ => true
  | .finite _ | .infinity _ => false

/-- What a decimal is worth, between the infinities. -/
def rank : Decimal → WithBot (WithTop ℚ)
  | .finite d => ((d.value : WithTop ℚ) : WithBot (WithTop ℚ))
  | .infinity false => ⊤
  | .infinity true | .nan _ _ _ => ⊥

/-- Two decimals compare as what they are worth, and a NaN with none. -/
theorem le?_iff {a b : Decimal} {le : Bool} :
    a.le? b = some le ↔ (a.isNaN = false ∧ b.isNaN = false) ∧ decide (a.rank ≤ b.rank) = le := by
  have hfinite : ∀ x y : FiniteDecimal, x.le y = decide (x.value ≤ y.value) := fun x y => by
    rw [Bool.eq_iff_iff, FiniteDecimal.le_iff, decide_eq_true_iff]
  rcases a with a | ⟨_ | _⟩ | _ <;> rcases b with b | ⟨_ | _⟩ | _ <;>
    simp [le?, rank, isNaN, hfinite]

theorem lt?_iff {a b : Decimal} {lt : Bool} :
    a.lt? b = some lt ↔ (a.isNaN = false ∧ b.isNaN = false) ∧ decide (a.rank < b.rank) = lt := by
  unfold lt?
  rw [Option.map_eq_some_iff]
  constructor
  · rintro ⟨le, hle, rfl⟩
    obtain ⟨⟨hb, ha⟩, rfl⟩ := le?_iff.mp hle
    exact ⟨⟨ha, hb⟩, by rw [← decide_not, decide_eq_decide, not_le]⟩
  · rintro ⟨⟨ha, hb⟩, rfl⟩
    exact ⟨_, le?_iff.mpr ⟨⟨hb, ha⟩, rfl⟩, by rw [← decide_not, decide_eq_decide, not_le]⟩

/-- A place whose 28 digits the context can write. -/
def InContext (e : Int) : Prop := etiny ≤ e ∧ e + prec ≤ emax + 1

/-- A number of at most 28 digits before a place. -/
def Fits (e : Int) (x : ℚ) : Prop := ∃ m : Nat, m < 10 ^ prec ∧ |x| = m * 10 ^ e

/-- A number of whole units of a place. -/
def Whole (e : Int) (x : ℚ) : Prop := ∃ m : Nat, x = m * 10 ^ e

/-- The first number with more than 28 digits before a place. -/
def limit (e : Int) : ℚ := 10 ^ prec * 10 ^ e

namespace Whole
variable {e : Int} {x y : ℚ}

theorem zero (e : Int) : Whole e 0 := ⟨0, by simp⟩

theorem add (hx : Whole e x) (hy : Whole e y) : Whole e (x + y) := by
  obtain ⟨m, rfl⟩ := hx
  obtain ⟨n, rfl⟩ := hy
  exact ⟨m + n, by push_cast; ring⟩

theorem max (hx : Whole e x) (hy : Whole e y) : Whole e (Max.max x y) := by
  rcases max_choice x y with h | h
  · rwa [h]
  · rwa [h]

theorem nonneg (hx : Whole e x) : 0 ≤ x := by
  obtain ⟨m, rfl⟩ := hx
  have := ten_zpow_pos e
  positivity

theorem lt_limit_iff {m : Nat} : (m : ℚ) * 10 ^ e < limit e ↔ m < 10 ^ prec := by
  rw [limit, mul_lt_mul_iff_left₀ (ten_zpow_pos e)]
  exact_mod_cast Iff.rfl

theorem fits (hx : Whole e x) (hlt : x < limit e) : Fits e x := by
  have hnonneg := hx.nonneg
  obtain ⟨m, rfl⟩ := hx
  exact ⟨m, lt_limit_iff.mp hlt, abs_of_nonneg hnonneg⟩

end Whole

theorem InContext.writable {e : Int} {m : Nat} (he : InContext e) (hm : m < 10 ^ prec) :
    Writable (m * 10 ^ e) := by
  refine ⟨m, e, hm.le, he.1, rfl, ?_⟩
  have hm' : (m : ℚ) < 10 ^ (prec : Int) := by
    rw [zpow_natCast]
    exact_mod_cast hm
  calc (m : ℚ) * 10 ^ e < 10 ^ (prec : Int) * 10 ^ e := mul_lt_mul_of_pos_right hm' (ten_zpow_pos _)
    _ = 10 ^ ((prec : Int) + e) := (zpow_add₀ (by norm_num) _ _).symm
    _ ≤ 10 ^ (emax + 1) := zpow_le_zpow_right₀ (by norm_num) (by rw [add_comm]; exact he.2)

theorem fix_exact (negative : Bool) {e : Int} (he : InContext e)
    (h : Fits e (coeff * 10 ^ exponent)) :
    ∃ d, fix negative coeff exponent = some d ∧ d.negative = negative ∧
      |d.value| = coeff * 10 ^ exponent := by
  obtain ⟨m, hm, heq⟩ := h
  have hnonneg : (0 : ℚ) ≤ coeff * 10 ^ exponent := mul_nonneg (Nat.cast_nonneg _) (ten_zpow_pos _).le
  rw [abs_of_nonneg hnonneg] at heq
  obtain ⟨d, hd, hsign, -, hround⟩ := fix_le negative (he.writable hm) heq.le
  refine ⟨d, hd, hsign, ?_⟩
  rcases Nat.eq_zero_or_pos coeff with rfl | hc
  · rw [hround, roundedValue_zero, Nat.cast_zero, zero_mul]
  · rw [hround, roundedValue_exact hc he.1 hm heq]

section
variable {a b : FiniteDecimal}

/-- The exact sum, at the smaller exponent. -/
theorem sum_eq : a.value + b.value =
    ((a.scaled (min a.exponent b.exponent) + b.scaled (min a.exponent b.exponent) : Int) : ℚ) *
      10 ^ min a.exponent b.exponent := by
  rw [FiniteDecimal.value_eq_scaled (min_le_left a.exponent b.exponent),
    FiniteDecimal.value_eq_scaled (min_le_right a.exponent b.exponent)]
  push_cast
  ring

theorem abs_sum_eq : |a.value + b.value| =
    (a.scaled (min a.exponent b.exponent) + b.scaled (min a.exponent b.exponent)).natAbs *
      10 ^ min a.exponent b.exponent := by
  rw [sum_eq, abs_mul, abs_of_pos (ten_zpow_pos _), Nat.cast_natAbs, Int.cast_abs]

variable {e : Int}

/-- **A sum that fits is exact.** -/
theorem add_exact (he : InContext e) (h : Fits e (a.value + b.value)) :
    ∃ c, add a b = some c ∧ c.value = a.value + b.value := by
  have hsum := @sum_eq a b
  have hsize := @abs_sum_eq a b
  set low := min a.exponent b.exponent with hlow
  have hfits : Fits e (((a.scaled low + b.scaled low).natAbs : ℚ) * 10 ^ low) := by
    obtain ⟨m, hm, heq⟩ := h
    exact ⟨m, hm, by rw [← hsize, abs_abs, heq]⟩
  obtain ⟨c, hc, hsign, habs⟩ := fix_exact (if a.scaled low + b.scaled low = 0 then
    a.negative && b.negative else decide (a.scaled low + b.scaled low < 0)) he hfits
  refine ⟨c, hc, ?_⟩
  rw [c.value_of_sign, habs, hsign, ← hsize]
  generalize a.scaled low + b.scaled low = total at hsum
  rcases lt_trichotomy total 0 with hneg | rfl | hpos
  · have hlt : a.value + b.value < 0 := by
      rw [hsum]
      exact mul_neg_of_neg_of_pos (by exact_mod_cast hneg) (ten_zpow_pos _)
    simp [hneg.ne, hneg, abs_of_neg hlt]
  · simp [hsum]
  · have hgt : 0 < a.value + b.value := by
      rw [hsum]
      exact mul_pos (by exact_mod_cast hpos) (ten_zpow_pos _)
    simp [hpos.ne', hpos.not_gt, abs_of_pos hgt]

variable {r : ℚ}

theorem negate_value (d : FiniteDecimal) : d.negate.value = -d.value := by
  unfold FiniteDecimal.value FiniteDecimal.signed FiniteDecimal.negate
  cases d.negative <;> simp

/-- **A difference that fits is exact.** -/
theorem sub_exact (he : InContext e) (h : Fits e (a.value - b.value)) :
    ∃ c, sub a b = some c ∧ c.value = a.value - b.value := by
  rw [sub_eq_add_neg, ← negate_value] at h ⊢
  exact add_exact he h

/-- The difference of two numbers is kept by half at least. -/
theorem half_le_sub {a b c : FiniteDecimal} (ha : etiny ≤ a.exponent) (hb : etiny ≤ b.exponent)
    (h : sub a b = some c) : |a.value - b.value| ≤ 2 * |c.value| := by
  have hle := half_le_fix _ (le_min ha (show etiny ≤ b.negate.exponent from hb)) h
  rwa [← abs_sum_eq, negate_value, ← sub_eq_add_neg] at hle

/-- The difference of equal numbers is zero. -/
theorem sub_coeff_zero {c : FiniteDecimal} (h : sub a b = some c) (heq : a.value = b.value) : c.coeff = 0 := by
  have hsize := @abs_sum_eq a b.negate
  rw [negate_value, heq, add_neg_cancel, abs_zero] at hsize
  have hzero : (a.scaled (min a.exponent b.negate.exponent) +
      b.negate.scaled (min a.exponent b.negate.exponent)).natAbs = 0 := by
    have hprod := (mul_eq_zero.mp hsize.symm).resolve_right (ten_zpow_pos _).ne'
    exact_mod_cast hprod
  rw [sub, add] at h
  rw [hzero, fix, if_pos rfl, FiniteDecimal.mk?] at h
  split_ifs at h <;> cases h <;> rfl

/-- A sum below a number the context can write stays below it. -/
theorem add_le (hr : Writable r) (ha : 0 ≤ a.value) (hb : 0 ≤ b.value) (h : a.value + b.value ≤ r) :
    ∃ c, add a b = some c ∧ 0 ≤ c.value ∧ c.value ≤ r := by
  have hsize := @abs_sum_eq a b
  rw [abs_of_nonneg (add_nonneg ha hb)] at hsize
  have hsign : ¬ a.scaled (min a.exponent b.exponent) + b.scaled (min a.exponent b.exponent) < 0 := by
    intro hneg
    have hlt : a.value + b.value < 0 := by
      rw [sum_eq]
      exact mul_neg_of_neg_of_pos (by exact_mod_cast hneg) (ten_zpow_pos _)
    linarith
  rw [hsize] at h
  obtain ⟨c, hc, hneg, hle, hround⟩ := fix_le (if a.scaled (min a.exponent b.exponent) +
    b.scaled (min a.exponent b.exponent) = 0 then a.negative && b.negative else
    decide (a.scaled (min a.exponent b.exponent) + b.scaled (min a.exponent b.exponent) < 0)) hr h
  refine ⟨c, hc, ?_, (le_abs_self _).trans hle⟩
  split_ifs at hneg with hzero
  · rw [hzero, Int.natAbs_zero, roundedValue_zero, abs_eq_zero] at hround
    exact hround.ge
  · rw [c.value_of_sign, hneg, decide_eq_false hsign]
    exact abs_nonneg _

theorem mul_eq : |a.value * b.value| = ((a.coeff * b.coeff : Nat) : ℚ) * 10 ^ (a.exponent + b.exponent) := by
  rw [abs_mul, a.abs_value, b.abs_value, zpow_add₀ (by norm_num)]
  push_cast
  ring

/-- **A product that fits is exact.** -/
theorem mul_exact (he : InContext e) (h : Fits e (a.value * b.value)) :
    ∃ c, mul a b = some c ∧ c.value = a.value * b.value := by
  have hfits : Fits e (((a.coeff * b.coeff : Nat) : ℚ) * 10 ^ (a.exponent + b.exponent)) := by
    obtain ⟨k, hk, habs⟩ := h
    rw [← mul_eq]
    exact ⟨k, hk, by rw [abs_abs, habs]⟩
  obtain ⟨c, hc, hsign, habs⟩ := fix_exact (a.negative != b.negative) he hfits
  refine ⟨c, hc, ?_⟩
  rw [← mul_eq, abs_mul] at habs
  rw [FiniteDecimal.value_of_sign c, FiniteDecimal.value_of_sign a, FiniteDecimal.value_of_sign b, hsign,
    habs]
  cases a.negative <;> cases b.negative <;> simp

/-- A product below a number the context can write stays below it. -/
theorem mul_le (hr : Writable r) (ha : 0 ≤ a.value) (hb : 0 ≤ b.value) (h : a.value * b.value ≤ r) :
    ∃ c, mul a b = some c ∧ 0 ≤ c.value ∧ c.value ≤ r := by
  rw [← abs_of_nonneg (mul_nonneg ha hb), mul_eq] at h
  obtain ⟨c, hc, hneg, hle, hround⟩ := fix_le (a.negative != b.negative) hr h
  refine ⟨c, hc, ?_, (le_abs_self _).trans hle⟩
  by_cases hsign : c.negative = true
  · -- one of the factors is a negative zero
    have hzero : a.coeff * b.coeff = 0 := by
      rw [hsign] at hneg
      cases hs : a.negative with
      | true => rw [FiniteDecimal.coeff_eq_zero ha hs, zero_mul]
      | false =>
        rw [FiniteDecimal.coeff_eq_zero hb (by simpa [hs] using hneg.symm), mul_zero]
    rw [hzero, roundedValue_zero, abs_eq_zero] at hround
    exact hround.ge
  · rw [c.value_of_sign, if_neg hsign]
    exact abs_nonneg _

/-! ## Quotients -/

theorem dropZeros_value (k coeff : Nat) (exponent : Int) :
    ((dropZeros k coeff exponent).1 : ℚ) * 10 ^ (dropZeros k coeff exponent).2 =
      coeff * 10 ^ exponent := by
  induction k generalizing coeff exponent with
  | zero => rfl
  | succ k ih =>
    rw [dropZeros]
    split_ifs with h
    · have hten : coeff = coeff / 10 * 10 := by omega
      rw [ih, zpow_add_one₀ (by norm_num)]
      conv_rhs => rw [hten]
      push_cast
      ring
    · rfl

theorem width_mul_ten {n : Nat} (h : 0 < n) : width (n * 10) = width n + 1 := by
  refine le_antisymm ?_ ?_
  · simpa using width_mul_pow n 1
  · have hlow := pow_width_le h
    by_contra hlt
    have hle : width (n * 10) ≤ width n := by omega
    have hsmall : n * 10 < 10 ^ width n := (width_le_iff (width_pos n)).mp hle
    have hsplit : 10 ^ width n = 10 ^ (width n - 1) * 10 := by
      rw [← Nat.pow_succ]
      congr 1
      have := width_pos n
      omega
    rw [hsplit] at hsmall
    omega

/-- Dropping zeros keeps the leading digit where it is. -/
theorem dropZeros_inRange (k : Nat) {coeff : Nat} {exponent : Int} (hc : 0 < coeff)
    (h : InRange coeff exponent) :
    InRange (dropZeros k coeff exponent).1 (dropZeros k coeff exponent).2 := by
  induction k generalizing coeff exponent with
  | zero => exact h
  | succ k ih =>
    rw [dropZeros]
    split_ifs with hzero
    · have hten : coeff / 10 * 10 = coeff := by omega
      have hpos : 0 < coeff / 10 := by omega
      have hwidth := width_mul_ten hpos
      rw [hten] at hwidth
      obtain ⟨hlow, hhigh⟩ := h
      exact ih hpos ⟨by omega, by omega⟩
    · exact h

theorem normalize_some {d r : FiniteDecimal} (h : fix d.negative d.coeff d.exponent = some r) :
    ∃ n, normalize d = some n ∧ n.value = r.value := by
  unfold normalize
  rw [h]
  by_cases hzero : r.coeff = 0
  · have hrange : InRange 0 0 := by decide
    refine ⟨⟨r.negative, 0, 0, hrange⟩, ?_, ?_⟩
    · show (if r.coeff = 0 then FiniteDecimal.mk? r.negative 0 0 else _) = _
      rw [if_pos hzero]
      exact FiniteDecimal.mk?_self ⟨r.negative, 0, 0, hrange⟩
    · simp [FiniteDecimal.value, FiniteDecimal.signed, hzero]
  · have hrange := dropZeros_inRange (width r.coeff) (Nat.pos_of_ne_zero hzero) r.inRange
    refine ⟨⟨r.negative, _, _, hrange⟩, ?_, ?_⟩
    · show (if r.coeff = 0 then FiniteDecimal.mk? r.negative 0 0 else _) = _
      rw [if_neg hzero]
      exact FiniteDecimal.mk?_self ⟨r.negative, _, _, hrange⟩
    · rw [FiniteDecimal.value_of_sign, FiniteDecimal.value_of_sign r, FiniteDecimal.abs_value,
        FiniteDecimal.abs_value, dropZeros_value]

/-- The digits a quotient is read from: two more than the context keeps. -/
def shift (a b : FiniteDecimal) : Int := width b.coeff - width a.coeff + prec + 1

def quotient (a b : FiniteDecimal) : Nat :=
  a.coeff * 10 ^ (shift a b).toNat / (b.coeff * 10 ^ (-shift a b).toNat)

theorem quotient_pos (ha : 0 < a.coeff) (hb : 0 < b.coeff) : 0 < quotient a b := by
  refine Nat.div_pos ?_ (by positivity)
  have hexp : width b.coeff + (-shift a b).toNat ≤ width a.coeff - 1 + (shift a b).toNat := by
    have hwa := width_pos a.coeff
    unfold shift prec
    omega
  calc b.coeff * 10 ^ (-shift a b).toNat ≤ 10 ^ width b.coeff * 10 ^ (-shift a b).toNat :=
        Nat.mul_le_mul_right _ (lt_pow_width _).le
    _ = 10 ^ (width b.coeff + (-shift a b).toNat) := (pow_add _ _ _).symm
    _ ≤ 10 ^ (width a.coeff - 1 + (shift a b).toNat) := Nat.pow_le_pow_right (by norm_num) hexp
    _ = 10 ^ (width a.coeff - 1) * 10 ^ (shift a b).toNat := pow_add _ _ _
    _ ≤ a.coeff * 10 ^ (shift a b).toNat := Nat.mul_le_mul_right _ (pow_width_le ha)

theorem quotient_le : (quotient a b : ℚ) * 10 ^ (a.exponent - b.exponent - shift a b) * |b.value| ≤
    |a.value| := by
  have hnat : quotient a b * (b.coeff * 10 ^ (-shift a b).toNat) ≤
      a.coeff * 10 ^ (shift a b).toNat := Nat.div_mul_le_self _ _
  have hrat : (quotient a b : ℚ) * (b.coeff * 10 ^ ((-shift a b).toNat : Int)) ≤
      a.coeff * 10 ^ ((shift a b).toNat : Int) := by
    rw [zpow_natCast, zpow_natCast]
    exact_mod_cast hnat
  have hscale := mul_le_mul_of_nonneg_right hrat
    (ten_zpow_pos (a.exponent - (shift a b).toNat)).le
  have hleft : ((-shift a b).toNat : Int) + (a.exponent - (shift a b).toNat) =
      (a.exponent - b.exponent - shift a b) + b.exponent := by omega
  have hright : ((shift a b).toNat : Int) + (a.exponent - (shift a b).toNat) = a.exponent := by omega
  rw [a.abs_value, b.abs_value]
  calc (quotient a b : ℚ) * 10 ^ (a.exponent - b.exponent - shift a b) * (b.coeff * 10 ^ b.exponent)
      = quotient a b * b.coeff * 10 ^ ((a.exponent - b.exponent - shift a b) + b.exponent) := by
        rw [zpow_add₀ (by norm_num)]
        ring
    _ = quotient a b * (b.coeff * 10 ^ ((-shift a b).toNat : Int)) *
          10 ^ (a.exponent - (shift a b).toNat) := by
        rw [← hleft, zpow_add₀ (by norm_num)]
        ring
    _ ≤ a.coeff * 10 ^ ((shift a b).toNat : Int) * 10 ^ (a.exponent - (shift a b).toNat) := hscale
    _ = a.coeff * 10 ^ a.exponent := by
        rw [mul_assoc, ← zpow_add₀ (by norm_num), hright]

/-- A quotient well below a number the context can write does not overflow. -/
theorem div_some (hr : Writable r) (hb : 0 < b.value) (h : 2 * |a.value| ≤ r * b.value) :
    ∃ c, div a b = some c := by
  have hbc : 0 < b.coeff := by
    rw [Nat.pos_iff_ne_zero]
    intro h0
    have habs := b.abs_value
    rw [h0, abs_of_pos hb] at habs
    simp [habs] at hb
  have hr0 : 0 ≤ r := by
    obtain ⟨m, x, -, -, rfl, -⟩ := hr
    positivity
  have hquot : 2 * ((quotient a b : ℚ) * 10 ^ (a.exponent - b.exponent - shift a b)) ≤ r := by
    have hle := @quotient_le a b
    rw [abs_of_pos hb] at hle
    refine le_of_mul_le_mul_right ?_ hb
    linarith
  unfold div
  dsimp only
  rw [if_neg hbc.ne']
  rcases Nat.eq_zero_or_pos a.coeff with h0 | hac
  · rw [if_pos h0]
    exact fix_some _ _ _ hr (by simpa using hr0)
  · rw [if_neg hac.ne']
    have hpos := quotient_pos hac hbc
    have hpow := ten_zpow_pos (a.exponent - b.exponent - shift a b)
    have hone : (1 : ℚ) ≤ quotient a b := by exact_mod_cast hpos
    split_ifs with hrest hsticky
    · refine fix_some _ _ _ hr ?_
      show ((dropZeros (shift a b).toNat (quotient a b) (a.exponent - b.exponent - shift a b)).1 : ℚ) *
        10 ^ (dropZeros (shift a b).toNat (quotient a b) (a.exponent - b.exponent - shift a b)).2 ≤ r
      rw [dropZeros_value]
      nlinarith
    · refine fix_some _ _ _ hr ?_
      show ((quotient a b + 1 : Nat) : ℚ) * 10 ^ (a.exponent - b.exponent - shift a b) ≤ r
      push_cast
      nlinarith
    · refine fix_some _ _ _ hr ?_
      show (quotient a b : ℚ) * 10 ^ (a.exponent - b.exponent - shift a b) ≤ r
      nlinarith

theorem le_quotient (ha : 0 < a.coeff) (hb : 0 < b.coeff) :
    |a.value| ≤ 2 * ((quotient a b : ℚ) * 10 ^ (a.exponent - b.exponent - shift a b)) * |b.value| := by
  have hden : 0 < b.coeff * 10 ^ (-shift a b).toNat := by positivity
  have hnat : a.coeff * 10 ^ (shift a b).toNat ≤ 2 * quotient a b * (b.coeff * 10 ^ (-shift a b).toNat) := by
    refine (Nat.lt_mul_of_div_lt (Nat.lt_succ_self _) hden).le.trans ?_
    refine Nat.mul_le_mul_right _ ?_
    have hpos := quotient_pos ha hb
    show quotient a b + 1 ≤ _
    omega
  have hrat : (a.coeff : ℚ) * 10 ^ ((shift a b).toNat : Int) ≤
      2 * quotient a b * (b.coeff * 10 ^ ((-shift a b).toNat : Int)) := by
    rw [zpow_natCast, zpow_natCast]
    exact_mod_cast hnat
  have hscale := mul_le_mul_of_nonneg_right hrat
    (ten_zpow_pos (a.exponent - (shift a b).toNat)).le
  have hleft : ((-shift a b).toNat : Int) + (a.exponent - (shift a b).toNat) =
      (a.exponent - b.exponent - shift a b) + b.exponent := by omega
  have hright : ((shift a b).toNat : Int) + (a.exponent - (shift a b).toNat) = a.exponent := by omega
  rw [a.abs_value, b.abs_value]
  calc (a.coeff : ℚ) * 10 ^ a.exponent
      = a.coeff * 10 ^ ((shift a b).toNat : Int) * 10 ^ (a.exponent - (shift a b).toNat) := by
        rw [mul_assoc, ← zpow_add₀ (by norm_num), hright]
    _ ≤ 2 * quotient a b * (b.coeff * 10 ^ ((-shift a b).toNat : Int)) *
          10 ^ (a.exponent - (shift a b).toNat) := hscale
    _ = 2 * quotient a b * b.coeff * 10 ^ ((a.exponent - b.exponent - shift a b) + b.exponent) := by
        rw [← hleft, zpow_add₀ (by norm_num)]
        ring
    _ = 2 * (quotient a b * 10 ^ (a.exponent - b.exponent - shift a b)) * (b.coeff * 10 ^ b.exponent) := by
        rw [zpow_add₀ (by norm_num)]
        ring

/-- A quotient well beyond the context overflows. -/
theorem div_none (hb : 0 < b.value) (h : 2 * 10 ^ (emax + 1) * b.value ≤ |a.value|) : div a b = none := by
  have hbc : 0 < b.coeff := by
    rw [Nat.pos_iff_ne_zero]
    intro h0
    have habs := b.abs_value
    rw [h0, abs_of_pos hb] at habs
    simp [habs] at hb
  have hac : 0 < a.coeff := by
    rw [Nat.pos_iff_ne_zero]
    intro h0
    have habs := a.abs_value
    rw [h0, Nat.cast_zero, zero_mul] at habs
    rw [habs] at h
    have hpos : 0 < 2 * 10 ^ (emax + 1) * b.value := mul_pos (mul_pos two_pos (ten_zpow_pos _)) hb
    linarith
  have hquot : (10 : ℚ) ^ (emax + 1) ≤ quotient a b * 10 ^ (a.exponent - b.exponent - shift a b) := by
    have hle := le_quotient hac hbc
    rw [abs_of_pos hb] at hle
    refine le_of_mul_le_mul_right ?_ hb
    linarith
  have hpow := ten_zpow_pos (a.exponent - b.exponent - shift a b)
  unfold div
  dsimp only
  rw [if_neg hbc.ne', if_neg hac.ne']
  split_ifs with hrest hsticky
  · refine fix_none _ ?_
    show _ ≤ ((dropZeros (shift a b).toNat (quotient a b) (a.exponent - b.exponent - shift a b)).1 : ℚ) *
      10 ^ (dropZeros (shift a b).toNat (quotient a b) (a.exponent - b.exponent - shift a b)).2
    rw [dropZeros_value]
    exact hquot
  · refine fix_none _ (hquot.trans ?_)
    show _ ≤ ((quotient a b + 1 : Nat) : ℚ) * 10 ^ (a.exponent - b.exponent - shift a b)
    push_cast
    linarith
  · exact fix_none _ hquot

end

end Decimal

/-! ## In the database -/

/-- A numeric that is read back is the number it was. -/
theorem Numeric.toDecimal_cases (n : Numeric) :
    (n.rank = ⊤ ∧ n.toDecimal = .nan false false 0) ∨
      ∃ d, n.toDecimal = .finite d ∧ n.rank = (d.value : WithTop ℚ) := by
  cases n with
  | nan => exact .inl ⟨rfl, rfl⟩
  | number unscaled scale h =>
    refine .inr ⟨_, rfl, ?_⟩
    have hsigned : FiniteDecimal.signed ⟨decide (unscaled < 0), unscaled.natAbs, -scale,
        Numeric.inRange h⟩ = unscaled := by
      unfold FiniteDecimal.signed
      by_cases hneg : unscaled < 0
      · simp only [hneg, decide_true, if_true]
        omega
      · simp only [hneg, decide_false, Bool.false_eq_true, if_false]
        omega
    rw [Numeric.rank, FiniteDecimal.value, hsigned, zpow_neg, zpow_natCast, div_eq_mul_inv]

/-- A decimal that is stored keeps its worth. -/
theorem Numeric.ofDecimal_rank {d : FiniteDecimal} {n : Numeric} (h : Numeric.ofDecimal (.finite d) = some n) :
    n.rank = (d.value : WithTop ℚ) := by
  unfold Numeric.ofDecimal Numeric.mk? at h
  dsimp only at h
  split_ifs at h with hexp hfits hfits
  · cases h
    rw [Numeric.rank, FiniteDecimal.value, pow_zero, div_one]
    obtain ⟨k, hk⟩ := Int.eq_ofNat_of_zero_le hexp
    rw [hk]
    push_cast
    rfl
  · cases h
    rw [Numeric.rank, FiniteDecimal.value]
    obtain ⟨k, hk⟩ := Int.eq_ofNat_of_zero_le (by omega : 0 ≤ -d.exponent)
    have hneg : d.exponent = -(k : Int) := by omega
    rw [hk, Int.toNat_natCast, hneg, zpow_neg, zpow_natCast, div_eq_mul_inv]

end TraderBot.Lib
