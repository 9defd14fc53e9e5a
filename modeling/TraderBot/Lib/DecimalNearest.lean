import TraderBot.Lib.DecimalRound

/-! # Rounding to the nearest

How far a rounded number is from the number, and when the context can hold it. -/
namespace TraderBot.Lib

theorem FiniteDecimal.natAbs_signed (d : FiniteDecimal) : d.signed.natAbs = d.coeff := by
  rw [signed]
  split_ifs
  · exact Int.natAbs_neg _
  · rfl

variable {d : FiniteDecimal}

theorem FiniteDecimal.unsigned_of_pos (h : 0 < d.value) : d.negative = false := by
  have hpositive := FiniteDecimal.isPositive_iff.mpr h
  rw [FiniteDecimal.isPositive, Bool.and_eq_true, Bool.not_eq_true'] at hpositive
  exact hpositive.1

theorem FiniteDecimal.coeff_pos (h : 0 < d.value) : 0 < d.coeff := by
  refine Nat.pos_of_ne_zero fun hzero => ?_
  rw [FiniteDecimal.value, FiniteDecimal.signed, hzero] at h
  simp at h

namespace Rounding
variable {x : ℚ}

theorem down_le (hx : 0 ≤ x) : (Rounding.down.apply x : ℚ) ≤ x := by
  rw [apply, if_neg (not_lt.mpr hx)]
  exact Int.floor_le x

theorem lt_down_add_one (hx : 0 ≤ x) : x < Rounding.down.apply x + 1 := by
  rw [apply, if_neg (not_lt.mpr hx)]
  exact Int.lt_floor_add_one x

theorem le_natAbs_down {k : Nat} {y : ℚ} (h : (k : ℚ) ≤ |y|) : k ≤ (Rounding.down.apply y).natAbs := by
  rw [Rounding.apply]
  split_ifs with hy
  · rw [abs_of_neg hy] at h
    have hceil : ⌈y⌉ ≤ -(k : Int) := Int.ceil_le.mpr (by push_cast; linarith)
    omega
  · rw [abs_of_nonneg (not_lt.mp hy)] at h
    have hfloor : (k : Int) ≤ ⌊y⌋ := Int.le_floor.mpr (by exact_mod_cast h)
    omega

/-- A number is at most a half away from the nearest. -/
theorem abs_halfUp_sub_le (x : ℚ) : |(Rounding.halfUp.apply x : ℚ) - x| ≤ 1 / 2 := by
  rw [apply, abs_le]
  split_ifs
  · have hle := Int.floor_le (-x + 1 / 2)
    have hlt := Int.lt_floor_add_one (-x + 1 / 2)
    push_cast
    constructor
    · linarith
    · linarith
  · have hle := Int.floor_le (x + 1 / 2)
    have hlt := Int.lt_floor_add_one (x + 1 / 2)
    constructor
    · linarith
    · linarith

/-- What is rounded up to a whole number: from half a one below it. -/
theorem le_halfUp_iff (hx : 0 ≤ x) {n : ℤ} : n ≤ Rounding.halfUp.apply x ↔ (n : ℚ) - 1 / 2 ≤ x := by
  rw [apply, if_neg (not_lt.mpr hx), Int.le_floor, sub_le_iff_le_add]

theorem halfUp_le_iff_lt (hx : 0 ≤ x) {n : ℤ} : Rounding.halfUp.apply x ≤ n ↔ x < n + 1 / 2 := by
  rw [← Int.lt_add_one_iff, ← not_le, le_halfUp_iff hx, not_le, Int.cast_add, Int.cast_one]
  exact ⟨fun h => by linarith, fun h => by linarith⟩

theorem lower_le_digits (mode : Rounding) (negative : Bool) {n p : Nat} (hp : 0 < p) :
    n / p ≤ mode.digits negative n p := by
  have hupper : n / p ≤ (n + (p - 1)) / p := Nat.div_le_div_right (Nat.le_add_right n _)
  cases mode with
  | down => exact le_rfl
  | halfUp =>
    rw [digits, Nat.le_div_iff_mul_le (by omega)]
    have hle := Nat.div_mul_le_self n p
    calc n / p * (2 * p) = 2 * (n / p * p) := by ring
      _ ≤ 2 * n + p := by omega
  | floor => exact (by cases negative <;> [exact le_rfl; exact hupper])
  | ceiling => exact (by cases negative <;> [exact hupper; exact le_rfl])

end Rounding

namespace Decimal
variable {mode : Rounding} {d r : FiniteDecimal} {e : Int}

theorem rescale_zero (hzero : d.coeff = 0) : rescale mode d e = 0 := by
  have hvalue : d.value = 0 := by
    rw [FiniteDecimal.value, FiniteDecimal.signed, hzero]
    simp
  have happly : mode.apply 0 = 0 := by exact_mod_cast mode.apply_intCast 0
  have hrescale := rescale_value mode d e
  rw [hvalue, zero_div, happly] at hrescale
  split_ifs at hrescale <;> omega

/-- A number that is rounded to 28 digits was not too wide for them. -/
theorem width_le_of_rescale (hcoeff : 0 < d.coeff) (h : rescale mode d e < 10 ^ 28) :
    d.exponent + width d.coeff - e ≤ 28 := by
  unfold rescale at h
  split_ifs at h with hplace
  · by_cases hshift : 28 ≤ (d.exponent - e).toNat
    · have hle : 10 ^ 28 ≤ d.coeff * 10 ^ (d.exponent - e).toNat :=
        (Nat.pow_le_pow_right (by decide) hshift).trans (Nat.le_mul_of_pos_left _ hcoeff)
      exact absurd h (not_lt.mpr hle)
    · have hsplit : 10 ^ (28 - (d.exponent - e).toNat) * 10 ^ (d.exponent - e).toNat = 10 ^ 28 := by
        rw [← pow_add]
        congr 1
        omega
      have hlt : d.coeff < 10 ^ (28 - (d.exponent - e).toNat) := by
        rw [← hsplit] at h
        exact Nat.lt_of_mul_lt_mul_right h
      have hwidth := (width_le_iff (by omega)).mpr hlt
      omega
  · have hpow : 0 < 10 ^ (e - d.exponent).toNat := Nat.pow_pos (by decide)
    have hlt := (mode.lower_le_digits d.negative hpow).trans_lt h
    rw [Nat.div_lt_iff_lt_mul hpow, ← pow_add] at hlt
    have hwidth := (width_le_iff (by omega)).mpr hlt
    omega

/-- **`quantize` raises** where the rounded number has more than 28 digits, and only there. -/
theorem quantize_isSome_iff (he : InContext e) :
    (quantize mode d e).isSome ↔ rescale mode d e < 10 ^ 28 := by
  have hholds : ∀ coeff, width coeff ≤ 28 → (FiniteDecimal.mk? d.negative coeff e).isSome := by
    intro coeff hwidth
    have hrange : InRange coeff e := by
      unfold InContext etiny prec emax at he
      unfold InRange minEtiny maxEmax
      omega
    rw [FiniteDecimal.mk?, dif_pos hrange]
    rfl
  unfold quantize
  dsimp only
  have hplace : ¬ (e < etiny ∨ emax < e) := by
    unfold InContext prec at he
    omega
  rw [if_neg hplace]
  by_cases hzero : d.coeff = 0
  · rw [if_pos hzero, rescale_zero hzero]
    exact iff_of_true (hholds 0 (by decide)) (by decide)
  · rw [if_neg hzero]
    by_cases hfits : rescale mode d e < 10 ^ 28
    · have hwidth := (width_le_iff (by decide)).mpr hfits
      rw [if_neg]
      · exact iff_of_true (hholds _ hwidth) hfits
      · have hwide := width_le_of_rescale (Nat.pos_of_ne_zero hzero) hfits
        unfold InContext prec emax at he
        unfold prec emax
        omega
    · have hwidth : ¬ width (rescale mode d e) ≤ 28 := fun hle => hfits ((width_le_iff (by decide)).mp hle)
      rw [if_pos (.inr (.inl (not_le.mp hwidth)))]
      exact iff_of_false Bool.false_ne_true hfits

/-- The digits of a rounded number. -/
theorem rescale_eq (mode : Rounding) (d : FiniteDecimal) (e : Int) :
    rescale mode d e = (mode.apply (d.value / 10 ^ e)).natAbs := by
  rw [← rescale_value mode d e]
  split_ifs
  · rw [Int.natAbs_neg, Int.natAbs_natCast]
  · rw [Int.natAbs_natCast]

theorem quantize_shape (h : quantize mode d e = some r) :
    r.negative = d.negative ∧ r.coeff = rescale mode d e ∧ r.exponent = e := by
  unfold quantize at h
  dsimp only at h
  unfold FiniteDecimal.mk? at h
  split_ifs at h with hcontext hzero
  · cases h
    exact ⟨rfl, (rescale_zero hzero).symm, rfl⟩
  · cases h
    exact ⟨rfl, rfl, rfl⟩

/-! ## Results of the context -/

variable {coeff : Nat} {exponent : Int} {negative : Bool} {a b c : FiniteDecimal}

/-- **Rounding never passes a number the context can write**, from above. -/
theorem le_roundedValue {m : Nat} {x : Int} (hx : etiny ≤ x) (hm : m ≤ 10 ^ prec)
    (h : (m : ℚ) * 10 ^ x ≤ coeff * 10 ^ exponent) :
    (m : ℚ) * 10 ^ x ≤ roundedValue coeff exponent := by
  rcases Nat.eq_zero_or_pos coeff with rfl | hc
  · rw [roundedValue_zero]
    simpa using h
  rcases le_or_gt (expMin coeff exponent) exponent with hle | hlt
  · rw [roundedValue_of_le hle]
    exact h
  rw [roundedValue_eq hlt]
  have hpow : 0 < 10 ^ (expMin coeff exponent - exponent).toNat := Nat.pow_pos (by decide)
  have hsplit : (10 : ℚ) ^ expMin coeff exponent =
      ((10 ^ (expMin coeff exponent - exponent).toNat : Nat) : ℚ) * 10 ^ exponent := ten_zpow_split hlt.le
  -- a whole number of places at the cut is kept
  have hkeeps : ∀ k : Nat, (k : ℚ) * 10 ^ expMin coeff exponent ≤ coeff * 10 ^ exponent →
      (k : ℚ) * 10 ^ expMin coeff exponent ≤
        (roundHalfEven coeff (10 ^ (expMin coeff exponent - exponent).toNat) : Nat) * 10 ^ expMin coeff exponent := by
    intro k hk
    rw [hsplit, ← mul_assoc, mul_le_mul_iff_left₀ (ten_zpow_pos exponent)] at hk
    have hfloor : k ≤ coeff / 10 ^ (expMin coeff exponent - exponent).toNat :=
      (Nat.le_div_iff_mul_le hpow).mpr (by exact_mod_cast hk)
    refine mul_le_mul_of_nonneg_right ?_ (ten_zpow_pos _).le
    exact_mod_cast hfloor.trans (le_roundHalfEven _ _)
  rcases le_or_gt (expMin coeff exponent) x with hxle | hxlt
  · rw [ten_zpow_split hxle, ← mul_assoc] at h ⊢
    have hcast : (m : ℚ) * ((10 ^ (x - expMin coeff exponent).toNat : Nat) : ℚ) =
        ((m * 10 ^ (x - expMin coeff exponent).toNat : Nat) : ℚ) := by push_cast; ring
    rw [hcast] at h ⊢
    exact hkeeps _ h
  · have htop := le_value_of_expMin hc (hx.trans_lt hxlt)
    have hcast : (10 : ℚ) ^ (expMin coeff exponent + (prec - 1)) =
        ((10 ^ (prec - 1) : Nat) : ℚ) * 10 ^ expMin coeff exponent := by
      rw [add_comm, zpow_add₀ (by norm_num)]
      norm_num [prec]
    rw [hcast] at htop
    refine le_trans ?_ (hkeeps _ htop)
    calc (m : ℚ) * 10 ^ x ≤ ((10 ^ prec : Nat) : ℚ) * 10 ^ (expMin coeff exponent - 1) := by
          refine mul_le_mul (by exact_mod_cast hm) (zpow_le_zpow_right₀ (by norm_num) (by omega))
            (ten_zpow_pos _).le (Nat.cast_nonneg _)
      _ = ((10 ^ (prec - 1) : Nat) : ℚ) * 10 ^ expMin coeff exponent := by
          rw [zpow_sub_one₀ (by norm_num)]
          norm_num [prec]
          ring

theorem fix_abs_value (h : fix negative coeff exponent = some d) :
    |d.value| = roundedValue coeff exponent := by
  unfold fix at h
  split_ifs at h with hzero
  · have hvalue := @fix_zero_value exponent negative d (by rw [fix, if_pos rfl]; exact h)
    rw [hzero, roundedValue_zero, hvalue, abs_zero]
  · cases h
    rw [FiniteDecimal.abs_value]
    rfl

/-- A product and a quotient of positive numbers are not negative. -/
theorem mul_nonneg_of_pos (ha : 0 < a.value) (hb : 0 < b.value) (h : mul a b = some c) :
    0 ≤ c.value := by
  have hsign : (a.negative != b.negative) = false := by
    rw [FiniteDecimal.unsigned_of_pos ha, FiniteDecimal.unsigned_of_pos hb]
    rfl
  rw [mul, hsign] at h
  exact fix_nonneg h

theorem div_nonneg_of_pos (ha : 0 < a.value) (hb : 0 < b.value) (h : div a b = some c) :
    0 ≤ c.value := by
  have hsign : (a.negative != b.negative) = false := by
    rw [FiniteDecimal.unsigned_of_pos ha, FiniteDecimal.unsigned_of_pos hb]
    rfl
  rw [div, if_neg (FiniteDecimal.coeff_pos hb).ne', if_neg (FiniteDecimal.coeff_pos ha).ne', hsign] at h
  dsimp only at h
  split_ifs at h
  · exact fix_nonneg h
  · exact fix_nonneg h
  · exact fix_nonneg h

theorem fix_nonpos (h : fix true coeff exponent = some d) : d.value ≤ 0 := by
  rcases Nat.eq_zero_or_pos coeff with rfl | hc
  · exact (fix_zero_value true h).le
  · rw [fix, if_neg hc.ne'] at h
    split_ifs at h
    cases h
    rw [FiniteDecimal.value_of_sign]
    exact neg_nonpos.mpr (abs_nonneg _)

theorem mul_nonpos_of_nonpos (ha : a.value ≤ 0) (hb : 0 < b.value) (h : mul a b = some c) :
    c.value ≤ 0 := by
  rcases Nat.eq_zero_or_pos a.coeff with hzero | hpos
  · rw [mul, hzero, zero_mul] at h
    exact (fix_zero_value _ h).le
  · have hnegative : a.negative = true := by
      cases hsign : a.negative with
      | true => rfl
      | false =>
        refine absurd ha (not_le.mpr (FiniteDecimal.isPositive_iff.mp ?_))
        rw [FiniteDecimal.isPositive, hsign]
        simpa using hpos.ne'
    rw [mul, hnegative, FiniteDecimal.unsigned_of_pos hb] at h
    exact fix_nonpos h

namespace Whole
variable {e : Int} {x y : ℚ}

theorem sub (hx : Whole e x) (hy : Whole e y) (h : y ≤ x) : Whole e (x - y) := by
  obtain ⟨m, rfl⟩ := hx
  obtain ⟨n, rfl⟩ := hy
  have hnm : n ≤ m := by
    have := le_of_mul_le_mul_right h (ten_zpow_pos e)
    exact_mod_cast this
  exact ⟨m - n, by rw [Nat.cast_sub hnm]; ring⟩

theorem min (hx : Whole e x) (hy : Whole e y) : Whole e (Min.min x y) := by
  rcases min_choice x y with h | h
  · rwa [h]
  · rwa [h]

end Whole

/-- Rounding takes places away and adds none. -/
theorem le_fix_exponent {low : Int} (hlow : low ≤ emax) (he : low ≤ exponent)
    (h : fix negative coeff exponent = some d) : low ≤ d.exponent := by
  unfold fix at h
  split_ifs at h
  · unfold FiniteDecimal.mk? at h
    split_ifs at h
    cases h
    exact le_min (he.trans (le_max_left _ _)) hlow
  · cases h
    refine he.trans ?_
    show exponent ≤ (rounded coeff exponent).2
    unfold rounded
    dsimp only
    split_ifs with h1 h2
    · exact h1.le.trans (by omega)
    · exact h1.le
    · exact le_refl _

theorem le_add_exponent {low : Int} (hlow : low ≤ emax) (ha : low ≤ a.exponent)
    (hb : low ≤ b.exponent) (h : add a b = some c) : low ≤ c.exponent :=
  le_fix_exponent hlow (le_min ha hb) h

/-- The places a quantized number may have. -/
theorem etiny_le_of_quantize (h : quantize mode d e = some r) : etiny ≤ e := by
  unfold quantize at h
  dsimp only at h
  split_ifs at h with hrange
  · omega
  · omega

end Decimal
end TraderBot.Lib
