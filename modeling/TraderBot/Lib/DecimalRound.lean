import TraderBot.Lib.DecimalValue

/-! # Rounding to a place

`quantize` and `to_integral_value`: a decimal rounded to a place in one of four
ways, exactly, whatever its digits. `quantize` raises where the result has more
than 28 digits. -/
namespace TraderBot.Lib

inductive Rounding where
  | down
  | halfUp
  | floor
  | ceiling
  deriving DecidableEq, Repr

namespace Rounding

/-- The number a rounding makes of a number. -/
def apply (mode : Rounding) (x : ℚ) : Int :=
  match mode with
  | .down => if x < 0 then ⌈x⌉ else ⌊x⌋
  | .halfUp => if x < 0 then -⌊-x + 1 / 2⌋ else ⌊x + 1 / 2⌋
  | .floor => ⌊x⌋
  | .ceiling => ⌈x⌉

/-- The digits a rounding keeps of a sign and `n / p`. -/
def digits (mode : Rounding) (negative : Bool) (n p : Nat) : Nat :=
  let lower := n / p
  let upper := (n + (p - 1)) / p
  match mode with
  | .down => lower
  | .halfUp => (2 * n + p) / (2 * p)
  | .floor => if negative then upper else lower
  | .ceiling => if negative then lower else upper

end Rounding

namespace Decimal

/-- `_rescale`: the coefficient at a place. -/
def rescale (mode : Rounding) (d : FiniteDecimal) (e : Int) : Nat :=
  if e ≤ d.exponent then d.coeff * 10 ^ (d.exponent - e).toNat
  else mode.digits d.negative d.coeff (10 ^ (e - d.exponent).toNat)

/-- `d.quantize(Decimal((0, (1,), e)), rounding)`; `none` raises. -/
def quantize (mode : Rounding) (d : FiniteDecimal) (e : Int) : Option FiniteDecimal :=
  let coeff := rescale mode d e
  if e < etiny ∨ emax < e then none
  else if d.coeff = 0 then FiniteDecimal.mk? d.negative 0 e
  else if prec < d.exponent + width d.coeff - e ∨ prec < width coeff ∨ emax < e + width coeff - 1 then none
  else FiniteDecimal.mk? d.negative coeff e

/-- `d.to_integral_value(rounding)`; one without a fraction is left. -/
def toIntegralValue (mode : Rounding) (d : FiniteDecimal) : Option FiniteDecimal :=
  if 0 ≤ d.exponent then some d else FiniteDecimal.mk? d.negative (rescale mode d 0) 0

end Decimal

/-! ## What is kept -/

namespace Rounding
variable {n p : Nat}

theorem ceil_ratio (hp : 0 < p) : ⌈(n / p : ℚ)⌉ = ((n + (p - 1)) / p : Nat) := by
  rw [Rat.ceil_natCast_div_natCast, Int.natCast_ediv]
  have hcast : ((n + (p - 1) : Nat) : Int) = n + (p - 1) := by omega
  rw [hcast]
  have hp' : (0 : Int) < p := by exact_mod_cast hp
  have hlow := Int.ediv_mul_le (-n : Int) hp'.ne'
  have hhigh := Int.lt_ediv_add_one_mul_self (-n : Int) hp'
  refine (Int.ediv_eq_iff_of_pos hp').mpr ?_ |>.symm
  constructor
  · linarith
  · linarith

theorem half_ratio (hp : 0 < p) : ⌊(n / p : ℚ) + 1 / 2⌋ = ((2 * n + p) / (2 * p) : Nat) := by
  have hp' : (p : ℚ) ≠ 0 := by exact_mod_cast hp.ne'
  have hsum : (n / p : ℚ) + 1 / 2 = ((2 * n + p : Nat) : ℚ) / ((2 * p : Nat) : ℚ) := by
    push_cast
    field_simp
  rw [hsum, Rat.floor_natCast_div_natCast]
  exact (Int.natCast_ediv _ _).symm

/-- **The digits are those of the rounded number.** -/
theorem digits_apply (mode : Rounding) (negative : Bool) (hp : 0 < p) :
    (if negative then -(mode.digits negative n p : Int) else mode.digits negative n p) =
      mode.apply ((if negative then -n else n : Int) / p) := by
  have hnonneg : (0 : ℚ) ≤ n / p := by positivity
  have hfloor : ⌊(n / p : ℚ)⌋ = (n / p : Nat) := Rat.floor_natCast_div_natCast n p
  have hceil := @ceil_ratio n p hp
  have hhalf := @half_ratio n p hp
  cases negative with
  | false =>
    simp only [Bool.false_eq_true, if_false, Int.cast_natCast]
    cases mode with
    | down => rw [apply, if_neg (not_lt.mpr hnonneg), hfloor]; rfl
    | halfUp => rw [apply, if_neg (not_lt.mpr hnonneg), hhalf]; rfl
    | floor => rw [apply, hfloor]; rfl
    | ceiling => rw [apply, hceil]; rfl
  | true =>
    simp only [if_true, Int.cast_neg, Int.cast_natCast, neg_div]
    cases mode with
    | down =>
      show -((n / p : Nat) : Int) = if -(n / p : ℚ) < 0 then ⌈-(n / p : ℚ)⌉ else ⌊-(n / p : ℚ)⌋
      split_ifs with hneg
      · rw [Int.ceil_neg, hfloor]
      · have hzero : (n / p : ℚ) = 0 := by linarith
        rw [← hfloor, hzero]
        simp
    | halfUp =>
      show -(((2 * n + p) / (2 * p) : Nat) : Int) =
        if -(n / p : ℚ) < 0 then -⌊-(-(n / p : ℚ)) + 1 / 2⌋ else ⌊-(n / p : ℚ) + 1 / 2⌋
      split_ifs with hneg
      · rw [neg_neg, hhalf]
      · have hzero : (n / p : ℚ) = 0 := by linarith
        rw [← hhalf, hzero]
        norm_num
    | floor => rw [apply, Int.floor_neg, hceil]; rfl
    | ceiling => rw [apply, Int.ceil_neg, hfloor]; rfl

theorem apply_intCast (mode : Rounding) (z : Int) : mode.apply z = z := by
  have hhalf : ∀ w : Int, ⌊(w : ℚ) + 1 / 2⌋ = w := by
    intro w
    rw [Int.floor_intCast_add]
    norm_num
  cases mode with
  | down =>
    rw [apply, Int.ceil_intCast, Int.floor_intCast, ite_self]
  | halfUp =>
    have hneg := hhalf (-z)
    rw [Int.cast_neg] at hneg
    rw [apply, hhalf, hneg, neg_neg, ite_self]
  | floor => exact Int.floor_intCast z
  | ceiling => exact Int.ceil_intCast z

/-- A half is the least that is rounded to one. -/
theorem halfUp_pos_iff {x : ℚ} (hx : 0 ≤ x) : 0 < Rounding.halfUp.apply x ↔ 1 / 2 ≤ x := by
  rw [apply, if_neg (not_lt.mpr hx), Int.floor_pos]
  constructor
  · intro h
    linarith
  · intro h
    linarith

/-- A number is rounded down when less than a half is left over. -/
theorem halfUp_le_iff {x : ℚ} (hx : 0 ≤ x) : (Rounding.halfUp.apply x : ℚ) ≤ x ↔ Int.fract x < 1 / 2 := by
  rw [apply, if_neg (not_lt.mpr hx), ← Int.le_floor, ← Int.lt_add_one_iff, Int.floor_lt, Int.fract]
  push_cast
  constructor
  · intro h
    linarith
  · intro h
    linarith

end Rounding

namespace Decimal
variable {mode : Rounding} {d r : FiniteDecimal} {e : Int}

/-- **The rounded number.** -/
theorem rescale_value (mode : Rounding) (d : FiniteDecimal) (e : Int) :
    (if d.negative then -(rescale mode d e : Int) else rescale mode d e) = mode.apply
    (d.value / 10 ^ e) := by
  unfold rescale
  by_cases hplace : e ≤ d.exponent
  · have hwhole : d.value / 10 ^ e = ((d.signed * 10 ^ (d.exponent - e).toNat : Int) : ℚ) := by
      rw [FiniteDecimal.value, ten_zpow_split hplace, ← mul_assoc, mul_div_assoc, div_self (ten_zpow_pos e).ne']
      push_cast
      ring
    rw [if_pos hplace, hwhole, Rounding.apply_intCast, FiniteDecimal.signed]
    split_ifs <;> push_cast <;> ring
  · have hratio : d.value / 10 ^ e = (d.signed : ℚ) / ((10 ^ (e - d.exponent).toNat : Nat) : ℚ) := by
      rw [FiniteDecimal.value, ten_zpow_split (not_le.mp hplace).le, mul_comm (Nat.cast _), ← div_div,
        mul_div_assoc, div_self (ten_zpow_pos _).ne', mul_one]
    rw [if_neg hplace, hratio, FiniteDecimal.signed]
    exact mode.digits_apply d.negative (by positivity)

theorem mk?_value {negative : Bool} {coeff : Nat} (h : FiniteDecimal.mk? negative coeff e = some r) :
    r.value = ((if negative then -(coeff : Int) else coeff : Int) : ℚ) * 10 ^ e := by
  unfold FiniteDecimal.mk? at h
  split_ifs at h
  cases h
  rfl

/-- **`quantize` rounds to its place.** -/
theorem quantize_value (h : quantize mode d e = some r) :
    r.value = mode.apply (d.value / 10 ^ e) * 10 ^ e := by
  have hrescale := rescale_value mode d e
  unfold quantize at h
  dsimp only at h
  split_ifs at h with hcontext hzero hwide
  · have hvalue : d.value = 0 := by
      rw [FiniteDecimal.value, FiniteDecimal.signed, hzero]
      simp
    have happly : mode.apply 0 = 0 := by exact_mod_cast mode.apply_intCast 0
    rw [mk?_value h, hvalue, zero_div, happly]
    simp
  · rw [mk?_value h, hrescale]

/-- What is rounded to a place has it, and the digits the context holds. -/
theorem quantize_place (h : quantize mode d e = some r) : r.exponent = e ∧ width r.coeff ≤ 28 := by
  unfold quantize at h
  dsimp only at h
  unfold FiniteDecimal.mk? at h
  split_ifs at h with hcontext hzero hrange hwide hrange
  · cases h
    exact ⟨rfl, show width 0 ≤ 28 by decide⟩
  · cases h
    rw [not_or, not_or] at hwide
    exact ⟨rfl, not_lt.mp hwide.2.1⟩

/-- **`to_integral_value` rounds to a whole number.** -/
theorem toIntegralValue_value (h : toIntegralValue mode d = some r) : r.value = mode.apply d.value := by
  unfold toIntegralValue at h
  split_ifs at h with hplace
  · cases h
    have hwhole : d.value = ((d.signed * 10 ^ d.exponent.toNat : Int) : ℚ) := by
      rw [FiniteDecimal.value, ten_zpow_split hplace]
      simp
    rw [hwhole, mode.apply_intCast]
  · have hrescale := rescale_value mode d 0
    rw [zpow_zero, div_one] at hrescale
    rw [mk?_value h, hrescale, zpow_zero, mul_one]

end Decimal
end TraderBot.Lib
