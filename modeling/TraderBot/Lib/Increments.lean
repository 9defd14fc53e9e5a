import Mathlib

/-! # Multiples of an increment

A number rounded to a multiple of a step: down, up, or to the nearest one. -/
namespace TraderBot.Lib

section
variable {K : Type*} [Field K] [LinearOrder K] [FloorRing K]

/-- The largest multiple of the step that is not above. -/
def floorTo (step x : K) : K := ⌊x / step⌋ * step

/-- The smallest multiple of the step that is not below. -/
def ceilTo (step x : K) : K := ⌈x / step⌉ * step

variable [IsStrictOrderedRing K] {step x : K}

theorem floorTo_le (h : 0 < step) : floorTo step x ≤ x := (le_div_iff₀ h).mp (Int.floor_le _)

theorem lt_floorTo_add (h : 0 < step) : x < floorTo step x + step := by
  have hlt := (div_lt_iff₀ h).mp (Int.lt_floor_add_one (x / step))
  rwa [add_mul, one_mul] at hlt

theorem floorTo_nonneg (h : 0 < step) (hx : 0 ≤ x) : 0 ≤ floorTo step x :=
  mul_nonneg (Int.cast_nonneg (Int.floor_nonneg.mpr (div_nonneg hx h.le))) h.le

/-- Less than one step rounds down to nothing, and a step does not. -/
theorem floorTo_pos_iff (h : 0 < step) : 0 < floorTo step x ↔ step ≤ x := by
  rw [floorTo, mul_pos_iff_of_pos_right h, Int.cast_pos, Int.floor_pos, one_le_div h]

/-- What is rounded down and positive is some steps, at least one. -/
theorem floorTo_pos (h : 0 < step) (hpos : 0 < floorTo step x) : ∃ n :
    ℕ, 0 < n ∧ floorTo step x = n * step := by
  have hfloor : 0 < ⌊x / step⌋ := by
    rw [Int.floor_pos, one_le_div h]
    exact (floorTo_pos_iff h).mp hpos
  refine ⟨⌊x / step⌋.toNat, by omega, ?_⟩
  rw [floorTo, ← Int.cast_natCast, Int.toNat_of_nonneg hfloor.le]

end
end TraderBot.Lib
