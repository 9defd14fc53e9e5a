import TraderBot.Lib.DecimalNearest

/-! # Quotients of the context

A quotient is computed to more digits than the context keeps, with a last digit that says
that something was dropped. So it stays between the numbers the context can write that the
exact quotient is between, and is exact where the context can write it. -/
namespace TraderBot.Lib.Decimal
variable {a b : FiniteDecimal}

theorem pow_le_quotient (ha : 0 < a.coeff) (hb : 0 < b.coeff) : 10 ^ prec ≤ quotient a b := by
  refine (Nat.le_div_iff_mul_le (by positivity)).mpr ?_
  have hexp : prec + (width b.coeff + (-shift a b).toNat) ≤ width a.coeff - 1 + (shift a b).toNat := by
    have hwa := width_pos a.coeff
    unfold shift prec
    omega
  calc 10 ^ prec * (b.coeff * 10 ^ (-shift a b).toNat)
      ≤ 10 ^ prec * (10 ^ width b.coeff * 10 ^ (-shift a b).toNat) :=
        Nat.mul_le_mul_left _ (Nat.mul_le_mul_right _ (lt_pow_width _).le)
    _ = 10 ^ (prec + (width b.coeff + (-shift a b).toNat)) := by rw [pow_add, pow_add]
    _ ≤ 10 ^ (width a.coeff - 1 + (shift a b).toNat) := Nat.pow_le_pow_right (by norm_num) hexp
    _ = 10 ^ (width a.coeff - 1) * 10 ^ (shift a b).toNat := pow_add _ _ _
    _ ≤ a.coeff * 10 ^ (shift a b).toNat := Nat.mul_le_mul_right _ (pow_width_le ha)

/-- The place of the last digit that is computed. -/
def unit (a b : FiniteDecimal) : Int := a.exponent - b.exponent - shift a b

/-- A bound on the fraction of the coefficients is a bound on the quotient of the numbers. -/
theorem quotient_scaled (k : Nat) :
    ((k * (b.coeff * 10 ^ (-shift a b).toNat) : Nat) : ℚ) * 10 ^ (a.exponent - (shift a b).toNat) =
        k * 10 ^ unit a b * |b.value| ∧
      ((a.coeff * 10 ^ (shift a b).toNat : Nat) : ℚ) * 10 ^ (a.exponent - (shift a b).toNat) =
        |a.value| := by
  have hleft : ((-shift a b).toNat : Int) + (a.exponent - (shift a b).toNat) = unit a b + b.exponent := by
    unfold unit
    omega
  have hright : ((shift a b).toNat : Int) + (a.exponent - (shift a b).toNat) = a.exponent := by omega
  constructor
  · rw [b.abs_value]
    push_cast
    calc (k : ℚ) * (b.coeff * 10 ^ (-shift a b).toNat) * 10 ^ (a.exponent - (shift a b).toNat)
        = k * b.coeff * (10 ^ ((-shift a b).toNat : Int) * 10 ^ (a.exponent - (shift a b).toNat)) := by
          rw [zpow_natCast]
          ring
      _ = k * b.coeff * (10 ^ unit a b * 10 ^ b.exponent) := by
          rw [← zpow_add₀ (by norm_num), hleft, zpow_add₀ (by norm_num)]
      _ = _ := by ring
  · rw [a.abs_value]
    push_cast
    rw [← zpow_natCast, mul_assoc, ← zpow_add₀ (by norm_num), hright]

theorem lt_quotient_succ (hb : 0 < b.coeff) :
    |a.value| < ((quotient a b + 1 : Nat) : ℚ) * 10 ^ unit a b * |b.value| := by
  obtain ⟨hk, ha⟩ := @quotient_scaled a b (quotient a b + 1)
  rw [← hk, ← ha]
  refine mul_lt_mul_of_pos_right ?_ (ten_zpow_pos _)
  have hden : 0 < b.coeff * 10 ^ (-shift a b).toNat := by positivity
  exact_mod_cast Nat.lt_mul_of_div_lt (Nat.lt_succ_self _) hden

theorem quotient_exact (h : a.coeff * 10 ^ (shift a b).toNat % (b.coeff * 10 ^ (-shift a b).toNat) = 0) :
    (quotient a b : ℚ) * 10 ^ unit a b * |b.value| = |a.value| := by
  obtain ⟨hk, ha⟩ := @quotient_scaled a b (quotient a b)
  rw [← hk, ← ha]
  congr 2
  exact Nat.div_mul_cancel (Nat.dvd_of_mod_eq_zero h)

/-- The number that is rounded: the exact quotient, or two digits beyond those that are kept. -/
theorem div_eq_fix (ha : 0 < a.coeff) (hb : 0 < b.coeff) : ∃ (coeff : Nat) (exponent : Int),
    div a b = fix (a.negative != b.negative) coeff exponent ∧
      ((coeff : ℚ) * 10 ^ exponent * |b.value| = |a.value| ∨
        exponent = unit a b ∧ quotient a b ≤ coeff ∧ coeff ≤ quotient a b + 1 ∧
          (quotient a b : ℚ) * 10 ^ unit a b * |b.value| < |a.value|) := by
  unfold div
  dsimp only
  rw [if_neg hb.ne', if_neg ha.ne']
  split_ifs with hrest hsticky
  · refine ⟨_, _, rfl, .inl ?_⟩
    show ((dropZeros (shift a b).toNat (quotient a b) (unit a b)).1 : ℚ) *
      10 ^ (dropZeros (shift a b).toNat (quotient a b) (unit a b)).2 * |b.value| = |a.value|
    rw [dropZeros_value]
    exact quotient_exact hrest
  all_goals
    have hlt : (quotient a b : ℚ) * 10 ^ unit a b * |b.value| < |a.value| := by
      obtain ⟨hk, ha'⟩ := @quotient_scaled a b (quotient a b)
      rw [← hk, ← ha']
      have hnat : quotient a b * (b.coeff * 10 ^ (-shift a b).toNat) < a.coeff * 10 ^ (shift a b).toNat :=
        lt_of_le_of_ne (Nat.div_mul_le_self _ _) fun heq =>
          hrest (Nat.mod_eq_zero_of_dvd (Dvd.intro_left _ heq))
      exact mul_lt_mul_of_pos_right (by exact_mod_cast hnat) (ten_zpow_pos _)
  · exact ⟨_, _, rfl, .inr ⟨rfl, Nat.le_succ _, le_refl _, hlt⟩⟩
  · exact ⟨_, _, rfl, .inr ⟨rfl, le_refl _, Nat.le_succ _, hlt⟩⟩

section
variable {m : Nat} {x : Int} {r : ℚ}

/-- A number the context can write that is above all the digits computed is above the next of them. -/
theorem succ_le_writable {k : Nat} {u : Int} (hk : 10 ^ prec ≤ k) (hr : Writable r)
    (h : (k : ℚ) * 10 ^ u < r) : ((k + 1 : Nat) : ℚ) * 10 ^ u ≤ r := by
  obtain ⟨m, x, hm, -, rfl, -⟩ := hr
  rcases le_or_gt u x with hux | hxu
  · rw [ten_zpow_split hux, ← mul_assoc] at h ⊢
    have hlt : (k : ℚ) < m * ((10 ^ (x - u).toNat : Nat) : ℚ) :=
      lt_of_mul_lt_mul_right h (ten_zpow_pos u).le
    refine mul_le_mul_of_nonneg_right ?_ (ten_zpow_pos u).le
    have hnat : k < m * 10 ^ (x - u).toNat := by exact_mod_cast hlt
    exact_mod_cast Nat.succ_le_of_lt hnat
  · -- with a finer place it has too few digits
    have hle : (m : ℚ) * 10 ^ x ≤ k * 10 ^ u := mul_le_mul (by exact_mod_cast hm.trans hk)
      (zpow_le_zpow_right₀ (by norm_num) hxu.le) (ten_zpow_pos x).le (Nat.cast_nonneg k)
    exact absurd h (not_lt.mpr hle)

theorem le_of_lt_succ {k : Nat} {u : Int} (hk : 10 ^ prec ≤ k) (hm : m ≤ 10 ^ prec)
    (h : (m : ℚ) * 10 ^ x < ((k + 1 : Nat) : ℚ) * 10 ^ u) : (m : ℚ) * 10 ^ x ≤ k * 10 ^ u := by
  rcases le_or_gt u x with hux | hxu
  · rw [ten_zpow_split hux, ← mul_assoc] at h ⊢
    have hlt : (m : ℚ) * ((10 ^ (x - u).toNat : Nat) : ℚ) < ((k + 1 : Nat) : ℚ) :=
      lt_of_mul_lt_mul_right h (ten_zpow_pos u).le
    refine mul_le_mul_of_nonneg_right ?_ (ten_zpow_pos u).le
    have hnat : m * 10 ^ (x - u).toNat < k + 1 := by exact_mod_cast hlt
    exact_mod_cast Nat.le_of_lt_succ hnat
  · exact mul_le_mul (by exact_mod_cast hm.trans hk) (zpow_le_zpow_right₀ (by norm_num) hxu.le)
      (ten_zpow_pos x).le (Nat.cast_nonneg k)

variable {d : FiniteDecimal}

theorem coeff_pos_of_value (h : d.value ≠ 0) : 0 < d.coeff := by
  refine Nat.pos_of_ne_zero fun hzero => h ?_
  have habs := d.abs_value
  rw [hzero, Nat.cast_zero, zero_mul] at habs
  exact abs_eq_zero.mp habs

/-- **A quotient is not above a number the context can write that is not below the exact one.** -/
theorem div_le (hr : Writable r) (hb : b.value ≠ 0) (h : |a.value| ≤ r * |b.value|) :
    ∃ d, div a b = some d ∧ |d.value| ≤ r := by
  have hbc := coeff_pos_of_value hb
  have hbpos : 0 < |b.value| := abs_pos.mpr hb
  rcases eq_or_ne a.value 0 with hzero | ha
  · have hac : a.coeff = 0 := by
      have habs := a.abs_value
      rw [hzero, abs_zero] at habs
      have := (mul_eq_zero.mp habs.symm).resolve_right (ten_zpow_pos _).ne'
      exact_mod_cast this
    have hr0 : 0 ≤ r := by
      rw [hzero, abs_zero] at h
      exact nonneg_of_mul_nonneg_left h hbpos
    obtain ⟨d, hd, -, hle, -⟩ := @fix_le 0 (a.exponent - b.exponent) (a.negative != b.negative) _ hr (by simpa using hr0)
    exact ⟨d, by rw [div]; simp only [if_neg hbc.ne', hac, if_true, hd], hle⟩
  have hac := coeff_pos_of_value ha
  obtain ⟨coeff, exponent, hdiv, hcases⟩ := div_eq_fix hac hbc
  have hle : (coeff : ℚ) * 10 ^ exponent ≤ r := by
    rcases hcases with hexact | ⟨rfl, -, hsucc, hlt⟩
    · rw [← hexact] at h
      exact le_of_mul_le_mul_right h hbpos
    · have hstrict := lt_of_mul_lt_mul_right (hlt.trans_le h) hbpos.le
      refine le_trans ?_ (succ_le_writable (pow_le_quotient hac hbc) hr hstrict)
      exact mul_le_mul_of_nonneg_right (by exact_mod_cast hsucc) (ten_zpow_pos _).le
  obtain ⟨d, hd, -, hdle, -⟩ := fix_le (a.negative != b.negative) hr hle
  exact ⟨d, hdiv.trans hd, hdle⟩

/-- **A quotient is not below a number the context can write that is not above the exact one.** -/
theorem le_div (hx : etiny ≤ x) (hm : m ≤ 10 ^ prec) (ha : a.value ≠ 0) (hb : b.value ≠ 0)
    (h : (m : ℚ) * 10 ^ x * |b.value| ≤ |a.value|) (hd : div a b = some d) :
      (m : ℚ) * 10 ^ x ≤ |d.value| := by
  have hac := coeff_pos_of_value ha
  have hbc := coeff_pos_of_value hb
  have hbpos : 0 < |b.value| := abs_pos.mpr hb
  obtain ⟨coeff, exponent, hdiv, hcases⟩ := div_eq_fix hac hbc
  rw [fix_abs_value (hdiv.symm.trans hd)]
  refine le_roundedValue hx hm ?_
  rcases hcases with hexact | ⟨rfl, hle, -, -⟩
  · rw [← hexact] at h
    exact le_of_mul_le_mul_right h hbpos
  · have hstrict := lt_of_mul_lt_mul_right (h.trans_lt (lt_quotient_succ hbc)) hbpos.le
    refine (le_of_lt_succ (pow_le_quotient hac hbc) hm hstrict).trans ?_
    exact mul_le_mul_of_nonneg_right (by exact_mod_cast hle) (ten_zpow_pos _).le

theorem div_value_nonneg (ha : 0 ≤ a.value) (hb : 0 < b.value) (h : div a b = some d) :
    0 ≤ d.value := by
  rcases ha.eq_or_lt with hzero | hpos
  · obtain ⟨d', hd', hle⟩ :=
    @div_le a b 0 ⟨0, 0, Nat.zero_le _, by decide, by simp, by positivity⟩ hb.ne' (by
      rw [← hzero, abs_zero, zero_mul])
    rw [h] at hd'
    cases hd'
    exact (abs_nonpos_iff.mp hle).ge
  · exact div_nonneg_of_pos hpos hb h

/-- **A quotient that fits is exact.** -/
theorem div_exact {e : Int} (he : InContext e) (ha : 0 ≤ a.value) (hb : 0 < b.value)
    (h : Fits e (a.value / b.value)) :
    ∃ d, div a b = some d ∧ d.value = a.value / b.value := by
  obtain ⟨m, hm, heq⟩ := h
  have hnonneg : 0 ≤ a.value / b.value := div_nonneg ha hb.le
  rw [abs_of_nonneg hnonneg] at heq
  have hprod : a.value = m * 10 ^ e * b.value := by rw [← heq, div_mul_cancel₀ _ hb.ne']
  obtain ⟨d, hd, hle⟩ := @div_le a b _ (he.writable hm) hb.ne' (by
    rw [abs_of_nonneg ha, abs_of_pos hb, hprod])
  rw [abs_of_nonneg (div_value_nonneg ha hb hd)] at hle
  refine ⟨d, hd, heq ▸ le_antisymm hle ?_⟩
  rw [← abs_of_nonneg (div_value_nonneg ha hb hd)]
  rcases eq_or_ne a.value 0 with hzero | hne
  · rw [← heq, hzero, zero_div]
    exact abs_nonneg _
  · exact le_div he.1 hm.le hne hb.ne' (by rw [abs_of_nonneg ha, abs_of_pos hb, hprod]) hd

end

theorem toIntegralValue_some {mode : Rounding} {d : FiniteDecimal}
    (h : (mode.apply d.value).natAbs < 10 ^ 28) :
    ∃ r, toIntegralValue mode d = some r := by
  unfold toIntegralValue
  split_ifs with hplace
  · exact ⟨d, rfl⟩
  · have hrescale : rescale mode d 0 < 10 ^ 28 := by
      rw [rescale_eq, zpow_zero, div_one]
      exact h
    have hwidth := (width_le_iff (by decide)).mpr hrescale
    have hrange : InRange (rescale mode d 0) 0 := by
      unfold InRange minEtiny maxEmax
      omega
    exact ⟨_, dif_pos hrange⟩

end TraderBot.Lib.Decimal
