import TraderBot.Lib.DecimalNearest
import TraderBot.Planner.Intents

/-! # Steps in the decimal context

What a value snapped to an increment is in the default context, and when that raises:
the quotient is the one the context gives, rounded to whole steps, and the steps are written
at the place of the increment, in 28 digits at most. -/
namespace TraderBot.Planner
open TraderBot.Lib
open TraderBot.Lib.Decimal (InContext etiny emax)
open TraderBot.Venue (Interpreter)

/-- `((value / step).quantize(Decimal("1"), rounding) * step).quantize(step)`. -/
def stepped (rounding : Rounding) (value step : FiniteDecimal) : Option FiniteDecimal := do
  defaultContext.fit (← defaultContext.snap rounding value step) step

/-- An increment the context can work with. -/
structure Increment (py : Interpreter) (text : String) (step : FiniteDecimal) : Prop where
  reads : Decimal.ofText py.unicode text.toList = some (.finite step)
  positive : 0 < step.value
  low : etiny ≤ step.exponent
  high : step.exponent + 40 ≤ emax

section
variable {py : Interpreter} {text : String} {step : FiniteDecimal} {n : Nat}

theorem Increment.context (h : Increment py text step) : InContext step.exponent := by
  have hhigh := h.high
  refine ⟨h.low, ?_⟩
  unfold Decimal.prec
  omega

theorem Increment.decimalText (h : Increment py text step) : decimalText py text = .ok (.finite step) := by
  rw [TraderBot.Planner.decimalText, h.reads]
  rfl

/-- Room for a hundred quantities. -/
theorem Increment.room (h : Increment py text step) (hn : n ≤ 100) :
    Decimal.Writable (n * Decimal.limit step.exponent) := by
  have hhigh := h.high
  have hlow := h.low
  have hpow : Decimal.limit step.exponent = 10 ^ (28 + step.exponent) := by
    rw [Decimal.limit, zpow_add₀ (by norm_num)]
    rfl
  refine ⟨n, 28 + step.exponent, hn.trans (by decide), by omega, by rw [hpow], ?_⟩
  have hcast : (n : ℚ) ≤ 10 ^ (2 : Int) := by
    refine le_trans (b := 100) (by exact_mod_cast hn) (by norm_num)
  rw [hpow]
  calc (n : ℚ) * 10 ^ (28 + step.exponent) ≤ 10 ^ (2 : Int) * 10 ^ (28 + step.exponent) :=
        mul_le_mul_of_nonneg_right hcast (ten_zpow_pos _).le
    _ = 10 ^ (2 + (28 + step.exponent)) := (zpow_add₀ (by norm_num) _ _).symm
    _ < 10 ^ (emax + 1) := zpow_lt_zpow_right₀ (by norm_num) (by omega)

/-- The total of `n` quantities so far. -/
structure Partial (step : FiniteDecimal) (n : Nat) (total : FiniteDecimal) : Prop where
  nonneg : 0 ≤ total.value
  bounded : total.value ≤ n * Decimal.limit step.exponent

/-- The next quantity is added without an error. -/
theorem Partial.add {total d : FiniteDecimal} (h : Partial step n total) (hinc : Increment py text step)
    (hn : n < 100)
    (hd : 0 ≤ d.value) (hle : d.value ≤ Decimal.limit step.exponent) :
    ∃ total', Decimal.add total d.spread = some total' ∧ Partial step (n + 1) total' ∧
      addQuantity defaultContext py total (fixed d) = .ok total' := by
  have hsum : total.value + d.spread.value ≤ ((n + 1 : Nat) : ℚ) * Decimal.limit step.exponent := by
    have hbounded := h.bounded
    rw [FiniteDecimal.spread_value]
    push_cast
    linarith
  obtain ⟨total', hadd, hnonneg, hbounded⟩ :=
    Decimal.add_le (hinc.room hn) h.nonneg (by rwa [FiniteDecimal.spread_value]) hsum
  refine ⟨total', hadd, ⟨hnonneg, hbounded⟩, ?_⟩
  have hread : Planner.decimalText py (fixed d) = .ok (.finite d.spread) := by
    rw [TraderBot.Planner.decimalText, fixed, String.toList_ofList, Decimal.ofText_fixedText]
    rfl
  rw [addQuantity, hread]
  show raising (Decimal.add total d.spread) = _
  rw [hadd]
  rfl

end

section
variable {rounding : Rounding} {value step d n p x : FiniteDecimal}

/-- A positive number of steps is one step at least. -/
theorem le_mul_steps (hplace : etiny ≤ step.exponent) (hs : 0 < step.value) (hn : n.exponent = 0) (hpos : 0 < n.value)
    (hp : Decimal.mul n step = some p) : 10 ^ step.exponent ≤ p.value := by
  have hcoeff : 0 < n.coeff * step.coeff := Nat.mul_pos (FiniteDecimal.coeff_pos hpos) (FiniteDecimal.coeff_pos hs)
  rw [← abs_of_nonneg (Decimal.mul_nonneg_of_pos hpos hs hp), Decimal.fix_abs_value hp,
    ← one_mul ((10 : ℚ) ^ step.exponent)]
  refine Decimal.le_roundedValue (m := 1) hplace (by decide) ?_
  rw [hn, zero_add]
  refine mul_le_mul_of_nonneg_right ?_ (ten_zpow_pos _).le
  exact_mod_cast hcoeff

/-- A product of whole steps that is written in 28 digits. -/
theorem mul_steps (he : InContext step.exponent) (hn : n.exponent = 0)
    (hdigits : n.coeff * step.coeff < 10 ^ 28) :
    ∃ p, Decimal.mul n step = some p ∧ p.value = n.value * step.value ∧
      p.value / 10 ^ step.exponent = ((n.signed * step.signed : Int) : ℚ) := by
  have hexact : n.value * step.value = ((n.signed * step.signed : Int) : ℚ) * 10 ^ step.exponent := by
    rw [FiniteDecimal.value, FiniteDecimal.value, hn, zpow_zero, mul_one]
    push_cast
    ring
  have hsize : (n.signed * step.signed).natAbs = n.coeff * step.coeff := by
    rw [Int.natAbs_mul, FiniteDecimal.natAbs_signed, FiniteDecimal.natAbs_signed]
  have hfits : Decimal.Fits step.exponent (n.value * step.value) := by
    refine ⟨n.coeff * step.coeff, hdigits, ?_⟩
    rw [hexact, abs_mul, abs_of_pos (ten_zpow_pos _), ← hsize, Nat.cast_natAbs]
    push_cast
    rfl
  obtain ⟨p, hp, hvalue⟩ := Decimal.mul_exact he hfits
  refine ⟨p, hp, hvalue, ?_⟩
  rw [hvalue, hexact, mul_div_assoc, div_self (ten_zpow_pos _).ne', mul_one]

/-- Steps that need more digits raise, in the product or where its place is set. -/
theorem fit_wide (he : InContext step.exponent) (hn : n.exponent = 0)
    (hdigits : 10 ^ 28 ≤ n.coeff * step.coeff)
    (hp : Decimal.mul n step = some p) : ¬ (defaultContext.fit p step).isSome := by
  have hwide : ((10 ^ 28 : Nat) : ℚ) * 10 ^ step.exponent ≤ |p.value| := by
    rw [Decimal.fix_abs_value hp]
    refine Decimal.le_roundedValue he.1 le_rfl ?_
    rw [hn, zero_add]
    refine mul_le_mul_of_nonneg_right ?_ (ten_zpow_pos _).le
    exact_mod_cast hdigits
  have hplaces : ((10 ^ 28 : Nat) : ℚ) ≤ |p.value / 10 ^ step.exponent| := by
    rwa [abs_div, abs_of_pos (ten_zpow_pos _), le_div_iff₀ (ten_zpow_pos _)]
  show ¬ (Decimal.quantize .down p step.exponent).isSome
  rw [Decimal.quantize_isSome_iff he, Decimal.rescale_eq, not_lt]
  exact Rounding.le_natAbs_down hplaces

/-- **A snapped value is given** exactly when its steps are, and can be written in 28 digits. -/
theorem stepped_isSome_iff (he : InContext step.exponent) (hs : 0 < step.coeff) :
    (stepped rounding value step).isSome ↔
      ∃ x, Decimal.div value step = some x ∧ (rounding.apply x.value).natAbs * step.coeff < 10 ^ 28 := by
  have hzero : InContext 0 := ⟨by decide, by decide⟩
  have hone : ∀ x : FiniteDecimal, x.value / 10 ^ (0 : Int) = x.value := fun x => by rw [zpow_zero, div_one]
  constructor
  · intro hsome
    obtain ⟨d, hd⟩ := Option.isSome_iff_exists.mp hsome
    obtain ⟨p, hsnap, hfit⟩ := Option.bind_eq_some_iff.mp hd
    obtain ⟨x, hx, hsnap⟩ := Option.bind_eq_some_iff.mp hsnap
    obtain ⟨n, hn, hp⟩ := Option.bind_eq_some_iff.mp hsnap
    obtain ⟨-, hcoeff, hplace⟩ := Decimal.quantize_shape hn
    refine ⟨x, hx, ?_⟩
    rw [← hone x, ← Decimal.rescale_eq, ← hcoeff]
    by_contra hwide
    exact fit_wide he hplace (not_lt.mp hwide) hp (by rw [hfit]; rfl)
  · intro hsteps
    obtain ⟨x, hx, hdigits⟩ := hsteps
    have hlow : Decimal.rescale rounding x 0 < 10 ^ 28 := by
      rw [Decimal.rescale_eq, hone]
      exact (Nat.le_mul_of_pos_right _ hs).trans_lt hdigits
    obtain ⟨n, hn⟩ := Option.isSome_iff_exists.mp ((Decimal.quantize_isSome_iff hzero).mpr hlow)
    obtain ⟨-, hcoeff, hplace⟩ := Decimal.quantize_shape hn
    rw [← hone x, ← Decimal.rescale_eq, ← hcoeff] at hdigits
    obtain ⟨p, hp, -, hplaces⟩ := mul_steps he hplace hdigits
    have hfit : (Decimal.quantize .down p step.exponent).isSome := by
      rw [Decimal.quantize_isSome_iff he, Decimal.rescale_eq, hplaces, Rounding.apply_intCast, Int.natAbs_mul,
        FiniteDecimal.natAbs_signed, FiniteDecimal.natAbs_signed]
      exact hdigits
    have hsnap : defaultContext.snap rounding value step = some p := by
      show (do let steps ← Decimal.quantize rounding (← Decimal.div value step) 0; Decimal.mul steps step) = _
      rw [hx]
      show (Decimal.quantize rounding x 0).bind _ = _
      rw [hn]
      exact hp
    rw [stepped, hsnap]
    exact hfit

/-- What a snapped value is: whole steps of the increment. -/
theorem stepped_value (he : InContext step.exponent) (hs : 0 < step.coeff)
    (h : stepped rounding value step = some d) :
    ∃ x, Decimal.div value step = some x ∧ d.value = rounding.apply x.value * step.value := by
  obtain ⟨x, hx, hdigits⟩ := (stepped_isSome_iff he hs).mp (by rw [h]; rfl)
  refine ⟨x, hx, ?_⟩
  obtain ⟨p, hsnap, hfit⟩ := Option.bind_eq_some_iff.mp h
  obtain ⟨x', hx', hsnap⟩ := Option.bind_eq_some_iff.mp hsnap
  obtain ⟨n, hn, hp⟩ := Option.bind_eq_some_iff.mp hsnap
  cases hx.symm.trans hx'
  obtain ⟨-, hcoeff, hplace⟩ := Decimal.quantize_shape hn
  have hvalue := Decimal.quantize_value hn
  rw [zpow_zero, div_one, mul_one] at hvalue
  rw [← show x.value / 10 ^ (0 : Int) = x.value by rw [zpow_zero, div_one], ← Decimal.rescale_eq, ← hcoeff] at hdigits
  obtain ⟨p', hp', hproduct, hplaces⟩ := mul_steps he hplace hdigits
  cases hp.symm.trans hp'
  rw [Decimal.quantize_value hfit, hplaces, Rounding.apply_intCast, ← hplaces, div_mul_cancel₀ _ (ten_zpow_pos _).ne',
    hproduct, hvalue]

/-- A snapped value is below the limit of the context at its increment. -/
theorem stepped_abs_lt (h : stepped rounding value step = some d) : |d.value| < Decimal.limit step.exponent := by
  obtain ⟨p, -, hfit⟩ := Option.bind_eq_some_iff.mp h
  obtain ⟨hplace, hwidth⟩ := Decimal.quantize_place hfit
  rw [FiniteDecimal.abs_value, hplace, Decimal.Whole.lt_limit_iff]
  exact (Decimal.width_le_iff (by decide)).mp hwidth

/-- A positive value is not snapped below zero. -/
theorem Increment.stepped_nonneg {py : Interpreter} {text : String} (hinc : Increment py text step)
    (hv : 0 < value.value) (h : stepped .halfUp value step = some d) : 0 ≤ d.value := by
  obtain ⟨x, hx, hvalue⟩ := stepped_value hinc.context (FiniteDecimal.coeff_pos hinc.positive) h
  have hshare := Decimal.div_nonneg_of_pos hv hinc.positive hx
  have hsteps : 0 ≤ Rounding.halfUp.apply x.value := by
    rw [Rounding.le_halfUp_iff hshare]
    push_cast
    linarith
  rw [hvalue]
  exact mul_nonneg (by exact_mod_cast hsteps) hinc.positive.le

end
end TraderBot.Planner
