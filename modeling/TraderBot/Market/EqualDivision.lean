import TraderBot.Lib.DecimalQuotient
import TraderBot.Lib.DecimalSum
import TraderBot.Lib.Returns

/-! # Equal shares

The equal rule gives every leg the share `1 / n` cut to 12 places, and the last leg what is missing to one.
A leg then gets its share of the quantity, cut to whole steps. Where the cut of the share
costs a leg the step that it is due, the legs are no longer equal: exactly when `n` does not
divide well enough into `10 ^ 12` for the number of steps (`equal_division_iff`). -/
namespace TraderBot.Market
open TraderBot.Lib TraderBot.Lib.Decimal

/-! ## Shares -/

/-- `RATIO_QUANTUM`. -/
def ratioPlace : Int := -12

/-- `Decimal(1)`. -/
def one : FiniteDecimal := ⟨false, 1, 0, .one⟩

/-- `equal_split`, which `resolve_fractions` calls for a plan that gives no fractions; `none` raises. -/
def equalSplit (n : Nat) (total : FiniteDecimal) : Option (List FiniteDecimal) :=
  if n = 0 then some []
  else do
    let count ← FiniteDecimal.mk? false n 0
    let each ← quantize .down (← div total count) ratioPlace
    let last ← add each (← sub total (← mul each count))
    return List.replicate (n - 1) each ++ [last]

/-- `floor_step`. -/
def floorStep (qty step : FiniteDecimal) : Option FiniteDecimal :=
  if step.le .zero then some qty
  else do mul (← toIntegralValue .down (← div qty step)) step

/-- `sum(values)`, which starts from the integer zero. -/
def sumOf (values : List FiniteDecimal) : Option FiniteDecimal := values.foldlM add .zero

/-- `tp_targets` for as many take profits as there are fractions. -/
def tpTargets (entryQty step : FiniteDecimal) (fractions : List FiniteDecimal) :
    Option (List FiniteDecimal) := do
  let targets ← fractions.mapM fun f => do floorStep (← mul entryQty f) step
  if targets ≠ [] ∧ (← sumOf fractions).eq one = true then
    let rem ← sub entryQty (← sumOf targets)
    if rem.isPositive then
      let last ← add (targets.getLastD .zero) rem
      return targets.dropLast ++ [last]
    else return targets
  else return targets

/-! ## The allocation of the entries -/

inductive EntryKind where
  | limit
  | marketRef
  | ladder
  deriving DecidableEq, Repr

/-- What the allocation reads of an entry. -/
structure Entry where
  kind : EntryKind
  priceLo : FiniteDecimal
  priceHi : FiniteDecimal

/-- `len(prices)`: a ladder has as many prices as the policy has steps, unless it has no room for two. -/
def Entry.priceCount (ladderSteps : Int) (entry : Entry) : Nat :=
  if entry.kind ≠ .ladder then 1
  else if ladderSteps ≤ 1 ∨ entry.priceLo.eq entry.priceHi = true then 1
  else ladderSteps.toNat

/-- The loop that hands out what is left of a leg in steps, from its first price on; `fuel` bounds the number
of turns. -/
def handOut (step : FiniteDecimal) :
    Nat → Nat → FiniteDecimal → List FiniteDecimal → Option (List FiniteDecimal)
  | 0, _, _, _ => none
  | fuel + 1, i, rem, qtys =>
    if (FiniteDecimal.zero.lt step && step.le rem) = true then do
      let q ← qtys[i % qtys.length]?
      let q ← add q step
      handOut step fuel (i + 1) (← sub rem step) (qtys.set (i % qtys.length) q)
    else some qtys

/-- The loop of `submit_entries` over the entries, for one of them: the quantities of its prices. -/
def legQuantities (fuel : Nat) (ladderSteps : Int) (total step fraction : FiniteDecimal) (entry : Entry) :
    Option (List FiniteDecimal) := do
  let prices := entry.priceCount ladderSteps
  let legTotal ← floorStep (← mul total fraction) step
  let count ← FiniteDecimal.mk? false prices 0
  let per ← floorStep (← div legTotal count) step
  let rem ← sub legTotal (← mul per count)
  handOut step fuel 0 rem (List.replicate prices per)

/-! ## The shares -/

section
variable {n : Nat}

/-- How many times `n` goes into the places of a share. -/
def shareUnits (n : Nat) : Nat := 10 ^ 12 / n

theorem ratio_context : InContext ratioPlace := ⟨by decide, by decide⟩

theorem mk?_of_inRange (h : InRange n 0) : FiniteDecimal.mk? false n 0 = some ⟨false, n, 0, h⟩ := by
  rw [FiniteDecimal.mk?, dif_pos h]

theorem count_value (h : InRange n 0) : (⟨false, n, 0, h⟩ : FiniteDecimal).value = n := by
  simp [FiniteDecimal.value, FiniteDecimal.signed]

theorem one_value : one.value = 1 := by
  simp [one, FiniteDecimal.value, FiniteDecimal.signed]

theorem down_eq {x : ℚ} {k : Nat} (hk : (k : ℚ) ≤ x) (hx : x < k + 1) : Rounding.down.apply x = k := by
  have hnonneg : 0 ≤ x := (Nat.cast_nonneg k).trans hk
  have hle := Rounding.down_le hnonneg
  have hlt := Rounding.lt_down_add_one hnonneg
  have hupper : Rounding.down.apply x < k + 1 := by exact_mod_cast hle.trans_lt hx
  have hlower : (k : Int) < Rounding.down.apply x + 1 := by exact_mod_cast hk.trans_lt hlt
  omega

/-- The numbers of a share: what is dropped is more than the rounding of the quotient can bring back. -/
theorem share_bounds (hn : 0 < n) :
    shareUnits n * n ≤ 10 ^ 12 ∧ 10 ^ 25 ≤ ((shareUnits n + 1) * 10 ^ 13 - 1) * n ∧
    (shareUnits n + 1) * 10 ^ 13 - 1 < 10 ^ 28 := by
  have hle : shareUnits n ≤ 10 ^ 12 := Nat.div_le_self _ _
  have hlt : 10 ^ 12 < n * (shareUnits n + 1) := Nat.lt_mul_div_succ _ hn
  have hwhole : n ≤ n * (shareUnits n + 1) := Nat.le_mul_of_pos_right _ (Nat.succ_pos _)
  refine ⟨Nat.div_mul_le_self _ _, ?_, by omega⟩
  have hprod : ((shareUnits n + 1) * 10 ^ 13 - 1) * n = n * (shareUnits n + 1) * 10 ^ 13 - n := by
    rw [Nat.sub_mul, one_mul]
    congr 1
    ring
  rw [hprod]
  generalize n * (shareUnits n + 1) = X at *
  rcases Nat.lt_or_ge (10 ^ 13) n with hbig | hsmall
  · omega
  · omega

/-- **The share of a leg is the quotient cut to 12 places**, whatever the context did to the quotient. -/
theorem share_value (hn : 0 < n) (h : InRange n 0) : ∃ q each, div one ⟨false, n, 0, h⟩ = some q ∧
    quantize .down q ratioPlace = some each ∧ each.value = shareUnits n * 10 ^ ratioPlace := by
  obtain ⟨hdown, hup, hfits⟩ := share_bounds hn
  have hcount := count_value h
  have hpos : (0 : ℚ) < n := by exact_mod_cast hn
  have hne : (⟨false, n, 0, h⟩ : FiniteDecimal).value ≠ 0 := by
    rw [hcount]
    exact hpos.ne'
  have hwritable := @InContext.writable (-25) _ ⟨by decide, by decide⟩ hfits
  have hupQ : (10 : ℚ) ^ 25 ≤ (((shareUnits n + 1) * 10 ^ 13 - 1 : Nat) : ℚ) * n := by exact_mod_cast hup
  have hdownQ : (shareUnits n : ℚ) * n ≤ 10 ^ 12 := by exact_mod_cast hdown
  obtain ⟨q, hq, hqle⟩ := @div_le one ⟨false, n, 0, h⟩ _ hwritable hne (by
    rw [one_value, hcount, abs_one, abs_of_pos hpos, mul_right_comm]
    have hscaled := mul_le_mul_of_nonneg_right hupQ (ten_zpow_pos (-25)).le
    norm_num at hscaled ⊢
    exact hscaled)
  have hqnonneg := div_value_nonneg (by rw [one_value]; exact zero_le_one) (hcount ▸ hpos) hq
  rw [abs_of_nonneg hqnonneg] at hqle
  have hqge := @le_div one ⟨false, n, 0, h⟩ (shareUnits n) (-12) q (by decide)
    (hfits.le.trans' (by omega)) (by rw [one_value]; exact one_ne_zero) hne (by
      rw [one_value, hcount, abs_one, abs_of_pos hpos, mul_right_comm]
      have hscaled := mul_le_mul_of_nonneg_right hdownQ (ten_zpow_pos (-12)).le
      norm_num at hscaled ⊢
      exact hscaled) hq
  rw [abs_of_nonneg hqnonneg] at hqge
  have hcut : Rounding.down.apply (q.value / 10 ^ ratioPlace) = shareUnits n := by
    refine down_eq ?_ ?_
    · rw [le_div_iff₀ (ten_zpow_pos _)]
      exact hqge
    · rw [div_lt_iff₀ (ten_zpow_pos _)]
      refine hqle.trans_lt ?_
      have hlast : (((shareUnits n + 1) * 10 ^ 13 - 1 : Nat) : ℚ) < (shareUnits n + 1) * 10 ^ 13 := by
        exact_mod_cast Nat.sub_lt (by positivity) Nat.one_pos
      have hscaled := mul_lt_mul_of_pos_right hlast (ten_zpow_pos (-25))
      unfold ratioPlace
      norm_num at hscaled ⊢
      linarith
  have hsome : (quantize .down q ratioPlace).isSome := by
    rw [quantize_isSome_iff ratio_context, rescale_eq, hcut, Int.natAbs_natCast]
    have hle : shareUnits n ≤ 10 ^ 12 := Nat.div_le_self _ _
    omega
  obtain ⟨each, heach⟩ := Option.isSome_iff_exists.mp hsome
  refine ⟨q, each, hq, heach, ?_⟩
  rw [quantize_value heach, hcut, Int.cast_natCast]

theorem units_fit {k : Nat} (h : k < 10 ^ 28) : Fits ratioPlace ((k : ℚ) * 10 ^ ratioPlace) :=
  ⟨k, h, abs_of_nonneg (mul_nonneg (Nat.cast_nonneg k) (ten_zpow_pos _).le)⟩

/-- What the shares of the first legs leave of one. -/
theorem units_left :
    (1 : ℚ) - shareUnits n * 10 ^ ratioPlace * n = ((10 ^ 12 % n : Nat) : ℚ) * 10 ^ ratioPlace := by
  have hsplit : ((n * (10 ^ 12 / n) + 10 ^ 12 % n : Nat) : ℚ) = ((10 ^ 12 : Nat) : ℚ) :=
    congrArg _ (Nat.div_add_mod _ _)
  have hone : (1 : ℚ) = ((10 ^ 12 : Nat) : ℚ) * 10 ^ ratioPlace := by
    unfold ratioPlace
    norm_num
  unfold shareUnits
  rw [hone, ← hsplit]
  push_cast
  ring

/-- **The shares**: all legs but the last have the same, the last one gets what is missing to one. -/
theorem equalSplit_value (hn : 0 < n) (h : InRange n 0) : ∃ each last : FiniteDecimal,
    equalSplit n one = some (List.replicate (n - 1) each ++ [last]) ∧
      each.value = shareUnits n * 10 ^ ratioPlace ∧
      last.value = ((shareUnits n + 10 ^ 12 % n : Nat) : ℚ) * 10 ^ ratioPlace := by
  obtain ⟨q, each, hq, heach, hvalue⟩ := share_value hn h
  obtain ⟨hdown, -, -⟩ := share_bounds hn
  have hrest : 10 ^ 12 % n ≤ 10 ^ 12 := Nat.mod_le _ _
  have hshare : shareUnits n ≤ 10 ^ 12 := Nat.div_le_self _ _
  have hprodValue : each.value * (⟨false, n, 0, h⟩ : FiniteDecimal).value =
      ((shareUnits n * n : Nat) : ℚ) * 10 ^ ratioPlace := by
    rw [hvalue, count_value]
    push_cast
    ring
  obtain ⟨prod, hprod, hprodEq⟩ := mul_exact ratio_context (hprodValue ▸ units_fit (by omega))
  have hleft : one.value - prod.value = ((10 ^ 12 % n : Nat) : ℚ) * 10 ^ ratioPlace := by
    rw [one_value, hprodEq, hvalue, count_value, units_left]
  obtain ⟨rest, hrestEq, hrestValue⟩ := sub_exact ratio_context (hleft ▸ units_fit (by omega))
  have hsum : each.value + rest.value = ((shareUnits n + 10 ^ 12 % n : Nat) : ℚ) * 10 ^ ratioPlace := by
    rw [hrestValue, hleft, hvalue]
    push_cast
    ring
  obtain ⟨last, hlast, hlastValue⟩ := add_exact ratio_context (hsum ▸ units_fit (by omega))
  refine ⟨each, last, ?_, hvalue, hlastValue.trans hsum⟩
  unfold equalSplit
  simp [if_neg hn.ne', mk?_of_inRange h, hq, heach, hprod, hrestEq, hlast]

end

/-! ## Steps -/

/-- The context counts `k` steps, and their shares, without rounding. -/
structure Countable (step : FiniteDecimal) (k : Nat) : Prop where
  positive : 0 < step.value
  context : InContext (step.exponent + ratioPlace)
  digits : k * step.coeff < 10 ^ 16

namespace Countable
variable {step q : FiniteDecimal} {k p : Nat}

theorem step_value (h : Countable step k) : step.value = step.coeff * 10 ^ step.exponent := by
  rw [← step.abs_value, abs_of_pos h.positive]

theorem count_lt (h : Countable step k) : k < 10 ^ 16 :=
  (Nat.le_mul_of_pos_right k (FiniteDecimal.coeff_pos h.positive)).trans_lt h.digits

theorem mono (h : Countable step k) {j : Nat} (hj : j ≤ k) : Countable step j :=
  ⟨h.positive, h.context, (Nat.mul_le_mul_right _ hj).trans_lt h.digits⟩

/-- Parts of a step, as many as the places of a share. -/
theorem parts_eq (h : Countable step k) (p : Nat) : (p : ℚ) * 10 ^ ratioPlace * step.value =
    ((p * step.coeff : Nat) : ℚ) * 10 ^ (step.exponent + ratioPlace) := by
  rw [h.step_value, zpow_add₀ (by norm_num)]
  push_cast
  ring

theorem parts_whole (h : Countable step k) (p : Nat) :
    Whole (step.exponent + ratioPlace) ((p : ℚ) * 10 ^ ratioPlace * step.value) :=
  ⟨p * step.coeff, h.parts_eq p⟩

theorem parts_lt (h : Countable step k) (hp : p ≤ k * 10 ^ 12) :
    (p : ℚ) * 10 ^ ratioPlace * step.value < limit (step.exponent + ratioPlace) := by
  have hle := Nat.mul_le_mul_right step.coeff hp
  have hdigits := h.digits
  rw [h.parts_eq p, Whole.lt_limit_iff]
  rw [mul_right_comm] at hle
  unfold prec
  omega

theorem parts_fit (h : Countable step k) (hp : p ≤ k * 10 ^ 12) :
    Fits (step.exponent + ratioPlace) ((p : ℚ) * 10 ^ ratioPlace * step.value) :=
  (h.parts_whole p).fits (h.parts_lt hp)

theorem steps_eq (j : Nat) : (j : ℚ) = ((j * 10 ^ 12 : Nat) : ℚ) * 10 ^ ratioPlace := by
  unfold ratioPlace
  push_cast
  rw [mul_assoc]
  norm_num

theorem steps_fit (h : Countable step k) {j : Nat} (hj : j ≤ k) :
    Fits (step.exponent + ratioPlace) ((j : ℚ) * step.value) := by
  rw [steps_eq j]
  exact h.parts_fit (Nat.mul_le_mul_right _ hj)

/-- **`floor_step` drops the parts of a step.** -/
theorem floorStep_value (h : Countable step k) (hp : p ≤ k * 10 ^ 12)
    (hq : q.value = (p : ℚ) * 10 ^ ratioPlace * step.value) :
    ∃ t, floorStep q step = some t ∧ t.value = ((p / 10 ^ 12 : Nat) : ℚ) * step.value := by
  have hcount := h.count_lt
  have hquot : q.value / step.value = (p : ℚ) * 10 ^ ratioPlace := by
    rw [hq, mul_div_cancel_right₀ _ h.positive.ne']
  have hnonneg : 0 ≤ q.value := by
    rw [hq]
    exact mul_nonneg (mul_nonneg (Nat.cast_nonneg p) (ten_zpow_pos _).le) h.positive.le
  obtain ⟨ratio, hratio, hratioValue⟩ := div_exact ratio_context hnonneg h.positive
    (hquot ▸ units_fit (by omega))
  have hfloor : Rounding.down.apply ratio.value = ((p / 10 ^ 12 : Nat) : Int) := by
    have hunit : (10 : ℚ) ^ ratioPlace = 1 / ((10 ^ 12 : Nat) : ℚ) := by
      unfold ratioPlace
      norm_num
    have hlow : p / 10 ^ 12 * 10 ^ 12 ≤ p := Nat.div_mul_le_self _ _
    have hhigh : p < (p / 10 ^ 12 + 1) * 10 ^ 12 := by omega
    rw [hratioValue, hquot, hunit, mul_one_div]
    have hpos : (0 : ℚ) < ((10 ^ 12 : Nat) : ℚ) := by norm_num
    refine down_eq ?_ ?_
    · rw [le_div_iff₀ hpos]
      exact_mod_cast hlow
    · rw [div_lt_iff₀ hpos]
      exact_mod_cast hhigh
  obtain ⟨whole, hwhole⟩ := @toIntegralValue_some .down ratio (by
    rw [hfloor, Int.natAbs_natCast]
    omega)
  have hwholeValue : whole.value = ((p / 10 ^ 12 : Nat) : ℚ) := by
    rw [toIntegralValue_value hwhole, hfloor]
    exact Int.cast_natCast _
  obtain ⟨t, ht, htValue⟩ := @mul_exact whole step _ h.context (by
    rw [hwholeValue]
    exact h.steps_fit (by omega))
  refine ⟨t, ?_, by rw [htValue, hwholeValue]⟩
  have hle : step.le .zero = false := by
    rw [Bool.eq_false_iff, ne_eq, FiniteDecimal.le_iff, FiniteDecimal.zero_value, not_le]
    exact h.positive
  unfold floorStep
  simp [hle, hratio, hwhole, ht]

/-- **A share of the quantity**, cut to whole steps. -/
theorem share_of_total (h : Countable step k) {total fraction : FiniteDecimal} {u : Nat}
    (htotal : total.value = k * step.value) (hfraction : fraction.value = u * 10 ^ ratioPlace)
    (hu : u ≤ 10 ^ 12) :
    ∃ cut t, mul total fraction = some cut ∧ floorStep cut step = some t ∧
      t.value = ((k * u / 10 ^ 12 : Nat) : ℚ) * step.value := by
  have hle : k * u ≤ k * 10 ^ 12 := Nat.mul_le_mul_left k hu
  have hprod : total.value * fraction.value = ((k * u : Nat) : ℚ) * 10 ^ ratioPlace * step.value := by
    rw [htotal, hfraction]
    push_cast
    ring
  obtain ⟨cut, hcut, hvalue⟩ := mul_exact h.context (hprod ▸ h.parts_fit hle)
  obtain ⟨t, ht, htValue⟩ := h.floorStep_value hle (hvalue.trans hprod)
  exact ⟨cut, t, hcut, ht, htValue⟩

end Countable

/-! ## Take profits -/

/-- Steps of all legs but the last. -/
def eachSteps (n k : Nat) : Nat := k * shareUnits n / 10 ^ 12

/-- Steps of the last leg before the remainder goes to it. -/
def lastSteps (n k : Nat) : Nat := k * (shareUnits n + 10 ^ 12 % n) / 10 ^ 12

theorem units_total (n : Nat) :
    (n - 1) * shareUnits n + (shareUnits n + 10 ^ 12 % n) = 10 ^ 12 ∨ n = 0 := by
  rcases n with _ | n
  · exact .inr rfl
  · left
    have hsplit := Nat.div_add_mod (10 ^ 12) (n + 1)
    unfold shareUnits
    rw [Nat.add_sub_cancel, ← add_assoc, ← Nat.succ_mul]
    exact hsplit

theorem units_le {n : Nat} (hn : 0 < n) :
    shareUnits n ≤ 10 ^ 12 ∧ shareUnits n + 10 ^ 12 % n ≤ 10 ^ 12 := by
  have htotal := (units_total n).resolve_right hn.ne'
  generalize (n - 1) * shareUnits n = X at htotal
  omega

/-- Cutting to steps gives no more than there is. -/
theorem steps_le {n k : Nat} (hn : 0 < n) : (n - 1) * eachSteps n k + lastSteps n k ≤ k := by
  have htotal := (units_total n).resolve_right hn.ne'
  have heach : eachSteps n k * 10 ^ 12 ≤ k * shareUnits n := Nat.div_mul_le_self _ _
  have hlast : lastSteps n k * 10 ^ 12 ≤ k * (shareUnits n + 10 ^ 12 % n) := Nat.div_mul_le_self _ _
  refine Nat.le_of_mul_le_mul_right ?_ (by norm_num : 0 < 10 ^ 12)
  calc ((n - 1) * eachSteps n k + lastSteps n k) * 10 ^ 12
      = (n - 1) * (eachSteps n k * 10 ^ 12) + lastSteps n k * 10 ^ 12 := by ring
    _ ≤ (n - 1) * (k * shareUnits n) + k * (shareUnits n + 10 ^ 12 % n) :=
        Nat.add_le_add (Nat.mul_le_mul_left _ heach) hlast
    _ = k * ((n - 1) * shareUnits n + (shareUnits n + 10 ^ 12 % n)) := by ring
    _ = k * 10 ^ 12 := by rw [htotal]

theorem sum_legs (m : Nat) (a b : FiniteDecimal) :
    ((List.replicate m a ++ [b]).map FiniteDecimal.value).sum = m * a.value + b.value := by
  rw [List.map_append, List.sum_append, List.map_replicate, List.sum_replicate, nsmul_eq_mul]
  simp

theorem mapM_legs {α β : Type} {f : α → Option β} {a l : α} {b t : β} (m : Nat) (ha : f a = some b)
    (hl : f l = some t) :
    (List.replicate m a ++ [l]).mapM f = some (List.replicate m b ++ [t]) := by
  rw [mapM_eq_some_iff, List.map_append, List.map_append, List.map_replicate, List.map_replicate, ha]
  simp [hl]

section
variable {n k : Nat} {total step : FiniteDecimal}

/-- The shares sum to one. -/
theorem sumOf_shares (hn : 0 < n) {share rest : FiniteDecimal}
    (hshare : share.value = shareUnits n * 10 ^ ratioPlace)
    (hrest : rest.value = ((shareUnits n + 10 ^ 12 % n : Nat) : ℚ) * 10 ^ ratioPlace) :
    ∃ s, sumOf (List.replicate (n - 1) share ++ [rest]) = some s ∧ s.eq one = true := by
  have htotal := (units_total n).resolve_right hn.ne'
  have hsum : ((List.replicate (n - 1) share ++ [rest]).map FiniteDecimal.value).sum = 1 := by
    rw [sum_legs, hshare, hrest, ← mul_assoc, ← add_mul]
    have hcast : ((n - 1 : Nat) : ℚ) * shareUnits n + ((shareUnits n + 10 ^ 12 % n : Nat) : ℚ) =
      ((10 ^ 12 : Nat) : ℚ) := by
      exact_mod_cast htotal
    rw [hcast]
    unfold ratioPlace
    norm_num
  obtain ⟨s, hs, hvalue⟩ :=
    @foldlM_add_exact _ .zero (List.replicate (n - 1) share ++ [rest]) ratio_context (by
    rw [FiniteDecimal.zero_value]
    exact Whole.zero _) (by
    intro x hx
    rcases List.mem_append.mp hx with hx | hx
    · rw [List.eq_of_mem_replicate hx, hshare]
      exact ⟨_, rfl⟩
    · rw [List.mem_singleton.mp hx, hrest]
      exact ⟨_, rfl⟩) (by
    rw [hsum, FiniteDecimal.zero_value]
    unfold limit prec ratioPlace
    norm_num)
  refine ⟨s, hs, FiniteDecimal.eq_iff.mpr ?_⟩
  rw [hvalue, hsum, FiniteDecimal.zero_value, one_value, zero_add]

/-- The targets sum to whole steps, no more than there are. -/
theorem sumOf_targets (hstep : Countable step k) {each last : FiniteDecimal} {a b m : Nat}
    (heach : each.value = a * step.value) (hlast : last.value = b * step.value) (hle : m * a + b ≤ k) :
    ∃ s, sumOf (List.replicate m each ++ [last]) = some s ∧
      s.value = ((m * a + b : Nat) : ℚ) * step.value := by
  have hsum : ((List.replicate m each ++ [last]).map FiniteDecimal.value).sum =
      ((m * a + b : Nat) : ℚ) * step.value := by
    rw [sum_legs, heach, hlast]
    push_cast
    ring
  obtain ⟨s, hs, hvalue⟩ := @foldlM_add_exact _ .zero (List.replicate m each ++ [last]) hstep.context (by
    rw [FiniteDecimal.zero_value]
    exact Whole.zero _) (by
    intro x hx
    rcases List.mem_append.mp hx with hx | hx
    · rw [List.eq_of_mem_replicate hx, heach, Countable.steps_eq]
      exact hstep.parts_whole _
    · rw [List.mem_singleton.mp hx, hlast, Countable.steps_eq]
      exact hstep.parts_whole _) (by
    rw [hsum, FiniteDecimal.zero_value, zero_add, Countable.steps_eq]
    exact hstep.parts_lt (Nat.mul_le_mul_right _ hle))
  exact ⟨s, hs, by rw [hvalue, hsum, FiniteDecimal.zero_value, zero_add]⟩

/-- **The targets**: all levels but the last have the same steps, the last one has the rest. -/
theorem tpTargets_value (hn : 0 < n) (hstep : Countable step k) (htotal : total.value = k * step.value)
    {share rest : FiniteDecimal} (hshare : share.value = shareUnits n * 10 ^ ratioPlace)
    (hrest : rest.value = ((shareUnits n + 10 ^ 12 % n : Nat) : ℚ) * 10 ^ ratioPlace) :
    ∃ each last : FiniteDecimal,
      tpTargets total step (List.replicate (n - 1) share ++ [rest]) =
        some (List.replicate (n - 1) each ++ [last]) ∧
      each.value = eachSteps n k * step.value ∧
      last.value = ((k - (n - 1) * eachSteps n k : Nat) : ℚ) * step.value := by
  obtain ⟨hunits, hlastUnits⟩ := units_le hn
  obtain ⟨cut, each, hcut, heach, heachValue⟩ := hstep.share_of_total htotal hshare hunits
  obtain ⟨cut', last, hcut', hlast, hlastValue⟩ := hstep.share_of_total htotal hrest hlastUnits
  change each.value = (eachSteps n k : ℚ) * step.value at heachValue
  change last.value = (lastSteps n k : ℚ) * step.value at hlastValue
  have hsteps := @steps_le n k hn
  have hmap := @mapM_legs _ _ (fun f => do floorStep (← mul total f) step) share rest each last (n - 1)
    (by simp [hcut, heach]) (by simp [hcut', hlast])
  obtain ⟨s, hs, hone⟩ := sumOf_shares hn hshare hrest
  obtain ⟨t, ht, htValue⟩ := sumOf_targets hstep heachValue hlastValue hsteps
  have hleft : total.value - t.value =
    ((k - ((n - 1) * eachSteps n k + lastSteps n k) : Nat) : ℚ) * step.value := by
    rw [htotal, htValue, Nat.cast_sub hsteps, sub_mul]
  obtain ⟨rem, hrem, hremValue⟩ := sub_exact hstep.context (hleft ▸ hstep.steps_fit (Nat.sub_le _ _))
  rw [hleft] at hremValue
  have hnonempty : (List.replicate (n - 1) each ++ [last]) ≠ [] := by simp
  by_cases hpos : rem.isPositive = true
  · have hwhole : last.value + rem.value = ((k - (n - 1) * eachSteps n k : Nat) : ℚ) * step.value := by
      rw [hlastValue, hremValue, ← add_mul, ← Nat.cast_add]
      congr 2
      omega
    obtain ⟨full, hfull, hfullValue⟩ := add_exact hstep.context (hwhole ▸ hstep.steps_fit (Nat.sub_le _ _))
    refine ⟨each, full, ?_, heachValue, hfullValue.trans hwhole⟩
    unfold tpTargets
    rw [hmap]
    simp [hs, hone, ht, hrem, hpos, hfull]
  · refine ⟨each, last, ?_, heachValue, ?_⟩
    · unfold tpTargets
      rw [hmap]
      simp [hs, hone, ht, hrem, hpos]
    · have hzero : k - ((n - 1) * eachSteps n k + lastSteps n k) = 0 := by
        rw [FiniteDecimal.isPositive_iff, hremValue] at hpos
        by_contra hne
        exact hpos (mul_pos (by exact_mod_cast Nat.pos_of_ne_zero hne) hstep.positive)
      rw [hlastValue]
      congr 2
      omega

/-! ## Equal legs -/

theorem eachSteps_le (hn : 0 < n) : eachSteps n k ≤ k / n := by
  refine (Nat.le_div_iff_mul_le hn).mpr (Nat.le_of_mul_le_mul_right ?_ (by norm_num : 0 < 10 ^ 12))
  obtain ⟨hunits, -, -⟩ := share_bounds hn
  have heach : eachSteps n k * 10 ^ 12 ≤ k * shareUnits n := Nat.div_mul_le_self _ _
  calc eachSteps n k * n * 10 ^ 12 = eachSteps n k * 10 ^ 12 * n := by ring
    _ ≤ k * shareUnits n * n := Nat.mul_le_mul_right _ heach
    _ = k * (shareUnits n * n) := mul_assoc _ _ _
    _ ≤ k * 10 ^ 12 := Nat.mul_le_mul_left _ hunits

/-- **A leg has its steps** exactly when what is cut from the shares, over all steps, is no more than the
steps that are left over. -/
theorem le_eachSteps_iff (hn : 0 < n) : k / n ≤ eachSteps n k ↔ k * (10 ^ 12 % n) ≤ k % n * 10 ^ 12 := by
  have hunits : shareUnits n * n + 10 ^ 12 % n = 10 ^ 12 := by
    rw [mul_comm]
    exact Nat.div_add_mod _ _
  have hsteps : k / n * n + k % n = k := by
    rw [mul_comm]
    exact Nat.div_add_mod _ _
  have hcut : k * (shareUnits n * n) + k * (10 ^ 12 % n) = k * 10 ^ 12 := by rw [← Nat.mul_add, hunits]
  have hleft : k / n * n * 10 ^ 12 + k % n * 10 ^ 12 = k * 10 ^ 12 := by rw [← Nat.add_mul, hsteps]
  calc k / n ≤ eachSteps n k
      ↔ k / n * 10 ^ 12 ≤ k * shareUnits n := Nat.le_div_iff_mul_le (by norm_num)
    _ ↔ k / n * 10 ^ 12 * n ≤ k * shareUnits n * n := (Nat.mul_le_mul_right_iff hn).symm
    _ ↔ k / n * n * 10 ^ 12 ≤ k * (shareUnits n * n) := by rw [mul_right_comm, mul_assoc k]
    _ ↔ _ := by omega

/-- `floor(Q / (n * step)) * step`. -/
def legShare (n : Nat) (total step : FiniteDecimal) : ℚ := ⌊total.value / (n * step.value)⌋ * step.value

theorem legShare_eq (hstep : Countable step k) (htotal : total.value = k * step.value) :
    legShare n total step = ((k / n : Nat) : ℚ) * step.value := by
  have hratio : total.value / (n * step.value) = (k : ℚ) / n := by
    rw [htotal, mul_div_mul_right _ _ hstep.positive.ne']
  rw [legShare, hratio, Rat.floor_natCast_div_natCast, ← Int.natCast_div, Int.cast_natCast]

/-- The take profits share equally: every one has its steps, and what is left over is on the last. -/
structure EqualTargets (n : Nat) (total step : FiniteDecimal) (targets : List FiniteDecimal) : Prop where
  length : targets.length = n
  share : ∀ t ∈ targets, legShare n total step ≤ t.value
  sum : (targets.map FiniteDecimal.value).sum = total.value
  spread : ∀ s ∈ targets, ∀ t ∈ targets, t.value - s.value < n * step.value
  excess : ∀ t ∈ targets.dropLast, t.value = legShare n total step

/-- A single-price entry leg with this share of the quantity gets its steps, in one order. -/
def EqualEntry (n : Nat) (total step fraction : FiniteDecimal) : Prop :=
  ∀ ladderSteps fuel, ∀ entry : Entry, entry.priceCount ladderSteps = 1 →
    ∃ q, legQuantities (fuel + 1) ladderSteps total step fraction entry = some [q] ∧
      legShare n total step ≤ q.value

variable {fraction : FiniteDecimal}

/-- **The quantity of a single-price leg** is its share of the total, cut to steps once more. -/
theorem legQuantities_value (hstep : Countable step k) (htotal : total.value = k * step.value)
    {u : Nat} (hfraction : fraction.value = u * 10 ^ ratioPlace) (hu : u ≤ 10 ^ 12)
    {ladderSteps : Int} {entry : Entry} (hcount : entry.priceCount ladderSteps = 1) (fuel : Nat) :
    ∃ q, legQuantities (fuel + 1) ladderSteps total step fraction entry = some [q] ∧
      q.value = ((k * u / 10 ^ 12 : Nat) : ℚ) * step.value := by
  have hrange : InRange 1 0 := by decide
  have hcountValue := count_value hrange
  obtain ⟨cut, leg, hcut, hleg, hlegValue⟩ := hstep.share_of_total htotal hfraction hu
  have hle : k * u / 10 ^ 12 ≤ k := by
    have := Nat.mul_le_mul_left k hu
    omega
  rw [Nat.cast_one] at hcountValue
  have hquot : leg.value / (⟨false, 1, 0, hrange⟩ : FiniteDecimal).value =
      ((k * u / 10 ^ 12 : Nat) : ℚ) * step.value := by rw [hcountValue, div_one, hlegValue]
  have hnonneg : 0 ≤ leg.value := by
    rw [hlegValue]
    exact mul_nonneg (Nat.cast_nonneg _) hstep.positive.le
  obtain ⟨ratio, hratio, hratioValue⟩ := div_exact hstep.context hnonneg
    (by rw [hcountValue]; exact zero_lt_one) (hquot ▸ hstep.steps_fit hle)
  obtain ⟨per, hper, hperValue⟩ := @Countable.floorStep_value step ratio k (k * u / 10 ^ 12 * 10 ^ 12) hstep
    (Nat.mul_le_mul_right _ hle) (by rw [hratioValue, hquot, ← Countable.steps_eq])
  rw [Nat.mul_div_cancel _ (by norm_num)] at hperValue
  have hprod : per.value * (⟨false, 1, 0, hrange⟩ : FiniteDecimal).value =
      ((k * u / 10 ^ 12 : Nat) : ℚ) * step.value := by rw [hcountValue, mul_one, hperValue]
  obtain ⟨prod, hprodEq, hprodValue⟩ := mul_exact hstep.context (hprod ▸ hstep.steps_fit hle)
  have hleft : leg.value - prod.value = ((0 : Nat) : ℚ) * step.value := by
    rw [hprodValue, hprod, hlegValue]
    simp
  obtain ⟨rem, hrem, hremValue⟩ := sub_exact hstep.context (hleft ▸ hstep.steps_fit (Nat.zero_le k))
  -- nothing is left to hand out
  have hnone : step.le rem = false := by
    rw [Bool.eq_false_iff, ne_eq, FiniteDecimal.le_iff, hremValue, hleft, Nat.cast_zero, zero_mul, not_le]
    exact hstep.positive
  refine ⟨per, ?_, hperValue⟩
  unfold legQuantities
  rw [hcount]
  simp [hcut, hleg, mk?_of_inRange hrange, hratio, hper, hprodEq, hrem, handOut, hnone]

theorem equalEntry_iff (hstep : Countable step k) (htotal : total.value = k * step.value) {u : Nat}
    (hfraction : fraction.value = u * 10 ^ ratioPlace) (hu : u ≤ 10 ^ 12) :
    EqualEntry n total step fraction ↔ k / n ≤ k * u / 10 ^ 12 := by
  have hscaled : ∀ q : FiniteDecimal, q.value = ((k * u / 10 ^ 12 : Nat) : ℚ) * step.value →
      (legShare n total step ≤ q.value ↔ k / n ≤ k * u / 10 ^ 12) := by
    intro q hq
    rw [legShare_eq hstep htotal, hq, mul_le_mul_iff_left₀ hstep.positive, Nat.cast_le]
  constructor
  · intro h
    let entry : Entry := ⟨.limit, .zero, .zero⟩
    obtain ⟨q, hq, hle⟩ := h 1 0 entry rfl
    obtain ⟨q', hq', hvalue⟩ :=
      legQuantities_value hstep htotal hfraction hu (rfl : entry.priceCount 1 = 1) 0
    rw [hq] at hq'
    cases hq'
    exact (hscaled q hvalue).mp hle
  · intro h ladderSteps fuel entry hcount
    obtain ⟨q, hq, hvalue⟩ := legQuantities_value hstep htotal hfraction hu hcount fuel
    exact ⟨q, hq, (hscaled q hvalue).mpr h⟩

/-- The last leg has its steps in any case. -/
theorem le_lastSteps (hn : 0 < n) : k / n ≤ lastSteps n k := by
  have hunits : n * shareUnits n + 10 ^ 12 % n = 10 ^ 12 := Nat.div_add_mod _ _
  have hsteps : k / n * n ≤ k := Nat.div_mul_le_self _ _
  refine (Nat.le_div_iff_mul_le (by norm_num)).mpr (Nat.le_of_mul_le_mul_right ?_ hn)
  have hrest : 10 ^ 12 % n ≤ n * (10 ^ 12 % n) := Nat.le_mul_of_pos_left _ hn
  calc k / n * 10 ^ 12 * n = k / n * n * 10 ^ 12 := mul_right_comm _ _ _
    _ ≤ k * 10 ^ 12 := Nat.mul_le_mul_right _ hsteps
    _ = k * (n * shareUnits n + 10 ^ 12 % n) := by rw [hunits]
    _ ≤ k * (n * shareUnits n + n * (10 ^ 12 % n)) := Nat.mul_le_mul_left _ (Nat.add_le_add_left hrest _)
    _ = k * (shareUnits n + 10 ^ 12 % n) * n := by ring

theorem equalTargets_iff (hn : 0 < n) (hstep : Countable step k) (htotal : total.value = k * step.value)
    {each last : FiniteDecimal} (heach : each.value = eachSteps n k * step.value)
    (hlast : last.value = ((k - (n - 1) * eachSteps n k : Nat) : ℚ) * step.value) :
    EqualTargets n total step (List.replicate (n - 1) each ++ [last]) ↔ k / n ≤ eachSteps n k ∨ n = 1 := by
  have hshare := @legShare_eq n k total step hstep htotal
  have hpos := hstep.positive
  have hmem : ∀ t ∈ List.replicate (n - 1) each ++ [last], t = each ∨ t = last := by
    intro t ht
    rcases List.mem_append.mp ht with ht | ht
    · exact .inl (List.eq_of_mem_replicate ht)
    · exact .inr (List.mem_singleton.mp ht)
  constructor
  · intro h
    by_cases hone : n = 1
    · exact .inr hone
    · left
      have hin : each ∈ List.replicate (n - 1) each ++ [last] :=
        List.mem_append_left _ (List.mem_replicate.mpr ⟨by omega, rfl⟩)
      have hle := h.share each hin
      rw [hshare, heach] at hle
      exact_mod_cast le_of_mul_le_mul_right hle hpos
  · intro hsteps
    have heq : n ≠ 1 → eachSteps n k = k / n := fun hne =>
      le_antisymm (eachSteps_le hn) (hsteps.resolve_right hne)
    have hused : (n - 1) * eachSteps n k ≤ k := (Nat.le_add_right _ _).trans (steps_le hn)
    have hfirst : (n - 1) * eachSteps n k = (n - 1) * (k / n) := by
      rcases eq_or_ne n 1 with rfl | hne
      · rw [Nat.sub_self, Nat.zero_mul, Nat.zero_mul]
      · rw [heq hne]
    -- the last level has the steps of the others and what is left over
    have hrest : k - (n - 1) * eachSteps n k = k / n + k % n := by
      have hsplit := Nat.div_add_mod k n
      obtain ⟨m, rfl⟩ := Nat.exists_eq_succ_of_ne_zero hn.ne'
      rw [hfirst, Nat.succ_sub_one]
      rw [Nat.succ_mul, add_assoc] at hsplit
      exact Nat.sub_eq_of_eq_add (by rw [add_comm, hsplit])
    have hmod := Nat.mod_lt k hn
    refine ⟨?_, ?_, ?_, ?_, ?_⟩
    · rw [List.length_append, List.length_replicate, List.length_singleton]
      omega
    · intro t ht
      rw [hshare]
      rcases List.mem_append.mp ht with ht | ht
      · have hne : n ≠ 1 := by
          have := (List.mem_replicate.mp ht).1
          omega
        rw [List.eq_of_mem_replicate ht, heach, heq hne]
      · rw [List.mem_singleton.mp ht, hlast, hrest]
        exact mul_le_mul_of_nonneg_right (by exact_mod_cast Nat.le_add_right _ _) hpos.le
    · rw [sum_legs, heach, hlast, htotal, Nat.cast_sub hused]
      push_cast
      ring
    · intro s hs t ht
      rcases eq_or_ne n 1 with rfl | hne
      · have hsingle : ∀ r ∈ List.replicate (1 - 1) each ++ [last], r = last := by simp
        rw [hsingle s hs, hsingle t ht, sub_self, Nat.cast_one, one_mul]
        exact hpos
      · rw [heq hne] at heach
        rw [hrest] at hlast
        have hspread : ((k % n : Nat) : ℚ) * step.value < n * step.value :=
          mul_lt_mul_of_pos_right (by exact_mod_cast hmod) hpos
        have hn0 : (0 : ℚ) < n * step.value := mul_pos (by exact_mod_cast hn) hpos
        have hk0 : (0 : ℚ) ≤ ((k % n : Nat) : ℚ) * step.value := mul_nonneg (Nat.cast_nonneg _) hpos.le
        push_cast at hlast
        rcases hmem s hs with rfl | rfl <;> rcases hmem t ht with rfl | rfl <;> linarith
    · intro t ht
      rw [List.dropLast_concat] at ht
      have hne : n ≠ 1 := by
        have := (List.mem_replicate.mp ht).1
        omega
      rw [List.eq_of_mem_replicate ht, heach, hshare, heq hne]

/-- **When an equal division is equal.** With `k` steps to share among `n` legs and the shares cut to 12 places,
every leg has its steps exactly when the steps that are left over outweigh what the cut took of all. -/
theorem equal_division_iff (hn : 0 < n) (h : InRange n 0) (hstep : Countable step k)
    (htotal : total.value = k * step.value) :
    ∃ fractions, equalSplit n one = some fractions ∧
      ((∃ targets, tpTargets total step fractions = some targets ∧ EqualTargets n total step targets) ↔
        k * (10 ^ 12 % n) ≤ k % n * 10 ^ 12) ∧
      ((∀ fraction ∈ fractions, EqualEntry n total step fraction) ↔ k * (10 ^ 12 % n) ≤ k % n * 10 ^ 12) := by
  obtain ⟨share, rest, hsplit, hshare, hrest⟩ := equalSplit_value hn h
  obtain ⟨each, last, htargets, heach, hlast⟩ := tpTargets_value hn hstep htotal hshare hrest
  obtain ⟨hunits, hlastUnits⟩ := units_le hn
  -- a single leg has all
  have hsingle : k / n ≤ eachSteps n k ∨ n = 1 ↔ k * (10 ^ 12 % n) ≤ k % n * 10 ^ 12 := by
    rw [le_eachSteps_iff hn, or_iff_left_iff_imp]
    rintro rfl
    rw [Nat.mod_one, Nat.mul_zero]
    exact Nat.zero_le _
  refine ⟨_, hsplit, ?_, ?_⟩
  · rw [← hsingle, ← equalTargets_iff hn hstep htotal heach hlast]
    constructor
    · rintro ⟨targets, heq, hequal⟩
      rw [htargets] at heq
      cases heq
      exact hequal
    · exact fun hequal => ⟨_, htargets, hequal⟩
  · rw [← hsingle]
    constructor
    · intro hall
      by_cases hone : n = 1
      · exact .inr hone
      · exact .inl ((equalEntry_iff hstep htotal hshare hunits).mp (hall share
          (List.mem_append_left _ (List.mem_replicate.mpr ⟨by omega, rfl⟩))))
    · intro hsteps fraction hfraction
      rcases List.mem_append.mp hfraction with hmem | hmem
      · have hne : n ≠ 1 := by
          have := (List.mem_replicate.mp hmem).1
          omega
        rw [List.eq_of_mem_replicate hmem, equalEntry_iff hstep htotal hshare hunits]
        exact hsteps.resolve_right hne
      · rw [List.mem_singleton.mp hmem, equalEntry_iff hstep htotal hrest hlastUnits]
        exact le_lastSteps hn

end

/-! ## Three legs -/

/-- Thousandths, as a step and as quantities of it. -/
def thousandths (k : Nat) (h : InRange k (-3) := by decide) : FiniteDecimal := ⟨false, k, -3, h⟩

theorem thousandths_countable : Countable (thousandths 1) 4 :=
  ⟨FiniteDecimal.isPositive_iff.mp rfl, ⟨by decide, by decide⟩, by decide⟩

theorem thousandths_value (k : Nat) (h : InRange k (-3)) :
    (thousandths k h).value = (k : ℚ) * (thousandths 1).value := by
  simp [thousandths, FiniteDecimal.value, FiniteDecimal.signed]

/-- Four steps are shared: one each, and two for the last. -/
theorem equal_division_iff_fourSteps : ∃ fractions, equalSplit 3 one = some fractions ∧
    (∃ targets, tpTargets (thousandths 4) (thousandths 1) fractions = some targets ∧
      EqualTargets 3 (thousandths 4) (thousandths 1) targets) ∧
    ∀ fraction ∈ fractions, EqualEntry 3 (thousandths 4) (thousandths 1) fraction := by
  obtain ⟨fractions, hsplit, htargets, hentries⟩ := @equal_division_iff 3 4 (thousandths 4) (thousandths 1)
    (by decide) (by decide) thousandths_countable (thousandths_value 4 _)
  exact ⟨fractions, hsplit, htargets.mpr (by decide), hentries.mpr (by decide)⟩

/-- Three steps are not: the last leg gets all of them, or only its own while the others get none. -/
theorem three_steps_unequal : ∃ fractions, equalSplit 3 one = some fractions ∧
    (∃ targets, tpTargets (thousandths 3) (thousandths 1) fractions = some targets ∧
      targets = [thousandths 0, thousandths 0, thousandths 3] ∧
      ¬ EqualTargets 3 (thousandths 3) (thousandths 1) targets) ∧
    ∃ fraction ∈ fractions, ¬ EqualEntry 3 (thousandths 3) (thousandths 1) fraction := by
  have hcountable := thousandths_countable.mono (by decide : 3 ≤ 4)
  have hshare : legShare 3 (thousandths 3) (thousandths 1) = ((3 / 3 : Nat) : ℚ) * (thousandths 1).value :=
    legShare_eq hcountable (thousandths_value 3 _)
  have hpos := hcountable.positive
  have hzero : (thousandths 0).value = 0 := by simp [thousandths, FiniteDecimal.value, FiniteDecimal.signed]
  have hlack : ¬ legShare 3 (thousandths 3) (thousandths 1) ≤ (thousandths 0).value := by
    rw [hshare, hzero, not_le]
    exact mul_pos (by norm_num) hpos
  refine ⟨[⟨false, 333333333333, -12, by decide⟩, ⟨false, 333333333333, -12, by decide⟩,
    ⟨false, 333333333334, -12, by decide⟩], by decide +kernel, ⟨_, by decide +kernel, rfl, ?_⟩,
    ⟨_, List.mem_cons_self, ?_⟩⟩
  · exact fun hequal => hlack (hequal.share _ List.mem_cons_self)
  · intro hequal
    obtain ⟨q, hq, hle⟩ := hequal 1 0 ⟨.limit, .zero, .zero⟩ rfl
    have hq' : legQuantities 1 1 (thousandths 3) (thousandths 1) ⟨false, 333333333333, -12, by decide⟩
      ⟨.limit, .zero, .zero⟩ = some [thousandths 0] := by decide +kernel
    rw [hq'] at hq
    cases hq
    exact hlack hle

end TraderBot.Market
