import TraderBot.EntryBatch.Fills
import TraderBot.Lib.Increments
import TraderBot.Lib.Returns

/-! # The two entries of a batch

`build_entry_batch` cuts a total notional into two legs of equal notional, and
`batch_reference_price` is the one price that the batch is approved at: the loss of both
legs at the stop, before their quantities are rounded, is the loss of the total
notional from that price (`reference_loss`). The arithmetic is exact here. -/
namespace TraderBot.EntryBatch
open TraderBot.Lib

/-! ## The batch -/

/-- A leg, with the quantity its text gives. `price` is the float of the sizing price. -/
structure Leg (F : Type) where
  seq : Nat
  trancheId : String
  type : String
  quantity : ℚ
  sizingPrice : Amount
  price : F

structure Batch (F : Type) where
  version : String := "1"
  allocation : String := "equal_notional"
  tranches : List (Leg F)
  estimatedStopRisk : ℚ

/-- `Decimal('0.000000000001')`. -/
def quantityStep : ℚ := 1 / 10 ^ 12

section
variable (unicode : Text.Unicode)

def batchReferencePrice (first second stop side : String) : Except FillError ℚ := do
  let first := (← positive unicode first).value
  let second := (← positive unicode second).value
  let stop := (← positive unicode stop).value
  if side ≠ "long" ∧ side ≠ "short" then .error (.invalid "entry batch side must be long or short")
  else if side = "long" ∧ min first second ≤ stop then .error (.invalid "long stop must be below both entries")
  else if side = "short" ∧ stop ≤ max first second then .error (.invalid "short stop must be above both entries")
  else return 2 / (1 / first + 1 / second)

variable {F : Type} (float : FiniteDecimal → F)

/-- One turn of the loop over the prices. -/
def buildLeg (perLeg : ℚ) (index : Nat) (kind : String) (price : FiniteDecimal) :
    Except FillError (Leg F) :=
  let quantity := floorTo quantityStep (perLeg / price.value)
  if quantity ≤ 0 then .error (.invalid "entry batch quantity rounded to zero")
  else .ok {
    seq := index + 1
    trancheId := "e" ++ toString (index + 1)
    type := kind
    quantity
    sizingPrice := .format price
    price := float price }

/-- What the legs lose at the stop. A leg's quantity and sizing price are positive, so
that reading them again raises nothing. -/
def stopRisk (legs : List (Leg F)) (stop : ℚ) : ℚ :=
  (legs.map fun leg => leg.quantity * |leg.sizingPrice.number.value - stop|).sum

def buildEntryBatch (firstType first second totalNotional stop : String) : Except FillError (Batch F) := do
  if firstType ≠ "market" ∧ firstType ≠ "limit" then
    .error (.invalid "batch first entry must be market or limit")
  else
    let first ← positive unicode first
    let second ← positive unicode second
    let perLeg := (← positive unicode totalNotional).value / 2
    let leg ← buildLeg float perLeg 0 firstType first
    let other ← buildLeg float perLeg 1 "limit" second
    let stop ← positive unicode stop
    return { tranches := [leg, other], estimatedStopRisk := stopRisk [leg, other] stop.value }

end

/-! ## The reference price -/

section
variable {unicode : Text.Unicode} {F : Type} {float : FiniteDecimal → F}
variable {first second stop side firstType totalNotional : String} {ref : ℚ}

/-- A reference price is asked for a stop beyond both entries. -/
theorem batchReferencePrice_ok (h : batchReferencePrice unicode first second stop side = .ok ref) :
    ∃ p q s, positive unicode first = .ok p ∧ positive unicode second = .ok q ∧
      positive unicode stop = .ok s ∧
      ref = 2 / (1 / p.value + 1 / q.value) ∧
      ((s.value < p.value ∧ s.value < q.value) ∨ (p.value < s.value ∧ q.value < s.value)) := by
  obtain ⟨p, hp, h⟩ := bind_ok h
  obtain ⟨q, hq, h⟩ := bind_ok h
  obtain ⟨s, hs, h⟩ := bind_ok h
  dsimp only at h
  split_ifs at h with hside hlong hshort
  refine ⟨p, q, s, hp, hq, hs, (Except.ok.inj h).symm, ?_⟩
  by_cases hwhich : side = "long"
  · have hbelow : s.value < min p.value q.value := not_le.mp fun hle => hlong ⟨hwhich, hle⟩
    exact .inl (lt_min_iff.mp hbelow)
  · have hwhich' : side = "short" := by
      by_contra hother
      exact hside ⟨hwhich, hother⟩
    have habove : max p.value q.value < s.value := not_le.mp fun hle => hshort ⟨hwhich', hle⟩
    exact .inr (max_lt_iff.mp habove)

/-- **The loss at the stop of two legs of equal notional** is the loss of the whole notional from
the reference price, on either side of the market. -/
theorem reference_loss {p q s notional : ℚ} (hp : 0 < p) (hq : 0 < q)
    (hstop : (s < p ∧ s < q) ∨ (p < s ∧ q < s)) :
    notional / 2 / p * |p - s| + notional / 2 / q * |q - s| =
      notional * |2 / (1 / p + 1 / q) - s| / (2 / (1 / p + 1 / q)) := by
  have hsum : 0 < 1 / p + 1 / q := by positivity
  rcases hstop with ⟨hsp, hsq⟩ | ⟨hps, hqs⟩
  · have hbelow : s < 2 / (1 / p + 1 / q) := by
      rw [lt_div_iff₀ hsum, mul_add, mul_one_div, mul_one_div]
      have h1 : s / p < 1 := (div_lt_one hp).mpr hsp
      have h2 : s / q < 1 := (div_lt_one hq).mpr hsq
      linarith
    rw [abs_of_pos (sub_pos.mpr hsp), abs_of_pos (sub_pos.mpr hsq), abs_of_pos (sub_pos.mpr hbelow)]
    field_simp
    ring
  · have habove : 2 / (1 / p + 1 / q) < s := by
      rw [div_lt_iff₀ hsum, mul_add, mul_one_div, mul_one_div]
      have h1 : 1 < s / p := (one_lt_div hp).mpr hps
      have h2 : 1 < s / q := (one_lt_div hq).mpr hqs
      linarith
    rw [abs_of_neg (sub_neg.mpr hps), abs_of_neg (sub_neg.mpr hqs), abs_of_neg (sub_neg.mpr habove)]
    field_simp
    ring

/-! ## The legs -/

theorem quantityStep_pos : 0 < quantityStep := by norm_num [quantityStep]

variable {perLeg : ℚ} {index : Nat} {kind : String} {price : FiniteDecimal} {leg : Leg F}

theorem buildLeg_ok (h : buildLeg float perLeg index kind price = .ok leg) :
    leg.sizingPrice.number.value = price.value ∧ leg.quantity ≤ perLeg / price.value ∧
      perLeg / price.value < leg.quantity + quantityStep := by
  unfold buildLeg at h
  dsimp only at h
  split_ifs at h
  cases h
  exact ⟨format_value price, floorTo_le quantityStep_pos, lt_floorTo_add quantityStep_pos⟩

/-- A leg has the notional it was cut for, up to one step of its quantity. -/
theorem buildLeg_notional (h : buildLeg float perLeg index kind price = .ok leg)
    (hprice : 0 < price.value) :
    perLeg - quantityStep * leg.sizingPrice.number.value < leg.quantity * leg.sizingPrice.number.value ∧
      leg.quantity * leg.sizingPrice.number.value ≤ perLeg := by
  obtain ⟨hsame, hbelow, habove⟩ := buildLeg_ok h
  rw [hsame, sub_lt_iff_lt_add, ← add_mul]
  exact ⟨(div_lt_iff₀ hprice).mp habove, (le_div_iff₀ hprice).mp hbelow⟩

theorem buildEntryBatch_ok {batch : Batch F}
    (h : buildEntryBatch unicode float firstType first second totalNotional stop = .ok batch) :
    ∃ p q n s leg other, positive unicode first = .ok p ∧ positive unicode second = .ok q ∧
      positive unicode totalNotional = .ok n ∧ positive unicode stop = .ok s ∧
      buildLeg float (n.value / 2) 0 firstType p = .ok leg ∧
        buildLeg float (n.value / 2) 1 "limit" q = .ok other ∧
      batch = { tranches := [leg, other], estimatedStopRisk := stopRisk [leg, other] s.value } := by
  unfold buildEntryBatch at h
  split_ifs at h
  obtain ⟨p, hp, h⟩ := bind_ok h
  obtain ⟨q, hq, h⟩ := bind_ok h
  obtain ⟨n, hn, h⟩ := bind_ok h
  obtain ⟨leg, hleg, h⟩ := bind_ok h
  obtain ⟨other, hother, h⟩ := bind_ok h
  obtain ⟨s, hs, h⟩ := bind_ok h
  exact ⟨p, q, n, s, leg, other, hp, hq, hn, hs, hleg, hother, (Except.ok.inj h).symm⟩

/-- **A batch is priced by its reference price**: the notional of each leg is half the total, up to one
step of its quantity, and the loss of both legs at the stop is that of the total notional
from the reference price, less than a step of each leg below it. -/
theorem batch_priced_by_reference {batch : Batch F}
    (href : batchReferencePrice unicode first second stop side = .ok ref)
    (hbatch : buildEntryBatch unicode float firstType first second totalNotional stop = .ok batch) :
    ∃ p q n s, positive unicode first = .ok p ∧ positive unicode second = .ok q ∧
      positive unicode totalNotional = .ok n ∧ positive unicode stop = .ok s ∧
      batch.tranches.map (fun leg => leg.sizingPrice.number.value) = [p.value, q.value] ∧
      (∀ leg ∈ batch.tranches,
        n.value / 2 - 1 / 10 ^ 12 * leg.sizingPrice.number.value < leg.quantity * leg.sizingPrice.number.value ∧
          leg.quantity * leg.sizingPrice.number.value ≤ n.value / 2) ∧
      batch.estimatedStopRisk ≤ n.value * |ref - s.value| / ref ∧
      n.value * |ref - s.value| / ref - batch.estimatedStopRisk <
        1 / 10 ^ 12 * (|p.value - s.value| + |q.value - s.value|) := by
  obtain ⟨p, q, n, s, leg, other, hp, hq, hn, hs, hleg, hother, rfl⟩ := buildEntryBatch_ok hbatch
  obtain ⟨p', q', s', hp', hq', hs', rfl, hstop⟩ := batchReferencePrice_ok href
  cases hp.symm.trans hp'
  cases hq.symm.trans hq'
  cases hs.symm.trans hs'
  have hppos := (positive_pos hp).2
  have hqpos := (positive_pos hq).2
  obtain ⟨hprice, hbelow, habove⟩ := buildLeg_ok hleg
  obtain ⟨hprice', hbelow', habove'⟩ := buildLeg_ok hother
  have hrisk : stopRisk [leg, other] s.value =
      leg.quantity * |p.value - s.value| + other.quantity * |q.value - s.value| := by
    simp only [stopRisk, List.map_cons, List.map_nil, List.sum_cons, List.sum_nil, add_zero, hprice, hprice']
  have hfar : 0 < |p.value - s.value| := by
    rw [abs_pos, sub_ne_zero]
    rcases hstop with h | h
    · exact h.1.ne'
    · exact h.1.ne
  have hfar' : 0 < |q.value - s.value| := by
    rw [abs_pos, sub_ne_zero]
    rcases hstop with h | h
    · exact h.2.ne'
    · exact h.2.ne
  have hloss := @reference_loss _ _ _ n.value hppos hqpos hstop
  refine ⟨p, q, n, s, hp, hq, hn, hs, congrArg₂ (fun x y => [x, y]) hprice hprice', ?_, ?_, ?_⟩
  · intro l hl
    rcases List.mem_pair.mp hl with rfl | rfl
    · exact buildLeg_notional hleg hppos
    · exact buildLeg_notional hother hqpos
  · show stopRisk [leg, other] s.value ≤ _
    rw [hrisk, ← hloss]
    exact add_le_add (mul_le_mul_of_nonneg_right hbelow hfar.le) (mul_le_mul_of_nonneg_right hbelow' hfar'.le)
  · show _ - stopRisk [leg, other] s.value < _
    have h1 := mul_lt_mul_of_pos_right habove hfar
    have h2 := mul_lt_mul_of_pos_right habove' hfar'
    rw [add_mul] at h1 h2
    rw [hrisk, ← hloss, mul_add, show (1 / 10 ^ 12 : ℚ) = quantityStep from rfl]
    linarith

/-- Two limit orders at 100 and 80 with the stop at 60. -/
theorem limits_priced_by_reference : ∃ (ref : ℚ) (batch : Batch FiniteDecimal),
    batchReferencePrice Text.Unicode.ascii "100" "80" "60" "long" = .ok ref ∧
      buildEntryBatch Text.Unicode.ascii id "limit" "100" "80" "1000" "60" = .ok batch ∧
      ∃ n s, positive Text.Unicode.ascii "1000" = .ok n ∧ positive Text.Unicode.ascii "60" = .ok s ∧
        batch.estimatedStopRisk ≤ n.value * |ref - s.value| / ref := by
  obtain ⟨ref, href⟩ : ∃ ref, batchReferencePrice Text.Unicode.ascii "100" "80" "60" "long" = .ok ref :=
    ok_of_toBool (by decide +kernel)
  obtain ⟨batch, hbatch⟩ :
      ∃ batch, buildEntryBatch Text.Unicode.ascii id "limit" "100" "80" "1000" "60" = .ok batch :=
    ok_of_toBool (by decide +kernel)
  obtain ⟨-, -, n, s, -, -, hn, hs, -, -, hrisk, -⟩ := batch_priced_by_reference href hbatch
  exact ⟨ref, batch, href, hbatch, n, s, hn, hs, hrisk⟩

end
end TraderBot.EntryBatch
