import TraderBot.Lib.DecimalValue
import TraderBot.Lib.Tally
import TraderBot.Orders.Calls

/-! # Reduced fills as a tally

The loop of `_fill_payload` adds decimals of 28 digits. As long as its sums fit
it keeps the tally of what the rows report: a cumulative quantity is an anchor,
any other row adds its `last_qty` (`foldlM_shows`). The prices beside it never
overflow while they stay below a power of ten (`price_ok`). -/
namespace TraderBot.Orders
open TraderBot.Lib TraderBot.Lib.Text TraderBot.Lib.Decimal

/-- A quantity of a row, zero where it has none. -/
def amount (d : Option FiniteDecimal) : ℚ :=
  match d with
  | some d => max 0 d.value
  | none => 0

theorem amount_nonneg (d : Option FiniteDecimal) : 0 ≤ amount d := by
  cases d with
  | none => exact le_rfl
  | some d => exact le_max_left _ _

/-- What a row reports. -/
def reportOf (row : ExecutionEvent) (n : FillNumbers) : Report Nat FillIdentity ℚ where
  time := row.tsEvent
  identity := fillIdentity row
  anchor := amount n.cumulative
  delta := if 0 < amount n.cumulative then 0 else amount n.delta
  anchor_nonneg := amount_nonneg _
  delta_nonneg := by
    split_ifs
    · exact le_rfl
    · exact amount_nonneg _

/-- The numbers of a row, none where they cannot be read. -/
def rowNumbers (unicode : Unicode) (row : ExecutionEvent) : FillNumbers :=
  match fillNumbers unicode row with
  | .ok n => n
  | .error _ => ⟨none, none, none, none⟩

def fillReport (unicode : Unicode) (row : ExecutionEvent) : Report Nat FillIdentity ℚ :=
  reportOf row (rowNumbers unicode row)

variable {unicode : Unicode} {row : ExecutionEvent} {n : FillNumbers} {t : Tally Nat FillIdentity ℚ}
  {e : Int} {rows : List ExecutionEvent}

theorem rowNumbers_eq (h : fillNumbers unicode row = .ok n) : rowNumbers unicode row = n := by
  rw [rowNumbers, h]

theorem fillNumber_nonneg {v : Option Json.Value} {d : FiniteDecimal}
    (h : fillNumber unicode v = .ok (some d)) : 0 ≤ d.value := by
  unfold fillNumber at h
  split at h
  · cases h
  · split_ifs at h with hneg
    cases h
    exact FiniteDecimal.nonneg_iff.mp (by simpa using hneg)
  · cases h

/-- The numbers of a row that is read are not negative. -/
theorem fillNumbers_nonneg (h : fillNumbers unicode row = .ok n) :
    (∀ d, n.cumulative = some d → 0 ≤ d.value) ∧ (∀ d, n.delta = some d → 0 ≤ d.value) ∧
      ∀ d, n.price = some d → 0 ≤ d.value := by
  unfold fillNumbers at h
  obtain ⟨cumulative, hc, h⟩ := bind_ok h
  obtain ⟨delta, hd, h⟩ := bind_ok h
  obtain ⟨price, hp, h⟩ := bind_ok h
  cases pure_ok h
  refine ⟨?_, ?_, ?_⟩
  · rintro d rfl
    exact fillNumber_nonneg hc
  · rintro d rfl
    exact fillNumber_nonneg hd
  · rintro d rfl
    exact fillNumber_nonneg hp

/-! ## One row -/

/-- The accumulators of the loop keep a tally. -/
structure Shows (s : FillState) (t : Tally Nat FillIdentity ℚ) : Prop where
  total : s.total.value = t.total
  anchor : s.anchor.value = t.anchor
  seen : s.seen.toFinset = t.seen
  time : s.groupTime = t.time

theorem Shows.enter {s : FillState} (h : Shows s t) (ts : Nat) :
    Shows (s.enter ts) (t.enter ts) := by
  unfold FillState.enter Tally.enter
  rw [← h.time]
  split_ifs
  · exact h
  · refine ⟨?_, FiniteDecimal.zero_value, h.seen, rfl⟩
    show (s.total.max s.anchor).value = max t.total t.anchor
    rw [FiniteDecimal.max_value, h.total, h.anchor]

section
variable {s : FillState} {n : FillNumbers} {duplicate : Bool} {e : Int}

/-- What a row adds to the total. -/
def countedDelta (n : FillNumbers) (duplicate : Bool) : ℚ :=
  if duplicate then 0 else if 0 < amount n.cumulative then 0 else amount n.delta

theorem amount_of_nonneg {d : FiniteDecimal} (h : 0 ≤ d.value) : amount (some d) = d.value :=
  max_eq_right h

/-- A row without a positive cumulative quantity adds its delta, once. -/
theorem countDelta_ok (he : InContext e) (hn : ∀ d, n.delta = some d → 0 ≤ d.value)
    (hfits : Fits e (s.total.value + if duplicate then 0 else amount n.delta)) :
    ∃ total, FillState.count.countDelta n duplicate s = .ok { s with total } ∧
      total.value = s.total.value + if duplicate then 0 else amount n.delta := by
  cases duplicate with
  | true => exact ⟨s.total, rfl, by simp⟩
  | false =>
    cases hd : n.delta with
    | none =>
      refine ⟨s.total, ?_, by simp [amount]⟩
      unfold FillState.count.countDelta
      rw [hd]
      rfl
    | some d =>
      rw [hd, amount_of_nonneg (hn d hd)] at hfits
      obtain ⟨total, hadd, hvalue⟩ := add_exact he hfits
      refine ⟨total, ?_, ?_⟩
      · unfold FillState.count.countDelta
        rw [hd]
        show (sum s.total d >>= fun total => pure { s with total }) = _
        rw [sum, hadd]
        rfl
      · rw [hvalue, amount_of_nonneg (hn d hd)]
        rfl

/-- Counting a row whose sum fits. -/
theorem count_ok (he : InContext e) (hs : 0 ≤ s.anchor.value)
    (hc : ∀ d, n.cumulative = some d → 0 ≤ d.value) (hn : ∀ d, n.delta = some d → 0 ≤ d.value)
    (hfits : Fits e (s.total.value + countedDelta n duplicate)) :
    ∃ total anchor averages, s.count n duplicate = .ok { s with total, anchor, averages } ∧
      total.value = s.total.value + countedDelta n duplicate ∧
      anchor.value = max s.anchor.value (amount n.cumulative) := by
  -- without a positive cumulative quantity the delta counts and the anchor stays
  have hplain : amount n.cumulative = 0 → s.count n duplicate = FillState.count.countDelta n duplicate s →
      ∃ total anchor averages, s.count n duplicate = .ok { s with total, anchor, averages } ∧
        total.value = s.total.value + countedDelta n duplicate ∧
        anchor.value = max s.anchor.value (amount n.cumulative) := by
    intro hzero heq
    have hdelta : countedDelta n duplicate = if duplicate then 0 else amount n.delta := by
      simp [countedDelta, hzero]
    rw [hdelta] at hfits ⊢
    obtain ⟨total, hok, hvalue⟩ := countDelta_ok he hn hfits
    exact ⟨total, s.anchor, s.averages, heq.trans hok, hvalue, by rw [hzero, max_eq_left hs]⟩
  cases hcum : n.cumulative with
  | none =>
    rw [hcum] at hplain
    exact hplain rfl (by unfold FillState.count; rw [hcum])
  | some c =>
    have hc0 := hc c hcum
    by_cases hpos : c.isPositive = true
    · have hamount : amount n.cumulative = c.value := by rw [hcum, amount_of_nonneg hc0]
      have hdelta : countedDelta n duplicate = 0 := by
        simp [countedDelta, hamount, FiniteDecimal.isPositive_iff.mp hpos]
      have hok : ∃ averages, s.count n duplicate =
          .ok { s with anchor := s.anchor.max c, averages } := by
        unfold FillState.count
        rw [hcum]
        dsimp only
        rw [if_pos hpos]
        exact ⟨_, rfl⟩
      obtain ⟨averages, hok⟩ := hok
      refine ⟨s.total, s.anchor.max c, averages, hok, by rw [hdelta, add_zero], ?_⟩
      rw [FiniteDecimal.max_value, amount_of_nonneg hc0]
    · have hzero : amount n.cumulative = 0 := by
        rw [hcum, amount_of_nonneg hc0]
        exact le_antisymm (not_lt.mp (mt FiniteDecimal.isPositive_iff.mpr hpos)) hc0
      rw [← hcum]
      refine hplain hzero ?_
      unfold FillState.count
      rw [hcum]
      dsimp only
      rw [if_neg hpos]

/-- The prices leave the tally alone. -/
theorem price_keeps {s' : FillState} (h : s.price n duplicate = .ok s') :
    s'.total = s.total ∧ s'.anchor = s.anchor ∧ s'.seen = s.seen ∧ s'.groupTime = s.groupTime := by
  unfold FillState.price at h
  split at h
  · obtain ⟨deltaTotal, -, h⟩ := bind_ok h
    split at h
    · obtain ⟨pricedTotal, -, h⟩ := bind_ok h
      obtain ⟨value, -, h⟩ := bind_ok h
      obtain ⟨valueTotal, -, h⟩ := bind_ok h
      cases pure_ok h
      exact ⟨rfl, rfl, rfl, rfl⟩
    · cases pure_ok h
      exact ⟨rfl, rfl, rfl, rfl⟩
  · cases pure_ok h
    exact ⟨rfl, rfl, rfl, rfl⟩

end

/-- A tally in whole units. -/
structure InUnits (e : Int) (t : Tally Nat FillIdentity ℚ) : Prop where
  total : Whole e t.total
  anchor : Whole e t.anchor

/-- A report in whole units. -/
def ReportInUnits (e : Int) (r : Report Nat FillIdentity ℚ) : Prop := Whole e r.anchor ∧ Whole e r.delta

theorem InUnits.start (e : Int) : InUnits e {} := ⟨Whole.zero e, Whole.zero e⟩

theorem InUnits.enter (h : InUnits e t) (ts : Nat) : InUnits e (t.enter ts) := by
  unfold Tally.enter
  split_ifs
  · exact h
  · exact ⟨h.total.max h.anchor, Whole.zero e⟩

theorem InUnits.step {r : Report Nat FillIdentity ℚ} (h : InUnits e t) (hr : ReportInUnits e r) :
    InUnits e (t.step r) := by
  have hent := h.enter r.time
  refine ⟨?_, ?_⟩
  · rw [Tally.step_total]
    split_ifs
    · rw [add_zero]; exact hent.total
    · exact hent.total.add hr.2
  · rw [Tally.step_anchor]
    exact hent.anchor.max hr.1

section Row
variable {unicode : Unicode} {s s' : FillState} {t : Tally Nat FillIdentity ℚ} {row : ExecutionEvent}
  {n : FillNumbers} {e : Int}

/-- The state a row is counted in: its time entered, its identity marked. -/
def FillState.marked (s : FillState) (row : ExecutionEvent) : FillState :=
  if (s.enter row.tsEvent).seen.contains (fillIdentity row) then s.enter row.tsEvent
  else { s.enter row.tsEvent with seen := fillIdentity row :: (s.enter row.tsEvent).seen }

theorem fillStep_eq (hn : fillNumbers unicode row = .ok n) :
    fillStep unicode s row =
      (s.marked row).count n ((s.enter row.tsEvent).seen.contains (fillIdentity row)) >>= fun s₁ =>
        s₁.price n ((s.enter row.tsEvent).seen.contains (fillIdentity row)) := by
  unfold fillStep
  rw [hn]
  rfl

theorem FillState.enter_keeps (s : FillState) (ts : Nat) :
    (s.enter ts).seen = s.seen ∧ (s.enter ts).deltaTotal = s.deltaTotal ∧
      (s.enter ts).pricedTotal = s.pricedTotal ∧ (s.enter ts).valueTotal = s.valueTotal := by
  unfold FillState.enter
  split_ifs <;> exact ⟨rfl, rfl, rfl, rfl⟩

theorem FillState.marked_keeps (s : FillState) (row : ExecutionEvent) :
    (s.marked row).total = (s.enter row.tsEvent).total ∧
      (s.marked row).anchor = (s.enter row.tsEvent).anchor ∧
      (s.marked row).groupTime = (s.enter row.tsEvent).groupTime ∧
      (s.marked row).deltaTotal = s.deltaTotal ∧ (s.marked row).pricedTotal = s.pricedTotal ∧
      (s.marked row).valueTotal = s.valueTotal := by
  obtain ⟨-, h1, h2, h3⟩ := s.enter_keeps row.tsEvent
  unfold FillState.marked
  split_ifs <;> exact ⟨rfl, rfl, rfl, h1, h2, h3⟩

theorem Shows.contains (hs : Shows s t) (row : ExecutionEvent) :
    (s.enter row.tsEvent).seen.contains (fillIdentity row) = decide (fillIdentity row ∈ t.seen) := by
  rw [(s.enter_keeps row.tsEvent).1, ← hs.seen]
  simp

theorem Shows.marked (hs : Shows s t) (row : ExecutionEvent) :
    (s.marked row).seen.toFinset = insert (fillIdentity row) t.seen := by
  have hseen := (s.enter_keeps row.tsEvent).1
  unfold FillState.marked
  split_ifs with hmem
  · rw [hs.contains] at hmem
    rw [hseen, hs.seen, Finset.insert_eq_of_mem (by simpa using hmem)]
  · rw [List.toFinset_cons, hseen, hs.seen]

/-- One turn of the loop whose sum fits: the row is counted, then priced. -/
theorem fillStep_count (he : InContext e) (hs : Shows s t) (hu : InUnits e t)
    (hn : fillNumbers unicode row = .ok n) (hr : ReportInUnits e (fillReport unicode row))
    (hlt : (t.step (fillReport unicode row)).total < limit e) :
    ∃ s₁, fillStep unicode s row = s₁.price n (decide (fillIdentity row ∈ t.seen)) ∧
      Shows s₁ (t.step (fillReport unicode row)) ∧ s₁.deltaTotal = s.deltaTotal ∧
      s₁.pricedTotal = s.pricedTotal ∧ s₁.valueTotal = s.valueTotal := by
  have hreport : fillReport unicode row = reportOf row n := by rw [fillReport, rowNumbers_eq hn]
  rw [hreport] at hlt hr ⊢
  obtain ⟨hc, hd, -⟩ := fillNumbers_nonneg hn
  have hent := hs.enter row.tsEvent
  have hunits := (hu.step hr).total
  obtain ⟨hmt, hma, hmg, hmd, hmp, hmv⟩ := s.marked_keeps row
  have hcounted : (t.step (reportOf row n)).total =
      (s.marked row).total.value + countedDelta n (decide (fillIdentity row ∈ t.seen)) := by
    rw [Tally.step_total, hmt, hent.total]
    simp only [countedDelta, decide_eq_true_eq]
    rfl
  rw [hcounted] at hlt hunits
  have hanchor : 0 ≤ (s.marked row).anchor.value := by
    rw [hma, hent.anchor]
    exact (hu.enter row.tsEvent).anchor.nonneg
  obtain ⟨total, anchor, averages, hok, htotal, hanchor'⟩ :=
    count_ok he hanchor hc hd (hunits.fits hlt)
  refine ⟨{ s.marked row with total, anchor, averages }, ?_, ⟨?_, ?_, ?_, ?_⟩, hmd, hmp, hmv⟩
  · rw [fillStep_eq hn, hs.contains, hok]
    rfl
  · exact htotal.trans hcounted.symm
  · rw [Tally.step_anchor, hanchor', hma, hent.anchor]
    rfl
  · rw [Tally.step_seen]
    exact hs.marked row
  · rw [Tally.step_time, hmg, hent.time]
    unfold Tally.enter
    split_ifs with h
    · exact h.symm
    · rfl

/-- A turn that returns keeps the tally. -/
theorem fillStep_shows (he : InContext e) (hs : Shows s t) (hu : InUnits e t)
    (hr : ReportInUnits e (fillReport unicode row))
    (hlt : (t.step (fillReport unicode row)).total < limit e)
    (h : fillStep unicode s row = .ok s') : Shows s' (t.step (fillReport unicode row)) := by
  have hn : ∃ n, fillNumbers unicode row = .ok n := by
    unfold fillStep at h
    obtain ⟨n, hn, -⟩ := bind_ok h
    exact ⟨n, hn⟩
  obtain ⟨n, hn⟩ := hn
  obtain ⟨s₁, hstep, hshows, -⟩ := fillStep_count he hs hu hn hr hlt
  rw [hstep] at h
  obtain ⟨h1, h2, h3, h4⟩ := price_keeps h
  exact ⟨by rw [h1]; exact hshows.total, by rw [h2]; exact hshows.anchor,
    by rw [h3]; exact hshows.seen, by rw [h4]; exact hshows.time⟩

end Row

/-! ## Prices -/

/-- Places and a bound on prices between which nothing overflows. -/
structure PricesFit (e m : Int) : Prop where
  quantities : InContext e
  values : InContext (e + m)
  low : etiny ≤ m
  high : m < emax

/-- The priced part of the deltas is worth no more than the bound allows. -/
structure Priced (e m : Int) (s : FillState) : Prop where
  delta : Whole e s.deltaTotal.value
  priced : Whole e s.pricedTotal.value
  le : s.pricedTotal.value ≤ s.deltaTotal.value
  nonneg : 0 ≤ s.valueTotal.value
  bounded : s.valueTotal.value ≤ s.pricedTotal.value * 10 ^ m

theorem Priced.start (e m : Int) : Priced e m {} := by
  refine ⟨?_, ?_, ?_, ?_, ?_⟩
  · rw [FiniteDecimal.zero_value]; exact Whole.zero e
  · rw [FiniteDecimal.zero_value]; exact Whole.zero e
  · exact le_rfl
  · rw [FiniteDecimal.zero_value]
  · simp

theorem PricesFit.writable {m : Int} (h : PricesFit e m) {x : ℚ} (hx : Whole e x)
    (hlt : x < limit e) : Writable (x * 10 ^ m) := by
  obtain ⟨k, rfl⟩ := hx
  rw [mul_assoc, ← zpow_add₀ (by norm_num)]
  exact h.values.writable (Whole.lt_limit_iff.mp hlt)

section Price
variable {s : FillState} {n : FillNumbers} {duplicate : Bool} {e m : Int}

/-- Pricing a row whose delta fits and whose price is within the bound. -/
theorem price_ok (hp : PricesFit e m) (hs : Priced e m s) (hn : ∀ d, n.delta = some d → 0 ≤ d.value)
    (hw : Whole e (amount n.delta)) (hprice : ∀ p, n.price = some p → 0 ≤ p.value ∧ p.value ≤ 10 ^ m)
    (hlt : s.deltaTotal.value + (if duplicate then 0 else amount n.delta) < limit e) :
    ∃ s', s.price n duplicate = .ok s' ∧ Priced e m s' ∧
      s'.deltaTotal.value = s.deltaTotal.value + if duplicate then 0 else amount n.delta := by
  have hsame : s.price n duplicate = .ok s → (if duplicate then 0 else amount n.delta) = 0 →
      ∃ s', s.price n duplicate = .ok s' ∧ Priced e m s' ∧
        s'.deltaTotal.value = s.deltaTotal.value + if duplicate then 0 else amount n.delta := by
    intro hok hzero
    exact ⟨s, hok, hs, by rw [hzero, add_zero]⟩
  cases duplicate with
  | true => exact hsame rfl rfl
  | false =>
    cases hd : n.delta with
    | none =>
      rw [hd] at hsame
      refine hsame ?_ rfl
      unfold FillState.price
      rw [hd]
      rfl
    | some d =>
      have hd0 := hn d hd
      rw [hd, amount_of_nonneg hd0] at hw hlt
      rw [amount_of_nonneg hd0]
      simp only [Bool.false_eq_true, if_false] at hlt ⊢
      obtain ⟨deltaTotal, hadd, hvalue⟩ :=
        add_exact hp.quantities ((hs.delta.add hw).fits hlt)
      cases hpx : n.price with
      | none =>
        refine ⟨{ s with deltaTotal }, ?_, ⟨?_, hs.priced, ?_, hs.nonneg, hs.bounded⟩, hvalue⟩
        · unfold FillState.price
          rw [hd, hpx]
          show (sum s.deltaTotal d >>= fun deltaTotal => pure { s with deltaTotal }) = _
          rw [sum, hadd]
          rfl
        · show Whole e deltaTotal.value
          rw [hvalue]
          exact hs.delta.add hw
        · show s.pricedTotal.value ≤ deltaTotal.value
          rw [hvalue]
          exact hs.le.trans (le_add_of_nonneg_right hd0)
      | some p =>
        obtain ⟨hp0, hple⟩ := hprice p hpx
        have hpricedlt : s.pricedTotal.value + d.value < limit e :=
          (add_le_add_left hs.le _).trans_lt hlt
        have hdlt : d.value < limit e :=
          (le_add_of_nonneg_left hs.priced.nonneg).trans_lt hpricedlt
        obtain ⟨pricedTotal, hadd', hpriced⟩ :=
          add_exact hp.quantities ((hs.priced.add hw).fits hpricedlt)
        obtain ⟨value, hmul, hv0, hvle⟩ := Decimal.mul_le (hp.writable hw hdlt) hd0 hp0
          (mul_le_mul_of_nonneg_left hple hd0)
        obtain ⟨valueTotal, hadd'', hvt0, hvtle⟩ := Decimal.add_le
          (hp.writable (hs.priced.add hw) hpricedlt) hs.nonneg hv0
          (by rw [add_mul]; exact add_le_add hs.bounded hvle)
        refine ⟨{ s with deltaTotal, pricedTotal, valueTotal }, ?_, ⟨?_, ?_, ?_, hvt0, ?_⟩, hvalue⟩
        · unfold FillState.price
          rw [hd, hpx]
          show (sum s.deltaTotal d >>= fun deltaTotal => sum s.pricedTotal d >>= fun pricedTotal =>
            orRaise .decimalSignal (Decimal.mul d p) >>= fun value => sum s.valueTotal value >>=
              fun valueTotal => pure { s with deltaTotal, pricedTotal, valueTotal }) = _
          simp only [sum, hadd, hadd', hmul, orRaise]
          show (orRaise .decimalSignal (Decimal.add s.valueTotal value) >>= fun valueTotal =>
            pure { s with deltaTotal, pricedTotal, valueTotal }) = _
          rw [hadd'']
          rfl
        · show Whole e deltaTotal.value
          rw [hvalue]
          exact hs.delta.add hw
        · show Whole e pricedTotal.value
          rw [hpriced]
          exact hs.priced.add hw
        · show pricedTotal.value ≤ deltaTotal.value
          rw [hpriced, hvalue]
          exact add_le_add_left hs.le _
        · show valueTotal.value ≤ pricedTotal.value * 10 ^ m
          rw [hpriced]
          exact hvtle

end Price

/-! ## All rows -/

section Rows
variable {unicode : Unicode} {e m : Int}

/-- The deltas of a row whatever else it carries, as the prices count them. -/
def deltaReport (unicode : Unicode) (row : ExecutionEvent) : Report Nat FillIdentity ℚ where
  time := row.tsEvent
  identity := fillIdentity row
  anchor := 0
  delta := amount (rowNumbers unicode row).delta
  anchor_nonneg := le_rfl
  delta_nonneg := amount_nonneg _

variable {s : FillState} {t : Tally Nat FillIdentity ℚ} {rows : List ExecutionEvent}

/-- While the tally fits, a loop that returns shows it. -/
theorem foldlM_shows (he : InContext e) (rows : List ExecutionEvent) {s' : FillState}
    (hs : Shows s t) (hu : InUnits e t)
    (hr : ∀ row ∈ rows, ReportInUnits e (fillReport unicode row))
    (hlt : ((rows.map (fillReport unicode)).foldl Tally.step t).result < limit e)
    (h : rows.foldlM (fillStep unicode) s = .ok s') :
    Shows s' ((rows.map (fillReport unicode)).foldl Tally.step t) := by
  induction rows generalizing s t with
  | nil =>
    cases pure_ok h
    exact hs
  | cons row rows ih =>
    rw [List.foldlM_cons] at h
    obtain ⟨s₁, hstep, h⟩ := bind_ok h
    have hu' := hu.step (hr row (by simp))
    have hnext : (t.step (fillReport unicode row)).total < limit e :=
      ((le_max_left _ _).trans (Tally.foldl_result hu'.total.nonneg _).2).trans_lt hlt
    exact ih (fillStep_shows he hs hu (hr row (by simp)) hnext hstep) hu'
      (fun x hx => hr x (List.mem_cons_of_mem _ hx)) hlt h

/-- **The reduced total is the tally of the rows**, while it fits. -/
theorem reduceFills_total (he : InContext e)
    (hr : ∀ row ∈ rows, ReportInUnits e (fillReport unicode row))
    (hlt : tally (rows.map (fillReport unicode)) < limit e) (h : reduceFills unicode rows = .ok s) :
    s.total.value = tally (rows.map (fillReport unicode)) := by
  unfold reduceFills at h
  obtain ⟨s₁, hrun, h⟩ := bind_ok h
  cases pure_ok h
  have hstart : Shows {} ({} : Tally Nat FillIdentity ℚ) :=
    ⟨FiniteDecimal.zero_value, FiniteDecimal.zero_value, rfl, rfl⟩
  have hshows := foldlM_shows he rows hstart (InUnits.start e) hr hlt hrun
  show (s₁.total.max s₁.anchor).value = Tally.result _
  rw [FiniteDecimal.max_value, hshows.total, hshows.anchor]
  rfl

/-- A row the loop can take: its numbers are read, in whole units, and its price
is within the bound. -/
structure Readable (unicode : Unicode) (e m : Int) (row : ExecutionEvent) : Prop where
  numbers : fillNumbers unicode row = .ok (rowNumbers unicode row)
  report : ReportInUnits e (fillReport unicode row)
  delta : Whole e (amount (rowNumbers unicode row).delta)
  price : ∀ p, (rowNumbers unicode row).price = some p → p.value ≤ 10 ^ m

/-- A loop over such rows whose sums fit returns. -/
theorem foldlM_returns (hp : PricesFit e m) (rows : List ExecutionEvent) (hs : Shows s t)
    (hu : InUnits e t) (hpriced : Priced e m s) (hr : ∀ row ∈ rows, Readable unicode e m row)
    (hlt : ((rows.map (fillReport unicode)).foldl Tally.step t).result < limit e)
    (hdelta : s.deltaTotal.value + added (fun _ => true) t.seen (rows.map (deltaReport unicode)) <
      limit e) : ∃ s', rows.foldlM (fillStep unicode) s = .ok s' ∧ Priced e m s' := by
  induction rows generalizing s t with
  | nil => exact ⟨s, rfl, hpriced⟩
  | cons row rows ih =>
    have hrow := hr row (by simp)
    obtain ⟨-, hd0, hp0⟩ := fillNumbers_nonneg hrow.numbers
    have hu' := hu.step hrow.report
    have hnext : (t.step (fillReport unicode row)).total < limit e :=
      ((le_max_left _ _).trans (Tally.foldl_result hu'.total.nonneg _).2).trans_lt hlt
    obtain ⟨s₁, hstep, hshows, h1, h2, h3⟩ :=
      fillStep_count hp.quantities hs hu hrow.numbers hrow.report hnext
    rw [List.map_cons, added_all_cons, ← add_assoc] at hdelta
    have hrest := added_nonneg (fun _ => true) (insert (deltaReport unicode row).identity t.seen)
      (rows.map (deltaReport unicode))
    have hthis : s₁.deltaTotal.value + (if decide (fillIdentity row ∈ t.seen) then 0 else
        amount (rowNumbers unicode row).delta) = s.deltaTotal.value +
        if (deltaReport unicode row).identity ∈ t.seen then 0 else (deltaReport unicode row).delta := by
      rw [h1]
      simp only [decide_eq_true_eq]
      rfl
    have hpriced₁ : Priced e m s₁ :=
      ⟨by rw [h1]; exact hpriced.delta, by rw [h2]; exact hpriced.priced,
        by rw [h1, h2]; exact hpriced.le, by rw [h3]; exact hpriced.nonneg,
        by rw [h2, h3]; exact hpriced.bounded⟩
    obtain ⟨s₂, hok, hpriced₂, hdelta₂⟩ := price_ok hp hpriced₁ hd0 hrow.delta
      (fun p hpx => ⟨hp0 p hpx, hrow.price p hpx⟩)
      (show _ < limit e by rw [hthis]; linarith)
    have hshows₂ : Shows s₂ (t.step (fillReport unicode row)) :=
      fillStep_shows hp.quantities hs hu hrow.report hnext (hstep.trans hok)
    obtain ⟨s', hrun, hpriced'⟩ := ih hshows₂ hu' hpriced₂
      (fun x hx => hr x (List.mem_cons_of_mem _ hx)) hlt
      (by rw [hdelta₂, hthis]; exact hdelta)
    refine ⟨s', ?_, hpriced'⟩
    rw [List.foldlM_cons, hstep, hok]
    exact hrun

theorem reduceFills_returns (hp : PricesFit e m) (hr : ∀ row ∈ rows, Readable unicode e m row)
    (hlt : tally (rows.map (fillReport unicode)) < limit e)
    (hdelta : added (fun _ => true) ∅ (rows.map (deltaReport unicode)) < limit e) :
    ∃ s, reduceFills unicode rows = .ok s ∧ Priced e m s ∧
      s.total.value = tally (rows.map (fillReport unicode)) := by
  have hstart : Shows {} ({} : Tally Nat FillIdentity ℚ) :=
    ⟨FiniteDecimal.zero_value, FiniteDecimal.zero_value, rfl, rfl⟩
  obtain ⟨s, hrun, hpriced⟩ := foldlM_returns hp rows hstart (InUnits.start e) (Priced.start e m) hr hlt
    (by rw [FiniteDecimal.zero_value, zero_add]; exact hdelta)
  have hok : reduceFills unicode rows = .ok { s with total := s.total.max s.anchor } := by
    unfold reduceFills
    rw [hrun]
    rfl
  refine ⟨_, hok, ⟨hpriced.delta, hpriced.priced, hpriced.le, hpriced.nonneg, hpriced.bounded⟩, ?_⟩
  exact reduceFills_total hp.quantities (fun row hrow => (hr row hrow).report) hlt hok

/-- The average price of priced fills can be written. -/
theorem averagePrice_returns (hp : PricesFit e m) (hs : Priced e m s) (total : FiniteDecimal) :
    ∃ v, averagePrice s total = .ok v := by
  unfold averagePrice
  dsimp only
  split_ifs with h
  · obtain ⟨hpos, hpriced, hdelta⟩ := h
    rw [FiniteDecimal.isPositive_iff] at hpos
    rw [FiniteDecimal.eq_iff] at hpriced hdelta
    have hwritable : Writable (2 * 10 ^ m) := by
      refine ⟨2, m, by decide, hp.low, rfl, ?_⟩
      calc (2 : ℚ) * 10 ^ m < 10 * 10 ^ m := mul_lt_mul_of_pos_right (by norm_num) (ten_zpow_pos m)
        _ = 10 ^ (m + 1) := by rw [zpow_add_one₀ (by norm_num), mul_comm]
        _ ≤ 10 ^ (emax + 1) := zpow_le_zpow_right₀ (by norm_num) (by have := hp.high; omega)
    have hbound := hs.bounded
    rw [hpriced, hdelta] at hbound
    obtain ⟨c, hc⟩ := div_some hwritable hpos
      (show 2 * |s.valueTotal.value| ≤ _ by rw [abs_of_nonneg hs.nonneg]; linarith)
    exact ⟨finiteStr c, by rw [hc]; rfl⟩
  · exact ⟨_, rfl⟩

end Rows

/-! ## The reduced quantity -/

/-- What a row knows to be filled, nothing without one. -/
def knownFilled (current : Option OrderRow) : WithTop ℚ :=
  match current with
  | some row => row.filledQuantity.value.rank
  | none => 0

/-- The quantity is never below what the row knows; a row that holds no number
makes the comparison raise. -/
theorem fillTotal_cases {total : FiniteDecimal} (h : 0 ≤ total.value) (current : Option OrderRow) :
    (knownFilled current = ⊤ ∧ fillTotal total current = .error .decimalSignal) ∨
      ∃ c known, fillTotal total current = .ok c ∧ knownFilled current = (known : ℚ) ∧
        c.value = max total.value known := by
  cases current with
  | none => exact .inr ⟨total, 0, rfl, rfl, (max_eq_left h).symm⟩
  | some row =>
    unfold fillTotal knownFilled
    dsimp only
    rcases Numeric.toDecimal_cases row.filledQuantity.value with ⟨hrank, hnan⟩ | ⟨d, hfinite, hrank⟩
    · rw [hnan]
      exact .inl ⟨hrank, rfl⟩
    · rw [hfinite]
      exact .inr ⟨total.max d, d.value, rfl, hrank, FiniteDecimal.max_value _ _⟩

/-- The `filled_qty` of a payload. -/
def filledQty (unicode : Unicode) (payload : Dict Json.Value) : Option ℚ :=
  match decimal unicode (payload.get? "filled_qty") with
  | some (.finite d) => some d.value
  | _ => none

theorem filledQty_reduced (unicode : Unicode) (payload : Dict Json.Value) (total : FiniteDecimal)
    (average : Json.Value) :
    filledQty unicode ((payload.set "filled_qty" (finiteStr total)).set "avg_px" average) =
      some total.value := by
  unfold filledQty
  rw [Dict.get?_set_ne (by decide), Dict.get?_set_self, decimal_finiteStr]

theorem mem_fillRows {env : Env} {key : OrderKey} :
    row ∈ fillRows env rows key ↔ row ∈ rows ∧ row.accountId = key.accountId ∧
      row.clientOrderId = some key.clientOrderId ∧ row.eventType = "OrderFilled" := by
  simp [fillRows, List.mem_insertionSort]

/-- The rows of the query are sorted by their time. -/
theorem fillRows_sorted (env : Env) (table : List ExecutionEvent) (key : OrderKey) :
    (fillRows env table key).Pairwise (fillBefore env) := by
  have : Std.Total (fillBefore env) := ⟨fun a b => by
    rcases lt_trichotomy a.tsEvent b.tsEvent with h | h | h
    · exact .inl (.inl h)
    · rcases env.collate_total a.eventId b.eventId with hc | hc
      · exact .inl (.inr ⟨h, hc⟩)
      · exact .inr (.inr ⟨h.symm, hc⟩)
    · exact .inr (.inl h)⟩
  have : IsTrans ExecutionEvent (fillBefore env) := ⟨fun a b c hab hbc => by
    rcases hab with hab | ⟨hab, hab'⟩
    · rcases hbc with hbc | ⟨hbc, -⟩
      · exact .inl (hab.trans hbc)
      · exact .inl (hbc ▸ hab)
    · rcases hbc with hbc | ⟨hbc, hbc'⟩
      · exact .inl (hab ▸ hbc)
      · exact .inr ⟨hab.trans hbc, env.collate_trans _ _ _ hab' hbc'⟩⟩
  exact List.pairwise_insertionSort _ _

theorem fillReports_sorted (env : Env) (table : List ExecutionEvent) (key : OrderKey) :
    ((fillRows env table key).map (fillReport env.unicode)).Pairwise
      fun a b => a.time ≤ b.time := by
  rw [List.pairwise_map]
  refine (fillRows_sorted env table key).imp fun h => ?_
  rcases h with h | ⟨h, -⟩
  · exact h.le
  · exact h.le

/-- **What `_fill_payload` derives** from rows it can read and whose sums fit: their
tally, or what the row knows where that is more. -/
theorem fillPayload_cases {m : Int} (hp : PricesFit e m)
    (hr : ∀ row ∈ rows, Readable unicode e m row)
    (hlt : tally (rows.map (fillReport unicode)) < limit e)
    (hdelta : added (fun _ => true) ∅ (rows.map (deltaReport unicode)) < limit e)
    (payload : Dict Json.Value) (current : Option OrderRow) :
    (knownFilled current = ⊤ ∧ ∀ reduced, fillPayload unicode rows payload current ≠ .ok reduced) ∨
      ∃ reduced known, fillPayload unicode rows payload current = .ok reduced ∧
        knownFilled current = (known : ℚ) ∧
        filledQty unicode reduced = some (max (tally (rows.map (fillReport unicode))) known) := by
  obtain ⟨s, hok, hpriced, htotal⟩ := reduceFills_returns hp hr hlt hdelta
  have hnonneg : 0 ≤ s.total.value := by
    rw [htotal]
    exact tally_nonneg _
  have heq : fillPayload unicode rows payload current = (fillTotal s.total current >>= fun total =>
      averagePrice s total >>= fun average => pure (((withQuantity payload current).set "filled_qty"
        (finiteStr total)).set "avg_px" average)) := by
    unfold fillPayload
    rw [hok]
    rfl
  rcases fillTotal_cases hnonneg current with ⟨hknown, herror⟩ | ⟨c, known, hc, hknown, hvalue⟩
  · refine .inl ⟨hknown, ?_⟩
    rw [heq, herror]
    rintro reduced ⟨⟩
  · obtain ⟨average, haverage⟩ := averagePrice_returns hp hpriced c
    refine .inr ⟨((withQuantity payload current).set "filled_qty" (finiteStr c)).set "avg_px" average,
      known, ?_, hknown, ?_⟩
    · rw [heq, hc]
      show (averagePrice s c >>= fun average => pure _) = _
      rw [haverage]
      rfl
    · rw [filledQty_reduced, hvalue, htotal]

end TraderBot.Orders
