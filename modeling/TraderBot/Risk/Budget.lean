import TraderBot.Risk.Reservations

/-! # The risk budget of an account

A reservation counts what is active under the account's lock and only then inserts
its row; everything else only gives reservations up. So the open risk stays within
the budget over every interleaving (`openRisk_le_budget`): a transaction that
would add to it holds the lock, and what others commit meanwhile lowers what it
has counted. -/
namespace TraderBot.Risk
open TraderBot.Lib TraderBot.Lib.Decimal

/-- The rows of an account that hold a part of its budget. -/
def active (a : String) (t : Reservations) : List Reservation :=
  t.rows.filter fun row => row.accountId = a && row.status.isActive

/-- The sum of `risk_amount` over them; NaN is above every number. -/
def openRisk (a : String) (t : Reservations) : WithTop ℚ :=
  ((active a t).map fun row => row.riskAmount.value.rank).sum

/-- Fewer active rows, and at least the same conflicts. -/
structure Below (a : String) (t' t : Reservations) : Prop where
  active : (active a t').Sublist (active a t)
  conflicts : ∀ row, t.conflicts row = true → t'.conflicts row = true

/-- The open risk is within a bound, in whole units of a place. -/
structure Within (a : String) (e : Int) (bound : ℚ) (t : Reservations) : Prop where
  le : openRisk a t ≤ bound
  whole : ∀ row ∈ active a t, ∃ x : ℚ, row.riskAmount.value.rank = x ∧ Whole e x

section
variable {a : String} {e : Int} {bound : ℚ} {t t' : Reservations}

theorem Below.refl (t : Reservations) : Below a t t := ⟨List.Sublist.refl _, fun _ h => h⟩

theorem Below.trans {t₁ t₂ t₃ : Reservations} (h : Below a t₁ t₂) (h' : Below a t₂ t₃) : Below a t₁ t₃ :=
  ⟨h.active.trans h'.active, fun row hr => h.conflicts row (h'.conflicts row hr)⟩

theorem rank_nonneg (amount : Amount) : 0 ≤ amount.value.rank := by
  have hnonneg := amount.nonneg
  unfold Numeric.nonneg at hnonneg
  have hle : Numeric.zero ≤ amount.value := by simpa using hnonneg
  change Numeric.zero.rank ≤ amount.value.rank at hle
  refine le_trans ?_ hle
  simp [Numeric.rank, Numeric.zero]

theorem Below.openRisk (h : Below a t' t) : openRisk a t' ≤ openRisk a t := by
  refine List.Sublist.sum_le_sum (h.active.map _) fun x hx => ?_
  obtain ⟨row, -, rfl⟩ := List.mem_map.mp hx
  exact rank_nonneg _

theorem Within.below (h : Within a e bound t) (hb : Below a t' t) : Within a e bound t' :=
  ⟨hb.openRisk.trans h.le, fun row hrow => h.whole row (hb.active.subset hrow)⟩

/-! ## What a statement writes -/

/-- Writes that keep the order, and those that go down in it. -/
def Monotonic (a : String) (w : Reservations → Reservations) : Prop :=
  ∀ t' t, Below a t' t → Below a (w t') (w t)

def Lowers (a : String) (w : Reservations → Reservations) : Prop := ∀ t, Below a (w t) t

/-- A row that is closed stays closed. -/
def Closed (id : String) (t : Reservations) : Prop := ∃ row ∈ t.rows, row.id = id ∧ row.status.isActive = false

theorem Lowers.comp {w v : Reservations → Reservations} (hw : Lowers a w) (hv : Lowers a v) :
    Lowers a (w ∘ v) := fun t => (hw (v t)).trans (hv t)

variable {ids : List String} {status : ReservationStatus} {releasedAt : Option Int}
  {row : Reservation} {id : String}

theorem active_setStatus (hstatus : status.isActive = false) :
    active a (t.setStatus ids status releasedAt) = (active a t).filter fun row => row.id ∉ ids := by
  show (t.rows.map _).filter _ = (t.rows.filter _).filter _
  induction t.rows with
  | nil => rfl
  | cons row rows ih =>
    rw [List.map_cons, List.filter_cons, List.filter_cons, ih]
    by_cases hid : row.id ∈ ids
    · by_cases hrow : (decide (row.accountId = a) && row.status.isActive) = true
      · simp [hid, hstatus, hrow]
      · simp [hid, hstatus, hrow]
    · by_cases hrow : (decide (row.accountId = a) && row.status.isActive) = true
      · simp [hid, hrow]
      · simp [hid, hrow]

theorem conflicts_setStatus :
    (t.setStatus ids status releasedAt).conflicts row = t.conflicts row := by
  have hkeep : ∀ {β : Type} (f : Reservation → β),
      (∀ r, f { r with status, releasedAt := releasedAt.or r.releasedAt } = f r) →
      (t.setStatus ids status releasedAt).rows.map f = t.rows.map f := by
    intro β f hf
    show (t.rows.map fun r => if decide (r.id ∈ ids) then _ else r).map f = _
    rw [List.map_map]
    refine List.map_congr_left fun r _ => ?_
    by_cases h : r.id ∈ ids <;> simp [h, hf]
  unfold Reservations.conflicts
  rw [hkeep Reservation.id fun _ => rfl, hkeep Reservation.key fun _ => rfl]

theorem setStatus_lowers (hstatus : status.isActive = false) :
    Lowers a fun t => t.setStatus ids status releasedAt := by
  intro t
  constructor
  · rw [active_setStatus hstatus]
    exact List.filter_sublist
  · intro row hrow
    rw [conflicts_setStatus]
    exact hrow

theorem setStatus_monotonic (hstatus : status.isActive = false) :
    Monotonic a fun t => t.setStatus ids status releasedAt := by
  intro t' t h
  constructor
  · rw [active_setStatus hstatus, active_setStatus hstatus]
    exact h.active.filter _
  · intro row hrow
    rw [conflicts_setStatus] at hrow ⊢
    exact h.conflicts row hrow

theorem setStatus_closed (hstatus : status.isActive = false) (h : Closed id t) :
    Closed id (t.setStatus ids status releasedAt) := by
  obtain ⟨row, hrow, rfl, hclosed⟩ := h
  refine ⟨_, List.mem_map_of_mem hrow, ?_⟩
  by_cases hin : row.id ∈ ids
  · simp [hin, hstatus]
  · simp [hin, hclosed]

/-- The part of a row that counts for an account. -/
def counted (a : String) (row : Reservation) : List Reservation :=
  [row].filter fun row => row.accountId = a && row.status.isActive

theorem active_insert :
    active a (t.insert row) = if t.conflicts row = true then active a t else active a t ++ counted a row := by
  unfold Reservations.insert
  split_ifs with h
  · rfl
  · show (t.rows ++ [row]).filter _ = _
    rw [List.filter_append]
    rfl

theorem insert_conflicts {other : Reservation} (h : t.conflicts other = true) :
    (t.insert row).conflicts other = true := by
  unfold Reservations.insert
  split_ifs
  · exact h
  · unfold Reservations.conflicts at h ⊢
    simp only [decide_eq_true_eq, List.map_append, List.mem_append] at h ⊢
    tauto

/-- A row of another account does not count. -/
theorem insert_lowers (h : row.accountId ≠ a) : Lowers a fun t => t.insert row := by
  intro t
  constructor
  · show (active a (t.insert row)).Sublist _
    rw [active_insert]
    split_ifs
    · exact List.Sublist.refl _
    · simp [counted, h]
  · exact fun other hother => insert_conflicts hother

theorem insert_active (h : Below a t' t) :
    (active a (t'.insert row)).Sublist (active a (t.insert row)) := by
  rw [active_insert, active_insert]
  by_cases ht' : t'.conflicts row = true
  · rw [if_pos ht']
    split_ifs
    · exact h.active
    · exact h.active.trans (List.sublist_append_left _ _)
  · have ht : ¬ t.conflicts row = true := fun hc => ht' (h.conflicts row hc)
    rw [if_neg ht', if_neg ht]
    exact h.active.append (List.Sublist.refl _)

theorem insert_closed (h : Closed id t) : Closed id (t.insert row) := by
  unfold Reservations.insert
  split_ifs
  · exact h
  · obtain ⟨r, hr, hid, hclosed⟩ := h
    exact ⟨r, List.mem_append_left _ hr, hid, hclosed⟩

/-- What a row adds to the open risk. -/
theorem openRisk_insert (h : row.status.isActive = true) (ha : row.accountId = a) :
    openRisk a (t.insert row) ≤ openRisk a t + row.riskAmount.value.rank := by
  unfold openRisk
  rw [active_insert]
  split_ifs
  · exact le_add_of_nonneg_right (rank_nonneg _)
  · simp [counted, h, ha]

end

/-! ## The check -/

section
variable {a : String} {e : Int} {bound : ℚ}

/-- The rows of a query, added up exactly while they stay below the limit. -/
theorem foldlM_addAmount (he : InContext e) (rows : List Reservation)
    (hrows : ∀ row ∈ rows, ∃ x : ℚ, row.riskAmount.value.rank = x ∧ Whole e x) (total : FiniteDecimal)
    (htotal : Whole e total.value)
    (hlt : (total.value : WithTop ℚ) + (rows.map fun row => row.riskAmount.value.rank).sum <
      (limit e : ℚ)) :
    ∃ s, rows.foldlM (fun total row => addAmount total row.riskAmount) total = some s ∧
      Whole e s.value ∧ (s.value : WithTop ℚ) = total.value + (rows.map fun row => row.riskAmount.value.rank).sum := by
  induction rows generalizing total with
  | nil => exact ⟨total, rfl, htotal, by simp⟩
  | cons row rows ih =>
    obtain ⟨x, hx, hwhole⟩ := hrows row (by simp)
    rw [List.map_cons, List.sum_cons, hx, ← add_assoc] at hlt
    have hrest : (0 : WithTop ℚ) ≤ (rows.map fun row => row.riskAmount.value.rank).sum := by
      refine List.sum_nonneg fun y hy => ?_
      obtain ⟨r, -, rfl⟩ := List.mem_map.mp hy
      exact rank_nonneg _
    have hone : total.value + x < limit e := by
      have : ((total.value + x : ℚ) : WithTop ℚ) < (limit e : ℚ) := by
        push_cast
        exact (le_add_of_nonneg_right hrest).trans_lt hlt
      exact_mod_cast this
    obtain ⟨d, hd, hvalue⟩ : ∃ d, row.riskAmount.value.toDecimal = .finite d ∧ d.value = x := by
      rcases Numeric.toDecimal_cases row.riskAmount.value with ⟨htop, -⟩ | ⟨d, hd, hrank⟩
      · rw [hx] at htop
        exact absurd htop (by simp)
      · rw [hx] at hrank
        exact ⟨d, hd, by exact_mod_cast hrank.symm⟩
    have hsum := htotal.add hwhole
    obtain ⟨next, hnext, hnextValue⟩ := add_exact (a := total) (b := d) he
      (by rw [hvalue]; exact hsum.fits hone)
    rw [hvalue] at hnextValue
    have hadd : addAmount total row.riskAmount = some next := by
      rw [addAmount, hd]
      exact hnext
    obtain ⟨s, hs, hswhole, hsvalue⟩ := ih (fun r hr => hrows r (List.mem_cons_of_mem _ hr)) next
      (by rw [hnextValue]; exact hsum) (by rw [hnextValue]; push_cast; exact hlt)
    refine ⟨s, ?_, hswhole, ?_⟩
    · rw [List.foldlM_cons, hadd]
      exact hs
    · rw [hsvalue, hnextValue, List.map_cons, List.sum_cons, hx]
      push_cast
      rw [add_assoc]

/-- What may be at risk. -/
def budget (settings : Settings) (a : String) : ℚ :=
  max ((settings.equity a).value * settings.maxTotalOpenRiskPct.value) 0

variable {settings : Settings}

theorem budget_lt (h : Fits e ((settings.equity a).value * settings.maxTotalOpenRiskPct.value)) :
    budget settings a < limit e := by
  obtain ⟨m, hm, habs⟩ := h
  have hlt : |(settings.equity a).value * settings.maxTotalOpenRiskPct.value| < limit e := by
    rw [habs]
    exact Whole.lt_limit_iff.mpr hm
  exact max_lt ((le_abs_self _).trans_lt hlt) ((abs_nonneg _).trans_lt hlt)

/-- What is left of a number that fits fits. -/
theorem fits_sub_whole {x y : ℚ} (hx : Fits e x) (hy : Whole e y)
    (hle : y ≤ max x 0) : Fits e (x - y) := by
  obtain ⟨m, hm, habs⟩ := hx
  rcases le_or_gt 0 x with hsign | hsign
  · rw [max_eq_left hsign] at hle
    rw [abs_of_nonneg hsign] at habs
    obtain ⟨k, rfl⟩ := hy
    have hkm : k ≤ m := by
      rw [habs] at hle
      have := le_of_mul_le_mul_right hle (ten_zpow_pos e)
      exact_mod_cast this
    refine ⟨m - k, by omega, ?_⟩
    rw [abs_of_nonneg (by linarith), habs, Nat.cast_sub hkm, sub_mul]
  · rw [max_eq_right hsign.le] at hle
    have hzero : y = 0 := le_antisymm hle hy.nonneg
    rw [hzero, sub_zero]
    exact ⟨m, hm, habs⟩

/-- **An amount the check lets through has room in the budget.** -/
theorem remainingBudget_room {t : Reservations} {now : Int} {remaining d : FiniteDecimal}
    (he : InContext e)
    (hfits : Fits e ((settings.equity a).value * settings.maxTotalOpenRiskPct.value))
    (hwithin : Within a e (budget settings a) t)
    (hunexpired : ∀ row ∈ active a t, row.timedOut now = false)
    (hremaining : remainingBudget (settings.equity a) settings.maxTotalOpenRiskPct (t.unexpired a now) =
      some remaining) (hle : d.value ≤ remaining.value) :
    openRisk a t + d.value ≤ budget settings a := by
  -- what is counted is all that is active
  have hrows : t.unexpired a now = active a t := by
    refine List.filter_congr fun row hrow => ?_
    by_cases hact : (decide (row.accountId = a) && row.status.isActive) = true
    · rw [hact, hunexpired row (List.mem_filter.mpr ⟨hrow, hact⟩)]
      rfl
    · simp [hact]
  rw [hrows] at hremaining
  have hlimit := budget_lt hfits
  obtain ⟨s, hs, hswhole, hsvalue⟩ := foldlM_addAmount he (active a t) hwithin.whole .zero
    (by rw [FiniteDecimal.zero_value]; exact Whole.zero e) (by
      rw [FiniteDecimal.zero_value, WithTop.coe_zero, zero_add]
      exact hwithin.le.trans_lt (by exact_mod_cast hlimit))
  rw [FiniteDecimal.zero_value, WithTop.coe_zero, zero_add] at hsvalue
  change (s.value : WithTop ℚ) = openRisk a t at hsvalue
  have hle' : s.value ≤ budget settings a := by
    have := hwithin.le
    rw [← hsvalue] at this
    exact_mod_cast this
  obtain ⟨b, hb, hbvalue⟩ := mul_exact he hfits
  have hdifference : Fits e (b.value - s.value) := by
    rw [hbvalue]
    exact fits_sub_whole hfits hswhole hle'
  obtain ⟨left, hleft, hleftValue⟩ := sub_exact he hdifference
  have hresult : remaining = left.max .zero := by
    have hcompute : remainingBudget (settings.equity a) settings.maxTotalOpenRiskPct (active a t) =
        some (left.max .zero) := by
      unfold remainingBudget activeRiskAmount
      rw [hs]
      show (Decimal.mul _ _ >>= _) = _
      rw [hb]
      show (Decimal.sub b s >>= _) = _
      rw [hleft]
      rfl
    exact Option.some.inj (hremaining.symm.trans hcompute)
  rw [hresult, FiniteDecimal.max_value, FiniteDecimal.zero_value, hleftValue, hbvalue] at hle
  rw [← hsvalue]
  norm_cast
  unfold budget at hle' ⊢
  rcases le_or_gt 0 ((settings.equity a).value * settings.maxTotalOpenRiskPct.value) with hsign | hsign
  · rw [max_eq_left hsign] at hle' ⊢
    rw [max_eq_left (by linarith)] at hle
    linarith
  · rw [max_eq_right hsign.le] at hle' ⊢
    rw [max_eq_right (by linarith [hswhole.nonneg])] at hle
    linarith

end

/-! ## Transactions -/

/-- The lock a reservation on an account takes first. -/
def lockOf (settings : Settings) (a : String) : Lock := .advisory (settings.hashtext a)

/-- Writes that only give reservations up. -/
structure Quiet (a : String) (w : Reservations → Reservations) : Prop where
  monotonic : Monotonic a w
  lowers : Lowers a w

/-- A reservation on the account holds its lock. -/
def Locked (settings : Settings) (a : String) (r : Request) (x : Txn Reservations Lock Point) : Prop :=
  ∀ q, r = .reserve q → q.accountId = a → lockOf settings a ∈ x.held

/-- What a reservation on the account sees as active has time left. -/
def Unexpired (a : String) (r : Request) (x : Txn Reservations Lock Point) (t : Reservations) : Prop :=
  ∀ q, r = .reserve q → q.accountId = a → ∀ row ∈ active a (x.writes t), row.timedOut q.now = false

/-- The amount of a reservation on the account has room. -/
def Room (settings : Settings) (a : String) (r : Request) (x : Txn Reservations Lock Point)
    (t : Reservations) : Prop :=
  ∀ q, r = .reserve q → q.accountId = a →
    ∃ d, q.riskAmount = .finite d ∧ openRisk a (x.writes t) + d.value ≤ budget settings a

/-- What the transaction would commit is within the budget. -/
structure Committable (settings : Settings) (a : String) (e : Int) (x : Txn Reservations Lock Point)
    (t : Reservations) : Prop where
  locked : lockOf settings a ∈ x.held
  active : ∀ t' t, Below a t' t → (active a (x.writes t')).Sublist (active a (x.writes t))
  within : Within a e (budget settings a) (x.writes t)

/-- Where a transaction is and what it may rely on there: after its own expiry
that what it sees as active has time left, after its check that the amount has
room, after its insert that what it would commit is within the budget. -/
def Stage (settings : Settings) (a : String) (e : Int) (r : Request) (x : Txn Reservations Lock Point)
    (t : Reservations) : Prop :=
  match x.point with
  | none | some .raise => True
  | some .lock | some .update => Quiet a x.writes
  | some .expire => Quiet a x.writes ∧ Locked settings a r x
  | some .existing | some .projection | some .active =>
    Quiet a x.writes ∧ Locked settings a r x ∧ Unexpired a r x t
  | some (.insert _) => Quiet a x.writes ∧ Locked settings a r x ∧ Room settings a r x t
  | some (.done _) => Lowers a x.writes ∨ Committable settings a e x t

section
variable {settings : Settings} {a : String} {e : Int} {r : Request} {x : Txn Reservations Lock Point}
  {t t' : Reservations}

theorem quiet_id : Quiet a id := ⟨fun _ _ h => h, fun t => Below.refl t⟩

variable {status : ReservationStatus} {releasedAt : Option Int} {d : FiniteDecimal}
  {q : ReservationRequest} {row : Reservation} {p : Point} {locks : Reservations → List Lock}
  {write : Reservations → Reservations → Reservations} {next : Reservations → Point} {id : String}

theorem Quiet.setStatus {w : Reservations → Reservations} (h : Quiet a w) {ids : List String}
    (hstatus : status.isActive = false) :
    Quiet a ((fun t => t.setStatus ids status releasedAt) ∘ w) :=
  ⟨fun t' t hb => setStatus_monotonic hstatus _ _ (h.monotonic t' t hb),
    (setStatus_lowers hstatus).comp h.lowers⟩

theorem Unexpired.stable (h : Unexpired a r x t) (hquiet : Quiet a x.writes) (hlocked : Locked settings a r x)
    (hother : Below a t' t ∨ lockOf settings a ∉ x.held) : Unexpired a r x t' := by
  intro q hq ha row hrow
  rcases hother with hbelow | hfree
  · exact h q hq ha row ((hquiet.monotonic t' t hbelow).active.subset hrow)
  · exact absurd (hlocked q hq ha) hfree

theorem Room.stable (h : Room settings a r x t) (hquiet : Quiet a x.writes) (hlocked : Locked settings a r x)
    (hother : Below a t' t ∨ lockOf settings a ∉ x.held) : Room settings a r x t' := by
  intro q hq ha
  rcases hother with hbelow | hfree
  · obtain ⟨d, hd, hle⟩ := h q hq ha
    exact ⟨d, hd, (add_le_add_left (hquiet.monotonic t' t hbelow).openRisk _).trans hle⟩
  · exact absurd (hlocked q hq ha) hfree

theorem Committable.stable (h : Committable settings a e x t)
    (hother : Below a t' t ∨ lockOf settings a ∉ x.held) : Committable settings a e x t' := by
  rcases hother with hbelow | hfree
  · refine ⟨h.locked, h.active, ?_, ?_⟩
    · refine le_trans ?_ h.within.le
      refine List.Sublist.sum_le_sum ((h.active t' t hbelow).map _) fun y hy => ?_
      obtain ⟨row, -, rfl⟩ := List.mem_map.mp hy
      exact rank_nonneg _
    · exact fun row hrow => h.within.whole row ((h.active t' t hbelow).subset hrow)
  · exact absurd h.locked hfree

/-- What others commit keeps a transaction where it is: it lowers what is active,
or it is of a holder of the lock, and then this one does not hold it. -/
theorem Stage.stable (h : Stage settings a e r x t)
    (hother : Below a t' t ∨ lockOf settings a ∉ x.held) : Stage settings a e r x t' := by
  unfold Stage at h ⊢
  cases hpoint : x.point with
  | none => trivial
  | some p =>
    rw [hpoint] at h
    cases p with
    | raise => trivial
    | lock => exact h
    | update => exact h
    | expire => exact h
    | existing => exact ⟨h.1, h.2.1, h.2.2.stable h.1 h.2.1 hother⟩
    | projection => exact ⟨h.1, h.2.1, h.2.2.stable h.1 h.2.1 hother⟩
    | active => exact ⟨h.1, h.2.1, h.2.2.stable h.1 h.2.1 hother⟩
    | insert remaining => exact ⟨h.1, h.2.1, h.2.2.stable h.1 h.2.1 hother⟩
    | done result => exact h.imp id fun hc => hc.stable hother

/-- What a run asks of its reservations on the account: amounts in whole units of
a place, and a budget the decimal context can write. -/
structure Fitting {ι : Type} (settings : Settings) (a : String) (e : Int) (requests : ι → Request) : Prop where
  place : InContext e
  budget : Fits e ((settings.equity a).value * settings.maxTotalOpenRiskPct.value)
  amounts : ∀ i q, requests i = .reserve q → q.accountId = a →
    ∃ d, q.riskAmount = .finite d ∧ Whole e d.value

variable {ι : Type} {requests : ι → Request}

theorem Locked.more (h : Locked settings a r x) (p : Option Point) (w : Reservations → Reservations)
    (locks : List Lock) : Locked settings a r ⟨p, w, x.held ++ locks⟩ :=
  fun q hq ha => List.mem_append_left _ (h q hq ha)

theorem amountOf_rank {amount : Amount} (h : amountOf (.finite d) = some amount) :
    amount.value.rank = (d.value : WithTop ℚ) := by
  unfold amountOf at h
  obtain ⟨n, hn, hamount⟩ := Option.bind_eq_some_iff.mp h
  unfold Amount.ofNumeric? at hamount
  split_ifs at hamount
  cases hamount
  exact Numeric.ofDecimal_rank hn

/-- The row of a request. -/
theorem row?_some (h : q.row? = some row) :
    row.accountId = q.accountId ∧ row.status = .held ∧
      ∀ d, q.riskAmount = .finite d → row.riskAmount.value.rank = (d.value : WithTop ℚ) := by
  unfold ReservationRequest.row? at h
  obtain ⟨notional, -, h⟩ := Option.bind_eq_some_iff.mp h
  obtain ⟨riskAmount, hrisk, h⟩ := Option.bind_eq_some_iff.mp h
  obtain ⟨marginAmount, -, h⟩ := Option.bind_eq_some_iff.mp h
  cases h
  refine ⟨rfl, rfl, fun d hd => ?_⟩
  rw [hd] at hrisk
  exact amountOf_rank hrisk

/-- After its own expiry a reservation sees nothing active that has timed out. -/
theorem unexpired_after_expiry (v : Reservations) (w : Reservations → Reservations) (hv : v = w t)
    (p : Option Point) (held : List Lock) :
    Unexpired a (.reserve q) ⟨p, (fun t => t.setStatus
      (v.timedOutIds (fun row => decide (row.accountId = q.accountId)) q.now) .expired none) ∘ w, held⟩ t := by
  intro q' hq ha row hrow
  cases hq
  change row ∈ active a ((w t).setStatus _ .expired none) at hrow
  rw [active_setStatus rfl, ← hv] at hrow
  obtain ⟨hrow, hid⟩ := List.mem_filter.mp hrow
  obtain ⟨hmem, hact⟩ := List.mem_filter.mp hrow
  obtain ⟨hacc, hact⟩ : row.accountId = a ∧ row.status.isActive = true := by simpa using hact
  by_contra htimed
  refine absurd ?_ (of_decide_eq_true hid)
  refine List.mem_map_of_mem (List.mem_filter.mpr ⟨hmem, ?_⟩)
  simp [hacc, ha, hact, show row.timedOut q.now = true by simpa using htimed]

/-- The insert of a row that has room. -/
theorem committable_insert (hrow : q.row? = some row) (ha : q.accountId = a)
    (hd : q.riskAmount = .finite d) (hwhole : Whole e d.value) (hquiet : Quiet a x.writes)
    (hlocked : lockOf settings a ∈ x.held) (hstore : Within a e (budget settings a) (x.writes t))
    (hroom : openRisk a (x.writes t) + d.value ≤ budget settings a) (p : Option Point)
    (locks : List Lock) :
    Committable settings a e ⟨p, (fun t => t.insert row) ∘ x.writes, x.held ++ locks⟩ t := by
  obtain ⟨hacc, hstatus, hrank⟩ := row?_some hrow
  have hrisk := hrank d hd
  refine ⟨List.mem_append_left _ hlocked, fun t' t hb => insert_active (hquiet.monotonic t' t hb), ?_, ?_⟩
  · refine (openRisk_insert (by rw [hstatus]; rfl) (hacc.trans ha)).trans ?_
    rw [hrisk]
    exact hroom
  · intro r hr
    change r ∈ active a ((x.writes t).insert row) at hr
    rw [active_insert] at hr
    split_ifs at hr
    · exact hstore.whole r hr
    · rcases List.mem_append.mp hr with hr | hr
      · exact hstore.whole r hr
      · have hsame : r = row := by
          have := List.mem_of_mem_filter hr
          simpa using this
        exact ⟨d.value, by rw [hsame]; exact hrisk, hwhole⟩

/-- **One statement of a reservation.** -/
theorem Stage.reserve (hfit : Fitting settings a e requests) {i : ι} (hi : requests i = .reserve q)
    (hstore : Within a e (budget settings a) t) (h : Stage settings a e (.reserve q) x t)
    (hp : x.point = some p) (ha : reserveAction settings q p = .statement locks write next) :
    Stage settings a e (.reserve q)
      { point := some (next (x.writes t)), writes := write (x.writes t) ∘ x.writes,
        held := x.held ++ locks (x.writes t) } t := by
  unfold Stage at h
  rw [hp] at h
  cases p with
  | lock =>
    cases ha
    refine ⟨h, fun q' hq hacc => List.mem_append_right _ ?_⟩
    cases hq
    rw [← hacc]
    exact List.mem_singleton_self _
  | expire =>
    cases ha
    exact ⟨h.1.setStatus rfl, h.2.more _ _ _, unexpired_after_expiry (x.writes t) x.writes rfl _ _⟩
  | existing =>
    cases ha
    dsimp only
    split
    · exact .inl h.1.lowers
    · exact ⟨h.1, h.2.1.more _ _ _, h.2.2⟩
  | projection =>
    cases ha
    dsimp only
    split_ifs
    · exact ⟨h.1, h.2.1.more _ _ _, h.2.2⟩
    · exact .inl h.1.lowers
  | active =>
    cases ha
    dsimp only
    cases hremaining : remainingBudget (settings.equity q.accountId) settings.maxTotalOpenRiskPct
        ((x.writes t).unexpired q.accountId q.now) with
    | none => trivial
    | some remaining =>
      dsimp only
      split
      · trivial
      · exact .inl h.1.lowers
      · next hle =>
        refine ⟨h.1, h.2.1.more _ _ _, fun q' hq hacc => ?_⟩
        cases hq
        obtain ⟨d, hd, -⟩ := hfit.amounts i q hi hacc
        subst hacc
        refine ⟨d, hd, remainingBudget_room hfit.place hfit.budget (hstore.below (h.1.lowers t))
          (h.2.2 q rfl rfl) hremaining (FiniteDecimal.le_iff.mp ?_)⟩
        rw [hd] at hle
        simpa [Decimal.le?] using hle
  | insert remaining =>
    cases ha
    dsimp only
    cases hrow : q.row? with
    | none => trivial
    | some row =>
      dsimp only
      split_ifs
      · trivial
      · by_cases hacc : q.accountId = a
        · obtain ⟨d, hd, hroom⟩ := h.2.2 q rfl hacc
          obtain ⟨d', hd', hwhole⟩ := hfit.amounts i q hi hacc
          cases hd.symm.trans hd'
          exact .inr (committable_insert hrow hacc hd hwhole h.1 (h.2.1 q rfl hacc)
            (hstore.below (h.1.lowers t)) hroom _ _)
        · refine .inl ((insert_lowers ?_).comp h.1.lowers)
          rw [(row?_some hrow).1]
          exact hacc
  | update => cases ha
  | raise => cases ha
  | done result => cases ha

/-- `_set_status` ends without taking anything. -/
theorem Stage.closing (h : Stage settings a e r x t) (hp : x.point = some .update)
    (hstatus : status.isActive = false)
    (ha : setStatusAction id status releasedAt = .statement locks write next) :
    Stage settings a e r
      { point := some (next (x.writes t)), writes := write (x.writes t) ∘ x.writes,
        held := x.held ++ locks (x.writes t) } t := by
  unfold Stage at h
  rw [hp] at h
  cases ha
  have hlowers : Lowers a ((fun t => t.setStatus [id] status releasedAt) ∘ x.writes) :=
    (h.setStatus hstatus).lowers
  dsimp only
  split
  · exact .inl hlowers
  · exact .inl hlowers

/-- **One statement of a transaction.** -/
theorem Stage.statement (hfit : Fitting settings a e requests) {i : ι}
    (hstore : Within a e (budget settings a) t) (h : Stage settings a e (requests i) x t)
    (hp : x.point = some p) (ha : (requests i).action settings p = .statement locks write next) :
    Stage settings a e (requests i)
      { point := some (next (x.writes t)), writes := write (x.writes t) ∘ x.writes,
        held := x.held ++ locks (x.writes t) } t := by
  cases hi : requests i with
  | reserve q =>
    rw [hi] at h ha
    exact h.reserve hfit hi hstore hp ha
  | release id now =>
    rw [hi] at h ha
    cases p with
    | update =>
      exact h.closing hp rfl ha
    | _ => cases ha
  | consume id =>
    rw [hi] at h ha
    cases p with
    | update =>
      exact h.closing hp rfl ha
    | _ => cases ha
  | expire now =>
    rw [hi] at h ha
    cases p with
    | update =>
      cases ha
      unfold Stage at h
      rw [hp] at h
      exact .inl (h.setStatus rfl).lowers
    | _ => cases ha

/-! ## Runs -/

/-- The store is within the budget, and so is what any transaction would make of it. -/
structure Guarded (settings : Settings) (a : String) (e : Int) (requests : ι → Request)
    (s : Database ι Reservations Lock Point) : Prop where
  store : Within a e (budget settings a) s.store
  exclusive : s.Exclusive
  stage : ∀ i, Stage settings a e (requests i) (s.txns i) s.store

theorem guarded_init (requests : ι → Request) (ht : Within a e (budget settings a) t) :
    Guarded settings a e requests ((code settings requests).init t) := by
  refine ⟨ht, Code.exclusive_init _ t, fun i => ?_⟩
  show Stage settings a e (requests i) { point := some (requests i).start } t
  cases requests i <;> exact quiet_id

variable [DecidableEq ι] [Fintype ι] {s : Database ι Reservations Lock Point}

/-- Only a transaction that is done commits. -/
theorem action_commit (h : r.action settings p = .commit) : ∃ result, p = .done result := by
  cases p with
  | done result => exact ⟨result, rfl⟩
  | update => cases r <;> cases h
  | _ => cases r <;> cases h

omit [Fintype ι] in
/-- The end of a transaction that leaves a store within the budget, and the others
where they were. -/
theorem Guarded.finish (h : Guarded settings a e requests s) (i : ι) {store : Reservations}
    (hstore : Within a e (budget settings a) store) (hexclusive : (s.finish i store).Exclusive)
    (hothers : ∀ j, j ≠ i → Below a store s.store ∨ lockOf settings a ∉ (s.txns j).held) :
    Guarded settings a e requests (s.finish i store) := by
  refine ⟨hstore, hexclusive, fun j => ?_⟩
  show Stage settings a e (requests j) (Function.update s.txns i Txn.over j) store
  by_cases hj : j = i
  · subst hj
    rw [Function.update_self]
    trivial
  · rw [Function.update_of_ne hj]
    exact (h.stage j).stable (hothers j hj)

/-- **Any move keeps the account within its budget.** -/
theorem Guarded.move (hfit : Fitting settings a e requests) (h : Guarded settings a e requests s)
    (m : Move ι) : Guarded settings a e requests ((code settings requests).move s m) := by
  have hexclusive := Code.exclusive_move (c := code settings requests) h.exclusive m
  cases m with
  | abort i => exact h.finish i h.store hexclusive fun j _ => .inl (Below.refl _)
  | run i =>
    change ((code settings requests).step s i).Exclusive at hexclusive
    show Guarded settings a e requests ((code settings requests).step s i)
    rcases Code.step_cases (c := code settings requests) s i with
      hs | ⟨p, hp, ⟨locks, write, next, ha, -, hs⟩ | ⟨ha, hs⟩ | ⟨-, hs⟩⟩
    · rw [hs]
      exact h
    · rw [hs] at hexclusive ⊢
      refine ⟨h.store, hexclusive, fun j => ?_⟩
      show Stage settings a e (requests j) (Function.update s.txns i _ j) s.store
      by_cases hj : j = i
      · subst hj
        rw [Function.update_self]
        exact (h.stage j).statement hfit h.store hp ha
      · rw [Function.update_of_ne hj]
        exact h.stage j
    · rw [hs] at hexclusive ⊢
      obtain ⟨result, rfl⟩ := action_commit ha
      have hstage := h.stage i
      unfold Stage at hstage
      rw [hp] at hstage
      rcases hstage with hlowers | hcommittable
      · exact h.finish i (h.store.below (hlowers s.store)) hexclusive fun j _ => .inl (hlowers s.store)
      · refine h.finish i hcommittable.within hexclusive fun j hj => .inr ?_
        exact h.exclusive i j (Ne.symm hj) _ hcommittable.locked
    · rw [hs] at hexclusive ⊢
      exact h.finish i h.store hexclusive fun j _ => .inl (Below.refl _)

/-! ## Closed rows -/

/-- Writes that leave closed rows closed. -/
def KeepsClosed (w : Reservations → Reservations) : Prop := ∀ id t, Closed id t → Closed id (w t)

omit [DecidableEq ι] [Fintype ι] in
theorem statement_keepsClosed (ha : r.action settings p = .statement locks write next)
    (v : Reservations) : KeepsClosed (write v) := by
  intro id t hclosed
  cases r with
  | reserve q =>
    change reserveAction settings q p = _ at ha
    cases p with
    | insert remaining =>
      cases ha
      dsimp only
      split
      · exact insert_closed hclosed
      · exact hclosed
    | expire =>
      cases ha
      exact setStatus_closed rfl hclosed
    | update => cases ha
    | raise => cases ha
    | done result => cases ha
    | _ =>
      cases ha
      exact hclosed
  | release id now =>
    cases p with
    | update =>
      cases ha
      exact setStatus_closed rfl hclosed
    | _ => cases ha
  | consume id =>
    cases p with
    | update =>
      cases ha
      exact setStatus_closed rfl hclosed
    | _ => cases ha
  | expire now =>
    cases p with
    | update =>
      cases ha
      exact setStatus_closed rfl hclosed
    | _ => cases ha

/-- The writes of every transaction leave closed rows closed, and so does every move. -/
theorem keepsClosed_move (settings : Settings) (requests : ι → Request)
    (h : ∀ i, KeepsClosed (s.txns i).writes) (m : Move ι) :
    (∀ i, KeepsClosed (((code settings requests).move s m).txns i).writes) ∧
      ∀ id, Closed id s.store → Closed id ((code settings requests).move s m).store := by
  constructor
  · refine Code.forall_txn (L := fun _ x => KeepsClosed x.writes) (S := fun _ => True)
      (fun _ _ _ hc => hc) ?_ h (fun _ => trivial) m
    intro i x p locks write next hx _ ha v _ id t hc
    exact statement_keepsClosed ha v id _ (hx id t hc)
  · intro id hc
    rcases Code.move_store (c := code settings requests) s m with hs | ⟨i, -, -, -, -, hs⟩
    · rw [hs]
      exact hc
    · rw [hs]
      exact h i id _ hc

theorem closed_after (settings : Settings) (requests : ι → Request)
    (h : ∀ i, KeepsClosed (s.txns i).writes) (moves : List (Move ι)) (hc : Closed id s.store) :
    Closed id ((code settings requests).machine.after s moves).store := by
  induction moves generalizing s with
  | nil => exact hc
  | cons m moves ih =>
    obtain ⟨hwrites, hstore⟩ := keepsClosed_move settings requests h m
    exact ih hwrites (hstore id hc)

theorem keepsClosed_after (h : ∀ i, KeepsClosed (s.txns i).writes) (moves : List (Move ι)) (i : ι) :
    KeepsClosed (((code settings requests).machine.after s moves).txns i).writes :=
  Machine.invariant (m := (code settings requests).machine)
    (I := fun s => ∀ i, KeepsClosed (s.txns i).writes) 
    (fun _ m h => (keepsClosed_move settings requests h m).1) h moves i

/-- **The budget holds over every interleaving**, while amounts fit the decimal
context; a key has one row, and what was given up stays so. -/
theorem openRisk_le_budget (hfit : Fitting settings a e requests)
    (ht : Within a e (budget settings a) t) (moves later : List (Move ι)) :
    openRisk a ((code settings requests).machine.after ((code settings requests).init t) moves).store ≤
        budget settings a ∧
      (((code settings requests).machine.after ((code settings requests).init t) moves).store.rows.map
        Reservation.key).Nodup ∧
      ∀ row ∈ ((code settings requests).machine.after ((code settings requests).init t) moves).store.rows,
        row.status.isActive = false →
        ∀ row' ∈ ((code settings requests).machine.after ((code settings requests).init t)
          (moves ++ later)).store.rows, row'.id = row.id → row'.status.isActive = false := by
  have hguarded := Machine.invariant (m := (code settings requests).machine)
    (I := Guarded settings a e requests) (fun _ m h => h.move hfit m) (guarded_init requests ht) moves
  refine ⟨hguarded.store.le, Reservations.keys _, fun row hrow hclosed row' hrow' hid => ?_⟩
  have hstart : ∀ i, KeepsClosed (((code settings requests).init t).txns i).writes :=
    fun _ _ _ hc => hc
  rw [Machine.after_append] at hrow'
  obtain ⟨closed, hmem, hcid, hcstatus⟩ := closed_after settings requests
    (keepsClosed_after hstart moves) later ⟨row, hrow, rfl, hclosed⟩
  have hsame : row' = closed :=
    List.inj_on_of_nodup_map (Reservations.ids _) hrow' hmem (hid.trans hcid.symm)
  rw [hsame]
  exact hcstatus

end

/-! ## Two reservations -/

/-- A reservation of an amount on one account. -/
def reservation (id : String) (riskAmount : FiniteDecimal) : ReservationRequest where
  accountId := "acct"
  instrumentId := "BTCUSDT"
  idempotencyKey := id
  riskAmount := .finite riskAmount
  notional := .finite .zero
  marginAmount := .finite .zero
  ttlSeconds := 60
  now := 0
  positionKey := none
  reservationId := id
  freshWithMargin := true

/-- An equity of one, all of which, or the given part, may be at risk. -/
def unitEquity (pct : FiniteDecimal) : Settings where
  equity _ := ⟨false, 1, 0, .one⟩
  maxTotalOpenRiskPct := pct
  hashtext _ := 0

def one : FiniteDecimal := ⟨false, 1, 0, .one⟩

/-- `1E-29`. -/
def tiny : FiniteDecimal := ⟨false, 1, -29, by decide⟩

def twoReservations (first : FiniteDecimal) (i : Bool) : Request :=
  .reserve (if i then reservation "r1" first else reservation "r2" one)

def inTurn : List (Move Bool) := List.replicate 7 (.run true) ++ List.replicate 7 (.run false)

def afterReservations (first : FiniteDecimal) : Reservations :=
  ((code (unitEquity one) (twoReservations first)).machine.after
    ((code (unitEquity one) (twoReservations first)).init .empty) inTurn).store

theorem one_value : one.value = 1 := by
  simp [FiniteDecimal.value, FiniteDecimal.signed, one]

theorem tiny_value : tiny.value = 1 / 10 ^ 29 := by
  norm_num [FiniteDecimal.value, FiniteDecimal.signed, tiny, zpow_neg]

variable (a : String)

theorem unitEquity_budget :
    ((unitEquity one).equity a).value * (unitEquity one).maxTotalOpenRiskPct.value = 1 := by
  show one.value * one.value = 1
  rw [one_value, one_mul]

theorem within_empty (e : Int) {bound : ℚ} (h : 0 ≤ bound) : Within a e bound .empty := by
  refine ⟨?_, fun row hrow => by cases hrow⟩
  show (0 : WithTop ℚ) ≤ bound
  exact_mod_cast h

theorem twoReservations_fitting : Fitting (unitEquity one) "acct" 0 (twoReservations one) := by
  refine ⟨⟨by decide, by decide⟩, ?_, ?_⟩
  · rw [unitEquity_budget]
    exact ⟨1, by decide, by simp⟩
  · intro i q hq _
    refine ⟨one, ?_, 1, by rw [one_value]; simp⟩
    cases i <;> cases hq <;> rfl

theorem openRisk_le_budget_two :
    openRisk "acct" (afterReservations one) ≤ budget (unitEquity one) "acct" ∧
      ((afterReservations one).rows.map Reservation.key).Nodup := by
  have hle : (0 : ℚ) ≤ budget (unitEquity one) "acct" := le_max_right _ _
  have h := openRisk_le_budget twoReservations_fitting (within_empty "acct" 0 hle) inTurn []
  exact ⟨h.1, h.2.1⟩

/-- The remaining budget after the tiny reservation is rounded up to one. -/
theorem openRisk_passes_budget :
    ¬ openRisk "acct" (afterReservations tiny) ≤
        ((((unitEquity one).equity "acct").value * (unitEquity one).maxTotalOpenRiskPct.value : ℚ) :
          WithTop ℚ) ∧
      ¬ openRisk "acct" .empty ≤
        ((((unitEquity one.negate).equity "acct").value *
          (unitEquity one.negate).maxTotalOpenRiskPct.value : ℚ) : WithTop ℚ) := by
  constructor
  · have hrows : (active "acct" (afterReservations tiny)).map some =
        [(reservation "r1" tiny).row?, (reservation "r2" one).row?] := by decide +kernel
    obtain ⟨r₁, rest, hactive, h1, hrest⟩ := List.map_eq_cons_iff.mp hrows
    obtain ⟨r₂, none, hrest', h2, hnone⟩ := List.map_eq_cons_iff.mp hrest
    rw [List.map_eq_nil_iff] at hnone
    subst hnone hrest'
    have hrisk : openRisk "acct" (afterReservations tiny) = ((1 / 10 ^ 29 + 1 : ℚ) : WithTop ℚ) := by
      unfold openRisk
      rw [hactive, List.map_cons, List.map_cons, (row?_some h1.symm).2.2 tiny rfl,
        (row?_some h2.symm).2.2 one rfl, tiny_value, one_value]
      simp
    rw [hrisk, unitEquity_budget, not_le]
    exact_mod_cast (by norm_num : (1 : ℚ) < 1 / 10 ^ 29 + 1)
  · show ¬ (0 : WithTop ℚ) ≤ ((one.value * one.negate.value : ℚ) : WithTop ℚ)
    rw [negate_value, one_value, not_le]
    exact_mod_cast (by norm_num : (1 * -1 : ℚ) < 0)

end TraderBot.Risk
