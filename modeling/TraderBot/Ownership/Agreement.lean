import TraderBot.Ownership.Ledger

/-! # The ledger and the projection of an order

The ledger counts every recorded fill of a robot order with the first quantity it
carries; the projection counts a trade once and takes a cumulative quantity as a
total. The two agree on an order at every point of its history if and only if at
each timestamp what the projection gains is what the ledger counts
(`agreesThroughout_iff`). A trade that is reported twice is enough to part them. -/
namespace TraderBot.Ownership
open TraderBot.Lib TraderBot.Lib.Text TraderBot.Lib.Json TraderBot.Lib.Decimal TraderBot.Orders

/-- A recorded event of an order. -/
def isOf (key : OrderKey) (row : LedgerRow) : Bool :=
  row.event.accountId == key.accountId && row.event.clientOrderId == some key.clientOrderId

/-- The rows recorded for times up to one. -/
def upTo (time : Nat) (rows : List LedgerRow) : List LedgerRow :=
  rows.filter fun row => decide (row.event.tsEvent ≤ time)

/-- The rows without those of an order. -/
def without (key : OrderKey) (rows : List LedgerRow) : List LedgerRow := rows.filter fun row => !isOf key row

def sign : OrderSide → ℚ
  | .buy => 1
  | .sell => -1

/-- The fills of an order as the projection reads them. -/
def orderFills (env : Env) (key : OrderKey) (rows : List LedgerRow) : List ExecutionEvent :=
  fillRows env (rows.map LedgerRow.event) key

/-- What the ledger counts of a fill, its side apart. -/
def ledgerAmount (env : Env) (row : ExecutionEvent) : ℚ :=
  match fillQuantity env.unicode row.payload with
  | .ok d => d.value
  | .error _ => 0

/-- Fills of a robot order that both sides accept, on one side and in one symbol,
with quantities and prices within the decimal context. -/
structure Accepted (env : Env) (key : OrderKey) (symbol : String) (side : OrderSide) (e m : Int)
    (rows : List LedgerRow) : Prop where
  robot : matchesRobotId key.clientOrderId.toList = true
  ids : (rows.map fun row => row.event.eventId).Nodup
  whole : ∀ row ∈ rows, isOf key row = true → row.event.eventType ≠ "OrderPartiallyFilled"
  readable : ∀ row ∈ orderFills env key rows, Readable env.unicode e m row
  named : ∀ row ∈ rows, isOf key row = true → row.event.eventType = "OrderFilled" →
    fillSymbol env row.event.payload row.projectionInstrument = symbol
  sided : ∀ row ∈ orderFills env key rows, fillSide env row.payload = .ok side
  counted : ∀ row ∈ orderFills env key rows,
    ∃ d, fillQuantity env.unicode row.payload = .ok d ∧ Whole e d.value ∧ d.value < limit e
  ledger : LedgerFits env e symbol rows
  prices : PricesFit e m
  deltas : added (fun _ => true) ∅ ((orderFills env key rows).map (deltaReport env.unicode)) < limit e
  totals : ∀ row ∈ orderFills env key rows, (fillReport env.unicode row).anchor +
    added (fun _ => true) ∅ ((orderFills env key rows).map (deltaReport env.unicode)) < limit e
  loads : ∀ time,
    (∃ b, loadRobotOwnedBalance env Dict.empty key.accountId (upTo time rows) symbol = .ok b) ∧
    ∃ b, loadRobotOwnedBalance env Dict.empty key.accountId (without key (upTo time rows)) symbol = .ok b

/-- The contribution of an order to the balance is its filled quantity, signed. -/
def Agrees (env : Env) (key : OrderKey) (symbol : String) (side : OrderSide) (rows : List LedgerRow) :
    Prop :=
  ∃ all others reduced filled,
    loadRobotOwnedBalance env Dict.empty key.accountId rows symbol = .ok all ∧
    loadRobotOwnedBalance env Dict.empty key.accountId (without key rows) symbol = .ok others ∧
    fillPayload env.unicode (orderFills env key rows) Dict.empty none = .ok reduced ∧
    filledQty env.unicode reduced = some filled ∧
    all.quantity.value - others.quantity.value = sign side * filled

/-- What the ledger counts of an order at the times that count. -/
def ledgerSumOf (env : Env) (p : Nat → Bool) (fills : List ExecutionEvent) : ℚ :=
  ((fills.filter fun row => p row.tsEvent).map (ledgerAmount env)).sum

/-- At this time the projection gains what the ledger counts: what is new, or the
largest cumulative quantity where that is more. -/
def GroupAgrees (env : Env) (key : OrderKey) (rows : List LedgerRow) (time : Nat) : Prop :=
  let fills := orderFills env key rows
  let reports := fills.map (fillReport env.unicode)
  let before := ledgerSumOf env (fun u => decide (u < time)) fills
  max (before + added (fun u => decide (u = time)) ∅ reports) (anchorAt time reports) =
    before + ledgerSumOf env (fun u => decide (u = time)) fills

/-! ## Prefixes -/

section
variable {env : Env} {key : OrderKey} {symbol : String} {side : OrderSide} {e m : Int}
  {rows : List LedgerRow}

theorem ledgerSumOf_upTo (fills : List ExecutionEvent) (time : Nat) :
    ledgerSumOf env (fun u => decide (u ≤ time)) fills =
      ledgerSumOf env (fun u => decide (u < time)) fills +
        ledgerSumOf env (fun u => decide (u = time)) fills := by
  unfold ledgerSumOf
  induction fills with
  | nil => simp
  | cons row fills ih =>
    rcases lt_trichotomy row.tsEvent time with h | h | h
    · simp [h, h.le, h.ne, ih, add_assoc]
    · simp [h, ih]
      ring
    · simp [not_le_of_gt h, not_lt_of_gt h, h.ne', ih]

/-- The fills recorded up to a time are those of the whole order up to it. -/
theorem orderFills_upTo (hids : (rows.map fun row => row.event.eventId).Nodup) (time : Nat) :
    orderFills env key (upTo time rows) =
      (orderFills env key rows).filter fun row => decide (row.tsEvent ≤ time) := by
  have hevents : (upTo time rows).map LedgerRow.event =
      (rows.map LedgerRow.event).filter fun row => decide (row.tsEvent ≤ time) := by
    unfold upTo
    rw [List.filter_map]
    rfl
  have hnodup : ((rows.map LedgerRow.event).map ExecutionEvent.eventId).Nodup := by
    rw [List.map_map]
    exact hids
  unfold orderFills
  rw [hevents]
  have hsame : ∀ a b, a ∈ fillRows env ((rows.map LedgerRow.event).filter
      fun row => decide (row.tsEvent ≤ time)) key →
      b ∈ (fillRows env (rows.map LedgerRow.event) key).filter
        (fun row => decide (row.tsEvent ≤ time)) →
      fillBefore env a b → fillBefore env b a → a = b := by
    intro a b ha hb hab hba
    have ha' : a ∈ rows.map LedgerRow.event := List.mem_of_mem_filter (mem_fillRows.mp ha).1
    have hb' : b ∈ rows.map LedgerRow.event := (mem_fillRows.mp (List.mem_of_mem_filter hb)).1
    refine List.inj_on_of_nodup_map hnodup ha' hb' ?_
    rcases hab with hab | ⟨htime, hab⟩
    · rcases hba with hba | ⟨htime, -⟩ <;> omega
    · rcases hba with hba | ⟨-, hba⟩
      · omega
      · exact env.collate_antisymm _ _ hab hba
  refine List.Perm.eq_of_pairwise hsame (fillRows_sorted env _ key)
    ((fillRows_sorted env _ key).filter _) ?_
  unfold fillRows
  refine (List.perm_insertionSort _ _).trans ?_
  rw [List.filter_comm]
  exact ((List.perm_insertionSort _ _).filter _).symm

/-! ## The two sums -/

/-- What counts for the total is part of the deltas. -/
theorem added_le_deltas (p : Nat → Bool) (seen : Finset FillIdentity) (fills : List ExecutionEvent) :
    added p seen (fills.map (fillReport env.unicode)) ≤
      added p seen (fills.map (deltaReport env.unicode)) := by
  induction fills generalizing seen with
  | nil => exact le_rfl
  | cons row fills ih =>
    have hdelta : (fillReport env.unicode row).delta ≤ (deltaReport env.unicode row).delta := by
      show (if _ then 0 else amount _) ≤ amount _
      split_ifs
      · exact amount_nonneg _
      · exact le_rfl
    rw [List.map_cons, List.map_cons, added, added]
    refine add_le_add ?_ (ih _)
    show (if fillIdentity row ∉ seen ∧ p row.tsEvent = true then _ else 0) ≤
      if fillIdentity row ∉ seen ∧ p row.tsEvent = true then _ else 0
    split_ifs
    · exact hdelta
    · exact le_rfl

/-- The reports up to a time, one time after the other. -/
def tallyUpTo (env : Env) (key : OrderKey) (rows : List LedgerRow) (time : Nat) : ℚ :=
  tally (((orderFills env key rows).map (fillReport env.unicode)).filter
    fun r => decide (r.time ≤ time))

theorem orderReports_sorted :
    ((orderFills env key rows).map (fillReport env.unicode)).Pairwise fun a b => a.time ≤ b.time :=
  fillReports_sorted env _ key

theorem reports_upTo (hids : (rows.map fun row => row.event.eventId).Nodup) (time : Nat) :
    (orderFills env key (upTo time rows)).map (fillReport env.unicode) =
      ((orderFills env key rows).map (fillReport env.unicode)).filter
        fun r => decide (r.time ≤ time) := by
  rw [orderFills_upTo hids, List.filter_map]
  rfl

/-- **What the projection derives up to a time.** -/
theorem Accepted.filled (h : Accepted env key symbol side e m rows) (time : Nat) :
    ∃ reduced, fillPayload env.unicode (orderFills env key (upTo time rows)) Dict.empty none =
        .ok reduced ∧
      filledQty env.unicode reduced = some (tallyUpTo env key rows time) := by
  have hreadable : ∀ row ∈ orderFills env key (upTo time rows), Readable env.unicode e m row := by
    intro row hrow
    rw [orderFills_upTo h.ids] at hrow
    exact h.readable row (List.mem_of_mem_filter hrow)
  have htally : tally ((orderFills env key (upTo time rows)).map (fillReport env.unicode)) < limit e := by
    rw [reports_upTo h.ids]
    refine (tally_filter_le orderReports_sorted time).trans_lt
      ((tally_lt_iff orderReports_sorted).mpr ⟨(added_le_deltas _ _ _).trans_lt h.deltas, ?_⟩)
    intro r hr
    obtain ⟨row, hrow, rfl⟩ := List.mem_map.mp hr
    have hafter : added (fun u => decide ((fillReport env.unicode row).time < u)) ∅
        ((orderFills env key rows).map (fillReport env.unicode)) ≤ added (fun _ => true) ∅
        ((orderFills env key rows).map (fillReport env.unicode)) := added_mono _ fun _ _ _ => rfl
    exact (add_le_add le_rfl (hafter.trans (added_le_deltas _ _ _))).trans_lt (h.totals row hrow)
  have hdeltas : added (fun _ => true) ∅
      ((orderFills env key (upTo time rows)).map (deltaReport env.unicode)) < limit e := by
    have hmap : (orderFills env key (upTo time rows)).map (deltaReport env.unicode) =
        ((orderFills env key rows).map (deltaReport env.unicode)).filter
          fun r => decide (r.time ≤ time) := by
      rw [orderFills_upTo h.ids, List.filter_map]
      rfl
    have hsorted : ((orderFills env key rows).map (deltaReport env.unicode)).Pairwise
        fun a b => a.time ≤ b.time := by
      have hs := @orderReports_sorted env key rows
      rw [List.pairwise_map] at hs ⊢
      exact hs
    rw [hmap]
    exact (added_filter_le hsorted _ time).trans_lt h.deltas
  rcases fillPayload_cases h.prices hreadable htally hdeltas Dict.empty none with
    ⟨hknown, -⟩ | ⟨reduced, known, hok, hknown, hfilled⟩
  · cases hknown
  · have hzero : known = 0 := by
      change ((0 : ℚ) : WithTop ℚ) = known at hknown
      exact_mod_cast hknown.symm
    refine ⟨reduced, hok, ?_⟩
    rw [hfilled, hzero, max_eq_left (tally_nonneg _), reports_upTo h.ids]
    rfl

theorem sum_partition {f : LedgerRow → ℚ} (p : LedgerRow → Bool) (l : List LedgerRow) :
    (l.map f).sum = ((l.filter p).map f).sum + ((l.filter fun row => !p row).map f).sum := by
  induction l with
  | nil => simp
  | cons row l ih =>
    by_cases hp : p row = true
    · simp [hp, ih, add_assoc]
    · simp [hp, ih]
      ring

/-! ## One fill, signed -/

theorem isLowerHex_not_space {c : Char} (h : isLowerHex c = true) : isSpace c = false := by
  simp only [isLowerHex, Char.isDigit, Bool.or_eq_true, Bool.and_eq_true, decide_eq_true_eq,
    Char.le_def, UInt32.le_iff_toNat_le, ge_iff_le] at h
  have hval : c.toNat = c.val.toNat := rfl
  simp only [isSpace, hval, Bool.or_eq_false_iff, Bool.and_eq_false_iff, decide_eq_false_iff_not,
    beq_eq_false_iff_ne]
  simp at h
  omega

theorem isRobotClientOrderId_of_matches {id : String} (h : matchesRobotId id.toList = true) :
    isRobotClientOrderId id = true := by
  have hplain : ∀ c ∈ id.toList, isSpace c = false := by
    cases hcs : id.toList with
    | nil => simp
    | cons c rest =>
      rw [hcs] at h
      simp only [matchesRobotId, Bool.and_eq_true, beq_iff_eq, List.all_eq_true] at h
      obtain ⟨⟨⟨rfl, -⟩, hhex⟩, hdigits⟩ := h
      intro d hd
      rcases List.mem_cons.mp hd with rfl | hd
      · decide
      · rw [← List.take_append_drop 32 rest, List.mem_append] at hd
        have hshape : isLowerHex d = true := by
          rcases hd with hd | hd
          · exact hhex d hd
          · rw [isLowerHex, hdigits d hd, Bool.true_or]
        exact isLowerHex_not_space hshape
  rw [isRobotClientOrderId, strip, stripWhere_eq_self hplain, String.toList_ofList]
  exact h

theorem negated_value {d : FiniteDecimal} (he : InContext e) (hw : Whole e d.value)
    (hlt : d.value < limit e) : ∃ n, negated d = .ok n ∧ n.value = -d.value := by
  have hfits : Fits e (d.coeff * 10 ^ d.exponent) := by
    obtain ⟨k, hk, habs⟩ := hw.fits hlt
    rw [← FiniteDecimal.abs_value]
    exact ⟨k, hk, by rw [abs_abs, habs]⟩
  obtain ⟨n, hn, hsign, habs⟩ := fix_exact (!d.negative) he hfits
  refine ⟨n, by rw [negated, hn], ?_⟩
  rw [FiniteDecimal.value_of_sign n, FiniteDecimal.value_of_sign d, hsign, habs,
    FiniteDecimal.abs_value]
  cases d.negative <;> simp

/-- A fill counts with its quantity, signed by its side. -/
theorem Accepted.signedValue_eq (h : Accepted env key symbol side e m rows) {row : LedgerRow}
    (hrow : row ∈ rows) (hof : isOf key row = true) (htype : row.event.eventType = "OrderFilled") :
    signedValue env symbol row = sign side * ledgerAmount env row.event := by
  obtain ⟨hacc, hcoid⟩ : row.event.accountId = key.accountId ∧
      row.event.clientOrderId = some key.clientOrderId := by simpa [isOf] using hof
  have hfill : row.event ∈ orderFills env key rows :=
    mem_fillRows.mpr ⟨List.mem_map_of_mem hrow, hacc, hcoid, htype⟩
  obtain ⟨d, hd, hwhole, hlt⟩ := h.counted _ hfill
  have hside := h.sided _ hfill
  have hrobot : row.event.clientOrderId.any isRobotClientOrderId = true := by
    rw [hcoid]
    exact isRobotClientOrderId_of_matches h.robot
  rw [signedValue, if_pos ⟨hrobot, h.named row hrow hof htype⟩, ledgerAmount, hd]
  cases side with
  | buy =>
    have hsigned : signedFillQuantity env row.event.payload = .ok d := by
      rw [signedFillQuantity, hd]
      show (fillSide env row.event.payload >>= _) = _
      rw [hside]
      rfl
    rw [hsigned]
    simp [sign]
  | sell =>
    obtain ⟨n, hn, hvalue⟩ := negated_value h.ledger.place hwhole hlt
    have hsigned : signedFillQuantity env row.event.payload = .ok n := by
      rw [signedFillQuantity, hd]
      show (fillSide env row.event.payload >>= _) = _
      rw [hside]
      exact hn
    rw [hsigned]
    simp [sign, hvalue]

/-- The rows of an order's fills are the fills. -/
theorem orderFills_perm (present : List LedgerRow) :
    ((present.filter fun row => isOf key row && decide (row.event.eventType = "OrderFilled")).map
      LedgerRow.event).Perm (orderFills env key present) := by
  have hfilter : (present.filter fun row =>
      isOf key row && decide (row.event.eventType = "OrderFilled")).map LedgerRow.event =
      (present.map LedgerRow.event).filter fun r => decide (r.accountId = key.accountId ∧
        r.clientOrderId = some key.clientOrderId ∧ r.eventType = "OrderFilled") := by
    rw [List.filter_map]
    congr 1
    refine List.filter_congr fun row _ => ?_
    simp [isOf, Bool.and_assoc, Bool.beq_eq_decide_eq]
  rw [hfilter]
  exact (List.perm_insertionSort _ _).symm

/-- The fills of an order are part of what the account's rows count for. -/
theorem Accepted.ledgerTotal_split (h : Accepted env key symbol side e m rows) {present : List LedgerRow}
    (hsub : ∀ row ∈ present, row ∈ rows) :
    ledgerTotal env key.accountId symbol present =
      ((present.filter fun row => isOf key row && decide (row.event.eventType = "OrderFilled")).map
        (signedValue env symbol)).sum + ledgerTotal env key.accountId symbol (without key present) := by
  have hselect : ∀ row ∈ present, (isOf key row && isRobotFill key.accountId row) =
      (isOf key row && decide (row.event.eventType = "OrderFilled")) := by
    intro row hrow
    by_cases hof : isOf key row = true
    · have hpartial := h.whole row (hsub row hrow) hof
      have hrobot := h.robot
      obtain ⟨hacc, hcoid⟩ : row.event.accountId = key.accountId ∧
          row.event.clientOrderId = some key.clientOrderId := by simpa [isOf] using hof
      simp [isRobotFill, robotFillEventTypes, hacc, hcoid, hrobot, hof, hpartial]
    · simp [hof]
  unfold ledgerTotal without
  rw [sum_partition (isOf key) (present.filter (isRobotFill key.accountId)), List.filter_filter,
    List.filter_comm (fun row => !isOf key row), List.filter_congr hselect]

/-- **What the order contributes to the balance up to a time.** -/
theorem Accepted.contribution (h : Accepted env key symbol side e m rows) (time : Nat)
    {all others : OwnershipBalance}
    (hall : loadRobotOwnedBalance env Dict.empty key.accountId (upTo time rows) symbol = .ok all)
    (hothers : loadRobotOwnedBalance env Dict.empty key.accountId (without key (upTo time rows)) symbol =
      .ok others) :
    all.quantity.value - others.quantity.value =
      sign side * ledgerSumOf env (fun u => decide (u ≤ time)) (orderFills env key rows) := by
  have hsub : ∀ row ∈ upTo time rows, row ∈ rows := fun row hrow => List.mem_of_mem_filter hrow
  have hvalue : ∀ row ∈ (upTo time rows).filter fun row => isOf key row &&
      decide (row.event.eventType = "OrderFilled"),
      signedValue env symbol row = sign side * ledgerAmount env row.event := by
    intro row hrow
    obtain ⟨hrow, hof⟩ := List.mem_filter.mp hrow
    obtain ⟨hof, htype⟩ : isOf key row = true ∧ row.event.eventType = "OrderFilled" := by
      simpa using hof
    exact h.signedValue_eq (hsub row hrow) hof htype
  have hfills : ledgerSumOf env (fun u => decide (u ≤ time)) (orderFills env key rows) =
      ((orderFills env key (upTo time rows)).map (ledgerAmount env)).sum := by
    rw [orderFills_upTo h.ids]
    rfl
  have hleft := load_value (h.ledger.filter _) hall
  have hright := load_value ((h.ledger.filter _).filter _) hothers
  change _ = ledgerTotal env key.accountId symbol (upTo time rows) at hleft
  change _ = ledgerTotal env key.accountId symbol (without key (upTo time rows)) at hright
  rw [hleft, hright, h.ledgerTotal_split hsub, add_sub_cancel_right, List.map_congr_left hvalue,
    List.sum_map_mul_left, hfills, ← ((orderFills_perm _).map _).sum_eq, List.map_map]
  rfl

theorem sign_ne_zero (side : OrderSide) : sign side ≠ 0 := by
  cases side <;> simp [sign]

theorem Accepted.agrees_iff (h : Accepted env key symbol side e m rows) (time : Nat) :
    Agrees env key symbol side (upTo time rows) ↔ tallyUpTo env key rows time =
      ledgerSumOf env (fun u => decide (u ≤ time)) (orderFills env key rows) := by
  obtain ⟨reduced, hreduced, hfilled⟩ := h.filled time
  constructor
  · rintro ⟨all, others, reduced', filled, hall, hothers, hreduced', hfilled', heq⟩
    cases hreduced.symm.trans hreduced'
    cases hfilled.symm.trans hfilled'
    rw [h.contribution time hall hothers] at heq
    exact (mul_left_cancel₀ (sign_ne_zero side) heq).symm
  · intro heq
    obtain ⟨⟨all, hall⟩, others, hothers⟩ := h.loads time
    refine ⟨all, others, reduced, _, hall, hothers, hreduced, hfilled, ?_⟩
    rw [h.contribution time hall hothers, heq]

/-! ## One time after the other -/

/-- Where the two agreed before a time, they agree after it exactly when they
agree on what it brings. -/
theorem upTo_iff (time : Nat)
    (hbefore : tally (((orderFills env key rows).map (fillReport env.unicode)).filter
        fun r => decide (r.time < time)) =
      ledgerSumOf env (fun u => decide (u < time)) (orderFills env key rows)) :
    tallyUpTo env key rows time =
        ledgerSumOf env (fun u => decide (u ≤ time)) (orderFills env key rows) ↔
      GroupAgrees env key rows time := by
  unfold tallyUpTo GroupAgrees
  rw [tally_upTo orderReports_sorted time, hbefore, ledgerSumOf_upTo]

/-- Before a time the two agree where they agreed on the one before it. -/
theorem before_eq {time : Nat}
    (h : ∀ u < time, tallyUpTo env key rows u =
      ledgerSumOf env (fun v => decide (v ≤ u)) (orderFills env key rows)) :
    tally (((orderFills env key rows).map (fillReport env.unicode)).filter
        fun r => decide (r.time < time)) =
      ledgerSumOf env (fun u => decide (u < time)) (orderFills env key rows) := by
  cases time with
  | zero => simp [ledgerSumOf, tally, Tally.result]
  | succ u =>
    simp only [Nat.lt_succ_iff]
    exact h u (Nat.lt_succ_self u)

theorem upTo_eq {time : Nat} (h : ∀ u ≤ time, GroupAgrees env key rows u) :
    tallyUpTo env key rows time =
      ledgerSumOf env (fun u => decide (u ≤ time)) (orderFills env key rows) := by
  induction time using Nat.strong_induction_on with
  | _ time ih =>
    refine (upTo_iff time (before_eq fun u hu => ih u hu fun v hv => ?_)).mpr (h time le_rfl)
    exact h v (hv.trans hu.le)

/-- **The ledgers agree throughout an order's history exactly when they agree on
what each timestamp brings.** -/
theorem agreesThroughout_iff (h : Accepted env key symbol side e m rows) :
    (∀ time, Agrees env key symbol side (upTo time rows)) ↔ ∀ time, GroupAgrees env key rows time := by
  constructor
  · intro hagrees time
    have heq : ∀ u, tallyUpTo env key rows u =
        ledgerSumOf env (fun v => decide (v ≤ u)) (orderFills env key rows) :=
      fun u => (h.agrees_iff u).mp (hagrees u)
    exact (upTo_iff time (before_eq fun u _ => heq u)).mp (heq time)
  · intro hgroup time
    exact (h.agrees_iff time).mpr (upTo_eq fun u _ => hgroup u)

end

/-! ## A trade reported twice -/

def robotKey : OrderKey := ⟨"acct", "B0123456789abcdef0123456789abcdef01"⟩

/-- A quantity of one. -/
def oneLot : FiniteDecimal := ⟨false, 1, 0, .one⟩

theorem oneLot_value : oneLot.value = 1 := by
  simp [FiniteDecimal.value, FiniteDecimal.signed, oneLot]

/-- A fill of one unit. -/
def unitBuy (eventId tradeId : String) (time : Nat) : LedgerRow where
  event :=
    { eventId
      nodeId := "node"
      accountId := robotKey.accountId
      intentId := none
      clientOrderId := some robotKey.clientOrderId
      venueOrderId := none
      tradeId := some tradeId
      eventType := "OrderFilled"
      tsEvent := time
      tsIngest := time
      payload := ((Dict.empty.set "symbol" (.str "BTCUSDT")).set "side" (.str "BUY")).set "last_qty"
        (.str "1") }
  createdAt := time
  projectionInstrument := none

/-- Two fills of an order, the second of the given trade. -/
def twoBuys (second : String) : List LedgerRow := [unitBuy "a" "1" 1, unitBuy "b" second 2]

variable (second eventId tradeId : String) (time : Nat)

theorem twoBuys_fills :
    orderFills Env.plain robotKey (twoBuys second) =
      [(unitBuy "a" "1" 1).event, (unitBuy "b" second 2).event] := by
  rfl

theorem unitBuy_numbers :
    fillNumbers Env.plain.unicode (unitBuy eventId tradeId time).event =
      .ok ⟨none, some oneLot, none, none⟩ := by
  rfl

theorem unitBuy_report :
    (fillReport Env.plain.unicode (unitBuy eventId tradeId time).event).anchor = 0 ∧
      (fillReport Env.plain.unicode (unitBuy eventId tradeId time).event).delta = 1 ∧
      (deltaReport Env.plain.unicode (unitBuy eventId tradeId time).event).delta = 1 := by
  have hnumbers := rowNumbers_eq (unitBuy_numbers eventId tradeId time)
  have hamount : amount (some oneLot) = 1 := by
    rw [amount_of_nonneg (by rw [oneLot_value]; norm_num), oneLot_value]
  refine ⟨?_, ?_, ?_⟩
  · rw [fillReport, hnumbers]
    rfl
  · rw [fillReport, hnumbers]
    show (if 0 < amount none then 0 else amount (some oneLot)) = 1
    rw [if_neg (by simp [amount]), hamount]
  · show amount (rowNumbers Env.plain.unicode (unitBuy eventId tradeId time).event).delta = 1
    rw [hnumbers]
    exact hamount

theorem unitBuy_amount : ledgerAmount Env.plain (unitBuy eventId tradeId time).event = 1 := by
  have hquantity : fillQuantity Env.plain.unicode (unitBuy eventId tradeId time).event.payload =
      .ok oneLot := by rfl
  rw [ledgerAmount, hquantity]
  exact oneLot_value

theorem unitBuy_signedValue :
    signedValue Env.plain "BTCUSDT" (unitBuy eventId tradeId time) = 1 := by
  have hsigned : signedFillQuantity Env.plain (unitBuy eventId tradeId time).event.payload =
      .ok oneLot := by rfl
  rw [signedValue, if_pos ⟨rfl, rfl⟩, hsigned]
  exact oneLot_value

theorem exists_ok {x : Except LedgerFailure OwnershipBalance} (h : x.isOk = true) : ∃ b, x = .ok b := by
  cases x with
  | error failure => cases h
  | ok b => exact ⟨b, rfl⟩

theorem twoBuys_loads {second : String} (hsecond : second = "1" ∨ second = "2") (time : Nat) :
    (∃ b, loadRobotOwnedBalance Env.plain Dict.empty robotKey.accountId (upTo time (twoBuys second))
      "BTCUSDT" = .ok b) ∧
    ∃ b, loadRobotOwnedBalance Env.plain Dict.empty robotKey.accountId
      (without robotKey (upTo time (twoBuys second))) "BTCUSDT" = .ok b := by
  have hcases : upTo time (twoBuys second) = [] ∨ upTo time (twoBuys second) = [unitBuy "a" "1" 1] ∨
      upTo time (twoBuys second) = twoBuys second := by
    by_cases h1 : 1 ≤ time
    · by_cases h2 : 2 ≤ time
      · simp [upTo, twoBuys, unitBuy, h1, h2]
      · simp [upTo, twoBuys, unitBuy, h1, h2]
    · have h2 : ¬ 2 ≤ time := by omega
      simp [upTo, twoBuys, unitBuy, h1, h2]
  rcases hcases with h | h | h <;> rw [h]
  · exact ⟨exists_ok (by decide +kernel), exists_ok (by decide +kernel)⟩
  · exact ⟨exists_ok (by decide +kernel), exists_ok (by decide +kernel)⟩
  · rcases hsecond with rfl | rfl
    · exact ⟨exists_ok (by decide +kernel), exists_ok (by decide +kernel)⟩
    · exact ⟨exists_ok (by decide +kernel), exists_ok (by decide +kernel)⟩

theorem twoBuys_accepted {second : String} (hsecond : second = "1" ∨ second = "2") :
    Accepted Env.plain robotKey "BTCUSDT" .buy 0 0 (twoBuys second) := by
  have hlimit : (10 : ℚ) < limit 0 := by norm_num [limit, prec]
  have hone : Whole 0 (1 : ℚ) := ⟨1, by simp⟩
  have hrows : ∀ row ∈ twoBuys second, ∃ eventId tradeId time,
      row = unitBuy eventId tradeId time := by
    intro row hrow
    simp only [twoBuys, List.mem_cons, List.not_mem_nil, or_false] at hrow
    rcases hrow with rfl | rfl
    · exact ⟨"a", "1", 1, rfl⟩
    · exact ⟨"b", second, 2, rfl⟩
  have hfills : ∀ row ∈ orderFills Env.plain robotKey (twoBuys second),
      ∃ eventId tradeId time, row = (unitBuy eventId tradeId time).event := by
    intro row hrow
    rw [twoBuys_fills] at hrow
    simp only [List.mem_cons, List.not_mem_nil, or_false] at hrow
    rcases hrow with rfl | rfl
    · exact ⟨"a", "1", 1, rfl⟩
    · exact ⟨"b", second, 2, rfl⟩
  have hdeltas : added (fun _ => true) ∅ ((orderFills Env.plain robotKey (twoBuys second)).map
      (deltaReport Env.plain.unicode)) ≤ 2 := by
    rw [twoBuys_fills]
    simp only [List.map_cons, List.map_nil, added, (unitBuy_report _ _ _).2.2]
    split_ifs <;> norm_num
  constructor
  case robot => decide
  case ids => simp [twoBuys, unitBuy]
  case whole =>
    intro row hrow _
    obtain ⟨eventId, tradeId, time, rfl⟩ := hrows row hrow
    simp [unitBuy]
  case readable =>
    intro row hrow
    obtain ⟨eventId, tradeId, time, rfl⟩ := hfills row hrow
    obtain ⟨hanchor, hdelta, hdelta'⟩ := unitBuy_report eventId tradeId time
    refine ⟨?_, ⟨?_, ?_⟩, ?_, ?_⟩
    · rw [rowNumbers_eq (unitBuy_numbers eventId tradeId time)]
      exact unitBuy_numbers eventId tradeId time
    · rw [hanchor]
      exact Whole.zero 0
    · rw [hdelta]
      exact hone
    · change Whole 0 (deltaReport Env.plain.unicode (unitBuy eventId tradeId time).event).delta
      rw [hdelta']
      exact hone
    · rw [rowNumbers_eq (unitBuy_numbers eventId tradeId time)]
      intro p hp
      cases hp
  case named =>
    intro row hrow _ _
    obtain ⟨eventId, tradeId, time, rfl⟩ := hrows row hrow
    rfl
  case sided =>
    intro row hrow
    obtain ⟨eventId, tradeId, time, rfl⟩ := hfills row hrow
    rfl
  case counted =>
    intro row hrow
    obtain ⟨eventId, tradeId, time, rfl⟩ := hfills row hrow
    refine ⟨oneLot, rfl, ?_, ?_⟩
    · rw [oneLot_value]
      exact hone
    · rw [oneLot_value]
      linarith
  case ledger =>
    refine ⟨⟨by decide, by decide⟩, by decide, fun row hrow => ?_, ?_⟩
    · obtain ⟨eventId, tradeId, time, rfl⟩ := hrows row hrow
      rw [unitBuy_signedValue]
      exact ⟨1, by simp⟩
    · simp only [twoBuys, List.map_cons, List.map_nil, unitBuy_signedValue, List.sum_cons, List.sum_nil]
      norm_num
      linarith
  case prices => exact ⟨⟨by decide, by decide⟩, ⟨by decide, by decide⟩, by decide, by decide⟩
  case deltas => linarith
  case totals =>
    intro row hrow
    obtain ⟨eventId, tradeId, time, rfl⟩ := hfills row hrow
    rw [(unitBuy_report eventId tradeId time).1]
    linarith
  case loads => exact twoBuys_loads hsecond

/-- The two fills differ only where the second reports the trade of the first. -/
theorem twoBuys_group :
    GroupAgrees Env.plain robotKey (twoBuys second) time ↔ (time = 2 → second ≠ "1") := by
  have hanchor : anchorAt time ((orderFills Env.plain robotKey (twoBuys second)).map
      (fillReport Env.plain.unicode)) = 0 := by
    rw [twoBuys_fills]
    unfold anchorAt
    simp only [List.map_cons, List.map_nil, List.filter_cons, List.filter_nil]
    split_ifs <;> simp [(unitBuy_report _ _ _).1]
  have hadded : added (fun u => decide (u = time)) ∅
      ((orderFills Env.plain robotKey (twoBuys second)).map (fillReport Env.plain.unicode)) =
        (if 1 = time then 1 else 0) + (if second ≠ "1" ∧ 2 = time then 1 else 0) := by
    have hfirst : (fillReport Env.plain.unicode (unitBuy "a" "1" 1).event).identity = .trade "1" := by rfl
    have hsecond : (fillReport Env.plain.unicode (unitBuy "b" second 2).event).identity = .trade "1" ↔
        second = "1" := by
      show fillIdentity (unitBuy "b" second 2).event = .trade "1" ↔ _
      by_cases hempty : second = ""
      · subst hempty
        decide
      · simp [fillIdentity, nonEmpty, unitBuy, hempty]
    have htime1 : (fillReport Env.plain.unicode (unitBuy "a" "1" 1).event).time = 1 := rfl
    have htime2 : (fillReport Env.plain.unicode (unitBuy "b" second 2).event).time = 2 := rfl
    rw [twoBuys_fills]
    simp only [List.map_cons, List.map_nil, added, (unitBuy_report _ _ _).2.1, hfirst, htime1, htime2,
      Finset.notMem_empty, not_false_eq_true, true_and, decide_eq_true_eq, insert_empty_eq,
      Finset.mem_singleton, hsecond, add_zero, ne_eq]
  have hledger : ∀ p : Nat → Bool,
      ledgerSumOf Env.plain p (orderFills Env.plain robotKey (twoBuys second)) =
        (if p 1 then 1 else 0) + (if p 2 then 1 else 0) := by
    intro p
    rw [twoBuys_fills]
    unfold ledgerSumOf
    have h1 : (unitBuy "a" "1" 1).event.tsEvent = 1 := rfl
    have h2 : (unitBuy "b" second 2).event.tsEvent = 2 := rfl
    simp only [List.filter_cons, List.filter_nil, h1, h2]
    split_ifs <;> simp [unitBuy_amount]
  unfold GroupAgrees
  simp only [hanchor, hadded, hledger, decide_eq_true_eq]
  rcases lt_trichotomy time 2 with h | rfl | h
  · rcases Nat.lt_or_ge time 1 with h' | h'
    · simp [show time = 0 by omega]
    · simp [show time = 1 by omega]
  · by_cases hsame : second = "1" <;> norm_num [hsame]
  · have h1 : ¬ 1 = time := by omega
    have h2 : ¬ 2 = time := by omega
    have h3 : 1 < time := by omega
    norm_num [h, h1, h2, h3, h.ne']

theorem agreesThroughout_twoTrades :
    Accepted Env.plain robotKey "BTCUSDT" .buy 0 0 (twoBuys "2") ∧
      ∀ time, Agrees Env.plain robotKey "BTCUSDT" .buy (upTo time (twoBuys "2")) := by
  have haccepted := twoBuys_accepted (.inr rfl)
  refine ⟨haccepted, (agreesThroughout_iff haccepted).mpr fun time => ?_⟩
  exact (twoBuys_group "2" time).mpr fun _ => by decide

/-- The projection counts the trade once, the ledger twice. -/
theorem ledger_counts_trade_twice :
    Accepted Env.plain robotKey "BTCUSDT" .buy 0 0 (twoBuys "1") ∧
      ¬ Agrees Env.plain robotKey "BTCUSDT" .buy (twoBuys "1") := by
  have haccepted := twoBuys_accepted (.inl rfl)
  refine ⟨haccepted, fun hagrees => ?_⟩
  have hall : upTo 2 (twoBuys "1") = twoBuys "1" := by rfl
  have hearlier : ∀ u < 2, tallyUpTo Env.plain robotKey (twoBuys "1") u =
      ledgerSumOf Env.plain (fun v => decide (v ≤ u)) (orderFills Env.plain robotKey (twoBuys "1")) := by
    intro u hu
    refine upTo_eq fun v hv => (twoBuys_group "1" v).mpr fun h2 => ?_
    omega
  rw [← hall, haccepted.agrees_iff, upTo_iff 2 (before_eq hearlier), twoBuys_group] at hagrees
  exact hagrees rfl rfl

end TraderBot.Ownership
