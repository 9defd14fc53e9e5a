import TraderBot.Ownership.Rebaseline

/-! # Rebaselining is conservative

A balance is what the latest rebaseline of its symbol says and the fills strictly
after it, and a further rebaseline that says what the balance came to at its own
position changes no balance (`rebaseline_conservative`). Both hold while the
amounts stay within the decimal context: `1E+28` and `1` come to `1E+28`
(`rounded_away`). -/
namespace TraderBot.Ownership
open TraderBot.Lib TraderBot.Lib.Text TraderBot.Lib.Json TraderBot.Lib.Decimal TraderBot.Orders

/-! ## One turn, with two sets of rebaselines -/

/-- The symbol a row is counted in. -/
def countedIn (env : Env) (baselines : Dict Baseline) (row : LedgerRow) : Option String :=
  let symbol := fillSymbol env row.event.payload row.projectionInstrument
  if row.event.clientOrderId.any isRobotClientOrderId = true ∧ symbol ≠ "" ∧
      covered (baselines.get? symbol) row = false then some symbol
  else none

section
variable {env : Env} {baselines baselines' : Dict Baseline} {row : LedgerRow} {s : String} {e : Int}
  {totals totals' next next' : Dict (FiniteDecimal × Nat)}

theorem addFill_eq : addFill env baselines totals row =
    match countedIn env baselines row with
    | none => .ok totals
    | some symbol => do
      let signed ← signedFillQuantity env row.event.payload
      let current := (totals.get? symbol).getD (.zero, 0)
      let total ← ledgerSum current.1 signed
      return totals.set symbol (total, current.2 + 1) := by
  unfold addFill countedIn
  dsimp only
  cases hrobot : row.event.clientOrderId.any isRobotClientOrderId with
  | false => rw [if_pos rfl, if_neg fun hc => Bool.false_ne_true hc.1]
  | true =>
    rw [if_neg (by simp)]
    by_cases hname : fillSymbol env row.event.payload row.projectionInstrument = ""
    · rw [if_pos hname, if_neg fun hc => hc.2.1 hname]
    · rw [if_neg hname]
      cases hcovered : covered (baselines.get? (fillSymbol env row.event.payload
          row.projectionInstrument)) row with
      | true => rw [if_pos rfl, if_neg fun hc => by cases hc.2.2]
      | false => rw [if_neg Bool.false_ne_true, if_pos ⟨rfl, hname, rfl⟩]

theorem countedIn_symbol {symbol : String} (h : countedIn env baselines row = some symbol) :
    fillSymbol env row.event.payload row.projectionInstrument = symbol := by
  unfold countedIn at h
  dsimp only at h
  split_ifs at h with hc
  exact Option.some.inj h

/-- Where the rebaselines differ in one symbol only, so does what a row is counted in. -/
theorem countedIn_or (row : LedgerRow) (hsame : ∀ t, t ≠ s → baselines'.get? t = baselines.get? t) :
    countedIn env baselines' row = countedIn env baselines row ∨
      fillSymbol env row.event.payload row.projectionInstrument = s := by
  by_cases hs : fillSymbol env row.event.payload row.projectionInstrument = s
  · exact .inr hs
  · left
    unfold countedIn
    dsimp only
    rw [hsame _ hs]

/-- One turn sets no symbol but the row's. -/
theorem addFill_other {t : String} (h : addFill env baselines totals row = .ok next)
    (ht : t ≠ fillSymbol env row.event.payload row.projectionInstrument) :
    next.get? t = totals.get? t := by
  rw [addFill_eq] at h
  cases hcounted : countedIn env baselines row with
  | none =>
    rw [hcounted] at h
    cases h
    rfl
  | some symbol =>
    rw [hcounted] at h
    obtain ⟨signed, -, h⟩ := bind_ok h
    obtain ⟨total, -, h⟩ := bind_ok h
    rw [← pure_ok h]
    exact Dict.get?_set_ne (by rw [← countedIn_symbol hcounted]; exact ht)

/-- One turn keeps the totals of the other symbols the same. -/
theorem addFill_same (hsame : ∀ t, t ≠ s → baselines'.get? t = baselines.get? t)
    (htotals : ∀ t, t ≠ s → totals'.get? t = totals.get? t)
    (h : addFill env baselines totals row = .ok next)
    (h' : addFill env baselines' totals' row = .ok next') :
    ∀ t, t ≠ s → next'.get? t = next.get? t := by
  intro t ht
  rcases countedIn_or row hsame with hcounted | hs
  · rw [addFill_eq, hcounted] at h'
    rw [addFill_eq] at h
    cases hin : countedIn env baselines row with
    | none =>
      rw [hin] at h h'
      cases h
      cases h'
      exact htotals t ht
    | some symbol =>
      rw [hin] at h h'
      obtain ⟨signed, hsigned, h⟩ := bind_ok h
      obtain ⟨total, htotal, h⟩ := bind_ok h
      obtain ⟨signed', hsigned', h'⟩ := bind_ok h'
      obtain ⟨total', htotal', h'⟩ := bind_ok h'
      rw [← pure_ok h, ← pure_ok h', Dict.get?_set, Dict.get?_set]
      split_ifs with hsymbol
      · subst hsymbol
        rw [hsigned] at hsigned'
        cases hsigned'
        rw [htotals t ht, htotal] at htotal'
        cases htotal'
        rw [htotals t ht]
      · exact htotals t ht
  · rw [addFill_other h (by rw [hs]; exact ht), addFill_other h' (by rw [hs]; exact ht)]
    exact htotals t ht

/-- One turn goes through where it did and the symbol's new total fits. -/
theorem addFill_goes (he : InContext e) (hsame : ∀ t, t ≠ s → baselines'.get? t = baselines.get? t)
    (hmore : covered (baselines.get? s) row = true → covered (baselines'.get? s) row = true)
    (htotals : ∀ t, t ≠ s → totals'.get? t = totals.get? t)
    (hunits : Units e (totalOf totals' s + countedValue env baselines' s row))
    (hlt : |totalOf totals' s + countedValue env baselines' s row| < limit e)
    (h : addFill env baselines totals row = .ok next) :
    ∃ next', addFill env baselines' totals' row = .ok next' := by
  rw [addFill_eq] at h
  rw [addFill_eq]
  cases hin : countedIn env baselines' row with
  | none => exact ⟨totals', rfl⟩
  | some symbol =>
    have hsymbol := countedIn_symbol hin
    have hcounted : countedIn env baselines row = some symbol := by
      rcases countedIn_or row hsame with hc | hs
      · rw [← hc, hin]
      · -- a row that the new rebaseline leaves is one that the old one left
        unfold countedIn at hin ⊢
        dsimp only at hin ⊢
        rw [hs] at hin ⊢
        split_ifs at hin with hc
        rw [if_pos ⟨hc.1, hc.2.1, by
          by_contra hcovered
          rw [Bool.not_eq_false] at hcovered
          rw [hmore hcovered] at hc
          cases hc.2.2⟩]
        exact hin
    rw [hcounted] at h
    obtain ⟨signed, hsigned, h⟩ := bind_ok h
    obtain ⟨total, htotal, h⟩ := bind_ok h
    dsimp only
    rw [hsigned, ok_bind]
    by_cases hs : symbol = s
    · have hvalue : countedValue env baselines' s row = signed.value := by
        unfold countedIn at hin
        dsimp only at hin
        split_ifs at hin with hc
        rw [hsymbol, hs] at hc
        rw [countedValue, if_neg (by rw [hc.2.2]; exact Bool.false_ne_true), signedValue,
          if_pos ⟨hc.1, hsymbol.trans hs⟩, hsigned]
      rw [hvalue] at hunits hlt
      obtain ⟨c, hc, -⟩ := add_exact he (hunits.fits hlt)
      rw [hs, ledgerSum, show Decimal.add ((totals'.get? s).getD (.zero, 0)).1 signed = some c from hc]
      exact ⟨_, rfl⟩
    · rw [htotals symbol hs, htotal]
      exact ⟨_, rfl⟩

/-! ## A whole load, with two sets of rebaselines -/

theorem foldlM_same (hsame : ∀ t, t ≠ s → baselines'.get? t = baselines.get? t)
    (htotals : ∀ t, t ≠ s → totals'.get? t = totals.get? t) {rows : List LedgerRow}
    (h : rows.foldlM (addFill env baselines) totals = .ok next)
    (h' : rows.foldlM (addFill env baselines') totals' = .ok next') :
    ∀ t, t ≠ s → next'.get? t = next.get? t := by
  induction rows generalizing totals totals' with
  | nil =>
    cases pure_ok h
    cases pure_ok h'
    exact htotals
  | cons row rows ih =>
    rw [List.foldlM_cons] at h h'
    obtain ⟨mid, hmid, h⟩ := bind_ok h
    obtain ⟨mid', hmid', h'⟩ := bind_ok h'
    exact ih (addFill_same hsame htotals hmid hmid') h h'

theorem foldlM_goes (he : InContext e) (hs : s ≠ "")
    (hsame : ∀ t, t ≠ s → baselines'.get? t = baselines.get? t)
    (hmore : ∀ row, covered (baselines.get? s) row = true → covered (baselines'.get? s) row = true)
    (htotals : ∀ t, t ≠ s → totals'.get? t = totals.get? t) {rows : List LedgerRow}
    (hrows : ∀ row ∈ rows, Units e (signedValue env s row)) (hunits : Units e (totalOf totals' s))
    (hlt : |totalOf totals' s| + (rows.map fun row => |countedValue env baselines' s row|).sum < limit e)
    (h : rows.foldlM (addFill env baselines) totals = .ok next) :
    ∃ next', rows.foldlM (addFill env baselines') totals' = .ok next' := by
  induction rows generalizing totals totals' with
  | nil => exact ⟨totals', rfl⟩
  | cons row rows ih =>
    rw [List.foldlM_cons] at h
    obtain ⟨mid, hmid, h⟩ := bind_ok h
    rw [List.map_cons, List.sum_cons] at hlt
    have hrest : 0 ≤ (rows.map fun row => |countedValue env baselines' s row|).sum := by
      refine List.sum_nonneg fun x hx => ?_
      obtain ⟨r, -, rfl⟩ := List.mem_map.mp hx
      exact abs_nonneg _
    have habs := abs_add_le (totalOf totals' s) (countedValue env baselines' s row)
    have hsum := hunits.add ((hrows row (by simp)).counted baselines')
    obtain ⟨mid', hmid'⟩ := addFill_goes he hsame (hmore row) htotals hsum (by linarith) hmid
    have hone := addFill_total he hs hsum (by linarith) hmid'
    rw [List.foldlM_cons, hmid', ok_bind]
    exact ih (addFill_same hsame htotals hmid hmid') (fun r hr => hrows r (List.mem_cons_of_mem _ hr))
      (by rw [hone]; exact hsum) (by rw [hone]; linarith) h

variable {accountId : String} {rows : List LedgerRow} {balances balances' : List OwnershipBalance}

theorem balanceOf_same (hbaseline : baselines'.get? s = baselines.get? s)
    (htotal : totals'.get? s = totals.get? s) :
    balanceOf baselines' totals' s = balanceOf baselines totals s := by
  unfold balanceOf
  rw [hbaseline, htotal]

theorem mem_balanceSymbols_same (hbaseline : baselines'.get? s = baselines.get? s)
    (htotal : totals'.get? s = totals.get? s) :
    s ∈ balanceSymbols baselines' totals' ↔ s ∈ balanceSymbols baselines totals := by
  rw [mem_balanceSymbols, mem_balanceSymbols, hbaseline, htotal]

/-- Two loads with rebaselines that differ in one symbol differ in that symbol only. -/
theorem loadRobotOwnedBalances_same (hsame : ∀ t, t ≠ s → baselines'.get? t = baselines.get? t)
    (h : loadRobotOwnedBalances env baselines accountId rows = .ok balances)
    (h' : loadRobotOwnedBalances env baselines' accountId rows = .ok balances') :
    ∀ t, t ≠ s → quantityOf balances' t = quantityOf balances t := by
  intro t ht
  unfold loadRobotOwnedBalances at h h'
  obtain ⟨totals, htotals, h⟩ := bind_ok h
  obtain ⟨totals', htotals', h'⟩ := bind_ok h'
  have htotal := foldlM_same hsame (fun _ _ => rfl) htotals htotals' t ht
  have hmem := mem_balanceSymbols_same (hsame t ht) htotal
  by_cases ht' : t ∈ balanceSymbols baselines totals
  · obtain ⟨b, hb, hquantity⟩ := quantityOf_found h ht'
    obtain ⟨b', hb', hquantity'⟩ := quantityOf_found h' (hmem.mpr ht')
    rw [balanceOf_same (hsame t ht) htotal, hb] at hb'
    cases hb'
    rw [hquantity, hquantity']
  · rw [quantityOf_absent h ht', quantityOf_absent h' (mt hmem.mp ht')]

/-- A load goes through where it did and the symbol's new balance fits. -/
theorem loadRobotOwnedBalances_goes (hsame : ∀ t, t ≠ s → baselines'.get? t = baselines.get? t)
    (hmore : ∀ row, covered (baselines.get? s) row = true → covered (baselines'.get? s) row = true)
    (hfits : LedgerFits env e s (rows.filter (isRobotFill accountId)))
    (hunits : Units e (baselineValue baselines' s))
    (hlt : |baselineValue baselines' s| + ((rows.filter (isRobotFill accountId)).map
      fun row => |countedValue env baselines' s row|).sum < limit e)
    (h : loadRobotOwnedBalances env baselines accountId rows = .ok balances) :
    ∃ balances', loadRobotOwnedBalances env baselines' accountId rows = .ok balances' := by
  unfold loadRobotOwnedBalances at h ⊢
  obtain ⟨totals, htotals, h⟩ := bind_ok h
  set sorted := (rows.filter (isRobotFill accountId)).insertionSort (ledgerBefore env) with hsorted
  have hperm : sorted.Perm (rows.filter (isRobotFill accountId)) := List.perm_insertionSort _ _
  have hstart : totalOf Dict.empty s = 0 := FiniteDecimal.zero_value
  have hpositive := abs_nonneg (baselineValue baselines' s)
  obtain ⟨totals', htotals'⟩ : ∃ totals', sorted.foldlM (addFill env baselines') Dict.empty = .ok totals' := by
    refine foldlM_goes hfits.place hfits.named hsame hmore (fun _ _ => rfl)
      (fun row hrow => hfits.units row (hperm.mem_iff.mp hrow)) (by rw [hstart]; exact Units.zero e) ?_ htotals
    rw [hstart, abs_zero, zero_add, (hperm.map _).sum_eq]
    linarith
  have htotal := fillTotals_total hfits htotals'
  rw [fillTotals, htotals', ok_bind]
  refine mapM_total fun t ht => ?_
  by_cases hts : t = s
  · subst hts
    have hcounted : |countedTotal env baselines' accountId t rows| ≤ _ := abs_sum_le _ _
    have hsum : Units e (baselineValue baselines' t + totalOf totals' t) := by
      rw [htotal]
      exact hunits.add (sum_units fun row hrow => (hfits.units row hrow).counted baselines')
    have hbound : |baselineValue baselines' t + totalOf totals' t| < limit e := by
      rw [htotal]
      exact (abs_add_le _ _).trans_lt (by linarith)
    obtain ⟨c, hc, -⟩ := add_exact hfits.place (hsum.fits hbound)
    unfold balanceOf
    dsimp only
    rw [ledgerSum, show Decimal.add (((baselines'.get? t).map Baseline.quantity).getD .zero)
      ((totals'.get? t).getD (.zero, 0)).1 = some c from hc]
    exact ⟨_, rfl⟩
  · have hget := foldlM_same hsame (fun _ _ => rfl) htotals htotals' t hts
    obtain ⟨b, -, hb⟩ := (mapM_ok h).2 t ((mem_balanceSymbols_same (hsame t hts) hget).mp ht)
    exact ⟨b, by rw [balanceOf_same (hsame t hts) hget, hb]⟩

end

/-! ## The rebaselines of an account -/

def rebaselines (accountId : String) (rows : List LedgerRow) : List LedgerRow :=
  rows.filter (isRebaseline accountId)

section
variable {env : Env} {accountId : String} {rows : List LedgerRow} {e : Int}
  {baselines baselines' : Dict OwnershipBaseline} {balances : List OwnershipBalance}

/-- What is loaded for a symbol is its latest rebaseline. -/
theorem loadLatest_isLatest (hcollates : Collates env rows)
    (h : loadLatestOwnershipBaselines env accountId rows = .ok baselines) (symbol : String) :
    IsLatest env accountId (rebaselines accountId rows) symbol (baselines.get? symbol) := by
  refine ((foldlM_keepLatest (latestFirst_sorted hcollates) h).2 rfl).congr fun b _ => ?_
  simp only [(latestFirst_perm rows).mem_iff, rebaselines]

theorem loadLatest_parses (h : loadLatestOwnershipBaselines env accountId rows = .ok baselines) :
    ∀ row ∈ rebaselines accountId rows, ∃ b, parseBaseline env accountId row = .ok b := by
  intro row hrow
  obtain ⟨before, after, hturn⟩ := foldlM_turn h row ((latestFirst_perm rows).mem_iff.mpr hrow)
  obtain ⟨b, hb, -⟩ := keepLatest_ok hturn
  exact ⟨b, hb⟩

theorem loadLatest_total
    (h : ∀ row ∈ rebaselines accountId rows, ∃ b, parseBaseline env accountId row = .ok b) :
    ∃ baselines, loadLatestOwnershipBaselines env accountId rows = .ok baselines := by
  have hgoes (markers : List LedgerRow) (baselines : Dict OwnershipBaseline)
      (hall : ∀ row ∈ markers, ∃ b, parseBaseline env accountId row = .ok b) :
      ∃ baselines', markers.foldlM (keepLatest env accountId) baselines = .ok baselines' := by
    induction markers generalizing baselines with
    | nil => exact ⟨baselines, rfl⟩
    | cons row markers ih =>
      obtain ⟨b, hb⟩ := hall row List.mem_cons_self
      rw [List.foldlM_cons, keepLatest, hb, ok_bind]
      exact ih _ fun row' hrow' => hall row' (List.mem_cons_of_mem _ hrow')
  exact hgoes _ _ fun row hrow => h row ((latestFirst_perm rows).mem_iff.mp hrow)

theorem loadRebasedBalances_ok (h : loadRebasedBalances env accountId true rows = .ok balances) :
    ∃ baselines, loadLatestOwnershipBaselines env accountId rows = .ok baselines ∧
      loadRobotOwnedBalances env (baselines.map OwnershipBaseline.toBaseline) accountId rows = .ok balances := by
  unfold loadRebasedBalances at h
  obtain ⟨baselines, hbaselines, h⟩ := bind_ok h
  exact ⟨baselines, hbaselines, h⟩

theorem loadRebasedBalances_of (h : loadLatestOwnershipBaselines env accountId rows = .ok baselines) :
    loadRebasedBalances env accountId true rows =
      loadRobotOwnedBalances env (baselines.map OwnershipBaseline.toBaseline) accountId rows := by
  unfold loadRebasedBalances
  rw [if_pos rfl, h, ok_bind]

/-! ## Quantities within the context -/

/-- What a symbol may start from: nothing, or what a rebaseline of it says. -/
def StartsFrom (env : Env) (accountId : String) (rows : List LedgerRow) (symbol : String) (q : ℚ) : Prop :=
  q = 0 ∨ ∃ row ∈ rebaselines accountId rows, ∃ b, parseBaseline env accountId row = .ok b ∧
    b.symbol = symbol ∧ q = b.quantity.value

/-- Fills and rebaselines in whole units of a place, together below the limit. -/
structure BalancesFit (env : Env) (e : Int) (accountId : String) (rows : List LedgerRow) : Prop where
  place : InContext e
  fills : ∀ symbol, ∀ row ∈ rows.filter (isRobotFill accountId), Units e (signedValue env symbol row)
  starts : ∀ symbol q, StartsFrom env accountId rows symbol q → Units e q
  total : ∀ symbol q, StartsFrom env accountId rows symbol q →
    |q| + ((rows.filter (isRobotFill accountId)).map fun row => |signedValue env symbol row|).sum < limit e

variable {symbol : String}

theorem BalancesFit.ledger (h : BalancesFit env e accountId rows) (hsymbol : symbol ≠ "") :
    LedgerFits env e symbol (rows.filter (isRobotFill accountId)) where
  place := h.place
  named := hsymbol
  units := h.fills symbol
  total := by simpa using h.total symbol 0 (.inl rfl)

theorem BalancesFit.filter (h : BalancesFit env e accountId rows) (p : LedgerRow → Bool) :
    BalancesFit env e accountId (rows.filter p) := by
  have hstart {symbol : String} {q : ℚ} (hq : StartsFrom env accountId (rows.filter p) symbol q) :
      StartsFrom env accountId rows symbol q := by
    refine hq.imp id fun hfrom => ?_
    obtain ⟨row, hrow, b, hb⟩ := hfrom
    exact ⟨row, (List.filter_sublist.filter _).subset hrow, b, hb⟩
  refine ⟨h.place, fun symbol row hrow => h.fills symbol row ((List.filter_sublist.filter _).subset hrow),
    fun symbol q hq => h.starts symbol q (hstart hq), fun symbol q hq => ?_⟩
  rw [List.filter_comm]
  exact (add_le_add le_rfl (sum_filter_le p)).trans_lt (h.total symbol q (hstart hq))

/-- What the latest rebaseline says. -/
def startingValue (latest : Option OwnershipBaseline) : ℚ := (latest.map fun b => b.quantity.value).getD 0

theorem startingValue_eq :
    baselineValue (baselines.map OwnershipBaseline.toBaseline) symbol = startingValue (baselines.get? symbol) := by
  unfold baselineValue startingValue
  rw [Dict.get?_map]
  cases baselines.get? symbol with
  | none => exact FiniteDecimal.zero_value
  | some b => rfl

theorem IsLatest.startsFrom {latest : Option OwnershipBaseline}
    (h : IsLatest env accountId (rebaselines accountId rows) symbol latest) :
    StartsFrom env accountId rows symbol (startingValue latest) := by
  cases latest with
  | none => exact .inl rfl
  | some b =>
    obtain ⟨⟨row, hrow, hparse⟩, hsymbol, -⟩ := h
    exact .inr ⟨row, hrow, b, hparse, hsymbol, rfl⟩

/-! ## What a balance is -/

/-- Strictly after the cutoff of the latest rebaseline, where there is one. -/
def isAfter (latest : Option OwnershipBaseline) (row : LedgerRow) : Bool :=
  latest.all fun b => decide (b.cutoff < position row)

/-- What the fills strictly after the latest rebaseline of a symbol come to. -/
def fillsAfter (env : Env) (accountId symbol : String) (latest : Option OwnershipBaseline)
    (rows : List LedgerRow) : ℚ :=
  ((rows.filter fun row => isAfter latest row && isRobotFill accountId row).map (signedValue env symbol)).sum

theorem countedValue_eq {row : LedgerRow} :
    countedValue env (baselines.map OwnershipBaseline.toBaseline) symbol row =
      if isAfter (baselines.get? symbol) row then signedValue env symbol row else 0 := by
  unfold countedValue isAfter
  rw [Dict.get?_map]
  cases baselines.get? symbol with
  | none => rfl
  | some b =>
    rw [Option.map_some, Option.all_some]
    by_cases hcovered : position row ≤ b.cutoff
    · rw [if_pos (covered_iff.mpr hcovered), if_neg (by simpa using hcovered)]
    · rw [if_neg (mt covered_iff.mp hcovered), if_pos (by simpa using hcovered)]

theorem countedTotal_eq :
    countedTotal env (baselines.map OwnershipBaseline.toBaseline) accountId symbol rows =
      fillsAfter env accountId symbol (baselines.get? symbol) rows := by
  unfold countedTotal fillsAfter
  rw [← List.filter_filter]
  induction rows.filter (isRobotFill accountId) with
  | nil => rfl
  | cons row fills ih =>
    rw [List.map_cons, List.sum_cons, ih, countedValue_eq, List.filter_cons]
    split_ifs with hafter
    · rfl
    · rw [zero_add]

/-- **A balance is what the latest rebaseline says and the fills strictly after it.** -/
theorem balance_after_latest (hfits : BalancesFit env e accountId rows) (hsymbol : symbol ≠ "")
    (hcollates : Collates env rows)
    (hbaselines : loadLatestOwnershipBaselines env accountId rows = .ok baselines)
    (h : loadRobotOwnedBalances env (baselines.map OwnershipBaseline.toBaseline) accountId rows =
      .ok balances) :
    quantityOf balances symbol =
      startingValue (baselines.get? symbol) + fillsAfter env accountId symbol (baselines.get? symbol) rows := by
  have hstart := (loadLatest_isLatest hcollates hbaselines symbol).startsFrom
  rw [balance_value (hfits.ledger hsymbol) (by rw [startingValue_eq]; exact hfits.starts _ _ hstart) ?_ h,
    startingValue_eq, countedTotal_eq]
  rw [startingValue_eq]
  exact (add_le_add le_rfl (sum_counted_le _ _ _ _)).trans_lt (hfits.total _ _ hstart)

end

/-! ## Adding a rebaseline -/

section
variable {env : Env} {accountId : String} {rows : List LedgerRow} {e : Int} {marker : LedgerRow}
  {b : OwnershipBaseline} {baselines baselines' : Dict OwnershipBaseline}
  {balances balances' : List OwnershipBalance}

/-- The events up to the position of a row. -/
def through (marker : LedgerRow) (rows : List LedgerRow) : List LedgerRow :=
  rows.filter fun row => decide (position row ≤ position marker)

/-- A new event of an account that is a rebaseline. -/
structure IsNewMarker (env : Env) (accountId : String) (rows : List LedgerRow) (marker : LedgerRow) :
    Prop where
  account : marker.event.accountId = accountId
  eventType : marker.event.eventType = rebaselineEventType
  ids : ((marker :: rows).map fun row => row.event.eventId).Nodup
  collates : Collates env (marker :: rows)

/-- A new rebaseline, built to say what its symbol's balance came to at its own position. -/
structure StatesBalance (env : Env) (e : Int) (accountId : String) (rows : List LedgerRow)
    (request : RebaselineRequest) (marker : LedgerRow) : Prop
    extends IsNewMarker env accountId rows marker where
  built : buildRebaselinePayload env request = .ok marker.event.payload
  settled : canonicalSymbol env (some (.str (canonicalSymbol env (some (.str request.symbol))))) =
    canonicalSymbol env (some (.str request.symbol))
  stated : ∃ before baseline manual,
    loadRebasedBalances env accountId true (through marker rows) = .ok before ∧
      request.baselineQuantity = .finite baseline ∧ request.manualQuantity = .finite manual ∧
      baseline.value = quantityOf before (canonicalSymbol env (some (.str request.symbol))) ∧
      Fits e (baseline.value + manual.value)

theorem IsNewMarker.collates_rows (h : IsNewMarker env accountId rows marker) : Collates env rows :=
  fun a ha b hb => h.collates a (List.mem_cons_of_mem _ ha) b (List.mem_cons_of_mem _ hb)

theorem IsNewMarker.rebaselines_eq (h : IsNewMarker env accountId rows marker) :
    rebaselines accountId (marker :: rows) = marker :: rebaselines accountId rows :=
  List.filter_cons_of_pos (by simp [isRebaseline, h.account, h.eventType])

theorem IsNewMarker.fills_eq (h : IsNewMarker env accountId rows marker) :
    (marker :: rows).filter (isRobotFill accountId) = rows.filter (isRobotFill accountId) := by
  refine List.filter_cons_of_neg ?_
  rw [isRobotFill, h.eventType]
  simp [robotFillEventTypes, rebaselineEventType]

theorem IsNewMarker.load_eq {cutoffs : Dict Baseline} (h : IsNewMarker env accountId rows marker) :
    loadRobotOwnedBalances env cutoffs accountId (marker :: rows) =
      loadRobotOwnedBalances env cutoffs accountId rows := by
  unfold loadRobotOwnedBalances fillTotals
  rw [h.fills_eq]

theorem IsNewMarker.rebaselines_ids (h : IsNewMarker env accountId rows marker) :
    ((rebaselines accountId rows).map fun row => row.event.eventId).Nodup :=
  h.ids.of_cons.sublist (List.filter_sublist.map _)

variable {t : String}

/-- A new rebaseline of one symbol leaves the latest of the others. -/
theorem IsNewMarker.latest_other (h : IsNewMarker env accountId rows marker)
    (hparse : parseBaseline env accountId marker = .ok b)
    (hbaselines : loadLatestOwnershipBaselines env accountId rows = .ok baselines)
    (hbaselines' : loadLatestOwnershipBaselines env accountId (marker :: rows) = .ok baselines')
    (ht : t ≠ b.symbol) : baselines'.get? t = baselines.get? t := by
  have hlatest := loadLatest_isLatest h.collates hbaselines' t
  rw [h.rebaselines_eq] at hlatest
  refine IsLatest.unique h.rebaselines_ids (hlatest.congr fun other hother => ?_)
    (loadLatest_isLatest h.collates_rows hbaselines t)
  constructor
  · intro hfrom
    obtain ⟨row, hrow, hother'⟩ := hfrom
    cases hrow with
    | head =>
      rw [hparse] at hother'
      cases hother'
      exact absurd hother.symm ht
    | tail _ hrow => exact ⟨row, hrow, hother'⟩
  · intro hfrom
    obtain ⟨row, hrow, hother'⟩ := hfrom
    exact ⟨row, List.mem_cons_of_mem _ hrow, hother'⟩

/-- A new rebaseline is the latest of its symbol, or it changes no latest one. -/
theorem IsNewMarker.latest_own (h : IsNewMarker env accountId rows marker)
    (hparse : parseBaseline env accountId marker = .ok b)
    (hbaselines : loadLatestOwnershipBaselines env accountId rows = .ok baselines)
    (hbaselines' : loadLatestOwnershipBaselines env accountId (marker :: rows) = .ok baselines') :
    (baselines'.get? b.symbol = some b ∧ ∀ row ∈ rebaselines accountId rows, ∀ other,
        parseBaseline env accountId row = .ok other → other.symbol = b.symbol → other.cutoff ≤ b.cutoff) ∨
      baselines' = baselines := by
  have hlatest := loadLatest_isLatest h.collates hbaselines' b.symbol
  rw [h.rebaselines_eq] at hlatest
  cases hget : baselines'.get? b.symbol with
  | none =>
    rw [hget] at hlatest
    exact absurd rfl (hlatest marker List.mem_cons_self b hparse)
  | some latest =>
    rw [hget] at hlatest
    obtain ⟨⟨row, hrow, hrowParse⟩, hsymbol, hgreatest⟩ := hlatest
    cases hrow with
    | head =>
      rw [hparse] at hrowParse
      cases hrowParse
      exact .inl ⟨rfl, fun row hrow => hgreatest row (List.mem_cons_of_mem _ hrow)⟩
    | tail _ hrow =>
      refine .inr (Dict.ext_get? fun t => ?_)
      by_cases ht : t = b.symbol
      · subst ht
        rw [hget]
        have hkept : IsLatest env accountId (rebaselines accountId rows) b.symbol (some latest) :=
          ⟨⟨row, hrow, hrowParse⟩, hsymbol, fun row hrow => hgreatest row (List.mem_cons_of_mem _ hrow)⟩
        exact hkept.unique h.rebaselines_ids (loadLatest_isLatest h.collates_rows hbaselines b.symbol)
      · exact h.latest_other hparse hbaselines hbaselines' ht

/-- Markers of one symbol never affect another. -/
theorem marker_other (h : IsNewMarker env accountId rows marker)
    (hparse : parseBaseline env accountId marker = .ok b)
    (hload : loadRebasedBalances env accountId true rows = .ok balances)
    (hload' : loadRebasedBalances env accountId true (marker :: rows) = .ok balances')
    (ht : t ≠ b.symbol) : quantityOf balances' t = quantityOf balances t := by
  obtain ⟨baselines, hbaselines, hload⟩ := loadRebasedBalances_ok hload
  obtain ⟨baselines', hbaselines', hload'⟩ := loadRebasedBalances_ok hload'
  rw [h.load_eq] at hload'
  refine loadRobotOwnedBalances_same (s := b.symbol) (fun t ht => ?_) hload hload' t ht
  rw [Dict.get?_map, Dict.get?_map, h.latest_other hparse hbaselines hbaselines' ht]

/-- A sum in two parts, of which the second one counts only what the first one leaves. -/
theorem sum_split {p : LedgerRow → Bool} {value value' : LedgerRow → ℚ} (l : List LedgerRow)
    (hbefore : ∀ row, p row = true → value' row = 0)
    (hafter : ∀ row, p row = false → value' row = value row) :
    (l.map value).sum = ((l.filter p).map value).sum + (l.map value').sum := by
  induction l with
  | nil => simp
  | cons row l ih =>
    rw [List.map_cons, List.map_cons, List.sum_cons, List.sum_cons, List.filter_cons]
    cases hp : p row with
    | true =>
      rw [if_pos rfl, List.map_cons, List.sum_cons, hbefore row hp, ih]
      ring
    | false =>
      rw [if_neg Bool.false_ne_true, hafter row hp, ih]
      ring

end

section
variable {env : Env} {accountId : String} {rows : List LedgerRow} {e : Int} {marker : LedgerRow}
  {b : OwnershipBaseline} {baselines before : Dict OwnershipBaseline}
  {balances : List OwnershipBalance}

/-- Up to a new rebaseline that becomes the latest, the latest is the one it replaces. -/
theorem IsNewMarker.latest_through (h : IsNewMarker env accountId rows marker)
    (hparse : parseBaseline env accountId marker = .ok b)
    (hgreatest : ∀ row ∈ rebaselines accountId rows, ∀ other,
      parseBaseline env accountId row = .ok other → other.symbol = b.symbol → other.cutoff ≤ b.cutoff)
    (hbaselines : loadLatestOwnershipBaselines env accountId rows = .ok baselines)
    (hbefore : loadLatestOwnershipBaselines env accountId (through marker rows) = .ok before) :
    before.get? b.symbol = baselines.get? b.symbol := by
  have hcollates : Collates env (through marker rows) := fun x hx y hy =>
    h.collates_rows x (List.mem_of_mem_filter hx) y (List.mem_of_mem_filter hy)
  have hcutoff := parseBaseline_cutoff hparse
  refine IsLatest.unique h.rebaselines_ids
    ((loadLatest_isLatest hcollates hbefore b.symbol).congr fun other hother => ?_)
    (loadLatest_isLatest h.collates_rows hbaselines b.symbol)
  constructor
  · intro hfrom
    obtain ⟨row, hrow, hrowParse⟩ := hfrom
    exact ⟨row, (List.filter_sublist.filter _).subset hrow, hrowParse⟩
  · intro hfrom
    obtain ⟨row, hrow, hrowParse⟩ := hfrom
    have hle := hgreatest row hrow other hrowParse hother
    rw [parseBaseline_cutoff hrowParse, hcutoff] at hle
    refine ⟨row, ?_, hrowParse⟩
    unfold rebaselines through
    rw [List.filter_comm]
    exact List.mem_filter.mpr ⟨hrow, decide_eq_true hle⟩

/-- What the fills up to a new latest rebaseline come to and those after it come to what they
came to before. -/
theorem counted_split {value value' : LedgerRow → ℚ}
    (hbefore : ∀ row, position row ≤ position marker → value' row = 0)
    (hafter : ∀ row, ¬position row ≤ position marker → value' row = value row) :
    ((rows.filter (isRobotFill accountId)).map value).sum =
      (((through marker rows).filter (isRobotFill accountId)).map value).sum +
        ((rows.filter (isRobotFill accountId)).map value').sum := by
  unfold through
  rw [List.filter_comm]
  exact sum_split _ (fun row hrow => hbefore row (of_decide_eq_true hrow))
    fun row hrow => hafter row (of_decide_eq_false hrow)

/-- A new latest rebaseline covers what is up to it, and leaves of the rest what the old one left. -/
theorem IsNewMarker.covered_own (h : IsNewMarker env accountId rows marker)
    (hparse : parseBaseline env accountId marker = .ok b)
    (hgreatest : ∀ row ∈ rebaselines accountId rows, ∀ other,
      parseBaseline env accountId row = .ok other → other.symbol = b.symbol → other.cutoff ≤ b.cutoff)
    (hbaselines : loadLatestOwnershipBaselines env accountId rows = .ok baselines) (row : LedgerRow) :
    (position row ≤ position marker → covered (some b.toBaseline) row = true) ∧
      (¬position row ≤ position marker → covered (some b.toBaseline) row = false ∧
        covered ((baselines.map OwnershipBaseline.toBaseline).get? b.symbol) row = false) := by
  have hcutoff : b.cutoff = position marker := parseBaseline_cutoff hparse
  refine ⟨fun hrow => covered_iff.mpr (hrow.trans hcutoff.ge), fun hrow => ⟨?_, ?_⟩⟩
  · rw [← Bool.not_eq_true]
    exact fun hc => hrow ((covered_iff.mp hc).trans hcutoff.le)
  · have hold := loadLatest_isLatest h.collates_rows hbaselines b.symbol
    rw [Dict.get?_map, ← Bool.not_eq_true]
    intro hc
    cases hget : baselines.get? b.symbol with
    | none =>
      rw [hget] at hc
      cases hc
    | some latest =>
      rw [hget] at hc hold
      obtain ⟨⟨old, hmem, holdParse⟩, holdSymbol, -⟩ := hold
      have hle := hgreatest old hmem latest holdParse holdSymbol
      exact hrow ((covered_iff.mp hc).trans (hle.trans hcutoff.le))

/-- **A new rebaseline that says what the balance came to changes no balance.** -/
theorem marker_kept {request : RebaselineRequest} (hfits : BalancesFit env e accountId rows)
    (h : StatesBalance env e accountId rows request marker)
    (hload : loadRebasedBalances env accountId true rows = .ok balances) :
    ∃ balances', loadRebasedBalances env accountId true (marker :: rows) = .ok balances' ∧
      ∀ symbol, quantityOf balances' symbol = quantityOf balances symbol := by
  obtain ⟨beforeBalances, baseline, manual, hthrough, hbaseline, hmanual, hvalue, hsum⟩ := h.stated
  obtain ⟨b, hparse, hsymbol, hquantity⟩ :=
    parseBaseline_built hfits.place h.built hbaseline hmanual hsum h.settled
  have hnamed : b.symbol ≠ "" := by
    rw [hsymbol]
    exact (buildRebaselinePayload_ok h.built).1
  obtain ⟨baselines, hbaselines, hloaded⟩ := loadRebasedBalances_ok hload
  obtain ⟨before, hbefore, hbeforeLoaded⟩ := loadRebasedBalances_ok hthrough
  obtain ⟨baselines', hbaselines'⟩ : ∃ baselines',
      loadLatestOwnershipBaselines env accountId (marker :: rows) = .ok baselines' := by
    refine loadLatest_total ?_
    rw [h.rebaselines_eq]
    intro row hrow
    cases hrow with
    | head => exact ⟨b, hparse⟩
    | tail _ hrow => exact loadLatest_parses hbaselines row hrow
  rw [loadRebasedBalances_of hbaselines', h.load_eq]
  rcases h.latest_own hparse hbaselines hbaselines' with ⟨hlatest, hgreatest⟩ | hsame
  swap
  · rw [hsame]
    exact ⟨balances, hloaded, fun _ => rfl⟩
  -- the new rebaseline is the latest of its symbol
  set cutoffs := baselines.map OwnershipBaseline.toBaseline with hcutoffs
  set cutoffs' := baselines'.map OwnershipBaseline.toBaseline with hcutoffs'
  have hown : cutoffs'.get? b.symbol = some b.toBaseline := by
    rw [Dict.get?_map, hlatest]
    rfl
  have hsame : ∀ t, t ≠ b.symbol → cutoffs'.get? t = cutoffs.get? t := by
    intro t ht
    rw [Dict.get?_map, Dict.get?_map, h.latest_other hparse hbaselines hbaselines' ht]
  have hcovered := h.covered_own hparse hgreatest hbaselines
  have hmore : ∀ row, covered (cutoffs.get? b.symbol) row = true →
      covered (cutoffs'.get? b.symbol) row = true := by
    intro row hc
    rw [hown]
    by_contra hleft
    have hrow : ¬position row ≤ position marker := mt (hcovered row).1 hleft
    exact Bool.false_ne_true (((hcovered row).2 hrow).2.symm.trans hc)
  have hnone (row : LedgerRow) (hrow : position row ≤ position marker) :
      countedValue env cutoffs' b.symbol row = 0 := by
    rw [countedValue, hown, if_pos ((hcovered row).1 hrow)]
  have hrest (row : LedgerRow) (hrow : ¬position row ≤ position marker) :
      countedValue env cutoffs' b.symbol row = countedValue env cutoffs b.symbol row := by
    obtain ⟨hnew, hold⟩ := (hcovered row).2 hrow
    rw [countedValue, countedValue, hown, hnew, hold]
  have htotal : countedTotal env cutoffs accountId b.symbol rows =
      countedTotal env cutoffs accountId b.symbol (through marker rows) +
        countedTotal env cutoffs' accountId b.symbol rows := counted_split hnone hrest
  have habs : ((rows.filter (isRobotFill accountId)).map
        fun row => |countedValue env cutoffs b.symbol row|).sum =
      (((through marker rows).filter (isRobotFill accountId)).map
          fun row => |countedValue env cutoffs b.symbol row|).sum +
        ((rows.filter (isRobotFill accountId)).map fun row => |countedValue env cutoffs' b.symbol row|).sum :=
    counted_split (fun row hrow => by rw [hnone row hrow, abs_zero]) fun row hrow => by rw [hrest row hrow]
  -- what it says is what the old one said and the fills up to it
  have hstart := (loadLatest_isLatest h.collates_rows hbaselines b.symbol).startsFrom
  have hbeforeValue : baseline.value = startingValue (baselines.get? b.symbol) +
      countedTotal env cutoffs accountId b.symbol (through marker rows) := by
    have hcollates : Collates env (through marker rows) := fun x hx y hy =>
      h.collates_rows x (List.mem_of_mem_filter hx) y (List.mem_of_mem_filter hy)
    rw [hvalue, ← hsymbol, balance_after_latest (hfits.filter _) hnamed hcollates hbefore hbeforeLoaded,
      h.latest_through hparse hgreatest hbaselines hbefore, hcutoffs, countedTotal_eq]
    rfl
  have hnew : baselineValue cutoffs' b.symbol = baseline.value := by
    rw [startingValue_eq, hlatest]
    exact hquantity
  have hunits : Units e baseline.value := by
    rw [hbeforeValue]
    exact (hfits.starts _ _ hstart).add (sum_units fun row hrow =>
      ((hfits.filter _).fills b.symbol row hrow).counted cutoffs)
  have hbound : |baseline.value| + ((rows.filter (isRobotFill accountId)).map
      fun row => |countedValue env cutoffs' b.symbol row|).sum < limit e := by
    have hle : |baseline.value| ≤ |startingValue (baselines.get? b.symbol)| +
        |countedTotal env cutoffs accountId b.symbol (through marker rows)| := by
      rw [hbeforeValue]
      exact abs_add_le _ _
    have hcounted : |countedTotal env cutoffs accountId b.symbol (through marker rows)| ≤ _ := abs_sum_le _ _
    have hall := sum_counted_le env cutoffs b.symbol
      (rows.filter (isRobotFill accountId))
    have hlimit := hfits.total _ _ hstart
    linarith
  obtain ⟨balances', hloaded'⟩ := loadRobotOwnedBalances_goes hsame hmore (hfits.ledger hnamed)
    (by rw [hnew]; exact hunits) (by rw [hnew]; exact hbound) hloaded
  refine ⟨balances', hloaded', fun t => ?_⟩
  by_cases ht : t = b.symbol
  · subst ht
    rw [balance_value (hfits.ledger hnamed) (by rw [hnew]; exact hunits)
      (by rw [hnew]; exact hbound) hloaded', hnew, balance_after_latest hfits hnamed h.collates_rows hbaselines hloaded, hbeforeValue,
      ← countedTotal_eq, htotal]
    ring
  · exact loadRobotOwnedBalances_same hsame hloaded hloaded' t ht

/-- **Rebaselining is conservative**, within the decimal context: a balance is what the latest
rebaseline of its symbol says and the fills strictly after it; a new rebaseline built to say what
the balance came to at its own position changes no balance; and one of a symbol never changes the
balance of another. -/
theorem rebaseline_conservative (hcollates : Collates env rows) (hfits : BalancesFit env e accountId rows)
    (hload : loadRebasedBalances env accountId true rows = .ok balances) :
    (∀ symbol, symbol ≠ "" → ∃ latest,
      IsLatest env accountId (rebaselines accountId rows) symbol latest ∧
        quantityOf balances symbol = startingValue latest + fillsAfter env accountId symbol latest rows) ∧
    (∀ request marker, StatesBalance env e accountId rows request marker →
      ∃ balances', loadRebasedBalances env accountId true (marker :: rows) = .ok balances' ∧
        ∀ symbol, quantityOf balances' symbol = quantityOf balances symbol) ∧
    (∀ marker b balances', IsNewMarker env accountId rows marker →
      parseBaseline env accountId marker = .ok b →
      loadRebasedBalances env accountId true (marker :: rows) = .ok balances' →
      ∀ symbol, symbol ≠ b.symbol → quantityOf balances' symbol = quantityOf balances symbol) := by
  refine ⟨fun symbol hsymbol => ?_, fun request marker h => marker_kept hfits h hload,
    fun marker b balances' h hparse hload' symbol hsymbol => marker_other h hparse hload hload' hsymbol⟩
  obtain ⟨baselines, hbaselines, hloaded⟩ := loadRebasedBalances_ok hload
  exact ⟨_, loadLatest_isLatest hcollates hbaselines symbol,
    balance_after_latest hfits hsymbol hcollates hbaselines hloaded⟩

end

/-! ## Runs -/

/-- A fill of a robot order in `BTCUSDT`. -/
def plainFill (eventId : String) (time : Nat) (side quantity : String) : LedgerRow where
  event :=
    { eventId, nodeId := "n", accountId := "a", intentId := none,
      clientOrderId := some "B0123456789abcdef0123456789abcdef00", venueOrderId := none, tradeId := none,
      eventType := "OrderFilled", tsEvent := time, tsIngest := time,
      payload := ((Dict.empty.set "symbol" (.str "BTCUSDT")).set "side" (.str side)).set "quantity"
        (.str quantity) }
  createdAt := time
  projectionInstrument := none

/-- `1E+28` and one more. -/
def roundedRows : List LedgerRow := [plainFill "e1" 1 "BUY" "1E+28", plainFill "e2" 2 "BUY" "1"]

/-- A load that is computed. -/
theorem loaded_quantity (rows : List LedgerRow) (symbol : String) (q : ℚ)
    (h : (match loadRebasedBalances Env.plain "a" true rows with
      | .ok balances => decide (quantityOf balances symbol = q)
      | .error _ => false) = true) :
    ∃ balances, loadRebasedBalances Env.plain "a" true rows = .ok balances ∧ quantityOf balances symbol = q := by
  cases hload : loadRebasedBalances Env.plain "a" true rows with
  | error e =>
    rw [hload] at h
    cases h
  | ok balances =>
    rw [hload] at h
    exact ⟨balances, rfl, of_decide_eq_true h⟩

/-- **The decimal context rounds a balance**: of `1E+28` and `1` the one is lost. -/
theorem rounded_away : ∃ balances, loadRebasedBalances Env.plain "a" true roundedRows = .ok balances ∧
    ∀ latest, IsLatest Env.plain "a" (rebaselines "a" roundedRows) "BTCUSDT" latest →
      quantityOf balances "BTCUSDT" ≠
        startingValue latest + fillsAfter Env.plain "a" "BTCUSDT" latest roundedRows := by
  obtain ⟨balances, hload, hquantity⟩ := loaded_quantity roundedRows "BTCUSDT"
    (10 ^ 28) (by decide +kernel)
  refine ⟨balances, hload, fun latest hlatest => ?_⟩
  have hnone : rebaselines "a" roundedRows = [] := by decide +kernel
  rw [hnone] at hlatest
  cases latest with
  | some b =>
    obtain ⟨⟨row, hrow, -⟩, -⟩ := hlatest
    cases hrow
  | none =>
    rw [hquantity]
    decide +kernel

/-- Three bought and one of them sold. -/
def heldRows : List LedgerRow := [plainFill "e1" 1 "BUY" "3", plainFill "e3" 3 "SELL" "1"]

/-- What the robot held in between: of four on the exchange, one was bought by hand. -/
def heldRequest : RebaselineRequest where
  symbol := "BTCUSDT-PERP"
  baselineQuantity := .finite ⟨false, 3, 0, by decide⟩
  reason := "audit"
  adjudicatedBy := "desk"
  requestId := "r"
  exchangeQuantity := .finite ⟨false, 4, 0, by decide⟩
  manualQuantity := .finite ⟨false, 1, 0, .one⟩
  previousRobotOwnedQuantity := .finite ⟨false, 3, 0, by decide⟩
  rawRobotFillQuantity := .finite ⟨false, 3, 0, by decide⟩

def heldMarker (payload : Dict Value) : LedgerRow where
  event :=
    { eventId := "e2", nodeId := "n", accountId := "a", intentId := none, clientOrderId := none,
      venueOrderId := none, tradeId := none, eventType := rebaselineEventType, tsEvent := 2,
      tsIngest := 2, payload }
  createdAt := 2
  projectionInstrument := none

theorem signedValue_cases {env : Env} (symbol : String) {row : LedgerRow} {d : FiniteDecimal}
    (h : signedFillQuantity env row.event.payload = .ok d) :
    signedValue env symbol row = 0 ∨ signedValue env symbol row = d.value := by
  unfold signedValue
  rw [h]
  split_ifs
  · exact .inr rfl
  · exact .inl rfl

theorem held_fits : BalancesFit Env.plain 0 "a" heldRows := by
  have hbuy : signedFillQuantity Env.plain (plainFill "e1" 1 "BUY" "3").event.payload =
      .ok ⟨false, 3, 0, by decide⟩ := by decide +kernel
  have hsell : signedFillQuantity Env.plain (plainFill "e3" 3 "SELL" "1").event.payload =
      .ok ⟨true, 1, 0, by decide⟩ := by decide +kernel
  have hfills : heldRows.filter (isRobotFill "a") = heldRows :=
    List.filter_eq_self.mpr (List.all_eq_true.mp (by decide +kernel))
  have hnone : rebaselines "a" heldRows = [] := by decide +kernel
  have hstart {symbol : String} {q : ℚ} (h : StartsFrom Env.plain "a" heldRows symbol q) : q = 0 := by
    rcases h with h | ⟨row, hrow, -⟩
    · exact h
    · rw [hnone] at hrow
      cases hrow
  have hvalue (row : LedgerRow) (hrow : row ∈ heldRows) (symbol : String) :
      ∃ m : Int, |m| ≤ 3 ∧ signedValue Env.plain symbol row = m := by
    unfold heldRows at hrow
    rcases List.mem_cons.mp hrow with rfl | hrow
    · rcases signedValue_cases symbol hbuy with h | h
      · exact ⟨0, by decide, by rw [h]; norm_num⟩
      · exact ⟨3, by decide, by rw [h]; decide +kernel⟩
    · cases List.mem_singleton.mp hrow
      rcases signedValue_cases symbol hsell with h | h
      · exact ⟨0, by decide, by rw [h]; norm_num⟩
      · exact ⟨-1, by decide, by rw [h]; decide +kernel⟩
  refine ⟨⟨by decide, by decide⟩, fun symbol row hrow => ?_, fun symbol q hq => ?_, fun symbol q hq => ?_⟩
  · obtain ⟨m, -, hm⟩ := hvalue row (List.mem_of_mem_filter hrow) symbol
    exact ⟨m, by rw [hm]; norm_num⟩
  · rw [hstart hq]
    exact Units.zero 0
  · rw [hstart hq, hfills]
    obtain ⟨m, hm, hfirst⟩ := hvalue (plainFill "e1" 1 "BUY" "3") (by simp [heldRows]) symbol
    obtain ⟨n, hn, hsecond⟩ := hvalue (plainFill "e3" 3 "SELL" "1") (by simp [heldRows]) symbol
    have hm' : |(m : ℚ)| ≤ 3 := by exact_mod_cast hm
    have hn' : |(n : ℚ)| ≤ 3 := by exact_mod_cast hn
    have hlimit : limit 0 = 10 ^ 28 := by norm_num [limit, prec]
    rw [heldRows, List.map_cons, List.map_cons, List.map_nil, List.sum_cons, List.sum_cons, List.sum_nil,
      hfirst, hsecond, hlimit, abs_zero]
    linarith

/-- A rebaseline between the two fills keeps the balance, two. -/
theorem rebaseline_conservative_held : ∃ balances marker balances',
    loadRebasedBalances Env.plain "a" true heldRows = .ok balances ∧
      StatesBalance Env.plain 0 "a" heldRows heldRequest marker ∧
      loadRebasedBalances Env.plain "a" true (marker :: heldRows) = .ok balances' ∧
      quantityOf balances' "BTCUSDT" = quantityOf balances "BTCUSDT" := by
  obtain ⟨balances, hload, -⟩ := loaded_quantity heldRows "BTCUSDT" 2
    (by decide +kernel)
  obtain ⟨payload, hbuilt⟩ : ∃ payload, buildRebaselinePayload Env.plain heldRequest = .ok payload := by
    have hsome : (buildRebaselinePayload Env.plain heldRequest).toOption.isSome = true := by decide +kernel
    obtain ⟨payload, h⟩ := Option.isSome_iff_exists.mp hsome
    exact ⟨payload, toOption_some h⟩
  have hcollates (rows : List LedgerRow) : Collates Env.plain rows := fun a _ b _ => decide_eq_true_iff
  have hthrough : through (heldMarker payload) heldRows = [plainFill "e1" 1 "BUY" "3"] := by
    simp [through, heldRows, position, plainFill, heldMarker, Prod.Lex.toLex_le_toLex]
  have hstates : StatesBalance Env.plain 0 "a" heldRows heldRequest (heldMarker payload) := by
    have hids : ["e2", "e1", "e3"].Nodup := by decide
    refine ⟨⟨rfl, rfl, hids, hcollates _⟩, hbuilt, by decide +kernel, ?_⟩
    obtain ⟨before, hbefore, hquantity⟩ := loaded_quantity [plainFill "e1" 1 "BUY" "3"]
      (canonicalSymbol Env.plain (some (.str heldRequest.symbol))) 3 (by decide +kernel)
    rw [hthrough]
    exact ⟨before, _, _, hbefore, rfl, rfl, by rw [hquantity]; decide +kernel, 4, by decide, by decide +kernel⟩
  obtain ⟨-, hkept, -⟩ := rebaseline_conservative (hcollates _) held_fits hload
  obtain ⟨balances', hload', hquantity⟩ := hkept heldRequest (heldMarker payload) hstates
  exact ⟨balances, _, balances', hload, hstates, hload', hquantity _⟩

end TraderBot.Ownership
