import TraderBot.LiveCanary.Assessment

/-! # The profit and loss of exact fills

`_record_with_fill` over exact rationals, under the words it has over decimals. An
accounting error leaves the position as it was, and leaves the record halted; where a
reason to halt stands already, the error is told nowhere. -/
namespace TraderBot.LiveCanary.Exact
open TraderBot.Lib

/-! ## Fills and records -/

/-- A fill that was normalized. -/
structure LiveCanaryFill where
  fillId : String
  instrumentId : String
  side : FillSide
  quantity : ℚ
  price : ℚ
  fee : ℚ
  mark : ℚ
  reduceOnly : Bool
  accountingError : String := ""
  quantity_pos : 0 < quantity
  price_pos : 0 < price
  fee_nonneg : 0 ≤ fee
  mark_nonneg : 0 ≤ mark

/-- The quantity of a fill, with its sign. -/
def LiveCanaryFill.signedQuantity (fill : LiveCanaryFill) : ℚ :=
  match fill.side with
  | .buy => fill.quantity
  | .sell => -fill.quantity

/-- A record, with the UUID its intent's id reads as. -/
structure LiveCanaryExecutionRecord where
  intentId : Uuid
  authorizedLimitPriceUsdt : ℚ
  maxCumulativeLossUsdt : ℚ
  state : LiveCanaryExecutionState
  updatedAt : String
  instrumentId : String := ""
  processedFillIds : List String := []
  netQuantity : ℚ := 0
  averageEntryPriceUsdt : ℚ := 0
  feesUsdt : ℚ := 0
  realizedPnlUsdt : ℚ := 0
  currentLossUsdt : ℚ := 0
  peakLossUsdt : ℚ := 0
  lastMarkPriceUsdt : ℚ := 0
  adverseSlippageUsdt : ℚ := 0
  closeClientOrderId : String := ""
  closeSide : String := ""
  closeRequiredQuantity : ℚ := 0
  haltReason : String := ""

/-- The record `_put_record` writes. -/
def newRecord (intentId : Uuid) (authorizedLimitPriceUsdt maxCumulativeLossUsdt : ℚ)
    (state : LiveCanaryExecutionState) (now : String) : LiveCanaryExecutionRecord where
  intentId := intentId
  authorizedLimitPriceUsdt := authorizedLimitPriceUsdt
  maxCumulativeLossUsdt := maxCumulativeLossUsdt
  state := state
  updatedAt := now

/-! ## A fill in the accounts -/

/-- `_unrealized_pnl`. -/
def unrealizedPnl (netQuantity averageEntryPrice markPrice : ℚ) : ℚ :=
  if netQuantity = 0 ∨ markPrice ≤ 0 then 0
  else if 0 < netQuantity then (markPrice - averageEntryPrice) * netQuantity
  else (averageEntryPrice - markPrice) * |netQuantity|

/-- `_adverse_slippage`. -/
def adverseSlippage (side : FillSide) (fillPrice markPrice quantity : ℚ) : ℚ :=
  let adversePrice := if side = .sell then markPrice - fillPrice else fillPrice - markPrice
  max 0 adversePrice * quantity

/-- What is known of the position and what it has cost. -/
structure Book where
  netQuantity : ℚ
  averageEntryPrice : ℚ
  realizedPnl : ℚ
  adverseSlippage : ℚ
  errors : List String

def Book.refuse (book : Book) (error : String) : Book := { book with errors := book.errors ++ [error] }

/-- A fill that is to reduce the position. -/
def Book.reduce (book : Book) (fill : LiveCanaryFill) : Book :=
  if book.netQuantity = 0 then book.refuse "reduce-only fill arrived without an open canary quantity"
  else if 0 ≤ book.netQuantity * fill.signedQuantity then
    book.refuse "reduce-only fill side does not reduce canary quantity"
  else if |book.netQuantity| < fill.quantity then
    book.refuse "reduce-only fill exceeds canary open quantity"
  else
    let closingQuantity := min fill.quantity |book.netQuantity|
    let gain := if 0 < book.netQuantity then fill.price - book.averageEntryPrice
      else book.averageEntryPrice - fill.price
    let netQuantity := book.netQuantity + fill.signedQuantity
    { book with
      netQuantity
      realizedPnl := book.realizedPnl + gain * closingQuantity
      averageEntryPrice := if netQuantity = 0 then 0 else book.averageEntryPrice }

/-- A fill that adds to the position. -/
def Book.enter (book : Book) (fill : LiveCanaryFill) (authorizedLimitPriceUsdt : ℚ) : Book :=
  if book.netQuantity ≠ 0 ∧ book.netQuantity * fill.signedQuantity < 0 then
    book.refuse "canary entry fill reverses the tracked position"
  else
    let previousQuantity := |book.netQuantity|
    let totalQuantity := previousQuantity + fill.quantity
    let weightedQuote := book.averageEntryPrice * previousQuantity + fill.price * fill.quantity
    let slippage := if 0 < fill.mark then
        max (Exact.adverseSlippage fill.side fill.price fill.mark fill.quantity)
          (Exact.adverseSlippage fill.side fill.price authorizedLimitPriceUsdt fill.quantity)
      else 0
    { book with
      averageEntryPrice := weightedQuote / totalQuantity
      netQuantity := book.netQuantity + fill.signedQuantity
      adverseSlippage := book.adverseSlippage + slippage }

/-- A fill in the book. -/
def Book.afterFill (book : Book) (fill : LiveCanaryFill) (authorizedLimitPriceUsdt : ℚ) : Book :=
  if fill.reduceOnly then book.reduce fill else book.enter fill authorizedLimitPriceUsdt

/-- The book a fill finds, with the error the fill came with. -/
def bookBefore (r : LiveCanaryExecutionRecord) (fill : LiveCanaryFill) : Book where
  netQuantity := r.netQuantity
  averageEntryPrice := r.averageEntryPriceUsdt
  realizedPnl := r.realizedPnlUsdt
  adverseSlippage := r.adverseSlippageUsdt
  errors := if fill.accountingError = "" then [] else [fill.accountingError]

/-- The book a fill leaves. -/
def bookAfter (r : LiveCanaryExecutionRecord) (fill : LiveCanaryFill) : Book :=
  let book := (bookBefore r fill).afterFill fill r.authorizedLimitPriceUsdt
  if fill.mark ≤ 0 then book.refuse "mark price is unavailable" else book

/-- `accounting_errors` of a fill. -/
def accountingErrors (r : LiveCanaryExecutionRecord) (fill : LiveCanaryFill) : List String :=
  (bookAfter r fill).errors

def accountingIncomplete (errors : List String) : String :=
  "live canary accounting incomplete: " ++ "; ".intercalate errors

/-- The loss at hand: marked to the market, or by the execution alone. -/
def currentLoss (fees realizedPnl unrealizedPnl adverseSlippage : ℚ) : ℚ :=
  max (max 0 (fees - realizedPnl - unrealizedPnl)) (max 0 (fees + adverseSlippage - realizedPnl))

/-- The side that closes a position. -/
def sideToClose (netQuantity : ℚ) : String := if netQuantity < 0 then "BUY" else "SELL"

section
-- `format(d, "f")`
variable (str : ℚ → String)

/-- The reason to halt, once there is one. -/
def haltReasonAfter (haltReason : String) (errors : List String) (peakLoss limit : ℚ) : String :=
  if haltReason ≠ "" then haltReason
  else if errors ≠ [] then accountingIncomplete errors
  else if limit ≤ peakLoss then
    "live canary cumulative loss limit reached: loss=" ++ str peakLoss ++ ":limit=" ++ str limit
  else ""

/-- The state, and what is to be closed, once there is a reason to halt. -/
def haltRecord (r : LiveCanaryExecutionRecord) (haltReason : String) (netQuantity : ℚ) :
    LiveCanaryExecutionRecord :=
  if haltReason = "" then { r with state := .exchangeConfirmed, closeRequiredQuantity := 0, haltReason }
  else { r with
    state := if netQuantity = 0 then .closed
      else if r.state = .closeDispatched then .closeDispatched else .lossLimitHalted
    closeClientOrderId := closeOrderId r.intentId
    closeRequiredQuantity := |netQuantity|
    closeSide := sideToClose netQuantity, haltReason }

/-- `_record_with_fill`. -/
def recordWithFill (r : LiveCanaryExecutionRecord) (fill : LiveCanaryFill) (now : String) :
    LiveCanaryExecutionRecord :=
  let fees := r.feesUsdt + fill.fee
  let book := bookAfter r fill
  let unrealized := unrealizedPnl book.netQuantity book.averageEntryPrice fill.mark
  let loss := currentLoss fees book.realizedPnl unrealized book.adverseSlippage
  let peakLoss := max r.peakLossUsdt loss
  let haltReason := haltReasonAfter str r.haltReason book.errors peakLoss r.maxCumulativeLossUsdt
  { haltRecord r haltReason book.netQuantity with
    updatedAt := now
    instrumentId := fill.instrumentId
    processedFillIds := r.processedFillIds ++ [fill.fillId]
    netQuantity := book.netQuantity
    averageEntryPriceUsdt := book.averageEntryPrice
    feesUsdt := fees
    realizedPnlUsdt := book.realizedPnl
    currentLossUsdt := loss
    peakLossUsdt := peakLoss
    lastMarkPriceUsdt := fill.mark
    adverseSlippageUsdt := book.adverseSlippage }

/-- What `record_fill` makes of the record it finds. -/
def recordFill (r : LiveCanaryExecutionRecord) (fill : LiveCanaryFill) (now : String) :
    LiveCanaryExecutionRecord :=
  if fill.fillId ∈ r.processedFillIds then r else recordWithFill str r fill now

/-- Fills, each with the time it was recorded at, one after the other. -/
def recordFills (r : LiveCanaryExecutionRecord) (fills : List (LiveCanaryFill × String)) :
    LiveCanaryExecutionRecord := fills.foldl (fun r fill => recordFill str r fill.1 fill.2) r

end

/-! ## What a fill does to the book -/

/-- A book that took a fill: the quantity is added with its sign, and what was earned, less
the cost of the position, changes by what the fill paid. -/
structure Book.Takes (book book' : Book) (fill : LiveCanaryFill) : Prop where
  netQuantity : book'.netQuantity = book.netQuantity + fill.signedQuantity
  cash : book'.realizedPnl - book'.averageEntryPrice * book'.netQuantity =
    book.realizedPnl - book.averageEntryPrice * book.netQuantity - fill.signedQuantity * fill.price
  errors : book'.errors = book.errors

/-- A book that refused a fill. -/
structure Book.Refuses (book book' : Book) : Prop where
  netQuantity : book'.netQuantity = book.netQuantity
  errors : book'.errors ≠ []

variable (book : Book) (fill : LiveCanaryFill) (authorized : ℚ) {r : LiveCanaryExecutionRecord}

theorem Book.refuses_refuse (error : String) : book.Refuses (book.refuse error) where
  netQuantity := rfl
  errors := by simp [Book.refuse]

/-- A reduction earns the gain of what it closes, and the rest keeps its average. -/
theorem Book.reduce_step :
    book.Takes (book.reduce fill) fill ∨ book.Refuses (book.reduce fill) := by
  unfold Book.reduce
  by_cases hzero : book.netQuantity = 0
  · rw [if_pos hzero]
    exact .inr (book.refuses_refuse _)
  rw [if_neg hzero]
  by_cases hside : 0 ≤ book.netQuantity * fill.signedQuantity
  · rw [if_pos hside]
    exact .inr (book.refuses_refuse _)
  rw [if_neg hside]
  by_cases hopen : |book.netQuantity| < fill.quantity
  · rw [if_pos hopen]
    exact .inr (book.refuses_refuse _)
  · rw [if_neg hopen]
    left
    refine ⟨rfl, ?_, rfl⟩
    -- the average of an empty position is reset, which changes no cost
    have haverage : (if book.netQuantity + fill.signedQuantity = 0 then 0 else book.averageEntryPrice) *
        (book.netQuantity + fill.signedQuantity) =
        book.averageEntryPrice * (book.netQuantity + fill.signedQuantity) := by
      split_ifs with hclosed
      · rw [hclosed, mul_zero, mul_zero]
      · rfl
    have hclosing : min fill.quantity |book.netQuantity| = fill.quantity := min_eq_left (not_lt.mp hopen)
    have hquantity := fill.quantity_pos
    simp only [haverage, hclosing]
    rcases lt_or_gt_of_ne hzero with hneg | hpos
    · have hbuy : fill.signedQuantity = fill.quantity := by
        unfold LiveCanaryFill.signedQuantity at hside ⊢
        cases hfill : fill.side with
        | buy => rfl
        | sell =>
          rw [hfill] at hside
          exact absurd (mul_nonneg_of_nonpos_of_nonpos hneg.le (neg_nonpos.mpr hquantity.le)) hside
      rw [if_neg hneg.not_gt, hbuy]
      ring
    · have hsell : fill.signedQuantity = -fill.quantity := by
        unfold LiveCanaryFill.signedQuantity at hside ⊢
        cases hfill : fill.side with
        | sell => rfl
        | buy =>
          rw [hfill] at hside
          exact absurd (mul_nonneg hpos.le hquantity.le) hside
      rw [if_pos hpos, hsell]
      ring

/-- An entry pays for its quantity, and the average carries the cost of the whole. -/
theorem Book.enter_step :
    book.Takes (book.enter fill authorized) fill ∨ book.Refuses (book.enter fill authorized) := by
  unfold Book.enter
  by_cases hreverses : book.netQuantity ≠ 0 ∧ book.netQuantity * fill.signedQuantity < 0
  · rw [if_pos hreverses]
    exact .inr (book.refuses_refuse _)
  · rw [if_neg hreverses]
    left
    refine ⟨rfl, ?_, rfl⟩
    have hquantity := fill.quantity_pos
    have hsame : 0 ≤ book.netQuantity * fill.signedQuantity := by
      by_contra hneg
      refine hreverses ⟨fun hzero => hneg ?_, not_le.mp hneg⟩
      rw [hzero, zero_mul]
    have htotal : 0 < |book.netQuantity| + fill.quantity :=
      add_pos_of_nonneg_of_pos (abs_nonneg _) hquantity
    have haverage := div_mul_cancel₀
      (book.averageEntryPrice * |book.netQuantity| + fill.price * fill.quantity) htotal.ne'
    cases hfill : fill.side with
    | buy =>
      have hsigned : fill.signedQuantity = fill.quantity := by simp [LiveCanaryFill.signedQuantity, hfill]
      rw [hsigned] at hsame ⊢
      have habs : |book.netQuantity| = book.netQuantity :=
        abs_of_nonneg (nonneg_of_mul_nonneg_left hsame hquantity)
      rw [habs] at haverage ⊢
      linarith
    | sell =>
      have hsigned : fill.signedQuantity = -fill.quantity := by simp [LiveCanaryFill.signedQuantity, hfill]
      rw [hsigned] at hsame ⊢
      have habs : |book.netQuantity| = -book.netQuantity :=
        abs_of_nonpos (nonpos_of_mul_nonneg_left hsame (neg_lt_zero.mpr hquantity))
      rw [habs] at haverage ⊢
      linear_combination haverage

theorem Book.afterFill_step :
    book.Takes (book.afterFill fill authorized) fill ∨ book.Refuses (book.afterFill fill authorized) := by
  unfold Book.afterFill
  split_ifs
  · exact book.reduce_step fill
  · exact book.enter_step fill authorized

/-- Without an accounting error the fill is taken, at a mark. -/
theorem bookAfter_taken {fill : LiveCanaryFill} (herrors : accountingErrors r fill = []) :
    (bookBefore r fill).Takes (bookAfter r fill) fill ∧ 0 < fill.mark := by
  unfold accountingErrors at herrors
  rcases lt_or_ge 0 fill.mark with hmark | hmark
  · have hafter : bookAfter r fill = (bookBefore r fill).afterFill fill r.authorizedLimitPriceUsdt :=
      if_neg hmark.not_ge
    rw [hafter] at herrors ⊢
    rcases (bookBefore r fill).afterFill_step fill r.authorizedLimitPriceUsdt with htaken | hrefused
    · exact ⟨htaken, hmark⟩
    · exact absurd herrors hrefused.errors
  · have hafter : bookAfter r fill =
        ((bookBefore r fill).afterFill fill r.authorizedLimitPriceUsdt).refuse "mark price is unavailable" :=
      if_pos hmark
    rw [hafter] at herrors
    exact absurd herrors (Book.refuses_refuse _ _).errors

/-- A fill that does not add its signed quantity is an accounting error. -/
theorem errors_of_drift {fill : LiveCanaryFill}
    (hdrift : (bookAfter r fill).netQuantity ≠ r.netQuantity + fill.signedQuantity) :
    accountingErrors r fill ≠ [] :=
  fun herrors => hdrift (bookAfter_taken herrors).1.netQuantity

/-! ## Whole runs -/

/-- What a fill pays in. -/
def LiveCanaryFill.cashFlow (fill : LiveCanaryFill) : ℚ := -fill.signedQuantity * fill.price

/-- Realized and unrealized, at the last mark, less the fees. -/
def LiveCanaryExecutionRecord.total (r : LiveCanaryExecutionRecord) : ℚ :=
  r.realizedPnlUsdt + unrealizedPnl r.netQuantity r.averageEntryPriceUsdt r.lastMarkPriceUsdt - r.feesUsdt

/-- What the record says of the fills it took is what they come to. -/
structure AddsUp (fills : List LiveCanaryFill) (r : LiveCanaryExecutionRecord) : Prop where
  netQuantity : r.netQuantity = (fills.map LiveCanaryFill.signedQuantity).sum
  mark : ∀ fill ∈ fills.getLast?, r.lastMarkPriceUsdt = fill.mark
  total : r.total = (fills.map LiveCanaryFill.cashFlow).sum + r.netQuantity * r.lastMarkPriceUsdt -
    (fills.map LiveCanaryFill.fee).sum
  loss : -r.total ≤ r.currentLossUsdt

/-- The sums of the fills, before the position is marked. -/
structure Balanced (fills : List LiveCanaryFill) (r : LiveCanaryExecutionRecord) : Prop where
  netQuantity : r.netQuantity = (fills.map LiveCanaryFill.signedQuantity).sum
  fees : r.feesUsdt = (fills.map LiveCanaryFill.fee).sum
  cash : r.realizedPnlUsdt - r.averageEntryPriceUsdt * r.netQuantity =
    (fills.map LiveCanaryFill.cashFlow).sum
  mark : ∀ fill ∈ fills.getLast?, r.lastMarkPriceUsdt = fill.mark
  marked : r.netQuantity = 0 ∨ 0 < r.lastMarkPriceUsdt
  loss : -r.total ≤ r.currentLossUsdt

theorem unrealizedPnl_eq {netQuantity averageEntryPrice markPrice : ℚ}
    (hmarked : netQuantity = 0 ∨ 0 < markPrice) :
    unrealizedPnl netQuantity averageEntryPrice markPrice =
      (markPrice - averageEntryPrice) * netQuantity := by
  unfold unrealizedPnl
  split_ifs with hnone hlong
  · have hzero : netQuantity = 0 := hnone.elim id (fun hmark => hmarked.resolve_right hmark.not_gt)
    rw [hzero, mul_zero]
  · rfl
  · rw [abs_of_nonpos (not_lt.mp hlong)]
    ring

theorem Balanced.addsUp {fills : List LiveCanaryFill} (hbalanced : Balanced fills r) :
    AddsUp fills r where
  netQuantity := hbalanced.netQuantity
  mark := hbalanced.mark
  loss := hbalanced.loss
  total := by
    rw [LiveCanaryExecutionRecord.total, unrealizedPnl_eq hbalanced.marked, ← hbalanced.cash, ← hbalanced.fees]
    ring

section
variable {str : ℚ → String}

/-- A fill without an accounting error keeps the sums. -/
theorem Balanced.step {fills : List LiveCanaryFill} {r : LiveCanaryExecutionRecord}
    (hbalanced : Balanced fills r) {fill : LiveCanaryFill} (herrors : accountingErrors r fill = [])
    (now : String) : Balanced (fills ++ [fill]) (recordWithFill str r fill now) := by
  obtain ⟨htaken, hmark⟩ := bookAfter_taken herrors
  have hnet := htaken.netQuantity
  have hcash := htaken.cash
  refine ⟨?_, ?_, ?_, ?_, .inr hmark, ?_⟩
  · rw [List.map_append, List.sum_append, ← hbalanced.netQuantity, List.map_singleton, List.sum_singleton]
    exact hnet
  · rw [List.map_append, List.sum_append, ← hbalanced.fees, List.map_singleton, List.sum_singleton]
    rfl
  · rw [List.map_append, List.sum_append, ← hbalanced.cash, List.map_singleton, List.sum_singleton,
      LiveCanaryFill.cashFlow, neg_mul, ← sub_eq_add_neg]
    exact hcash
  · intro last hlast
    rw [List.getLast?_append, List.getLast?_singleton, Option.some_or, Option.mem_some_iff] at hlast
    rw [← hlast]
    rfl
  · -- the loss is at least what the mark makes of it
    refine le_trans (le_of_eq ?_) ((le_max_right 0 _).trans (le_max_left _ _))
    simp only [LiveCanaryExecutionRecord.total, recordWithFill]
    ring

theorem recordFills_concat (r : LiveCanaryExecutionRecord) (fills : List (LiveCanaryFill × String))
    (fill : LiveCanaryFill × String) :
    recordFills str r (fills ++ [fill]) = recordFill str (recordFills str r fills) fill.1 fill.2 := by
  simp [recordFills]

variable (intentId : Uuid) (authorized limit : ℚ) (state : LiveCanaryExecutionState) (opened : String)

variable (fills : List (LiveCanaryFill × String))

/-- Fills with ids of their own are each recorded. -/
theorem processed_recordFills :
    (fills.map (fun fill => fill.1.fillId)).Nodup →
    (recordFills str (newRecord intentId authorized limit state opened) fills).processedFillIds =
      fills.map (fun fill => fill.1.fillId) := by
  induction fills using List.reverseRecOn with
  | nil =>
    intro _
    rfl
  | append_singleton fills fill ih =>
    intro hdistinct
    rw [List.map_append, List.nodup_append] at hdistinct
    obtain ⟨hbefore, _, hapart⟩ := hdistinct
    have hnew : fill.1.fillId ∉
        (recordFills str (newRecord intentId authorized limit state opened) fills).processedFillIds := by
      rw [ih hbefore]
      intro hmem
      exact hapart _ hmem _ (by simp) rfl
    rw [recordFills_concat, recordFill, if_neg hnew, List.map_append, ← ih hbefore]
    rfl

theorem recordFills_step {fills : List (LiveCanaryFill × String)} {fill : LiveCanaryFill × String}
    (hdistinct : ((fills ++ [fill]).map (fun fill => fill.1.fillId)).Nodup) :
    recordFills str (newRecord intentId authorized limit state opened) (fills ++ [fill]) =
      recordWithFill str (recordFills str (newRecord intentId authorized limit state opened) fills)
        fill.1 fill.2 := by
  rw [List.map_append, List.nodup_append] at hdistinct
  obtain ⟨hbefore, _, hapart⟩ := hdistinct
  rw [recordFills_concat, recordFill, processed_recordFills _ _ _ _ _ _ hbefore, if_neg]
  intro hmem
  exact hapart _ hmem _ (by simp) rfl

/-- A run none of whose fills gives rise to an accounting error. -/
def Clean (str : ℚ → String) (r : LiveCanaryExecutionRecord) (fills : List (LiveCanaryFill × String)) :
    Prop :=
  ∀ before fill after, fills = before ++ fill :: after →
    accountingErrors (recordFills str r before) fill.1 = []

theorem Clean.balanced :
    (fills.map (fun fill => fill.1.fillId)).Nodup →
    Clean str (newRecord intentId authorized limit state opened) fills →
    Balanced (fills.map Prod.fst) (recordFills str (newRecord intentId authorized limit state opened) fills) := by
  induction fills using List.reverseRecOn with
  | nil =>
    intro _ _
    refine ⟨rfl, rfl, ?_, ?_, .inl rfl, ?_⟩
    · simp [recordFills, newRecord]
    · intro fill hfill
      cases hfill
    · simp [recordFills, newRecord, LiveCanaryExecutionRecord.total, unrealizedPnl]
  | append_singleton fills fill ih =>
    intro hdistinct hclean
    have hbefore : (fills.map (fun fill => fill.1.fillId)).Nodup := by
      rw [List.map_append] at hdistinct
      exact hdistinct.of_append_left
    have hbalanced := ih hbefore (fun before next after heq =>
      hclean before next (after ++ [fill]) (by rw [heq, List.append_assoc, List.cons_append]))
    rw [recordFills_step _ _ _ _ _ hdistinct, List.map_append]
    exact hbalanced.step (hclean fills fill [] rfl) fill.2

end

/-! ## Accounting errors -/

/-- A record with a reason to halt, which asks for the position to be closed. -/
structure LiveCanaryExecutionRecord.Halted (r : LiveCanaryExecutionRecord) : Prop where
  reason : r.haltReason ≠ ""
  state : r.state = .closed ∨ r.state = .closeDispatched ∨ r.state = .lossLimitHalted
  required : r.closeRequiredQuantity = |r.netQuantity|

theorem accountingIncomplete_ne (errors : List String) : accountingIncomplete errors ≠ "" :=
  append_ne_empty (by decide)

section
variable {str : ℚ → String}

/-- The reason that stands after an accounting error: the first one there was. -/
theorem haltReasonAfter_errors (str : ℚ → String) {errors : List String} (herrors : errors ≠ [])
    (haltReason : String)
    (peakLoss limit : ℚ) : haltReasonAfter str haltReason errors peakLoss limit =
      if haltReason = "" then accountingIncomplete errors else haltReason := by
  unfold haltReasonAfter
  split_ifs <;> first | rfl | contradiction

variable {r : LiveCanaryExecutionRecord}

theorem haltRecord_halted {haltReason : String} (hreason : haltReason ≠ "") (netQuantity : ℚ) :
    (haltRecord r haltReason netQuantity).haltReason = haltReason ∧
      ((haltRecord r haltReason netQuantity).state = .closed ∨
        (haltRecord r haltReason netQuantity).state = .closeDispatched ∨
        (haltRecord r haltReason netQuantity).state = .lossLimitHalted) ∧
      (haltRecord r haltReason netQuantity).closeRequiredQuantity = |netQuantity| := by
  rw [haltRecord, if_neg hreason]
  refine ⟨rfl, ?_, rfl⟩
  dsimp only
  split_ifs
  · exact .inl rfl
  · exact .inr (.inl rfl)
  · exact .inr (.inr rfl)

/-- An accounting error leaves the record halted, for the first reason there was. -/
theorem halted_of_errors {fill : LiveCanaryFill} (herrors : accountingErrors r fill ≠ [])
    (now : String) :
    (recordWithFill str r fill now).Halted ∧ (recordWithFill str r fill now).haltReason =
      if r.haltReason = "" then accountingIncomplete (accountingErrors r fill) else r.haltReason := by
  have htold := haltReasonAfter_errors str herrors r.haltReason (recordWithFill str r fill now).peakLossUsdt
    r.maxCumulativeLossUsdt
  have hreason : haltReasonAfter str r.haltReason (accountingErrors r fill)
      (recordWithFill str r fill now).peakLossUsdt r.maxCumulativeLossUsdt ≠ "" := by
    rw [htold]
    split_ifs with hnone
    · exact accountingIncomplete_ne _
    · exact hnone
  obtain ⟨hkept, hstate, hrequired⟩ := haltRecord_halted (r := r) hreason (bookAfter r fill).netQuantity
  exact ⟨⟨fun hempty => hreason (hkept.symm.trans hempty), hstate, hrequired⟩, hkept.trans htold⟩

variable (str)

/-- Where no fill gives rise to an accounting error, profit and loss are the cash the fills
moved and the position at its mark; a fill that the position does not take as it is gives
rise to one, and halts the record. -/
theorem canary_pnl (intentId : Uuid) (authorized limit : ℚ) (state : LiveCanaryExecutionState)
    (opened : String)
    (fills : List (LiveCanaryFill × String)) (hdistinct : (fills.map (fun fill => fill.1.fillId)).Nodup) :
    let r₀ := newRecord intentId authorized limit state opened
    (Clean str r₀ fills → AddsUp (fills.map Prod.fst) (recordFills str r₀ fills)) ∧
    ∀ before fill after, fills = before ++ fill :: after →
      let r := recordFills str r₀ before
      let r' := recordFills str r₀ (before ++ [fill])
      r'.netQuantity ≠ r.netQuantity + fill.1.signedQuantity →
        accountingErrors r fill.1 ≠ [] ∧ r'.Halted ∧ r'.haltReason =
          if r.haltReason = "" then accountingIncomplete (accountingErrors r fill.1) else r.haltReason := by
  refine ⟨fun hclean => (Clean.balanced _ _ _ _ _ fills hdistinct hclean).addsUp, ?_⟩
  intro before fill after heq r r' hdrift
  have hbefore : ((before ++ [fill]).map (fun fill => fill.1.fillId)).Nodup := by
    rw [heq, List.append_cons, List.map_append] at hdistinct
    exact hdistinct.of_append_left
  have hstep : r' = recordWithFill str r fill.1 fill.2 := recordFills_step _ _ _ _ _ hbefore
  rw [hstep] at hdrift ⊢
  have herrors := errors_of_drift hdrift
  exact ⟨herrors, halted_of_errors herrors fill.2⟩

end

/-! ## Two fills -/

/-- One unit bought at the mark, for a fee. -/
def bought : LiveCanaryFill where
  fillId := "1"
  instrumentId := "BTCUSDT-PERP.BINANCE"
  side := .buy
  quantity := 1
  price := 100
  fee := 1
  mark := 100
  reduceOnly := false
  quantity_pos := by norm_num
  price_pos := by norm_num
  fee_nonneg := by norm_num
  mark_nonneg := by norm_num

/-- Two units sold, of the one that is open. -/
def oversold : LiveCanaryFill :=
  { bought with fillId := "2", side := .sell, quantity := 2, reduceOnly := true, quantity_pos := by norm_num }

def claimed (limit : ℚ) : LiveCanaryExecutionRecord := newRecord ⟨0, by norm_num⟩ 100 limit .dispatched ""

def plain (_ : ℚ) : String := "1"

/-- The fill that is not taken comes after the loss limit was reached: no accounting error is
told, and the sums are not those of the fills. -/
theorem error_after_halt : bought.fillId ≠ oversold.fillId ∧
    (recordFills plain (claimed 1) [(bought, "")]).haltReason =
      "live canary cumulative loss limit reached: loss=1:limit=1" ∧
    (recordFills plain (claimed 1) [(bought, ""), (oversold, "")]).haltReason =
      "live canary cumulative loss limit reached: loss=1:limit=1" ∧
    ¬ AddsUp [bought, oversold] (recordFills plain (claimed 1) [(bought, ""), (oversold, "")]) := by
  refine ⟨by decide, by decide +kernel, by decide +kernel, fun hadds => ?_⟩
  have hnet := hadds.netQuantity
  revert hnet
  decide +kernel

/-- Under a limit that is not reached the second fill halts the record. -/
theorem canary_pnl_twoFills :
    (Clean plain (claimed 2) [(bought, ""), (oversold, "")] →
      AddsUp [bought, oversold] (recordFills plain (claimed 2) [(bought, ""), (oversold, "")])) ∧
    (recordFills plain (claimed 2) [(bought, ""), (oversold, "")]).Halted := by
  have hpnl := canary_pnl plain ⟨0, by norm_num⟩ 100 2 .dispatched "" [(bought, ""), (oversold, "")]
    (by decide)
  have hdrift := hpnl.2 [(bought, "")] (oversold, "") [] rfl
  exact ⟨hpnl.1, (hdrift (by decide +kernel)).2.1⟩

end TraderBot.LiveCanary.Exact
