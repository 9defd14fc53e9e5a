import TraderBot.LiveCanary.Model

/-! # Fills and marks in the accounts

`_record_with_fill` and `_record_with_mark`: what a fill or a mark makes of a record.
All sums are rounded in the decimal context. -/
namespace TraderBot.LiveCanary
open TraderBot.Lib TraderBot.Lib.Text
open TraderBot.Lib.Decimal (add sub mul div fix)

/-- `-d`. -/
def negated (d : FiniteDecimal) : Except Failure FiniteDecimal :=
  signal (fix (if d.coeff = 0 then false else !d.negative) d.coeff d.exponent)

/-- `abs(d)`. -/
def absolute (d : FiniteDecimal) : Except Failure FiniteDecimal := signal (fix false d.coeff d.exponent)

/-- `d == 0`. -/
def isZero (d : FiniteDecimal) : Bool := d.coeff = 0

/-- `max(Decimal("0"), d)`. -/
def atLeastZero (d : FiniteDecimal) : FiniteDecimal := FiniteDecimal.zero.max d

/-- `_unrealized_pnl`. -/
def unrealizedPnl (netQuantity averageEntryPrice markPrice : FiniteDecimal) : Except Failure FiniteDecimal :=
  if isZero netQuantity || !markPrice.isPositive then .ok .zero
  else if netQuantity.isPositive then do
    let gain ← signal (sub markPrice averageEntryPrice)
    signal (mul gain netQuantity)
  else do
    let gain ← signal (sub averageEntryPrice markPrice)
    let quantity ← absolute netQuantity
    signal (mul gain quantity)

/-- `_adverse_slippage`. -/
def adverseSlippage (side : FillSide) (fillPrice markPrice quantity : FiniteDecimal) :
    Except Failure FiniteDecimal := do
  let below ← signal (sub fillPrice markPrice)
  let adversePrice ← signal (if side = .sell then sub markPrice fillPrice else some below)
  signal (mul (atLeastZero adversePrice) quantity)

/-- The loss at hand: marked to the market, or by the execution alone. -/
def currentLoss (fees realizedPnl unrealized slippage : FiniteDecimal) : Except Failure FiniteDecimal := do
  let owed ← signal (sub fees realizedPnl)
  let markToMarket ← signal (sub owed unrealized)
  let spent ← signal (add fees slippage)
  let execution ← signal (sub spent realizedPnl)
  return (atLeastZero markToMarket).max (atLeastZero execution)

/-- The reason to halt, once there is one: accounts that do not add up, or a loss limit
that is reached. -/
def haltReasonAfter (haltReason : String) (errors : List String) (peakLoss limit : FiniteDecimal) : String :=
  if haltReason ≠ "" then haltReason
  else if errors ≠ [] then "live canary accounting incomplete: " ++ "; ".intercalate errors
  else if limit.le peakLoss then
    "live canary cumulative loss limit reached: loss=" ++ String.ofList (Decimal.fixedText peakLoss) ++
      ":limit=" ++ String.ofList (Decimal.fixedText limit)
  else ""

/-- What is known of the position and what it has cost. -/
structure Book where
  netQuantity : FiniteDecimal
  averageEntryPrice : FiniteDecimal
  realizedPnl : FiniteDecimal
  adverseSlippage : FiniteDecimal
  errors : List String

def Book.refuse (book : Book) (error : String) : Book := { book with errors := book.errors ++ [error] }

/-- `net_quantity * signed_fill`. -/
def Book.against (book : Book) (signedFill : FiniteDecimal) : Except Failure FiniteDecimal :=
  signal (mul book.netQuantity signedFill)

/-- What a unit of the position has gained at a price. -/
def Book.gain (book : Book) (price : FiniteDecimal) : Except Failure FiniteDecimal :=
  signal (if book.netQuantity.isPositive then sub price book.averageEntryPrice
    else sub book.averageEntryPrice price)

/-- `net_quantity != 0 and net_quantity * signed_fill < 0`. -/
def Book.reversedBy (book : Book) (signedFill : FiniteDecimal) : Except Failure Bool :=
  if isZero book.netQuantity then .ok false
  else do
    let product ← book.against signedFill
    return product.isNegative

/-- A fill that is to reduce the position. -/
def Book.reduce (book : Book) (fill : NormalFill) (signedFill : FiniteDecimal) : Except Failure Book :=
  if isZero book.netQuantity then
    .ok (book.refuse "reduce-only fill arrived without an open canary quantity")
  else do
    let product ← book.against signedFill
    if !product.isNegative then
      return book.refuse "reduce-only fill side does not reduce canary quantity"
    else
      let open' ← absolute book.netQuantity
      if open'.lt fill.quantity then
        return book.refuse "reduce-only fill exceeds canary open quantity"
      else
        let closing := if open'.lt fill.quantity then open' else fill.quantity
        let gain ← book.gain fill.price
        let earned ← signal (mul gain closing)
        let realizedPnl ← signal (add book.realizedPnl earned)
        let netQuantity ← signal (add book.netQuantity signedFill)
        return { book with
          netQuantity, realizedPnl
          averageEntryPrice := if isZero netQuantity then .zero else book.averageEntryPrice }

section
variable (unicode : Unicode)

/-- The slippage of an entry, against the mark and the authorized price. -/
def entrySlippage (fill : NormalFill) (authorizedLimitPriceUsdt : String) (slippage : FiniteDecimal) :
    Except Failure FiniteDecimal :=
  if fill.mark.isPositive then do
    let markSlippage ← adverseSlippage fill.side fill.price fill.mark fill.quantity
    let authorizedPrice ← storedDecimal unicode authorizedLimitPriceUsdt
    let authorizedSlippage ← adverseSlippage fill.side fill.price authorizedPrice fill.quantity
    signal (add slippage (markSlippage.max authorizedSlippage))
  else .ok slippage

/-- A fill that adds to the position. -/
def Book.enter (book : Book) (fill : NormalFill) (signedFill : FiniteDecimal)
    (authorizedLimitPriceUsdt : String) : Except Failure Book := do
  let reverses ← book.reversedBy signedFill
  if reverses then return book.refuse "canary entry fill reverses the tracked position"
  else
    let previous ← absolute book.netQuantity
    let total ← signal (add previous fill.quantity)
    let before ← signal (mul book.averageEntryPrice previous)
    let added ← signal (mul fill.price fill.quantity)
    let weighted ← signal (add before added)
    let averageEntryPrice ← signal (div weighted total)
    let netQuantity ← signal (add book.netQuantity signedFill)
    let adverseSlippage ← entrySlippage unicode fill authorizedLimitPriceUsdt book.adverseSlippage
    return { book with netQuantity, averageEntryPrice, adverseSlippage }

/-- The side that closes a position. -/
def sideToClose (netQuantity : FiniteDecimal) : String := if netQuantity.isNegative then "BUY" else "SELL"

/-- The state, and what is to be closed, once there is a reason to halt; `closes` where the
record is closed when nothing is open. -/
def haltRecord (r : LiveCanaryExecutionRecord) (haltReason : String)
    (netQuantity : FiniteDecimal) (closes : Bool) : Except Failure LiveCanaryExecutionRecord :=
  if haltReason = "" then
    .ok { r with
      state := .exchangeConfirmed, closeRequiredQuantity := written .zero, haltReason }
  else do
    let intent ← orRaise .valueError (Uuid.parse unicode r.intentId)
    let required ← absolute netQuantity
    return { r with
      state := if closes && isZero netQuantity then .closed
        else if r.state = .closeDispatched then .closeDispatched else .lossLimitHalted
      closeClientOrderId := closeOrderId intent
      closeRequiredQuantity := written required
      closeSide := sideToClose netQuantity, haltReason }

/-- The quantity of a fill, with its sign. -/
def NormalFill.signedQuantity (fill : NormalFill) : Except Failure FiniteDecimal :=
  match fill.side with
  | .buy => .ok fill.quantity
  | .sell => negated fill.quantity

/-- A fill in the book. -/
def Book.afterFill (book : Book) (fill : NormalFill) (signedFill : FiniteDecimal)
    (authorizedLimitPriceUsdt : String) : Except Failure Book :=
  if fill.reduceOnly then book.reduce fill signedFill
  else book.enter unicode fill signedFill authorizedLimitPriceUsdt

/-- `_record_with_fill`. -/
def recordWithFill (r : LiveCanaryExecutionRecord) (fill : NormalFill) (now : String) :
    Except Failure LiveCanaryExecutionRecord := do
  let fees ← signal (add r.feesUsdt fill.fee)
  let signedFill ← fill.signedQuantity
  let book : Book := {
    netQuantity := r.netQuantity, averageEntryPrice := r.averageEntryPriceUsdt
    realizedPnl := r.realizedPnlUsdt, adverseSlippage := r.adverseSlippageUsdt
    errors := if fill.accountingError = "" then [] else [fill.accountingError] }
  let book ← book.afterFill unicode fill signedFill r.authorizedLimitPriceUsdt
  let book := if fill.mark.isPositive then book else book.refuse "mark price is unavailable"
  let unrealized ← unrealizedPnl book.netQuantity book.averageEntryPrice fill.mark
  let loss ← currentLoss fees book.realizedPnl unrealized book.adverseSlippage
  let peakLoss := r.peakLossUsdt.max loss
  let limit ← storedDecimal unicode r.maxCumulativeLossUsdt
  let haltReason := haltReasonAfter r.haltReason book.errors peakLoss limit
  let halted ← haltRecord unicode r haltReason book.netQuantity true
  return { halted with
    updatedAt := now
    instrumentId := fill.instrumentId
    processedFillIds := r.processedFillIds ++ [fill.fillId]
    netQuantity := written book.netQuantity
    averageEntryPriceUsdt := written book.averageEntryPrice
    feesUsdt := written fees
    realizedPnlUsdt := written book.realizedPnl
    currentLossUsdt := written loss
    peakLossUsdt := written peakLoss
    lastMarkPriceUsdt := written fill.mark
    adverseSlippageUsdt := written book.adverseSlippage }

/-- `_record_with_mark`. -/
def recordWithMark (r : LiveCanaryExecutionRecord) (mark : NormalMark) (now : String) :
    Except Failure LiveCanaryExecutionRecord := do
  let effectiveMark := if mark.markPrice.isPositive then mark.markPrice else r.lastMarkPriceUsdt
  let unrealized ← unrealizedPnl r.netQuantity r.averageEntryPriceUsdt effectiveMark
  let loss ← currentLoss r.feesUsdt r.realizedPnlUsdt unrealized r.adverseSlippageUsdt
  let peakLoss := r.peakLossUsdt.max loss
  let errors := if mark.accountingError = "" then [] else [mark.accountingError]
  let limit ← storedDecimal unicode r.maxCumulativeLossUsdt
  let haltReason := haltReasonAfter r.haltReason errors peakLoss limit
  let halted ← haltRecord unicode r haltReason r.netQuantity false
  return { halted with
    updatedAt := now
    instrumentId := mark.instrumentId
    currentLossUsdt := written loss
    peakLossUsdt := written peakLoss
    lastMarkPriceUsdt := if mark.markPrice.isPositive then written mark.markPrice else r.lastMarkPriceUsdt }

end

/-! ## Decisions -/

structure LiveCanaryLossDecision where
  identity : LiveCanaryExecutionIdentity
  instrumentId : String
  currentLossUsdt : FiniteDecimal
  peakLossUsdt : FiniteDecimal
  maxCumulativeLossUsdt : String
  closeClientOrderId : String
  closeSide : String
  closeQuantity : FiniteDecimal
  haltReason : String
  deriving DecidableEq, Repr

/-- `_loss_decision`. -/
def lossDecision (r : LiveCanaryExecutionRecord) (instrumentId : String) : Option LiveCanaryLossDecision :=
  if r.state ≠ .lossLimitHalted ∧ r.state ≠ .closeDispatched then none
  else if !r.closeRequiredQuantity.isPositive then none
  else some {
    identity := r.identity
    instrumentId :=
      if strip instrumentId ≠ "" then strip instrumentId
      else if r.instrumentId ≠ "" then r.instrumentId
      else r.symbol ++ "-PERP.BINANCE"
    currentLossUsdt := r.currentLossUsdt
    peakLossUsdt := r.peakLossUsdt
    maxCumulativeLossUsdt := r.maxCumulativeLossUsdt
    closeClientOrderId := r.closeClientOrderId
    closeSide := r.closeSide
    closeQuantity := r.closeRequiredQuantity
    haltReason := r.haltReason }

end TraderBot.LiveCanary
