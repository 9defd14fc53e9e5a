import TraderBot.Lib.Increments

/-! # Fixed-risk sizing

`fixed_risk_size` sizes an order by the smallest of three risk budgets and five notional
caps, rounded down to the quantity step. When the caps leave no step and no minimum is
set, it approves a quantity of nothing (`sized_iff`); apart from that an approved size is
sound, the largest one, and passes the exchange's filters. The numbers are exact. -/
namespace TraderBot.Risk
open TraderBot.Lib

/-! ## The size -/

/-- What sizing reads of an `AccountBudget`. -/
structure AccountBudget where
  equity : ℚ
  freeMargin : ℚ
  staleReasons : List String := []

/-- What sizing and the exchange filters read of a `RiskConfig`. -/
structure RiskConfig where
  riskPerTradePct : ℚ := 15 / 1000
  maxTotalOpenRiskPct : ℚ := 1 / 10
  maxNotionalPerOrder : ℚ := 50000
  maxLeverage : ℚ := 10
  maxInstrumentExposure : ℚ := 100000
  maxCorrelatedExposure : ℚ := 150000
  minFreeMargin : ℚ := 0
  reserveBalance : ℚ := 0

structure SizingRequest where
  entryPrice : ℚ
  stopPrice : Option ℚ := none
  quantityStep : ℚ := 1
  minQuantity : ℚ := 0
  minNotional : ℚ := 0
  remainingDailyBudget : Option ℚ := none
  existingTotalOpenRisk : ℚ := 0
  remainingInstrumentExposure : Option ℚ := none
  remainingCorrelatedExposure : Option ℚ := none
  leverage : Option ℚ := none

inductive SizingStatus where
  | approved
  | needsReview
  | rejected
  deriving DecidableEq, Repr

structure Headroom where
  riskPerTrade : ℚ
  daily : ℚ
  total : ℚ
  rawNotional : ℚ
  maxNotionalPerOrder : ℚ
  instrument : ℚ
  correlated : ℚ
  availableMarginAdjusted : ℚ
  deriving DecidableEq, Repr

structure SizingCheck where
  name : String
  passed : Bool
  value : Option ℚ := none
  deriving DecidableEq, Repr

structure SizingResult where
  status : SizingStatus
  reason : String
  quantity : ℚ
  notional : ℚ
  riskAmount : ℚ
  stopDistancePct : ℚ
  rawNotional : ℚ
  allowedNotional : ℚ
  headroom : Option Headroom := none
  checks : List SizingCheck := []
  deriving DecidableEq, Repr

/-- `_blocked`. -/
def blocked (status : SizingStatus) (reason : String) (checks : List SizingCheck) : SizingResult where
  status := status
  reason := reason
  quantity := 0
  notional := 0
  riskAmount := 0
  stopDistancePct := 0
  rawNotional := 0
  allowedNotional := 0
  checks := checks

def AccountBudget.canTakeNewRisk (budget : AccountBudget) : Bool :=
  budget.staleReasons.isEmpty ∧ 0 < budget.equity ∧ 0 < budget.freeMargin

def floorToIncrement (value increment : ℚ) : ℚ := if increment ≤ 0 then value else floorTo increment value

section
variable (budget : AccountBudget) (request : SizingRequest) (config : RiskConfig)

def perTrade : ℚ := budget.equity * config.riskPerTradePct

def remainingDaily : ℚ := request.remainingDailyBudget.getD (perTrade budget config)

def remainingTotal : ℚ := max (budget.equity * config.maxTotalOpenRiskPct - request.existingTotalOpenRisk) 0

/-- `risk_amount`. -/
def riskAmountOf : ℚ :=
  min (min (perTrade budget config) (remainingDaily budget request config)) (remainingTotal budget request config)

def remainingInstrument : ℚ := request.remainingInstrumentExposure.getD config.maxInstrumentExposure

def remainingCorrelated : ℚ := request.remainingCorrelatedExposure.getD config.maxCorrelatedExposure

def availableMarginAdjusted : ℚ :=
  max (budget.freeMargin - config.minFreeMargin - config.reserveBalance) 0 *
    request.leverage.getD config.maxLeverage

def rawNotionalOf (stopDistancePct : ℚ) : ℚ := riskAmountOf budget request config / stopDistancePct

/-- `allowed_notional`. -/
def allowedNotionalOf (stopDistancePct : ℚ) : ℚ :=
  min (min (min (min (rawNotionalOf budget request config stopDistancePct) config.maxNotionalPerOrder)
    (remainingInstrument request config)) (remainingCorrelated request config))
    (availableMarginAdjusted budget request config)

def quantityOf (stopDistancePct : ℚ) : ℚ :=
  floorToIncrement (allowedNotionalOf budget request config stopDistancePct / request.entryPrice) request.quantityStep

def headroomOf (stopDistancePct : ℚ) : Headroom where
  riskPerTrade := perTrade budget config
  daily := remainingDaily budget request config
  total := remainingTotal budget request config
  rawNotional := rawNotionalOf budget request config stopDistancePct
  maxNotionalPerOrder := config.maxNotionalPerOrder
  instrument := remainingInstrument request config
  correlated := remainingCorrelated request config
  availableMarginAdjusted := availableMarginAdjusted budget request config

/-- The part of `fixed_risk_size` after the checks of the budget and the stop. -/
def sizeWithin (stopDistancePct : ℚ) (checks : List SizingCheck) : SizingResult :=
  let riskAmount := riskAmountOf budget request config
  if riskAmount ≤ 0 then blocked .rejected "no remaining risk budget" checks
  else
    let rawNotional := rawNotionalOf budget request config stopDistancePct
    let allowedNotional := allowedNotionalOf budget request config stopDistancePct
    let headroom := some (headroomOf budget request config stopDistancePct)
    let quantity := quantityOf budget request config stopDistancePct
    let notional := quantity * request.entryPrice
    if quantity < request.minQuantity ∨ notional < request.minNotional then {
      status := .rejected, reason := "quantity below exchange minimum", quantity := 0, notional := 0
      riskAmount, stopDistancePct, rawNotional, allowedNotional, headroom
      checks := checks ++ [{ name := "exchange_minimum", passed := false }] }
    else {
      status := .approved, reason := "fixed risk size approved", quantity, notional
      riskAmount, stopDistancePct, rawNotional, allowedNotional, headroom, checks }

def fixedRiskSize : SizingResult :=
  if budget.canTakeNewRisk = false then blocked .needsReview "account budget stale or unavailable" []
  else
    match request.stopPrice with
    | none => blocked .needsReview "no verifiable stop distance" []
    | some stop =>
      if request.entryPrice ≤ 0 ∨ stop ≤ 0 ∨ stop = request.entryPrice then
        blocked .needsReview "no verifiable stop distance" []
      else
        let stopDistancePct := |request.entryPrice - stop| / request.entryPrice
        sizeWithin budget request config stopDistancePct
          [{ name := "stop_distance", passed := true, value := some stopDistancePct }]

end

/-! ## The exchange filters -/

/-- The margin modes are those of the set, in order. -/
structure InstrumentMetadata where
  instrumentId : String
  minNotional : ℚ
  minQuantity : ℚ
  quantityStep : ℚ
  priceTick : ℚ
  minPrice : Option ℚ := none
  maxPrice : Option ℚ := none
  maxLeverage : Option ℚ := none
  allowedMarginModes : List String := []

structure OrderFilterRequest where
  quantity : ℚ
  price : ℚ
  leverage : Option ℚ := none
  marginMode : Option String := none

/-- What a check compared. -/
inductive Compared where
  | numbers (value limit : ℚ)
  | modes (value : String) (allowed : List String)
  deriving DecidableEq, Repr

structure FilterCheck where
  name : String
  passed : Bool
  compared : Compared
  deriving DecidableEq, Repr

structure FilterMetadata where
  instrumentId : String
  minNotional : ℚ
  minQuantity : ℚ
  quantityStep : ℚ
  priceTick : ℚ
  maxLeverage : Option ℚ
  deriving DecidableEq, Repr

structure FilterResult where
  status : SizingStatus
  reason : String
  checks : List FilterCheck
  metadata : FilterMetadata
  deriving DecidableEq, Repr

/-- `_check`. -/
def check (name : String) (passed : Bool) (value limit : ℚ) : FilterCheck :=
    ⟨name, passed, .numbers value limit⟩

/-- `_aligned`: whole increments, if there is one. -/
def aligned (value increment : ℚ) : Bool := increment ≤ 0 ∨ Int.fract (value / increment) = 0

/-- The smaller of the two leverages; one of the instrument that is zero is none. -/
def leverageLimit (metadata : InstrumentMetadata) (config : RiskConfig) : ℚ :=
  min config.maxLeverage ((metadata.maxLeverage.filter fun x => x ≠ 0).getD config.maxLeverage)

/-- `validate_exchange_filters`, with the metadata of the instrument as the source gave it. -/
def validateExchangeFilters (request : OrderFilterRequest) (metadata : InstrumentMetadata)
    (config : RiskConfig) :
    FilterResult :=
  let notional := request.quantity * request.price
  let checks : List FilterCheck := [
    check "min_quantity" (metadata.minQuantity ≤ request.quantity) request.quantity metadata.minQuantity,
    check "quantity_step" (aligned request.quantity metadata.quantityStep) request.quantity metadata.quantityStep,
    check "min_notional" (metadata.minNotional ≤ notional) notional metadata.minNotional,
    check "price_tick" (aligned request.price metadata.priceTick) request.price metadata.priceTick] ++
    (metadata.minPrice.map fun low => check "min_price" (low ≤ request.price) request.price low).toList ++
    (metadata.maxPrice.map fun high => check "max_price" (request.price ≤ high) request.price high).toList ++
    (request.leverage.map fun leverage => check "leverage" (leverage ≤ leverageLimit metadata config) leverage
      (leverageLimit metadata config)).toList ++
    (if metadata.allowedMarginModes = [] then []
      else (request.marginMode.map fun mode => {
        name := "margin_mode", passed := mode ∈ metadata.allowedMarginModes
        compared := .modes mode metadata.allowedMarginModes }).toList)
  let failed : List FilterCheck := checks.filter fun check => !check.passed
  { status := if failed = [] then .approved else .rejected
    reason := (failed.head?.map FilterCheck.name).getD "filters passed"
    checks
    metadata := {
      instrumentId := metadata.instrumentId, minNotional := metadata.minNotional
      minQuantity := metadata.minQuantity, quantityStep := metadata.quantityStep
      priceTick := metadata.priceTick, maxLeverage := metadata.maxLeverage } }

/-! ## What a size is to be -/

section
variable (budget : AccountBudget) (request : SizingRequest) (config : RiskConfig)

/-- An approved size that is sound, the largest one, and fit for the exchange. -/
structure Sound (result : SizingResult) : Prop where
  quantity : 0 < result.quantity
  steps : ∃ n : ℕ, result.quantity = n * request.quantityStep
  notional : result.notional = result.quantity * request.entryPrice
  loss : ∀ stop, request.stopPrice = some stop →
    result.quantity * |request.entryPrice - stop| ≤ result.riskAmount
  budgets : result.riskAmount ≤ perTrade budget config ∧
    result.riskAmount ≤ remainingDaily budget request config ∧
    result.riskAmount ≤ remainingTotal budget request config
  caps : ∃ headroom, result.headroom = some headroom ∧ result.notional ≤ headroom.rawNotional ∧
    result.notional ≤ headroom.maxNotionalPerOrder ∧ result.notional ≤ headroom.instrument ∧
    result.notional ≤ headroom.correlated ∧ result.notional ≤ headroom.availableMarginAdjusted
  largest : result.allowedNotional / request.entryPrice < result.quantity + request.quantityStep
  filters : ∀ (order : OrderFilterRequest) (metadata : InstrumentMetadata) (config' : RiskConfig),
    order.quantity = result.quantity → order.price = request.entryPrice →
    metadata.quantityStep = request.quantityStep → metadata.minQuantity = request.minQuantity →
    metadata.minNotional = request.minNotional →
    ∀ check ∈ (validateExchangeFilters order metadata config').checks,
      check.name ∈ ["min_quantity", "quantity_step", "min_notional"] → check.passed = true

/-- A stop whose distance can be read, of an account that may take risk. -/
structure Verified (stop : ℚ) : Prop where
  account : budget.canTakeNewRisk = true
  entry : 0 < request.entryPrice
  isStop : request.stopPrice = some stop
  positive : 0 < stop
  apart : stop ≠ request.entryPrice

/-- Nothing keeps a size of zero from being approved: every budget has something, no cap is negative and no
minimum is set. -/
structure Unhindered (stop : ℚ) : Prop where
  verified : Verified budget request stop
  budgets : 0 < perTrade budget config ∧ 0 < remainingDaily budget request config ∧
    0 < remainingTotal budget request config
  caps : 0 ≤ config.maxNotionalPerOrder ∧ 0 ≤ remainingInstrument request config ∧
    0 ≤ remainingCorrelated request config ∧ 0 ≤ availableMarginAdjusted budget request config
  quantity : request.minQuantity = 0
  notional : request.minNotional = 0

/-- One step is within every budget and every cap. -/
structure StepFits (stop : ℚ) : Prop where
  budgets : request.quantityStep * |request.entryPrice - stop| ≤ perTrade budget config ∧
    request.quantityStep * |request.entryPrice - stop| ≤ remainingDaily budget request config ∧
    request.quantityStep * |request.entryPrice - stop| ≤ remainingTotal budget request config
  caps : request.quantityStep * request.entryPrice ≤ config.maxNotionalPerOrder ∧
    request.quantityStep * request.entryPrice ≤ remainingInstrument request config ∧
    request.quantityStep * request.entryPrice ≤ remainingCorrelated request config ∧
    request.quantityStep * request.entryPrice ≤ availableMarginAdjusted budget request config

end

section
variable {budget : AccountBudget} {request : SizingRequest} {config : RiskConfig} {pct stop x : ℚ}
variable {checks : List SizingCheck}

theorem le_riskAmountOf_iff : x ≤ riskAmountOf budget request config ↔
    x ≤ perTrade budget config ∧ x ≤ remainingDaily budget request config ∧
      x ≤ remainingTotal budget request config := by
  rw [riskAmountOf, le_min_iff, le_min_iff, and_assoc]

theorem riskAmountOf_pos_iff : 0 < riskAmountOf budget request config ↔
    0 < perTrade budget config ∧ 0 < remainingDaily budget request config ∧
      0 < remainingTotal budget request config := by
  rw [riskAmountOf, lt_min_iff, lt_min_iff, and_assoc]

theorem le_allowedNotionalOf_iff : x ≤ allowedNotionalOf budget request config pct ↔
    x ≤ rawNotionalOf budget request config pct ∧ x ≤ config.maxNotionalPerOrder ∧
      x ≤ remainingInstrument request config ∧ x ≤ remainingCorrelated request config ∧
      x ≤ availableMarginAdjusted budget request config := by
  rw [allowedNotionalOf, le_min_iff, le_min_iff, le_min_iff, le_min_iff, and_assoc, and_assoc, and_assoc]

theorem sizeWithin_approved_iff : (sizeWithin budget request config pct checks).status = .approved ↔
    0 < riskAmountOf budget request config ∧ request.minQuantity ≤ quantityOf budget request config pct ∧
      request.minNotional ≤ quantityOf budget request config pct * request.entryPrice := by
  unfold sizeWithin
  dsimp only
  split_ifs with hrisk hminimum
  · exact iff_of_false nofun fun h => absurd h.1 (not_lt.mpr hrisk)
  · refine iff_of_false nofun fun h => ?_
    rcases hminimum with hlow | hlow
    · exact absurd h.2.1 (not_le.mpr hlow)
    · exact absurd h.2.2 (not_le.mpr hlow)
  · rw [not_or, not_lt, not_lt] at hminimum
    exact iff_of_true rfl ⟨not_le.mp hrisk, hminimum⟩

/-- What an approved size is made of. -/
theorem sizeWithin_approved (h : (sizeWithin budget request config pct checks).status = .approved) :
    sizeWithin budget request config pct checks = {
      status := .approved, reason := "fixed risk size approved", quantity :=
        quantityOf budget request config pct
      notional := quantityOf budget request config pct * request.entryPrice
      riskAmount := riskAmountOf budget request config, stopDistancePct := pct
      rawNotional := rawNotionalOf budget request config pct
      allowedNotional := allowedNotionalOf budget request config pct
      headroom := some (headroomOf budget request config pct), checks } := by
  obtain ⟨hrisk, hquantity, hnotional⟩ := sizeWithin_approved_iff.mp h
  unfold sizeWithin
  rw [if_neg (not_le.mpr hrisk), if_neg (not_or.mpr ⟨not_lt.mpr hquantity, not_lt.mpr hnotional⟩)]

/-- `stop_distance_pct` at a stop. -/
def distancePct (request : SizingRequest) (stop : ℚ) : ℚ := |request.entryPrice - stop| / request.entryPrice

theorem Verified.size (h : Verified budget request stop) : fixedRiskSize budget request config =
    sizeWithin budget request config (distancePct request stop)
      [{ name := "stop_distance", passed := true, value := some (distancePct request stop) }] := by
  unfold fixedRiskSize
  rw [if_neg (by rw [h.account]; nofun), h.isStop]
  exact if_neg fun hbad => by
    rcases hbad with hentry | hstop | hsame
    · exact absurd h.entry (not_lt.mpr hentry)
    · exact absurd h.positive (not_lt.mpr hstop)
    · exact h.apart hsame

/-- Nothing is approved without a stop that is verified. -/
theorem verified_of_approved (h : (fixedRiskSize budget request config).status = .approved) :
    ∃ stop, Verified budget request stop := by
  unfold fixedRiskSize at h
  split_ifs at h with haccount
  · cases h
  · split at h
    · cases h
    · rename_i stop hstop
      split_ifs at h with hbad
      · cases h
      · simp only [not_or, not_le] at hbad
        exact ⟨stop, (Bool.not_eq_false _).mp haccount, hbad.1, hstop, hbad.2.1, hbad.2.2⟩

theorem Verified.distance_pos (h : Verified budget request stop) : 0 < |request.entryPrice - stop| :=
  abs_pos.mpr (sub_ne_zero.mpr h.apart.symm)

/-- A notional loses its share of the distance at the stop. -/
theorem Verified.le_rawNotionalOf_iff (h : Verified budget request stop) :
    x * request.entryPrice ≤ rawNotionalOf budget request config (distancePct request stop) ↔
      x * |request.entryPrice - stop| ≤ riskAmountOf budget request config := by
  rw [rawNotionalOf, distancePct, le_div_iff₀ (div_pos h.distance_pos h.entry), mul_assoc, mul_div_cancel₀ _ h.entry.ne']

/-- The size is not nothing exactly when one step fits. -/
theorem Verified.quantity_pos_iff (h : Verified budget request stop) (hstep : 0 < request.quantityStep) :
    0 < quantityOf budget request config (distancePct request stop) ↔
      StepFits budget request config stop := by
  rw [quantityOf, floorToIncrement, if_neg (not_le.mpr hstep), floorTo_pos_iff hstep, le_div_iff₀ h.entry,
    le_allowedNotionalOf_iff, h.le_rawNotionalOf_iff, le_riskAmountOf_iff]
  exact ⟨fun hle => ⟨hle.1, hle.2⟩, fun hfits => ⟨hfits.budgets, hfits.caps⟩⟩

theorem aligned_of_steps {value increment : ℚ} {n : ℕ} (h : 0 < increment)
    (hsteps : value = n * increment) :
    aligned value increment = true := by
  refine decide_eq_true (.inr ?_)
  rw [hsteps, mul_div_cancel_right₀ _ h.ne', Int.fract_natCast]

/-- The three checks of a quantity pass when what they compare does; the other checks have other
names. -/
theorem filters_pass {order : OrderFilterRequest} {metadata : InstrumentMetadata}
    (hquantity : metadata.minQuantity ≤ order.quantity)
    (hsteps : aligned order.quantity metadata.quantityStep = true)
    (hnotional : metadata.minNotional ≤ order.quantity * order.price) :
    ∀ check ∈ (validateExchangeFilters order metadata config).checks,
      check.name ∈ ["min_quantity", "quantity_step", "min_notional"] → check.passed = true := by
  intro c hc hname
  simp only [validateExchangeFilters, List.mem_append, List.mem_cons, List.not_mem_nil, or_false] at hc
  rcases hc with ((((rfl | rfl | rfl | rfl) | hc) | hc) | hc) | hc
  · exact decide_eq_true hquantity
  · exact hsteps
  · exact decide_eq_true hnotional
  · exact absurd hname (show "price_tick" ∉ _ by decide)
  · obtain ⟨low, -, rfl⟩ := Option.map_eq_some_iff.mp (Option.mem_toList.mp hc)
    exact absurd hname (show "min_price" ∉ _ by decide)
  · obtain ⟨high, -, rfl⟩ := Option.map_eq_some_iff.mp (Option.mem_toList.mp hc)
    exact absurd hname (show "max_price" ∉ _ by decide)
  · obtain ⟨leverage, -, rfl⟩ := Option.map_eq_some_iff.mp (Option.mem_toList.mp hc)
    exact absurd hname (show "leverage" ∉ _ by decide)
  · split_ifs at hc
    · cases hc
    · obtain ⟨mode, -, rfl⟩ := Option.map_eq_some_iff.mp (Option.mem_toList.mp hc)
      exact absurd hname (show "margin_mode" ∉ _ by decide)

/-- An approved size that is not nothing is all that it is to be. -/
theorem Verified.sound (h : Verified budget request stop) (hstep : 0 < request.quantityStep)
    (happroved : (fixedRiskSize budget request config).status = .approved)
    (hpos : 0 < quantityOf budget request config (distancePct request stop)) :
    Sound budget request config (fixedRiskSize budget request config) := by
  rw [h.size] at happroved ⊢
  obtain ⟨hrisk, hquantity, hnotional⟩ := sizeWithin_approved_iff.mp happroved
  rw [sizeWithin_approved happroved]
  have hfloor : quantityOf budget request config (distancePct request stop) =
      floorTo request.quantityStep
        (allowedNotionalOf budget request config (distancePct request stop) / request.entryPrice) :=
    if_neg (not_le.mpr hstep)
  have hcaps := le_allowedNotionalOf_iff.mp ((le_div_iff₀ h.entry).mp (hfloor.trans_le (floorTo_le hstep)))
  obtain ⟨n, hn, hsteps⟩ := floorTo_pos hstep (hfloor ▸ hpos)
  refine ⟨hpos, ⟨n, hfloor.trans hsteps⟩, rfl, fun stop' hstop' => ?_, le_riskAmountOf_iff.mp le_rfl,
    ⟨_, rfl, hcaps⟩, ?_, ?_⟩
  · cases h.isStop.symm.trans hstop'
    exact h.le_rawNotionalOf_iff.mp hcaps.1
  · show _ < quantityOf budget request config (distancePct request stop) + request.quantityStep
    rw [hfloor]
    exact lt_floorTo_add hstep
  · intro order metadata config' horder hprice hstep' hminimum hminimum'
    refine filters_pass ?_ ?_ ?_
    · rw [hminimum, horder]
      exact hquantity
    · rw [horder, hstep']
      exact aligned_of_steps hstep (hfloor.trans hsteps)
    · rw [hminimum', horder, hprice]
      exact hnotional

/-- **An approved size is sound, the largest one and fit for the exchange, exactly if** one step fits
the budgets and the caps whenever nothing else keeps a size of zero from being approved. -/
theorem sized_iff (budget : AccountBudget) (request : SizingRequest) (config : RiskConfig)
    (hstep : 0 < request.quantityStep) (hquantity : 0 ≤ request.minQuantity)
    (hnotional : 0 ≤ request.minNotional) :
    ((fixedRiskSize budget request config).status = .approved →
        Sound budget request config (fixedRiskSize budget request config)) ↔
      ∀ stop, Unhindered budget request config stop → StepFits budget request config stop := by
  constructor
  · intro hsound stop hfree
    have h := hfree.verified
    have hallowed : 0 ≤ allowedNotionalOf budget request config (distancePct request stop) := by
      refine le_allowedNotionalOf_iff.mpr ⟨?_, hfree.caps⟩
      exact div_nonneg (riskAmountOf_pos_iff.mpr hfree.budgets).le (div_pos h.distance_pos h.entry).le
    have hsize : 0 ≤ quantityOf budget request config (distancePct request stop) := by
      rw [quantityOf, floorToIncrement, if_neg (not_le.mpr hstep)]
      exact floorTo_nonneg hstep (div_nonneg hallowed h.entry.le)
    have happroved : (fixedRiskSize budget request config).status = .approved := by
      rw [h.size, sizeWithin_approved_iff, hfree.quantity, hfree.notional]
      exact ⟨riskAmountOf_pos_iff.mpr hfree.budgets, hsize, mul_nonneg hsize h.entry.le⟩
    have hpos := (hsound happroved).quantity
    rw [h.size] at happroved hpos
    rw [sizeWithin_approved happroved] at hpos
    exact (h.quantity_pos_iff hstep).mp hpos
  · intro hfits happroved
    obtain ⟨stop, h⟩ := verified_of_approved happroved
    refine h.sound hstep happroved ?_
    rw [h.size] at happroved
    obtain ⟨hrisk, hleast, hleast'⟩ := sizeWithin_approved_iff.mp happroved
    by_contra hzero
    have hnone : quantityOf budget request config (distancePct request stop) = 0 :=
      le_antisymm (not_lt.mp hzero) (hquantity.trans hleast)
    rw [hnone] at hleast
    rw [hnone, zero_mul] at hleast'
    have hallowed : 0 ≤ allowedNotionalOf budget request config (distancePct request stop) := by
      rw [quantityOf, floorToIncrement, if_neg (not_le.mpr hstep)] at hnone
      have hle := hnone ▸ floorTo_le (x := allowedNotionalOf budget request config (distancePct request stop) /
        request.entryPrice) hstep
      rwa [le_div_iff₀ h.entry, zero_mul] at hle
    refine hzero ((h.quantity_pos_iff hstep).mpr (hfits stop ⟨h, riskAmountOf_pos_iff.mp hrisk, ?_, ?_, ?_⟩))
    · exact (le_allowedNotionalOf_iff.mp hallowed).2
    · exact le_antisymm hleast hquantity
    · exact le_antisymm hleast' hnotional

/-- An account of 1000 and an order at 100000, with the stop a tenth away. -/
def smallAccount : AccountBudget where
  equity := 1000
  freeMargin := 1000

def wholeUnits : SizingRequest where
  entryPrice := 100000
  stopPrice := some 90000

/-- In steps of a thousandth the size is sound. -/
theorem thousandths_sized :
    (fixedRiskSize smallAccount { wholeUnits with quantityStep := 1 / 1000 } {}).status = .approved ∧
      Sound smallAccount { wholeUnits with quantityStep := 1 / 1000 } {}
        (fixedRiskSize smallAccount { wholeUnits with quantityStep := 1 / 1000 } {}) := by
  have happroved : (fixedRiskSize smallAccount { wholeUnits with quantityStep := 1 / 1000 } {}).status =
    .approved := by
    decide +kernel
  refine ⟨happroved, (sized_iff smallAccount { wholeUnits with quantityStep := 1 / 1000 } {} ?_ le_rfl le_rfl).mpr ?_
    happroved⟩
  · exact div_pos one_pos (by norm_num)
  · intro stop hfree
    cases hfree.verified.isStop
    refine ⟨⟨?_, ?_, ?_⟩, ?_, ?_, ?_, ?_⟩ <;> decide +kernel

/-- In whole units it is approved, and nothing. -/
theorem wholeUnits_nothing :
    (fixedRiskSize smallAccount wholeUnits {}).status = .approved ∧
      (fixedRiskSize smallAccount wholeUnits {}).quantity = 0 ∧
      ¬ Sound smallAccount wholeUnits {} (fixedRiskSize smallAccount wholeUnits {}) := by
  have hnothing : (fixedRiskSize smallAccount wholeUnits {}).quantity = 0 := by decide +kernel
  refine ⟨by decide +kernel, hnothing, fun hsound => ?_⟩
  exact absurd hnothing hsound.quantity.ne'

end
end TraderBot.Risk
