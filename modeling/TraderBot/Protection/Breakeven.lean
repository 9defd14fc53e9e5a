import TraderBot.Lib.DecimalNearest
import TraderBot.PositionProjection.Model
import TraderBot.Protection.TrailingStop

/-! # The stop at breakeven

`BreakevenManager.evaluate_and_apply` moves the stop of a position to its entry price and a
few basis points, once the market has moved by the risk. It takes the distance from
the entry to the current stop for the risk, wherever that stop is, and the new stop
for the nearest cent; so the move protects only where the price before that is close enough
to cents that do (`breakeven_protects_iff`). -/
namespace TraderBot.Protection
open TraderBot.Lib TraderBot.Lib.Json
open TraderBot.Orders (Side)
open TraderBot.PositionProjection (PositionKey PositionRow)

/-! ## The manager -/

structure BreakevenConfig where
  triggerR : FiniteDecimal
  offsetBps : FiniteDecimal := .zero
  feeBufferBps : FiniteDecimal := .zero

inductive BreakevenAction where
  | blocked
  | alreadyApplied
  | wait
  | applied
  deriving DecidableEq, Repr

structure BreakevenResult where
  action : BreakevenAction
  reason : String
  triggerPrice : Option Decimal := none
  deriving DecidableEq, Repr

/-- What is read and written of a row of `protective_orders_projection`. -/
structure StopRow where
  protectiveOrderProjectionId : String
  accountId : String
  positionKey : String
  lifecycleRole : String
  clientOrderId : Option String
  active : Bool
  triggerPrice : Option Numeric
  payload : Dict Value

structure BreakevenTables where
  positions : Table PositionRow.key
  stops : Table StopRow.protectiveOrderProjectionId

/-- What the submitter is given. -/
structure StopMove where
  accountId : String
  positionKey : String
  clientOrderId : Option String
  triggerPrice : FiniteDecimal
  reason : String
  appliedAt : String
  deriving DecidableEq, Repr

/-- The arguments of a call, and whether the submitter takes the move or raises. -/
structure BreakevenCall where
  accountId : String
  positionKey : String
  marketPrice : Decimal
  priceStale : Bool
  config : BreakevenConfig
  now : Clock
  taken : Bool := true

structure BreakevenOutcome where
  result : BreakevenResult
  tables : BreakevenTables
  moves : List StopMove := []

/-- `_load_position`. -/
def loadPosition (tables : BreakevenTables) (accountId positionKey : String) : Option (Side × Numeric) := do
  let row ← tables.positions.find? ⟨accountId, positionKey⟩
  return (row.side, ← row.avgEntryPrice)

/-- `_load_active_stop`. There is one active row of a role. -/
def loadActiveStop (tables : BreakevenTables) (accountId positionKey : String) :
    Option (StopRow × Numeric) := do
  let row ← tables.stops.rows.find? fun row =>
    row.accountId = accountId ∧ row.positionKey = positionKey ∧ row.lifecycleRole = "stop_loss" ∧
      row.active = true
  return (row, ← row.triggerPrice)

/-- `abs(entry - current_stop)`. -/
def riskOf (entry stop : FiniteDecimal) : Option FiniteDecimal := do
  let distance ← Decimal.sub entry stop
  Decimal.fix false distance.coeff distance.exponent

/-- `_triggered`. -/
def triggered (side : Side) (entry risk : FiniteDecimal) (market : Decimal) (triggerR : FiniteDecimal) :
    Option Bool := do
  let move ← Decimal.mul risk triggerR
  match side with
  | .long => (Decimal.finite (← Decimal.add entry move)).le? market
  | .short => market.le? (.finite (← Decimal.sub entry move))

/-- The entry price and the basis points, before it is rounded to cents. -/
def offsetPrice (side : Side) (entry : FiniteDecimal) (config : BreakevenConfig) :
    Option FiniteDecimal := do
  let bps ← Decimal.div (← Decimal.add config.offsetBps config.feeBufferBps) ⟨false, 10000, 0, .tenThousand⟩
  match side with
  | .long => Decimal.mul entry (← Decimal.add one bps)
  | .short => Decimal.mul entry (← Decimal.sub one bps)

/-- `_breakeven_price`. -/
def breakevenPrice (side : Side) (entry : FiniteDecimal) (config : BreakevenConfig) :
    Option FiniteDecimal := do
  Decimal.quantize .halfUp (← offsetPrice side entry config) (-2)

/-- The stop after it was moved. -/
def StopRow.moved (row : StopRow) (target : Numeric) (now : String) : StopRow :=
  { row with
    triggerPrice := some target
    payload := (row.payload.set "breakeven_applied" (.bool true)).set "breakeven_applied_at" (.str now) }

/-- The move of the stop. The table takes no trigger that is not positive. -/
def applyBreakeven (tables : BreakevenTables) (call : BreakevenCall) (row : StopRow)
    (target : FiniteDecimal) :
    Option BreakevenOutcome := do
  let now := DateTime.isoText call.now
  let move : StopMove := {
    accountId := call.accountId, positionKey := call.positionKey, clientOrderId := row.clientOrderId
    triggerPrice := target, reason := "breakeven", appliedAt := now }
  let written ← Numeric.ofDecimal (.finite target)
  if call.taken ∧ target.isPositive then
    return {
      result := ⟨.applied, "breakeven_applied", some (.finite target)⟩
      tables := { tables with
        stops := tables.stops.update
          (fun r => r.protectiveOrderProjectionId = row.protectiveOrderProjectionId) (·.moved written now) fun _ => rfl }
      moves := [move] }
  else none

/-- `evaluate_and_apply`; `none` raises. A NaN raises where the risk is compared. -/
def evaluateAndApply (tables : BreakevenTables) (call : BreakevenCall) : Option BreakevenOutcome :=
  if call.priceStale then some { result := ⟨.blocked, "market_data_stale", none⟩, tables }
  else
    match loadPosition tables call.accountId call.positionKey,
      loadActiveStop tables call.accountId call.positionKey with
    | some (side, entry), some (row, stop) =>
      if row.payload.get? "breakeven_applied" = some (.bool true) then
        some { result := ⟨.alreadyApplied, "breakeven_already_applied", some stop.toDecimal⟩, tables }
      else
        match entry.toDecimal, stop.toDecimal with
        | .finite entry, .finite stop => do
          let risk ← riskOf entry stop
          if risk.le .zero then return { result := ⟨.blocked, "invalid_initial_risk", none⟩, tables }
          else if !(← triggered side entry risk call.marketPrice call.config.triggerR) then
            return { result := ⟨.wait, "trigger_not_reached", none⟩, tables }
          else applyBreakeven tables call row (← breakevenPrice side entry call.config)
        | _, _ => none
    | _, _ => some { result := ⟨.blocked, "position_or_stop_missing", none⟩, tables }

/-! ## What the stop is to be -/

/-- A stop that is no looser than the one before, not on the losing side of the entry, and not passed
by the market. -/
def Protects (side : Side) (entry stop : ℚ) (market : Decimal) (target : FiniteDecimal) : Prop :=
  match side with
  | .long => stop ≤ target.value ∧ entry ≤ target.value ∧ (Decimal.finite target).le? market = some true
  | .short => target.value ≤ stop ∧ target.value ≤ entry ∧ market.le? (.finite target) = some true

/-- The position and the stop of a call. -/
structure Holds (tables : BreakevenTables) (call : BreakevenCall) (side : Side) (entry stop : FiniteDecimal)
    (row : StopRow) : Prop where
  position : ∃ n, loadPosition tables call.accountId call.positionKey = some (side, n) ∧
    n.toDecimal = .finite entry
  isStop : ∃ n, loadActiveStop tables call.accountId call.positionKey = some (row, n) ∧
    n.toDecimal = .finite stop

/-- A call that gets to the move, with the price it is rounded from. -/
structure Moves (tables : BreakevenTables) (call : BreakevenCall) (side : Side)
    (entry stop x : FiniteDecimal) :
    Prop where
  live : call.priceStale = false
  holds : ∃ row, Holds tables call side entry stop row ∧
    row.payload.get? "breakeven_applied" ≠ some (.bool true)
  reached : ∃ risk, riskOf entry stop = some risk ∧ risk.le .zero = false ∧
    triggered side entry risk call.marketPrice call.config.triggerR = some true
  price : offsetPrice side entry call.config = some x
  cents : 1 / 2 ≤ 100 * x.value ∧ 100 * x.value < 10 ^ 28 - 1 / 2
  taken : call.taken = true

/-- The price is at most half a cent short of the first cents that are as tight as the stop and
the entry, and less than half a cent beyond the last cents that the market has not passed. -/
def NearCents (side : Side) (entry stop : ℚ) (market : Decimal) (x : ℚ) : Prop :=
  match side with
  | .long => (⌈100 * max entry stop⌉ : ℚ) - 1 / 2 ≤ 100 * x ∧
      ∀ m, market = .finite m → 100 * x < ⌊100 * m.value⌋ + 1 / 2
  | .short => 100 * x < ⌊100 * min entry stop⌋ + 1 / 2 ∧
      ∀ m, market = .finite m → (⌈100 * m.value⌉ : ℚ) - 1 / 2 ≤ 100 * x

/-- An applied move protects the position it is of. -/
def MovesProtect (tables : BreakevenTables) (call : BreakevenCall) : Prop :=
  ∀ out, evaluateAndApply tables call = some out → out.result.action = .applied →
    ∃ side entry stop row target, Holds tables call side entry stop row ∧
      out.result.triggerPrice = some (.finite target) ∧
      Protects side entry.value stop.value call.marketPrice target

section
variable {tables : BreakevenTables} {call : BreakevenCall} {side : Side} {entry stop x target : FiniteDecimal}
variable {row : StopRow} {out : BreakevenOutcome} {market : Decimal} {y z : ℚ}

/-! ## Cents -/

theorem le_centOf_iff (hz : 0 ≤ z) : y ≤ centOf z ↔ (⌈100 * y⌉ : ℚ) - 1 / 2 ≤ 100 * z := by
  rw [centOf, le_div_iff₀ (by norm_num), mul_comm y, ← Int.ceil_le, mul_comm z,
    Rounding.le_halfUp_iff (mul_nonneg (by norm_num) hz)]

theorem centOf_le_iff (hz : 0 ≤ z) : centOf z ≤ y ↔ 100 * z < ⌊100 * y⌋ + 1 / 2 := by
  rw [centOf, div_le_iff₀ (by norm_num), mul_comm y, ← Int.le_floor, mul_comm z,
    Rounding.halfUp_le_iff_lt (mul_nonneg (by norm_num) hz)]

theorem centOf_pos_iff : 0 < centOf z ↔ 1 / 2 ≤ 100 * z := by
  rw [centOf, div_pos_iff_of_pos_right (by norm_num), Int.cast_pos, mul_comm z]
  rcases le_or_gt 0 (100 * z) with hz | hz
  · exact Rounding.halfUp_pos_iff hz
  · refine iff_of_false (fun hpos => ?_) (by linarith)
    rw [Rounding.apply, if_pos hz, Int.neg_pos, Int.floor_lt, Int.cast_zero] at hpos
    linarith

/-- The price can be written in cents. -/
theorem quantize_cents_isSome_iff (hx : 1 / 2 ≤ 100 * x.value) :
    (Decimal.quantize .halfUp x (-2)).isSome ↔ 100 * x.value < 10 ^ 28 - 1 / 2 := by
  have hpos : 0 < x.value := by linarith
  have hsign := FiniteDecimal.unsigned_of_pos hpos
  have hcent : x.value / 10 ^ (-2 : Int) = 100 * x.value := by
    rw [show (10 : ℚ) ^ (-2 : Int) = 1 / 100 by norm_num]
    ring
  have hrescale := Decimal.rescale_value .halfUp x (-2)
  rw [if_neg (by rw [hsign]; nofun), hcent] at hrescale
  rw [Decimal.quantize_isSome_iff ⟨by decide, by decide⟩]
  have hle := Rounding.halfUp_le_iff_lt (x := 100 * x.value) (by linarith) (n := 10 ^ 28 - 1)
  rw [← hrescale] at hle
  push_cast at hle
  constructor
  · intro hlt
    have hbelow := hle.mp (by omega)
    linarith
  · intro hlt
    have hbelow := hle.mpr (by linarith)
    omega

/-- A price in cents can be written to the table. -/
theorem cents_written (h : Decimal.quantize .halfUp x (-2) = some target) :
    ∃ n, Numeric.ofDecimal (.finite target) = some n := by
  obtain ⟨hplace, hwidth⟩ := Decimal.quantize_place h
  have hfits : (-target.exponent).toNat ≤ 16383 ∧
      Decimal.width target.signed.natAbs ≤ 131072 + (-target.exponent).toNat := by
    rw [FiniteDecimal.natAbs_signed, hplace]
    omega
  refine ⟨.number target.signed (-target.exponent).toNat hfits, ?_⟩
  rw [Numeric.ofDecimal, if_neg (by rw [hplace]; decide)]
  exact dif_pos hfits

/-! ## Against the market -/

/-- A price the market has reached is compared with a market that is a number, or beyond all numbers. -/
theorem le_market_iff {bound : FiniteDecimal} (h : (Decimal.finite bound).le? market = some true) :
    (Decimal.finite target).le? market = some true ↔ ∀ m, market = .finite m → target.value ≤ m.value := by
  cases market with
  | finite m =>
    have hle : (Decimal.finite target).le? (.finite m) = some true ↔ target.value ≤ m.value :=
      ⟨fun hsome => FiniteDecimal.le_iff.mp (Option.some.inj hsome), fun hle => congrArg some (FiniteDecimal.le_iff.mpr hle)⟩
    rw [hle]
    exact ⟨fun hle m' hm' => by cases hm'; exact hle, fun hall => hall m rfl⟩
  | infinity negative =>
    cases negative with
    | true => cases h
    | false => exact iff_of_true (by simp only [Decimal.le?]) fun m hm => by cases hm
  | nan negative signaling payload => cases h

theorem market_le_iff {bound : FiniteDecimal} (h : market.le? (.finite bound) = some true) :
    market.le? (.finite target) = some true ↔ ∀ m, market = .finite m → m.value ≤ target.value := by
  cases market with
  | finite m =>
    have hle : (Decimal.finite m).le? (.finite target) = some true ↔ m.value ≤ target.value :=
      ⟨fun hsome => FiniteDecimal.le_iff.mp (Option.some.inj hsome), fun hle => congrArg some (FiniteDecimal.le_iff.mpr hle)⟩
    rw [hle]
    exact ⟨fun hle m' hm' => by cases hm'; exact hle, fun hall => hall m rfl⟩
  | infinity negative =>
    cases negative with
    | true => exact iff_of_true (by simp only [Decimal.le?]) fun m hm => by cases hm
    | false => cases h
  | nan negative signaling payload => cases h

/-- **The cents protect** exactly when the price before is near them. -/
theorem protects_iff {risk r : FiniteDecimal} (hcents : target.value = centOf x.value) (hx : 0 ≤ x.value)
    (hreached : triggered side entry risk market r = some true) :
    Protects side entry.value stop.value market target ↔
      NearCents side entry.value stop.value market x.value := by
  obtain ⟨move, -, hreached⟩ := Option.bind_eq_some_iff.mp hreached
  cases side with
  | long =>
    obtain ⟨bound, -, hreached⟩ := Option.bind_eq_some_iff.mp hreached
    unfold Protects NearCents
    dsimp only
    rw [le_market_iff hreached, ← and_assoc, and_comm (a := stop.value ≤ _), ← max_le_iff, hcents, le_centOf_iff hx]
    exact and_congr_right fun _ => forall₂_congr fun m _ => centOf_le_iff hx
  | short =>
    obtain ⟨bound, -, hreached⟩ := Option.bind_eq_some_iff.mp hreached
    unfold Protects NearCents
    dsimp only
    rw [market_le_iff hreached, ← and_assoc, and_comm (a := _ ≤ stop.value), ← le_min_iff, hcents, centOf_le_iff hx]
    exact and_congr_right fun _ => forall₂_congr fun m _ => le_centOf_iff hx

/-! ## The move -/

theorem applyBreakeven_some {written : Numeric}
    (hwritten : Numeric.ofDecimal (.finite target) = some written)
    (htaken : call.taken = true) (hpositive : target.isPositive = true) :
    ∃ out, applyBreakeven tables call row target = some out ∧ out.result.action = .applied ∧
      out.result.triggerPrice = some (.finite target) := by
  refine ⟨{
    result := ⟨.applied, "breakeven_applied", some (.finite target)⟩
    tables := { tables with
      stops := tables.stops.update
        (fun r => r.protectiveOrderProjectionId = row.protectiveOrderProjectionId)
        (·.moved written (DateTime.isoText call.now)) fun _ => rfl }
    moves := [⟨call.accountId, call.positionKey, row.clientOrderId, target, "breakeven",
      DateTime.isoText call.now⟩] }, ?_, rfl, rfl⟩
  rw [applyBreakeven, hwritten]
  exact if_pos ⟨htaken, hpositive⟩

theorem applyBreakeven_cases (h : applyBreakeven tables call row target = some out) :
    call.taken = true ∧ target.isPositive = true ∧ out.result.triggerPrice = some (.finite target) := by
  obtain ⟨written, -, h⟩ := Option.bind_eq_some_iff.mp h
  split_ifs at h with htaken
  cases h
  exact ⟨htaken.1, htaken.2, rfl⟩

/-- A call that gets to the move makes it. -/
theorem Moves.applies (h : Moves tables call side entry stop x) :
    ∃ out target, evaluateAndApply tables call = some out ∧ out.result.action = .applied ∧
      out.result.triggerPrice = some (.finite target) ∧ target.value = centOf x.value := by
  obtain ⟨row, ⟨⟨n, hn, hentry⟩, ⟨m, hm, hstop⟩⟩, hfirst⟩ := h.holds
  obtain ⟨risk, hrisk, hapart, htriggered⟩ := h.reached
  obtain ⟨target, htarget⟩ :=
    Option.isSome_iff_exists.mp ((quantize_cents_isSome_iff h.cents.1).mpr h.cents.2)
  obtain ⟨written, hwritten⟩ := cents_written htarget
  have hvalue := quantize_cent htarget
  have hpositive : target.isPositive = true := by
    rw [FiniteDecimal.isPositive_iff, hvalue, centOf_pos_iff]
    exact h.cents.1
  have hprice : breakevenPrice side entry call.config = some target := by
    rw [breakevenPrice, h.price]
    exact htarget
  obtain ⟨out, hout, happlied, htrigger⟩ := @applyBreakeven_some _ _ _ row _ hwritten h.taken hpositive
  refine ⟨out, target, ?_, happlied, htrigger, hvalue⟩
  unfold evaluateAndApply
  rw [h.live, hn, hm]
  simp only [hfirst, hentry, hstop, hrisk, hapart, htriggered, hprice, Option.bind_some, if_false, bind]
  exact hout

/-- An applied move is one of a call that gets to it. -/
theorem moves_of_applied (h : evaluateAndApply tables call = some out)
    (happlied : out.result.action = .applied) :
    ∃ side entry stop row x target, Moves tables call side entry stop x ∧
      Holds tables call side entry stop row ∧
      out.result.triggerPrice = some (.finite target) ∧ target.value = centOf x.value := by
  unfold evaluateAndApply at h
  split_ifs at h with hstale
  · cases h
    cases happlied
  split at h
  · rename_i side n row m hn hm
    split_ifs at h with hfirst
    · cases h
      cases happlied
    split at h
    · rename_i entry stop hentry hstop
      obtain ⟨risk, hrisk, h⟩ := Option.bind_eq_some_iff.mp h
      split_ifs at h with hapart
      · cases h
        cases happlied
      obtain ⟨reached, hreached, h⟩ := Option.bind_eq_some_iff.mp h
      cases reached with
      | false =>
        cases h
        cases happlied
      | true =>
        obtain ⟨target, htarget, h⟩ := Option.bind_eq_some_iff.mp h
        obtain ⟨x, hx, hcents⟩ := Option.bind_eq_some_iff.mp htarget
        obtain ⟨htaken, hpositive, htrigger⟩ := applyBreakeven_cases h
        have hvalue := quantize_cent hcents
        rw [FiniteDecimal.isPositive_iff, hvalue, centOf_pos_iff] at hpositive
        have hfits := (quantize_cents_isSome_iff hpositive).mp (by rw [hcents]; rfl)
        have hholds : Holds tables call side entry stop row := ⟨⟨n, hn, hentry⟩, ⟨m, hm, hstop⟩⟩
        exact ⟨side, entry, stop, row, x, target,
          ⟨(Bool.not_eq_true _).mp hstale, ⟨row, hholds, hfirst⟩,
            ⟨risk, hrisk, (Bool.not_eq_true _).mp hapart, hreached⟩, hx, ⟨hpositive, hfits⟩, htaken⟩,
          hholds, htrigger, hvalue⟩
    · cases h
  · cases h
    cases happlied

/-- A call has one position and one stop. -/
theorem Holds.same {side' : Side} {entry' stop' : FiniteDecimal} {row' : StopRow}
    (h : Holds tables call side entry stop row) (h' : Holds tables call side' entry' stop' row') :
    side = side' ∧ entry = entry' ∧ stop = stop' := by
  obtain ⟨⟨n, hn, hentry⟩, ⟨m, hm, hstop⟩⟩ := h
  obtain ⟨⟨n', hn', hentry'⟩, ⟨m', hm', hstop'⟩⟩ := h'
  cases hn.symm.trans hn'
  cases hm.symm.trans hm'
  exact ⟨rfl, Decimal.finite.inj (hentry.symm.trans hentry'), Decimal.finite.inj (hstop.symm.trans hstop')⟩

/-- **An applied move protects exactly when** every call that gets to the move finds a price near cents
that do. -/
theorem breakeven_protects_iff (tables : BreakevenTables) (call : BreakevenCall) :
    MovesProtect tables call ↔ ∀ side entry stop x, Moves tables call side entry stop x →
      NearCents side entry.value stop.value call.marketPrice x.value := by
  have hiff : ∀ {side entry stop x target}, Moves tables call side entry stop x → target.value =
    centOf x.value →
      (Protects side entry.value stop.value call.marketPrice target ↔
        NearCents side entry.value stop.value call.marketPrice x.value) := by
    intro side entry stop x target hmoves hvalue
    obtain ⟨risk, -, -, hreached⟩ := hmoves.reached
    have hx : 0 ≤ x.value := by linarith [hmoves.cents.1]
    exact protects_iff hvalue hx hreached
  constructor
  · intro hprotects side entry stop x hmoves
    obtain ⟨out, target, hout, happlied, htrigger, hvalue⟩ := hmoves.applies
    obtain ⟨side', entry', stop', row', target', hholds', htrigger', hprotected⟩ :=
      hprotects out hout happlied
    obtain ⟨row, hholds, -⟩ := hmoves.holds
    obtain ⟨rfl, rfl, rfl⟩ := hholds.same hholds'
    cases htrigger.symm.trans htrigger'
    exact (hiff hmoves hvalue).mp hprotected
  · intro hnear out hout happlied
    obtain ⟨side, entry, stop, row, x, target, hmoves, hholds, htrigger, hvalue⟩ :=
      moves_of_applied hout happlied
    exact ⟨side, entry, stop, row, target, hholds, htrigger, (hiff hmoves hvalue).mpr (hnear side entry stop x hmoves)⟩

end

/-! ## A stop that was trailed -/

/-- A long from 100 whose stop was trailed to 105. -/
def trailedLong : BreakevenTables where
  positions := ⟨[{
    key := ⟨"a", "a:BTCUSDT"⟩, instrumentId := "BTCUSDT-PERP.BINANCE", side := .long, quantity := .zero
    avgEntryPrice := some (.number 100 0 (by decide)), markPrice := none, unrealizedPnl := none
    status := .opened, updatedFromEventId := "e", tsEvent := none, payload :=
      .empty }], List.nodup_singleton _⟩
  stops := ⟨[{
    protectiveOrderProjectionId := "p", accountId := "a", positionKey := "a:BTCUSDT"
    lifecycleRole := "stop_loss", clientOrderId := none, active := true
    triggerPrice := some (.number 105 0 (by decide)), payload := .empty }], List.nodup_singleton _⟩

/-- The market at 106, with a trigger of one and no offset. -/
def marketAt106 : BreakevenCall where
  accountId := "a"
  positionKey := "a:BTCUSDT"
  marketPrice := .finite ⟨false, 106, 0, by decide⟩
  priceStale := false
  config := { triggerR := one }
  now := (⟨2026, 6, 21, 12, 0, 0, 0, noon_valid⟩, some 0)

/-- The stop is lowered from 105 to 100. -/
theorem trailed_stop_lowered :
    (∃ out, evaluateAndApply trailedLong marketAt106 = some out ∧ out.result.action = .applied ∧
      out.result.triggerPrice = some (.finite ⟨false, 10000, -2, by decide⟩)) ∧
      ¬ MovesProtect trailedLong marketAt106 := by
  have happlied : ∃ out, evaluateAndApply trailedLong marketAt106 = some out ∧
    out.result.action = .applied ∧
      out.result.triggerPrice = some (.finite ⟨false, 10000, -2, by decide⟩) := ⟨_, rfl, rfl, rfl⟩
  refine ⟨happlied, fun hprotects => ?_⟩
  obtain ⟨out, hout, haction, htrigger⟩ := happlied
  obtain ⟨side, entry, stop, row, target, hholds, htarget, hprotected⟩ := hprotects out hout haction
  have htrailed : Holds trailedLong marketAt106 .long ⟨false, 100, 0, by decide⟩ ⟨false, 105, 0, by decide⟩ _ :=
    ⟨⟨_, rfl, rfl⟩, ⟨_, rfl, rfl⟩⟩
  obtain ⟨rfl, -, rfl⟩ := hholds.same htrailed
  cases htrigger.symm.trans htarget
  have hlower := hprotected.1
  norm_num [FiniteDecimal.value, FiniteDecimal.signed] at hlower

end TraderBot.Protection
