import TraderBot.Ownership.Conserved
import TraderBot.PositionProjection.Model

/-! # The protection watchdog

`ProtectionWatchdog.check` goes over what the robot owns of an account and asks,
for each position, which protective roles have no working order on the venue. The
roles it asks for are those of the protective orders that happen to be active; a
stop loss is reported missing where there is none at all. So no findings mean that
every position has its stop loss, whatever the venue reports, if and only if each
has one among its active protective orders, or some position has no such order and
is reported (`watchdog_complete_iff`); a take
profit alone is enough to leave a position naked (`naked_unreported`). -/
namespace TraderBot.Protection
open TraderBot.Lib TraderBot.Lib.Text TraderBot.Lib.Json
open TraderBot.Orders (Env Side)
open TraderBot.Ownership TraderBot.PositionProjection

/-! ## The database -/

/-- A row of `positions_projection`, with the time of its last write. -/
structure ProjectedPosition extends PositionRow where
  updatedAt : Nat

/-- A row of `protective_orders_projection`. -/
structure ExpectedProtection extends ProtectiveOrder where
  lifecycleRole : String

structure WatchedTables where
  events : List LedgerRow
  positions : List ProjectedPosition
  protectiveOrders : List ExpectedProtection

/-- The rows of an account the query selects. -/
def isProjectedOpen (accountId : String) (row : ProjectedPosition) : Bool :=
  row.key.accountId == accountId && [PositionStatus.opened, .reducing, .external].contains row.status &&
    !decide (row.quantity.value ≤ Numeric.zero)

/-- `ORDER BY updated_at DESC, position_id`. -/
def projectedBefore (env : Env) (a b : ProjectedPosition) : Prop :=
  b.updatedAt < a.updatedAt ∨
    (b.updatedAt = a.updatedAt ∧ env.collate a.key.positionId b.key.positionId = true)

instance (env : Env) : DecidableRel (projectedBefore env) :=
  fun _ _ => inferInstanceAs (Decidable (_ ∨ _))

/-- `projection_keys.get((symbol, side))`: the id of the first row of the two. -/
def projectionKey (env : Env) (tables : WatchedTables) (accountId symbol : String) (side : Side) :
    Option String :=
  (((tables.positions.filter (isProjectedOpen accountId)).insertionSort (projectedBefore env)).find?
    fun row => canonicalSymbol env (some (.str row.instrumentId)) = symbol ∧ row.side = side).map
    fun row => row.key.positionId

/-! ## Positions -/

structure OpenPosition where
  positionKey : String
  venueSymbol : String
  quantity : FiniteDecimal
  deriving DecidableEq

def balanceSide (quantity : FiniteDecimal) : Side := if quantity.isNegative then .short else .long

/-- The key of a position: its projection's id, or one made of its name. -/
def positionKeyOf (env : Env) (tables : WatchedTables) (accountId symbol : String) (side : Side) : String :=
  match (projectionKey env tables accountId symbol side).filter (· ≠ "") with
  | some key => key
  | none => accountId ++ ":" ++ symbol ++ ":" ++ PositionProjection.Side.text side

/-- The key of a balance's position. -/
def balanceKey (env : Env) (tables : WatchedTables) (accountId : String) (balance : OwnershipBalance) : String :=
  positionKeyOf env tables accountId balance.symbol (balanceSide balance.quantity)

/-- The position of a balance, if there is one. -/
def openPosition (env : Env) (tables : WatchedTables) (accountId : String) (balance : OwnershipBalance) :
    Except LedgerFailure (Option OpenPosition) :=
  if balance.quantity.coeff = 0 then .ok none
  else
    -- `abs(quantity)`
    match Decimal.fix false balance.quantity.coeff balance.quantity.exponent with
    | some quantity =>
      .ok (some
        { positionKey := balanceKey env tables accountId balance
          venueSymbol := balance.symbol
          quantity })
    | none => .error .decimalSignal

/-- `_open_positions`. -/
def openPositions (env : Env) (tables : WatchedTables) (accountId : String) :
    Except LedgerFailure (List OpenPosition) := do
  let balances ← loadRebasedBalances env accountId true tables.events
  let positions ← balances.mapM (openPosition env tables accountId)
  return positions.filterMap id

/-- `_expected_protection`. -/
def expectedProtection (tables : WatchedTables) (accountId positionKey : String) : List ExpectedProtection :=
  tables.protectiveOrders.filter fun row =>
    row.accountId == accountId && row.positionKey == positionKey && row.active

/-! ## The check -/

/-- `str(order.get(field))`. -/
def textField (env : Env) (order : Dict Value) (field : String) : String :=
  match Json.present (order.get? field) with
  | some v => env.str v
  | none => "None"

/-- `str(order.get("lifecycle_role") or order.get("role") or "")`. -/
def orderRole (env : Env) (order : Dict Value) : String :=
  match Json.orElse (Json.orElse (order.get? "lifecycle_role") (order.get? "role")) none with
  | some v => env.str v
  | none => ""

/-- A status in `working`, `accepted` and `open`; an order without one is working. -/
def isWorking (env : Env) (order : Dict Value) : Bool :=
  let status := match Json.orElse (order.get? "status") none with
    | some v => env.str v
    | none => "working"
  ["working", "accepted", "open"].contains (env.unicode.lower status)

def venueKeys (env : Env) (venueWorkingOrders : List (Dict Value)) : List (String × String) :=
  (venueWorkingOrders.filter (isWorking env)).map fun order =>
    (textField env order "position_key", orderRole env order)

/-- `_missing_roles`. -/
def missingRoles (expected : List ExpectedProtection) (keys : List (String × String)) (positionKey : String) :
    List String :=
  if expected.isEmpty then ["stop_loss"]
  else (expected.map ExpectedProtection.lifecycleRole).filter fun role => !keys.contains (positionKey, role)

/-- A finding as it is recorded, its ids apart. -/
structure Finding where
  accountId : String
  findingType : String
  severity : String
  positionKey : String
  payload : Dict Value
  runReason : String

def missingProtection (accountId : String) (position : OpenPosition) (role : String) : Finding where
  accountId
  findingType := "missing_protection"
  severity := "error"
  positionKey := position.positionKey
  payload := (((Dict.empty.set "position_key" (.str position.positionKey)).set "venue_symbol"
    (.str position.venueSymbol)).set "lifecycle_role" (.str role)).set "quantity"
    (.str (String.ofList (Decimal.finiteText position.quantity)))
  runReason := "protection_watchdog"

structure ProtectionWatchdogResult where
  missingCount : Nat
  findings : List Finding

/-- `check`: what it returns, and what it gives the dispatcher, if it has one. -/
def check (env : Env) (tables : WatchedTables) (accountId : String)
    (venueWorkingOrders : List (Dict Value)) (policy : String) (dispatcher : Bool) :
    Except LedgerFailure (ProtectionWatchdogResult × List (String × Finding)) := do
  let keys := venueKeys env venueWorkingOrders
  let positions ← openPositions env tables accountId
  let findings := positions.flatMap fun position =>
    (missingRoles (expectedProtection tables accountId position.positionKey) keys position.positionKey).map
      (missingProtection accountId position)
  return (⟨findings.length, findings⟩, if dispatcher then findings.map fun f => (policy, f) else [])

/-! ## Findings -/

section
variable {env : Env} {tables : WatchedTables} {accountId : String} {venueWorkingOrders : List (Dict Value)}

variable {keys : List (String × String)} {positionKey : String} {balance : OwnershipBalance}
  {balances : List OwnershipBalance}

theorem missingRoles_eq_nil {expected : List ExpectedProtection} :
    missingRoles expected keys positionKey = [] ↔
      expected ≠ [] ∧ ∀ row ∈ expected, (positionKey, row.lifecycleRole) ∈ keys := by
  unfold missingRoles
  cases expected with
  | nil => simp
  | cons row rest => simp [List.filter_eq_nil_iff]

theorem mem_venueKeys {role : String} : (positionKey, role) ∈ venueKeys env venueWorkingOrders ↔
    ∃ order ∈ venueWorkingOrders, isWorking env order = true ∧
      textField env order "position_key" = positionKey ∧ orderRole env order = role := by
  unfold venueKeys
  simp only [List.mem_map, List.mem_filter, Prod.mk.injEq, and_assoc]

/-- A balance that is not zero is a position, of the key of its symbol and side. -/
theorem openPosition_cases (env : Env) (tables : WatchedTables) (accountId : String)
    {baselines : Dict Baseline} {totals : Dict (FiniteDecimal × Nat)} {symbol : String}
    (h : balanceOf baselines totals symbol = .ok balance) :
    (balance.quantity.value = 0 ∧ openPosition env tables accountId balance = .ok none) ∨
      balance.quantity.value ≠ 0 ∧ ∃ p, openPosition env tables accountId balance = .ok (some p) ∧
        p.positionKey = balanceKey env tables accountId balance := by
  unfold openPosition
  split_ifs with hzero
  · refine .inl ⟨?_, rfl⟩
    rw [← abs_eq_zero, FiniteDecimal.abs_value, hzero, Nat.cast_zero, zero_mul]
  · -- the quantity is a sum, so it is rounded already
    unfold balanceOf at h
    obtain ⟨quantity, hsum, h⟩ := bind_ok h
    cases pure_ok h
    unfold ledgerSum at hsum
    split at hsum
    · rename_i c hc
      cases hsum
      obtain ⟨r, hr, -⟩ := Decimal.fix_of_fixed hc rfl false
      refine .inr ⟨fun hvalue => hzero ?_, _, by rw [hr], rfl⟩
      rw [← abs_eq_zero, FiniteDecimal.abs_value] at hvalue
      exact_mod_cast (mul_eq_zero.mp hvalue).resolve_right (ten_zpow_pos _).ne'
    · cases hsum

theorem loadedBalance_cases
    (h : loadRebasedBalances env accountId true tables.events = .ok balances)
    (hbalance : balance ∈ balances) :
    (balance.quantity.value = 0 ∧ openPosition env tables accountId balance = .ok none) ∨
      balance.quantity.value ≠ 0 ∧ ∃ p, openPosition env tables accountId balance = .ok (some p) ∧
        p.positionKey = balanceKey env tables accountId balance := by
  obtain ⟨baselines, -, hloaded⟩ := loadRebasedBalances_ok h
  unfold loadRobotOwnedBalances at hloaded
  obtain ⟨totals, -, hloaded⟩ := bind_ok hloaded
  obtain ⟨symbol, -, hsymbol⟩ := (mapM_ok hloaded).1 balance hbalance
  exact openPosition_cases env tables accountId hsymbol

/-- Where the balances load, so do the positions: one for each balance that is not zero. -/
theorem openPositions_ok (h : loadRebasedBalances env accountId true tables.events = .ok balances) :
    ∃ positions, openPositions env tables accountId = .ok positions ∧
      (∀ balance ∈ balances, balance.quantity.value ≠ 0 →
        ∃ p ∈ positions, p.positionKey = balanceKey env tables accountId balance) ∧
      ∀ p ∈ positions, ∃ balance ∈ balances, balance.quantity.value ≠ 0 ∧
        p.positionKey = balanceKey env tables accountId balance := by
  obtain ⟨positions, hpositions⟩ : ∃ positions,
      balances.mapM (openPosition env tables accountId) = .ok positions := by
    refine mapM_total fun balance hbalance => ?_
    rcases loadedBalance_cases h hbalance with ⟨-, hnone⟩ | ⟨-, p, hp, -⟩
    · exact ⟨none, hnone⟩
    · exact ⟨some p, hp⟩
  refine ⟨positions.filterMap id, ?_, fun balance hbalance hne => ?_, fun p hp => ?_⟩
  · unfold openPositions
    rw [h, ok_bind, hpositions, ok_bind]
    rfl
  · rcases loadedBalance_cases h hbalance with ⟨hzero, -⟩ | ⟨-, p, hposition, hkey⟩
    · exact absurd hzero hne
    · obtain ⟨other, hother, hsame⟩ := (mapM_ok hpositions).2 balance hbalance
      rw [hposition] at hsame
      cases hsame
      exact ⟨p, List.mem_filterMap.mpr ⟨some p, hother, rfl⟩, hkey⟩
  · obtain ⟨position, hposition, hsome⟩ := List.mem_filterMap.mp hp
    obtain ⟨balance, hbalance, hfrom⟩ := (mapM_ok hpositions).1 position hposition
    cases hsome
    rcases loadedBalance_cases h hbalance with ⟨-, hnone⟩ | ⟨hne, q, hq, hkey⟩
    · rw [hnone] at hfrom
      cases hfrom
    · rw [hq] at hfrom
      cases hfrom
      exact ⟨balance, hbalance, hne, hkey⟩

/-- A check without findings found an order for each role it asked for. -/
theorem check_findings (venueWorkingOrders : List (Dict Value)) (policy : String) (dispatcher : Bool)
    {positions : List OpenPosition} (h : openPositions env tables accountId = .ok positions) :
    ∃ run, check env tables accountId venueWorkingOrders policy dispatcher = .ok run ∧
      (run.1.findings = [] ↔ ∀ p ∈ positions,
        missingRoles (expectedProtection tables accountId p.positionKey)
          (venueKeys env venueWorkingOrders) p.positionKey = []) := by
  unfold check
  dsimp only
  rw [h, ok_bind]
  refine ⟨_, rfl, ?_⟩
  simp only [List.flatMap_eq_nil_iff, List.map_eq_nil_iff]

/-! ## Completeness -/

/-- No findings mean that every position of the robot has a working stop loss on the venue. -/
def Complete (env : Env) (tables : WatchedTables) (accountId : String)
    (venueWorkingOrders : List (Dict Value)) (policy : String) (dispatcher : Bool) : Prop :=
  ∀ run balances, check env tables accountId venueWorkingOrders policy dispatcher = .ok run →
    run.1.findings = [] → loadRebasedBalances env accountId true tables.events = .ok balances →
    ∀ balance ∈ balances, balance.quantity.value ≠ 0 →
      ∃ order ∈ venueWorkingOrders, isWorking env order = true ∧
        textField env order "position_key" = balanceKey env tables accountId balance ∧
        orderRole env order = "stop_loss"

/-- Some position of the robot has no active protective order at all, or each has a stop loss
among its own. -/
def StopsExpected (env : Env) (tables : WatchedTables) (accountId : String) : Prop :=
  ∀ balances, loadRebasedBalances env accountId true tables.events = .ok balances →
    (∃ balance ∈ balances, balance.quantity.value ≠ 0 ∧
      expectedProtection tables accountId (balanceKey env tables accountId balance) = []) ∨
    ∀ balance ∈ balances, balance.quantity.value ≠ 0 →
      ∃ row ∈ expectedProtection tables accountId (balanceKey env tables accountId balance),
        row.lifecycleRole = "stop_loss"

/-- Where stop losses are expected, a check without findings found them. -/
theorem complete_of_stopsExpected (hstops : StopsExpected env tables accountId) (policy : String)
    (dispatcher : Bool) : Complete env tables accountId venueWorkingOrders policy dispatcher := by
  intro run balances hrun hfindings hload balance hbalance hne
  obtain ⟨positions, hpositions, hall, -⟩ := openPositions_ok hload
  obtain ⟨run', hrun', hnone⟩ := check_findings venueWorkingOrders policy dispatcher hpositions
  rw [hrun] at hrun'
  cases hrun'
  have hfound (b : OwnershipBalance) (hb : b ∈ balances) (hb' : b.quantity.value ≠ 0) :
      expectedProtection tables accountId (balanceKey env tables accountId b) ≠ [] ∧
        ∀ row ∈ expectedProtection tables accountId (balanceKey env tables accountId b),
          (balanceKey env tables accountId b, row.lifecycleRole) ∈ venueKeys env venueWorkingOrders := by
    obtain ⟨p, hp, hkey⟩ := hall b hb hb'
    have hmissing := missingRoles_eq_nil.mp (hnone.mp hfindings p hp)
    rw [hkey] at hmissing
    exact hmissing
  rcases hstops balances hload with ⟨b, hb, hb', hempty⟩ | hstop
  · exact absurd hempty (hfound b hb hb').1
  · obtain ⟨row, hrow, hrole⟩ := hstop balance hbalance hne
    have hmem := (hfound balance hbalance hne).2 row hrow
    rw [hrole] at hmem
    exact mem_venueKeys.mp hmem

/-- A venue that has an order working for each of these keys and roles. -/
def ordersFor (keys : List (String × String)) : List (Dict Value) :=
  keys.map fun k => (Dict.empty.set "position_key" (.str k.1)).set "lifecycle_role" (.str k.2)

theorem mem_venueKeys_ordersFor {role : String} :
    (positionKey, role) ∈ venueKeys env (ordersFor keys) ↔ (positionKey, role) ∈ keys := by
  have hlower : env.unicode.lower "working" = "working" := by
    rw [env.unicode.lower_ascii _ (by decide)]
    decide
  have horder (k : String × String) :
      let order := (Dict.empty.set "position_key" (.str k.1)).set "lifecycle_role" (.str k.2)
      isWorking env order = true ∧ textField env order "position_key" = k.1 ∧ orderRole env order = k.2 := by
    intro order
    have hkey : order.get? "position_key" = some (.str k.1) := by simp [order, Dict.get?_set]
    have hrole : order.get? "lifecycle_role" = some (.str k.2) := by simp [order]
    have hnoRole : order.get? "role" = none := by simp [order, Dict.get?_set]
    have hstatus : order.get? "status" = none := by simp [order, Dict.get?_set]
    refine ⟨?_, ?_, ?_⟩
    · simp [isWorking, hstatus, Json.orElse, hlower]
    · simp [textField, hkey, Json.present, env.str_str]
    · by_cases hempty : k.2 = ""
      · simp [orderRole, hrole, hnoRole, hempty, Json.orElse, Value.truthy]
      · simp [orderRole, hrole, hempty, Json.orElse, Value.truthy, env.str_str]
  rw [mem_venueKeys]
  constructor
  · intro hfound
    obtain ⟨order, hmem, -, hkey, hrole⟩ := hfound
    obtain ⟨k, hk, rfl⟩ := List.mem_map.mp hmem
    obtain ⟨-, hkey', hrole'⟩ := horder k
    rw [← hkey, ← hrole, hkey', hrole']
    exact hk
  · intro hmem
    exact ⟨_, List.mem_map_of_mem hmem, horder (positionKey, role)⟩

/-- **No findings mean that every position has its stop loss, whatever the venue reports, if and
only if stop losses are expected.** -/
theorem watchdog_complete_iff (env : Env) (tables : WatchedTables) (accountId policy : String)
    (dispatcher : Bool) :
    (∀ venueWorkingOrders, Complete env tables accountId venueWorkingOrders policy dispatcher) ↔
      StopsExpected env tables accountId := by
  refine ⟨fun hcomplete balances hload => ?_,
    fun hstops venueWorkingOrders => complete_of_stopsExpected hstops policy dispatcher⟩
  by_cases hempty : ∃ balance ∈ balances, balance.quantity.value ≠ 0 ∧
      expectedProtection tables accountId (balanceKey env tables accountId balance) = []
  · exact .inl hempty
  right
  intro balance hbalance hne
  obtain ⟨positions, hpositions, hall, hfrom⟩ := openPositions_ok hload
  -- a venue with just the orders the check asks for
  let keys := positions.flatMap fun p =>
    (expectedProtection tables accountId p.positionKey).map fun row => (p.positionKey, row.lifecycleRole)
  obtain ⟨run, hrun, hnone⟩ := check_findings (ordersFor keys) policy dispatcher hpositions
  have hfindings : run.1.findings = [] := by
    refine hnone.mpr fun p hp => missingRoles_eq_nil.mpr ⟨fun hnil => ?_, fun row hrow => ?_⟩
    · obtain ⟨b, hb, hb', hkey⟩ := hfrom p hp
      exact hempty ⟨b, hb, hb', by rw [← hkey]; exact hnil⟩
    · exact mem_venueKeys_ordersFor.mpr (List.mem_flatMap.mpr ⟨p, hp, List.mem_map_of_mem hrow⟩)
  have hstop := hcomplete (ordersFor keys) run balances hrun hfindings hload balance hbalance hne
  -- an order for the stop loss is there only where one is expected
  obtain ⟨p, -, hp⟩ := List.mem_flatMap.mp (mem_venueKeys_ordersFor.mp (mem_venueKeys.mpr hstop))
  obtain ⟨row, hrow, hpair⟩ := List.mem_map.mp hp
  obtain ⟨hkey, hrole⟩ := Prod.mk.inj hpair
  exact ⟨row, by rw [← hkey]; exact hrow, hrole⟩

end

/-! ## A naked position -/

/-- Three bought, and a take profit expected for them. -/
def nakedTables : WatchedTables where
  events := [plainFill "e1" 1 "BUY" "3"]
  positions := []
  protectiveOrders :=
    [{ protectiveOrderProjectionId := "p", accountId := "a", positionKey := "a:BTCUSDT:long", status := "working",
       active := true, lifecycleRole := "take_profit" }]

/-- **A position without a stop loss is not reported**: its take profit is working. -/
theorem naked_unreported : ¬Complete Env.plain nakedTables "a"
    (ordersFor [("a:BTCUSDT:long", "take_profit")]) "repair" true := by
  intro hcomplete
  have hrun : ((loadRebasedBalances Env.plain "a" true nakedTables.events).toOption.bind fun balances =>
      (check Env.plain nakedTables "a" (ordersFor [("a:BTCUSDT:long", "take_profit")]) "repair" true).toOption.map
        fun run => run.1.findings.isEmpty && balances.any fun b => decide (b.quantity.value ≠ 0)) = some true := by
    decide +kernel
  obtain ⟨balances, hload, hrun⟩ := Option.bind_eq_some_iff.mp hrun
  obtain ⟨run, hcheck, hrun⟩ := Option.map_eq_some_iff.mp hrun
  obtain ⟨hnone, hany⟩ := Bool.and_eq_true_iff.mp hrun
  obtain ⟨balance, hbalance, hne⟩ := List.any_eq_true.mp hany
  obtain ⟨order, horder, -, -, hrole⟩ := hcomplete run balances (toOption_some hcheck) (List.isEmpty_iff.mp hnone)
    (toOption_some hload) balance hbalance (of_decide_eq_true hne)
  cases List.mem_singleton.mp horder
  exact absurd hrole (by decide +kernel)

end TraderBot.Protection
