import TraderBot.Orders.Fills

/-! # The robot's ledger of positions

`load_robot_owned_balances`: what the robot owns of each symbol, summed over the
recorded fills of its orders. A fill counts with the first quantity its payload
has, signed by its side; a rebaseline, where there is one, replaces what came
before it.

A row's time of creation is the database's, and the instrument of an order that
of its projection; both are parameters. -/
namespace TraderBot.Ownership
open TraderBot.Lib TraderBot.Lib.Text TraderBot.Lib.Json TraderBot.Lib.Decimal TraderBot.Orders

/-- What the ledger raises: its own error, a key no dict takes, or a signal of
the decimal context. -/
inductive LedgerFailure where
  | invalidEvidence
  | unhashable
  | decimalSignal
  deriving DecidableEq, Repr

/-! ## Names -/

def isLowerHex (c : Char) : Bool := c.isDigit || ('a' ≤ c && c ≤ 'f')

/-- `^B[0-9a-f]{32}[0-9]{2}$`. -/
def matchesRobotId (cs : List Char) : Bool :=
  match cs with
  | c :: rest =>
    c == 'B' && rest.length == 34 && (rest.take 32).all isLowerHex && (rest.drop 32).all Char.isDigit
  | [] => false

def isRobotClientOrderId (id : String) : Bool := matchesRobotId (strip id).toList

/-- `canonical_symbol`. -/
def canonicalSymbol (env : Env) (v : Option Value) : String :=
  match Json.orElse v none with
  | some v => before '.' (before '-' (env.unicode.upper (strip (env.str v))))
  | none => ""

/-- `_fill_symbol`: the first of the payload's names that is one, else the order's. -/
def fillSymbol (env : Env) (payload : Dict Value) (projectionInstrument : Option String) : String :=
  let names := ["instrument_id", "symbol", "instrument"].map fun k =>
    canonicalSymbol env (payload.get? k)
  match names.find? (· ≠ "") with
  | some symbol => symbol
  | none => canonicalSymbol env (projectionInstrument.map .str)

/-! ## One fill -/

inductive OrderSide where
  | buy
  | sell
  deriving DecidableEq, Repr

/-- `_ORDER_SIDE` by text. -/
def sideOfText (s : String) : Option OrderSide :=
  if s ∈ ["1", "BUY", "LONG", "buy", "long"] then some .buy
  else if s ∈ ["2", "SELL", "SHORT", "sell", "short"] then some .sell
  else none

/-- `_ORDER_SIDE.get(value)`: keys are equal as Python's numbers are, and a list
or a dict is no key. -/
def sideOfKey : Option Value → Except LedgerFailure (Option OrderSide)
  | none | some .null => .ok none
  | some (.bool b) => .ok (if b then some .buy else none)
  | some (.int n) => .ok (if n = 1 then some .buy else if n = 2 then some .sell else none)
  | some (.float (.finite text _)) =>
    .ok (if text = "1.0".toList then some .buy else if text = "2.0".toList then some .sell else none)
  | some (.float _) => .ok none
  | some (.str s) => .ok (sideOfText s)
  | some (.arr _) | some (.obj _) => .error .unhashable

def fillSide (env : Env) (payload : Dict Value) : Except LedgerFailure OrderSide := do
  let value := (Json.present (payload.get? "side")).or (Json.present (payload.get? "order_side"))
  match ← sideOfKey value with
  | some side => return side
  | none =>
    let text := match Json.orElse value none with
      | some v => env.str v
      | none => ""
    match sideOfText (strip text) with
    | some side => return side
    | none => .error .invalidEvidence

/-- The first quantity a payload has. -/
def rawQuantity (payload : Dict Value) : Option Value :=
  (["last_qty", "last_fill_qty", "filled_qty", "quantity"].map fun k =>
    Json.present (payload.get? k)).findSome? id

def fillQuantity (unicode : Unicode) (payload : Dict Value) : Except LedgerFailure FiniteDecimal :=
  match (rawQuantity payload).bind (Decimal.ofValue unicode) with
  | some (.finite d) => if d.isPositive then .ok d else .error .invalidEvidence
  | _ => .error .invalidEvidence

/-- `-quantity`. -/
def negated (d : FiniteDecimal) : Except LedgerFailure FiniteDecimal :=
  match Decimal.fix (!d.negative) d.coeff d.exponent with
  | some d => .ok d
  | none => .error .decimalSignal

/-- `signed_fill_quantity` of a fill event. -/
def signedFillQuantity (env : Env) (payload : Dict Value) : Except LedgerFailure FiniteDecimal := do
  let quantity ← fillQuantity env.unicode payload
  match ← fillSide env payload with
  | .buy => return quantity
  | .sell => negated quantity

/-! ## The balances -/

/-- What the last rebaseline of a symbol says. -/
structure Baseline where
  quantity : FiniteDecimal
  tsEvent : Nat
  createdAt : Nat
  eventId : String

/-- A row of the query: a recorded fill, when it was recorded, and the instrument
its order is projected under. -/
structure LedgerRow where
  event : ExecutionEvent
  createdAt : Nat
  projectionInstrument : Option String

def robotFillEventTypes : List String := ["OrderFilled", "OrderPartiallyFilled"]

/-- The rows of an account the query selects. -/
def isRobotFill (accountId : String) (row : LedgerRow) : Bool :=
  row.event.accountId == accountId &&
    (row.event.clientOrderId.any fun id => matchesRobotId id.toList) &&
    robotFillEventTypes.contains row.event.eventType

/-- `event_cutoff <= baseline.cutoff`. -/
def covered (baseline : Option Baseline) (row : LedgerRow) : Bool :=
  baseline.any fun b =>
    decide (row.event.tsEvent < b.tsEvent ∨ (row.event.tsEvent = b.tsEvent ∧
      (row.createdAt < b.createdAt ∨
        (row.createdAt = b.createdAt ∧ row.event.eventId ≤ b.eventId))))

/-- `a + b`. -/
def ledgerSum (a b : FiniteDecimal) : Except LedgerFailure FiniteDecimal :=
  match Decimal.add a b with
  | some c => .ok c
  | none => .error .decimalSignal

/-- One turn of the loop: totals and counts by symbol. -/
def addFill (env : Env) (baselines : Dict Baseline) (totals : Dict (FiniteDecimal × Nat))
    (row : LedgerRow) : Except LedgerFailure (Dict (FiniteDecimal × Nat)) :=
  if row.event.clientOrderId.any isRobotClientOrderId = false then .ok totals
  else
    let symbol := fillSymbol env row.event.payload row.projectionInstrument
    if symbol = "" then .ok totals
    else if covered (baselines.get? symbol) row then .ok totals
    else do
      let signed ← signedFillQuantity env row.event.payload
      let current := (totals.get? symbol).getD (.zero, 0)
      let total ← ledgerSum current.1 signed
      return totals.set symbol (total, current.2 + 1)

/-- `ORDER BY ts_event, created_at, event_id`. -/
def ledgerBefore (env : Env) (a b : LedgerRow) : Prop :=
  a.event.tsEvent < b.event.tsEvent ∨ (a.event.tsEvent = b.event.tsEvent ∧
    (a.createdAt < b.createdAt ∨
      (a.createdAt = b.createdAt ∧ env.collate a.event.eventId b.event.eventId = true)))

instance (env : Env) : DecidableRel (ledgerBefore env) :=
  fun _ _ => inferInstanceAs (Decidable (_ ∨ _))

def fillTotals (env : Env) (baselines : Dict Baseline) (accountId : String)
    (rows : List LedgerRow) : Except LedgerFailure (Dict (FiniteDecimal × Nat)) :=
  ((rows.filter (isRobotFill accountId)).insertionSort (ledgerBefore env)).foldlM
    (addFill env baselines) Dict.empty

structure OwnershipBalance where
  symbol : String
  baselineQuantity : FiniteDecimal
  postBaselineFillQuantity : FiniteDecimal
  quantity : FiniteDecimal
  fillEventCount : Nat

/-- The balance of one symbol. -/
def balanceOf (baselines : Dict Baseline) (totals : Dict (FiniteDecimal × Nat)) (symbol : String) :
    Except LedgerFailure OwnershipBalance := do
  let baseline := ((baselines.get? symbol).map Baseline.quantity).getD .zero
  let filled := (totals.get? symbol).getD (.zero, 0)
  let quantity ← ledgerSum baseline filled.1
  return { symbol, baselineQuantity := baseline, postBaselineFillQuantity := filled.1, quantity,
           fillEventCount := filled.2 }

def loadRobotOwnedBalances (env : Env) (baselines : Dict Baseline) (accountId : String)
    (rows : List LedgerRow) : Except LedgerFailure (List OwnershipBalance) := do
  let totals ← fillTotals env baselines accountId rows
  let symbols := (baselines.items.map Prod.fst ++ totals.items.map Prod.fst).dedup
  (symbols.insertionSort (· ≤ ·)).mapM (balanceOf baselines totals)

/-- `load_robot_owned_balance`: the balance of one symbol, the zero one where the
account has none. -/
def loadRobotOwnedBalance (env : Env) (baselines : Dict Baseline) (accountId : String)
    (rows : List LedgerRow) (symbol : String) : Except LedgerFailure OwnershipBalance := do
  let balances ← loadRobotOwnedBalances env baselines accountId rows
  return (balances.find? fun b => b.symbol = symbol).getD ⟨symbol, .zero, .zero, .zero, 0⟩

/-! ## What a balance comes to -/

/-- A number of whole units of a place, of either sign. -/
def Units (e : Int) (x : ℚ) : Prop := ∃ m : Int, x = m * 10 ^ e

theorem Units.zero (e : Int) : Units e 0 := ⟨0, by simp⟩

theorem Units.add {e : Int} {x y : ℚ} (hx : Units e x) (hy : Units e y) : Units e (x + y) := by
  obtain ⟨m, rfl⟩ := hx
  obtain ⟨n, rfl⟩ := hy
  exact ⟨m + n, by push_cast; ring⟩

theorem Units.fits {e : Int} {x : ℚ} (hx : Units e x) (hlt : |x| < limit e) : Fits e x := by
  obtain ⟨m, rfl⟩ := hx
  have habs : |(m : ℚ) * 10 ^ e| = (m.natAbs : ℚ) * 10 ^ e := by
    rw [abs_mul, abs_of_pos (ten_zpow_pos e), Nat.cast_natAbs, Int.cast_abs]
  rw [habs] at hlt
  exact ⟨m.natAbs, Whole.lt_limit_iff.mp hlt, habs⟩

/-- What a row counts for in a symbol. -/
def signedValue (env : Env) (symbol : String) (row : LedgerRow) : ℚ :=
  if row.event.clientOrderId.any isRobotClientOrderId = true ∧
      fillSymbol env row.event.payload row.projectionInstrument = symbol then
    match signedFillQuantity env row.event.payload with
    | .ok d => d.value
    | .error _ => 0
  else 0

/-- What a row adds to a symbol: nothing where the symbol's rebaseline covers it. -/
def countedValue (env : Env) (baselines : Dict Baseline) (symbol : String) (row : LedgerRow) : ℚ :=
  if covered (baselines.get? symbol) row then 0 else signedValue env symbol row

/-- The total of a symbol so far. -/
def totalOf (totals : Dict (FiniteDecimal × Nat)) (symbol : String) : ℚ :=
  ((totals.get? symbol).getD (.zero, 0)).1.value

/-- The quantity a symbol starts from. -/
def baselineValue (baselines : Dict Baseline) (symbol : String) : ℚ :=
  (((baselines.get? symbol).map Baseline.quantity).getD .zero).value

/-- The quantity of a symbol among the balances, zero where there is none. -/
def quantityOf (balances : List OwnershipBalance) (symbol : String) : ℚ :=
  ((balances.find? fun b => b.symbol = symbol).map fun b => b.quantity.value).getD 0

section
variable {env : Env} {baselines : Dict Baseline} {symbol : String} {e : Int}
  {totals totals' : Dict (FiniteDecimal × Nat)}

theorem abs_countedValue_le (row : LedgerRow) :
    |countedValue env baselines symbol row| ≤ |signedValue env symbol row| := by
  unfold countedValue
  split_ifs with hcovered
  · rw [abs_zero]
    exact abs_nonneg _
  · exact le_rfl

variable {row : LedgerRow} {rows : List LedgerRow} {b : OwnershipBalance}
  {balances : List OwnershipBalance} {accountId : String}

theorem Units.counted (baselines : Dict Baseline) (h : Units e (signedValue env symbol row)) :
    Units e (countedValue env baselines symbol row) := by
  unfold countedValue
  split_ifs with hcovered
  · exact Units.zero e
  · exact h

/-- One turn of the loop adds what its row counts for, while that fits. -/
theorem addFill_total (he : InContext e) (hsymbol : symbol ≠ "")
    (hunits : Units e (totalOf totals symbol + countedValue env baselines symbol row))
    (hlt : |totalOf totals symbol + countedValue env baselines symbol row| < limit e)
    (h : addFill env baselines totals row = .ok totals') :
    totalOf totals' symbol = totalOf totals symbol + countedValue env baselines symbol row := by
  have hzero (hsigned : signedValue env symbol row = 0) :
      totalOf totals symbol = totalOf totals symbol + countedValue env baselines symbol row := by
    rw [countedValue, hsigned, ite_self, add_zero]
  unfold addFill at h
  dsimp only at h
  split_ifs at h with hrobot hname hcovered
  · cases h
    exact hzero (by simp [signedValue, hrobot])
  · cases h
    exact hzero (if_neg (by rw [hname]; exact fun hc => hsymbol hc.2.symm))
  · cases h
    by_cases hsame : fillSymbol env row.event.payload row.projectionInstrument = symbol
    · rw [hsame] at hcovered
      rw [countedValue, if_pos hcovered, add_zero]
    · exact hzero (if_neg fun hc => hsame hc.2)
  · obtain ⟨signed, hsigned, h⟩ := bind_ok h
    obtain ⟨total, htotal, h⟩ := bind_ok h
    cases pure_ok h
    by_cases hsame : fillSymbol env row.event.payload row.projectionInstrument = symbol
    · have hvalue : countedValue env baselines symbol row = signed.value := by
        rw [countedValue, ← hsame, if_neg hcovered, hsame, signedValue,
          if_pos ⟨by simpa using hrobot, hsame⟩, hsigned]
      rw [hvalue] at hunits hlt ⊢
      obtain ⟨c, hc, hcvalue⟩ := add_exact he (hunits.fits hlt)
      rw [hsame] at htotal ⊢
      unfold ledgerSum at htotal
      rw [show Decimal.add ((totals.get? symbol).getD (.zero, 0)).1 signed = some c from hc] at htotal
      cases htotal
      unfold totalOf
      rw [Dict.get?_set_self]
      exact hcvalue
    · rw [← hzero (if_neg fun hc => hsame hc.2)]
      unfold totalOf
      rw [Dict.get?_set_ne (Ne.symm hsame)]

/-- The loop adds what its rows count for. -/
theorem foldlM_total (he : InContext e) (hsymbol : symbol ≠ "") (rows : List LedgerRow)
    (hrows : ∀ row ∈ rows, Units e (signedValue env symbol row))
    (hunits : Units e (totalOf totals symbol))
    (hlt : |totalOf totals symbol| +
      (rows.map fun row => |countedValue env baselines symbol row|).sum < limit e)
    (h : rows.foldlM (addFill env baselines) totals = .ok totals') :
    totalOf totals' symbol =
      totalOf totals symbol + (rows.map (countedValue env baselines symbol)).sum := by
  induction rows generalizing totals with
  | nil =>
    cases pure_ok h
    simp
  | cons row rows ih =>
    rw [List.foldlM_cons] at h
    obtain ⟨next, hnext, h⟩ := bind_ok h
    rw [List.map_cons, List.sum_cons] at hlt
    have hrest : 0 ≤ (rows.map fun row => |countedValue env baselines symbol row|).sum := by
      refine List.sum_nonneg fun x hx => ?_
      obtain ⟨r, -, rfl⟩ := List.mem_map.mp hx
      exact abs_nonneg _
    have habs := abs_add_le (totalOf totals symbol) (countedValue env baselines symbol row)
    have hsum := hunits.add ((hrows row (by simp)).counted baselines)
    have hone := addFill_total he hsymbol hsum (by linarith) hnext
    rw [ih (fun r hr => hrows r (List.mem_cons_of_mem _ hr)) (by rw [hone]; exact hsum)
      (by rw [hone]; linarith) h, hone, List.map_cons, List.sum_cons, add_assoc]

/-- What an account's recorded rows count for in a symbol. -/
def ledgerTotal (env : Env) (accountId symbol : String) (rows : List LedgerRow) : ℚ :=
  ((rows.filter (isRobotFill accountId)).map (signedValue env symbol)).sum

/-- Rows in whole units, together below the limit. -/
structure LedgerFits (env : Env) (e : Int) (symbol : String) (rows : List LedgerRow) : Prop where
  place : InContext e
  named : symbol ≠ ""
  units : ∀ row ∈ rows, Units e (signedValue env symbol row)
  total : (rows.map fun row => |signedValue env symbol row|).sum < limit e

theorem sum_filter_le (p : LedgerRow → Bool) :
    ((rows.filter p).map fun row => |signedValue env symbol row|).sum ≤
      (rows.map fun row => |signedValue env symbol row|).sum := by
  refine List.Sublist.sum_le_sum (List.filter_sublist.map _) fun x hx => ?_
  obtain ⟨row, -, rfl⟩ := List.mem_map.mp hx
  exact abs_nonneg _

theorem sum_units {value : LedgerRow → ℚ} (h : ∀ row ∈ rows, Units e (value row)) :
    Units e (rows.map value).sum := by
  induction rows with
  | nil => exact Units.zero e
  | cons row rows ih =>
    rw [List.map_cons, List.sum_cons]
    exact (h row (by simp)).add (ih fun r hr => h r (List.mem_cons_of_mem _ hr))

theorem abs_sum_le (value : LedgerRow → ℚ) (rows : List LedgerRow) :
    |(rows.map value).sum| ≤ (rows.map fun row => |value row|).sum := by
  induction rows with
  | nil => simp
  | cons row rows ih =>
    rw [List.map_cons, List.map_cons, List.sum_cons, List.sum_cons]
    exact (abs_add_le _ _).trans (add_le_add le_rfl ih)

theorem sum_counted_le (env : Env) (baselines : Dict Baseline) (symbol : String) (rows : List LedgerRow) :
    (rows.map fun row => |countedValue env baselines symbol row|).sum ≤
      (rows.map fun row => |signedValue env symbol row|).sum :=
  List.sum_le_sum fun row _ => abs_countedValue_le row

/-- Some of the rows fit where all do. -/
theorem LedgerFits.filter (h : LedgerFits env e symbol rows) (p : LedgerRow → Bool) :
    LedgerFits env e symbol (rows.filter p) :=
  ⟨h.place, h.named, fun row hrow => h.units row (List.mem_of_mem_filter hrow),
    (sum_filter_le p).trans_lt h.total⟩

/-! ## The balances of a symbol -/

/-- The symbols that have a balance. -/
def balanceSymbols (baselines : Dict Baseline) (totals : Dict (FiniteDecimal × Nat)) : List String :=
  (baselines.items.map Prod.fst ++ totals.items.map Prod.fst).dedup.insertionSort (· ≤ ·)

theorem mem_balanceSymbols : symbol ∈ balanceSymbols baselines totals ↔
    (baselines.get? symbol).isSome = true ∨ (totals.get? symbol).isSome = true := by
  have hkey {α : Type} (d : Dict α) : symbol ∈ d.items.map Prod.fst ↔ (d.get? symbol).isSome = true := by
    rw [Option.isSome_iff_exists]
    constructor
    · intro hmem
      obtain ⟨p, hp, rfl⟩ := List.mem_map.mp hmem
      exact ⟨p.2, Dict.mem_items.mp hp⟩
    · intro hget
      obtain ⟨v, hv⟩ := hget
      exact List.mem_map_of_mem (Dict.mem_items.mpr hv)
  unfold balanceSymbols
  rw [List.mem_insertionSort, List.mem_dedup, List.mem_append, hkey, hkey]

theorem balanceOf_symbol (h : balanceOf baselines totals symbol = .ok b) : b.symbol = symbol := by
  unfold balanceOf at h
  obtain ⟨quantity, -, h⟩ := bind_ok h
  rw [← pure_ok h]

/-- A symbol's balance is the one computed for it. -/
theorem quantityOf_found
    (h : (balanceSymbols baselines totals).mapM (balanceOf baselines totals) = .ok balances)
    (hmem : symbol ∈ balanceSymbols baselines totals) :
    ∃ b, balanceOf baselines totals symbol = .ok b ∧ quantityOf balances symbol = b.quantity.value := by
  obtain ⟨hfrom, hall⟩ := mapM_ok h
  obtain ⟨b, hb, hbal⟩ := hall symbol hmem
  cases hfound : balances.find? fun b => b.symbol = symbol with
  | none =>
    have hnone := List.find?_eq_none.mp hfound b hb
    simp [balanceOf_symbol hbal] at hnone
  | some found =>
    obtain ⟨name, -, hname⟩ := hfrom found (List.mem_of_find?_eq_some hfound)
    have hsymbol : found.symbol = symbol := by simpa using List.find?_some hfound
    rw [← balanceOf_symbol hname, hsymbol] at hname
    exact ⟨found, hname, by rw [quantityOf, hfound]; rfl⟩

theorem quantityOf_absent
    (h : (balanceSymbols baselines totals).mapM (balanceOf baselines totals) = .ok balances)
    (hmem : symbol ∉ balanceSymbols baselines totals) : quantityOf balances symbol = 0 := by
  have hnone : (balances.find? fun b => b.symbol = symbol) = none := by
    rw [List.find?_eq_none]
    intro b hb hsymbol
    obtain ⟨name, hname, hbal⟩ := (mapM_ok h).1 b hb
    rw [balanceOf_symbol hbal, decide_eq_true_eq] at hsymbol
    exact hmem (hsymbol ▸ hname)
  rw [quantityOf, hnone]
  rfl

/-- What the fills of an account add to a symbol. -/
def countedTotal (env : Env) (baselines : Dict Baseline) (accountId symbol : String)
    (rows : List LedgerRow) : ℚ :=
  ((rows.filter (isRobotFill accountId)).map (countedValue env baselines symbol)).sum

/-- The totals of the loop are what the fills add, while that fits. -/
theorem fillTotals_total (hfits : LedgerFits env e symbol (rows.filter (isRobotFill accountId)))
    (h : fillTotals env baselines accountId rows = .ok totals) :
    totalOf totals symbol = countedTotal env baselines accountId symbol rows := by
  -- the loop went over the rows in the order of the query
  set sorted := (rows.filter (isRobotFill accountId)).insertionSort (ledgerBefore env) with hsorted
  have hperm : sorted.Perm (rows.filter (isRobotFill accountId)) := List.perm_insertionSort _ _
  have hstart : totalOf Dict.empty symbol = 0 := FiniteDecimal.zero_value
  have hlt : |totalOf Dict.empty symbol| +
      (sorted.map fun row => |countedValue env baselines symbol row|).sum < limit e := by
    rw [hstart, abs_zero, zero_add, (hperm.map _).sum_eq]
    exact (sum_counted_le _ _ _ _).trans_lt hfits.total
  rw [foldlM_total hfits.place hfits.named sorted (fun row hrow => hfits.units row (hperm.mem_iff.mp hrow))
    (by rw [hstart]; exact Units.zero e) hlt h, hstart, zero_add, (hperm.map _).sum_eq]
  rfl

/-- **A balance is its rebaseline's quantity and the fills after it**, while that fits. -/
theorem balance_value (hfits : LedgerFits env e symbol (rows.filter (isRobotFill accountId)))
    (hunits : Units e (baselineValue baselines symbol))
    (hlt : |baselineValue baselines symbol| + ((rows.filter (isRobotFill accountId)).map
      fun row => |countedValue env baselines symbol row|).sum < limit e)
    (h : loadRobotOwnedBalances env baselines accountId rows = .ok balances) :
    quantityOf balances symbol =
      baselineValue baselines symbol + countedTotal env baselines accountId symbol rows := by
  unfold loadRobotOwnedBalances at h
  obtain ⟨totals, htotals, hloaded⟩ := bind_ok h
  have htotal := fillTotals_total hfits htotals
  by_cases hmem : symbol ∈ balanceSymbols baselines totals
  · obtain ⟨b, hbal, hquantity⟩ := quantityOf_found hloaded hmem
    have hcounted : |countedTotal env baselines accountId symbol rows| ≤ _ := abs_sum_le _ _
    have hsum : Units e (baselineValue baselines symbol + totalOf totals symbol) := by
      rw [htotal]
      exact hunits.add (sum_units fun row hrow => (hfits.units row hrow).counted baselines)
    have hbound : |baselineValue baselines symbol + totalOf totals symbol| < limit e := by
      rw [htotal]
      exact (abs_add_le _ _).trans_lt (by linarith)
    obtain ⟨c, hc, hcvalue⟩ : ∃ c, Decimal.add (((baselines.get? symbol).map Baseline.quantity).getD .zero)
        ((totals.get? symbol).getD (.zero, 0)).1 = some c ∧
        c.value = baselineValue baselines symbol + totalOf totals symbol :=
      add_exact hfits.place (hsum.fits hbound)
    unfold balanceOf at hbal
    obtain ⟨quantity, hsummed, hbal⟩ := bind_ok hbal
    unfold ledgerSum at hsummed
    rw [hc] at hsummed
    cases hsummed
    rw [hquantity, ← pure_ok hbal, ← htotal]
    exact hcvalue
  · -- no balance: the symbol has neither a rebaseline nor a total
    rw [mem_balanceSymbols, not_or] at hmem
    have hbaseline : baselineValue baselines symbol = 0 := by
      rw [baselineValue, Option.not_isSome_iff_eq_none.mp hmem.1]
      exact FiniteDecimal.zero_value
    have hnone : totalOf totals symbol = 0 := by
      rw [totalOf, Option.not_isSome_iff_eq_none.mp hmem.2]
      exact FiniteDecimal.zero_value
    rw [quantityOf_absent hloaded (by rw [mem_balanceSymbols, not_or]; exact hmem), hbaseline, ← htotal,
      hnone, add_zero]

/-- The balance of one symbol is its quantity among the balances. -/
theorem loadRobotOwnedBalance_quantity
    (h : loadRobotOwnedBalance env baselines accountId rows symbol = .ok b) :
    ∃ balances, loadRobotOwnedBalances env baselines accountId rows = .ok balances ∧
      b.quantity.value = quantityOf balances symbol := by
  unfold loadRobotOwnedBalance at h
  obtain ⟨balances, hloaded, h⟩ := bind_ok h
  refine ⟨balances, hloaded, ?_⟩
  rw [← pure_ok h, quantityOf]
  cases balances.find? fun b => b.symbol = symbol with
  | none => exact FiniteDecimal.zero_value
  | some found => rfl

/-- **A balance without a rebaseline is the sum of the fills**, while that fits. -/
theorem load_value (hfits : LedgerFits env e symbol rows)
    (h : loadRobotOwnedBalance env Dict.empty accountId rows symbol = .ok b) :
    b.quantity.value = ledgerTotal env accountId symbol rows := by
  obtain ⟨balances, hloaded, hquantity⟩ := loadRobotOwnedBalance_quantity h
  have hfilter := hfits.filter (isRobotFill accountId)
  have hzero : baselineValue Dict.empty symbol = 0 := FiniteDecimal.zero_value
  rw [hquantity, balance_value hfilter (by rw [hzero]; exact Units.zero e)
    (by rw [hzero, abs_zero, zero_add]; exact (sum_counted_le _ _ _ _).trans_lt hfilter.total) hloaded, hzero, zero_add]
  rfl

end
end TraderBot.Ownership
