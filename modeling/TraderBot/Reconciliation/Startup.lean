import TraderBot.Lib.OrderedDict
import TraderBot.Lib.Returns
import TraderBot.Orders.Descriptor
import TraderBot.Venue.Ledger

/-! # Reconciliation at startup

`Reconciler.run_startup` compares the projections of an account with a snapshot
of the venue and allows trading when nothing was found. Positions are compared
from both sides. Orders are looked up from the local side only, and a local order
the venue does not list is passed over. The ids and the rows of the run and of
its findings are left out. -/
namespace TraderBot.Reconciliation
open TraderBot.Lib TraderBot.Lib.Json
open TraderBot.Venue (Interpreter ascii)

/-! ## Rows and findings -/

/-- A row of `orders_projection`, as far as it is read. -/
structure LocalOrder where
  orderProjectionId : String
  clientOrderId : Option String
  status : String
  deriving DecidableEq, Repr

/-- A row of `positions_projection`. -/
structure LocalPosition where
  positionId : String
  quantity : Numeric
  status : String
  deriving DecidableEq, Repr

/-- A row of `accounts_projection`. -/
structure LocalAccount where
  equity : Numeric
  availableBalance : Option Numeric
  margin : Numeric
  deriving DecidableEq, Repr

/-- The rows of one account, under the keys of its tables. -/
structure LocalState where
  orders : List LocalOrder
  positions : List LocalPosition
  account : Option LocalAccount
  distinctOrders : (orders.filterMap LocalOrder.clientOrderId).Nodup
  distinctPositions : (positions.map LocalPosition.positionId).Nodup

inductive MissingSide where
  | atVenue
  | atLocal
  deriving DecidableEq, Repr

inductive Finding where
  | orderDrift (orderProjectionId clientOrderId localStatus venueStatus : String)
  | positionDrift (positionKey : String) (localQuantity venueQuantity : Decimal)
      (localStatus venueStatus : String) (missing : Option MissingSide)
  | accountMissing (venueAccount : Value)
  | accountDrift (row : LocalAccount) (venueEquity venueFree venueMargin : Decimal)
  deriving DecidableEq

inductive Reason where
  | startup
  | periodic
  deriving DecidableEq, Repr

structure ReconciliationResult where
  status : String
  activeAllowed : Bool
  findings : List Finding

/-! ## Reading the snapshot -/

section
variable (py : Interpreter)

/-- `str(row.get(name))`. -/
def textField (row : Value) (name : String) : String := ((row.get? name).map py.str).getD "None"

/-- `str(row.get(name))` of a value that is not falsy. -/
def keyField (row : Value) (name : String) : Option String :=
  match row.get? name with
  | some v => if v.truthy then some (py.str v) else none
  | none => none

/-- The dicts a section holds; anything else raises, an empty section apart. -/
def sectionRows (snapshot : Value) (name : String) : Option (List Value) :=
  match snapshot.get? name with
  | none => some []
  | some (.arr rows) => if rows.all fun row => row matches .obj _ then some rows else none
  | some (.obj []) => some []
  | some (.str s) => if s = "" then some [] else none
  | some .null | some (.bool _) | some (.int _) | some (.float _) | some (.obj (_ :: _)) => none

/-- The rows that have a key, under it. -/
def keyedRows (rows : List Value) (name : String) : List (String × Value) :=
  rows.filterMap fun row => (keyField py row name).map fun key => (key, row)

/-- `decimal_or_none(value) or Decimal(0)`. -/
def decimalOrZero (v : Option Value) : Decimal :=
  match v.bind (Decimal.ofValue py.unicode) with
  | some d => if d.truthy then d else .finite .zero
  | none => .finite .zero

/-- The same of a column. -/
def columnOrZero (n : Numeric) : Decimal := if n.truthy then n.toDecimal else .finite .zero

end

/-- `a == b`; `none` is the `InvalidOperation` a signaling NaN raises. -/
def decimalEq : Decimal → Decimal → Option Bool
  | .nan _ true _, _ | _, .nan _ true _ => none
  | .nan _ false _, _ | _, .nan _ false _ => some false
  | .infinity a, .infinity b => some (a = b)
  | .infinity _, .finite _ | .finite _, .infinity _ => some false
  | .finite a, .finite b => some (a.eq b)

/-! ## Findings -/

section
variable (py : Interpreter)

/-- `venue_orders`. -/
def venueOrders (rows : List Value) : OrderedDict String String :=
  .ofList ((keyedRows py rows "client_order_id").map fun p => (p.1, textField py p.2 "status"))

def orderFinding (venue : OrderedDict String String) (row : LocalOrder) : Option Finding := do
  let clientOrderId ← row.clientOrderId
  let venueStatus ← venue.get? clientOrderId
  if venueStatus ≠ row.status then
    return .orderDrift row.orderProjectionId clientOrderId row.status venueStatus
  else none

/-- `_order_findings`; `none` raises. -/
def orderFindings (state : LocalState) (snapshot : Value) : Option (List Finding) := do
  let rows ← sectionRows snapshot "orders"
  return state.orders.filterMap (orderFinding (venueOrders py rows))

/-- `venue_positions`. -/
def venuePositions (rows : List Value) : OrderedDict String Value := .ofList (keyedRows py rows "position_key")

def venueQuantity (position : Value) : Decimal := decimalOrZero py (position.get? "quantity")

/-- What is found of a local position. -/
def localFindings (venue : OrderedDict String Value) (row : LocalPosition) : Option (List Finding) :=
  let quantity := columnOrZero row.quantity
  match venue.get? row.positionId with
  | none => do
    if ← decimalEq quantity (.finite .zero) then return []
    else return [.positionDrift row.positionId quantity (.finite .zero) row.status "missing" (some .atVenue)]
  | some position => do
    let status := textField py position "status"
    let same ← decimalEq (venueQuantity py position) quantity
    if same = false ∨ status ≠ row.status then
      return [.positionDrift row.positionId quantity (venueQuantity py position) row.status status none]
    else return []

/-- What is found of a position of the venue that has no row. -/
def venueFindings (state : LocalState) (p : String × Value) : Option (List Finding) :=
  if p.1 ∈ state.positions.map LocalPosition.positionId then some []
  else do
    if ← decimalEq (venueQuantity py p.2) (.finite .zero) then return []
    else return [.positionDrift p.1 (.finite .zero) (venueQuantity py p.2) "missing"
      (textField py p.2 "status") (some .atLocal)]

/-- `_position_findings`; `none` raises. -/
def positionFindings (state : LocalState) (snapshot : Value) : Option (List Finding) := do
  let rows ← sectionRows snapshot "positions"
  let venue := venuePositions py rows
  let here ← state.positions.mapM (localFindings py venue)
  let there ← venue.items.mapM (venueFindings py state)
  return here.flatten ++ there.flatten

/-- The columns and the venue's numbers agree; the first that does not ends it. -/
def accountEq (row : LocalAccount) (equity free margin : Decimal) : Option Bool := do
  if ← decimalEq row.equity.toDecimal equity then
    match row.availableBalance with
    | none => return false
    | some available =>
      if ← decimalEq available.toDecimal free then decimalEq row.margin.toDecimal margin else return false
  else return false

/-- `_account_findings`; `none` raises. -/
def accountFindings (state : LocalState) (snapshot : Value) : Option (List Finding) :=
  match snapshot.get? "account" with
  | none => some []
  | some account =>
    if account.truthy = false then some []
    else
      match state.account, account with
      | none, account => some [.accountMissing account]
      | some row, .obj members => do
        let equity := decimalOrZero py ((Value.obj members).get? "equity")
        let free := decimalOrZero py ((Value.obj members).get? "free")
        let margin := decimalOrZero py ((Value.obj members).get? "margin")
        if ← accountEq row equity free margin then return []
        else return [.accountDrift row equity free margin]
      | some _, _ => none

/-- `_collect_findings`; `none` raises, as a snapshot that is no dict does. -/
def collectFindings (state : LocalState) (snapshot : Value) : Option (List Finding) :=
  match snapshot with
  | .obj _ => do
    let orders ← orderFindings py state snapshot
    let positions ← positionFindings py state snapshot
    let account ← accountFindings py state snapshot
    return orders ++ positions ++ account
  | _ => none

/-- `_run`; `none` raises, and the transaction is rolled back. -/
def run (state : LocalState) (snapshot : Value) (reason : Reason) : Option ReconciliationResult := do
  let findings ← collectFindings py state snapshot
  return {
    status := if findings = [] then "passed" else "failed"
    activeAllowed := decide (reason ≠ .startup ∨ findings = [])
    findings }

def runStartup (state : LocalState) (snapshot : Value) : Option ReconciliationResult :=
  run py state snapshot .startup

end

/-! ## Two ways -/

section
variable (py : Interpreter)

/-- The rows of a section that was read. -/
def rowsOf (snapshot : Value) (name : String) : List Value := (sectionRows snapshot name).getD []

/-- `_state_is_terminal` of a text. -/
def isTerminal (status : String) : Bool :=
  match Orders.OrderStatus.ofText? status with
  | some status => status.isTerminal
  | none => false

/-- The quantity of a local position; one that is missing has none. -/
def localQuantityAt (state : LocalState) (key : String) : Decimal :=
  match state.positions.find? fun row => row.positionId = key with
  | some row => columnOrZero row.quantity
  | none => .finite .zero

/-- The quantity of a position at the venue; one that is missing has none. -/
def venueQuantityAt (rows : List Value) (key : String) : Decimal :=
  match (venuePositions py rows).get? key with
  | some position => venueQuantity py position
  | none => .finite .zero

/-- Each side has what the other has. -/
structure TwoWay (state : LocalState) (snapshot : Value) : Prop where
  venueOrders : ∀ row ∈ rowsOf snapshot "orders", ∀ id, keyField py row "client_order_id" = some id →
    ∃ o ∈ state.orders, o.clientOrderId = some id ∧ o.status = textField py row "status"
  localOrders : ∀ o ∈ state.orders, isTerminal o.status = false →
    ∃ id, o.clientOrderId = some id ∧ ∃ row ∈ rowsOf snapshot "orders",
      keyField py row "client_order_id" = some id ∧ textField py row "status" = o.status
  positions : ∀ key,
    decimalEq (venueQuantityAt py (rowsOf snapshot "positions") key) (localQuantityAt state key) = some true

/-- Every order id of the venue has a row, every local order that can still trade
is listed, and no id is listed with two statuses. -/
structure Covered (state : LocalState) (snapshot : Value) : Prop where
  known : ∀ row ∈ rowsOf snapshot "orders", ∀ id, keyField py row "client_order_id" = some id →
    ∃ o ∈ state.orders, o.clientOrderId = some id
  listed : ∀ o ∈ state.orders, isTerminal o.status = false →
    ∃ id, o.clientOrderId = some id ∧ ∃ row ∈ rowsOf snapshot "orders",
      keyField py row "client_order_id" = some id
  single : ∀ row ∈ rowsOf snapshot "orders", ∀ row' ∈ rowsOf snapshot "orders", ∀ id,
    keyField py row "client_order_id" = some id → keyField py row' "client_order_id" = some id →
      textField py row "status" = textField py row' "status"

end

section
variable {py : Interpreter} {state : LocalState} {snapshot : Value} {result : ReconciliationResult}

/-- An allowed start found nothing. -/
theorem nothing_found (hrun : runStartup py state snapshot = some result) (hallowed : result.activeAllowed = true) :
    orderFindings py state snapshot = some [] ∧ positionFindings py state snapshot = some [] := by
  obtain ⟨findings, hfindings, hresult⟩ := Option.bind_eq_some_iff.mp hrun
  cases hresult
  have hnil : findings = [] := by simpa using hallowed
  subst hnil
  unfold collectFindings at hfindings
  split at hfindings
  · obtain ⟨orders, horders, hfindings⟩ := Option.bind_eq_some_iff.mp hfindings
    obtain ⟨positions, hpositions, hfindings⟩ := Option.bind_eq_some_iff.mp hfindings
    obtain ⟨account, -, hfindings⟩ := Option.bind_eq_some_iff.mp hfindings
    have hall : orders ++ positions ++ account = [] := Option.some.inj hfindings
    obtain ⟨⟨rfl, rfl⟩, -⟩ := by simpa only [List.append_eq_nil_iff] using hall
    exact ⟨horders, hpositions⟩
  · cases hfindings

variable {rows : List Value} {id : String}

/-- A status the loop looks up is that of a row the venue lists. -/
theorem venueOrders_mem {status : String} (h : (venueOrders py rows).get? id = some status) :
    ∃ row ∈ rows, keyField py row "client_order_id" = some id ∧ textField py row "status" = status := by
  have hmem := (OrderedDict.ofList_cases _ id).1 status h
  obtain ⟨⟨id', row⟩, hkeyed, heq⟩ := List.mem_map.mp hmem
  cases heq
  obtain ⟨row', hrow, hfield⟩ := List.mem_filterMap.mp hkeyed
  obtain ⟨id'', hid, hpair⟩ := Option.map_eq_some_iff.mp hfield
  cases hpair
  exact ⟨row, hrow, hid, rfl⟩

/-- An id the venue lists is looked up. -/
theorem venueOrders_listed {row : Value} (hrow : row ∈ rows)
    (hid : keyField py row "client_order_id" = some id) :
    ∃ status, (venueOrders py rows).get? id = some status := by
  have hmem : (id, row) ∈ keyedRows py rows "client_order_id" :=
    List.mem_filterMap.mpr ⟨row, hrow, by rw [hid]; rfl⟩
  exact Option.isSome_iff_exists.mp ((OrderedDict.ofList_cases _ id).2 _ (List.mem_map_of_mem hmem))

/-- Where no order was found to drift, a local order has the status it is looked
up with. -/
theorem order_agrees (h : orderFindings py state snapshot = some []) {o : LocalOrder}
    (ho : o ∈ state.orders) {status : String} (hid : o.clientOrderId = some id)
    (hstatus : (venueOrders py (rowsOf snapshot "orders")).get? id = some status) :
    o.status = status := by
  obtain ⟨rows, hrows, hnone⟩ := Option.bind_eq_some_iff.mp h
  have hnil := List.filterMap_eq_nil_iff.mp (Option.some.inj hnone) o ho
  rw [rowsOf, hrows, Option.getD_some] at hstatus
  by_contra hne
  rw [orderFinding, hid] at hnil
  simp [hstatus, Ne.symm hne] at hnil

theorem decimalEq_comm (a b : Decimal) : decimalEq a b = decimalEq b a := by
  cases a with
  | finite a => cases b with
    | finite b => simp [decimalEq, FiniteDecimal.eq, Bool.and_comm]
    | infinity b => rfl
    | nan negative signaling payload => cases signaling <;> rfl
  | infinity a => cases b with
    | finite b => rfl
    | infinity b => simp [decimalEq, eq_comm]
    | nan negative signaling payload => cases signaling <;> rfl
  | nan negative signaling payload => cases b with
    | finite b => cases signaling <;> rfl
    | infinity b => cases signaling <;> rfl
    | nan negative' signaling' payload' => cases signaling <;> cases signaling' <;> rfl

theorem localFindings_nil {venue : OrderedDict String Value} {row : LocalPosition}
    (h : localFindings py venue row = some []) :
    decimalEq (match venue.get? row.positionId with
      | some position => venueQuantity py position
      | none => .finite .zero) (columnOrZero row.quantity) = some true := by
  unfold localFindings at h
  cases hget : venue.get? row.positionId with
  | none =>
    rw [hget] at h
    obtain ⟨zero, hzero, h⟩ := Option.bind_eq_some_iff.mp h
    cases zero with
    | true => rw [decimalEq_comm]; exact hzero
    | false => cases h
  | some position =>
    rw [hget] at h
    obtain ⟨same, hsame, h⟩ := Option.bind_eq_some_iff.mp h
    cases same with
    | true => exact hsame
    | false => cases h

theorem venueFindings_nil {p : String × Value} (h : venueFindings py state p = some [])
    (hmissing : p.1 ∉ state.positions.map LocalPosition.positionId) :
    decimalEq (venueQuantity py p.2) (.finite .zero) = some true := by
  unfold venueFindings at h
  rw [if_neg hmissing] at h
  obtain ⟨zero, hzero, h⟩ := Option.bind_eq_some_iff.mp h
  cases zero with
  | true => exact hzero
  | false => cases h

/-- **Positions are compared both ways.** -/
theorem positions_agree (h : positionFindings py state snapshot = some []) (key : String) :
    decimalEq (venueQuantityAt py (rowsOf snapshot "positions") key) (localQuantityAt state key) = some true := by
  obtain ⟨rows, hrows, h⟩ := Option.bind_eq_some_iff.mp h
  obtain ⟨here, hhere, h⟩ := Option.bind_eq_some_iff.mp h
  obtain ⟨there, hthere, h⟩ := Option.bind_eq_some_iff.mp h
  have hall : here.flatten ++ there.flatten = [] := Option.some.inj h
  obtain ⟨hherenil, htherenil⟩ := List.append_eq_nil_iff.mp hall
  rw [List.flatten_eq_nil_iff] at hherenil htherenil
  rw [rowsOf, hrows, Option.getD_some]
  unfold venueQuantityAt localQuantityAt
  cases hfind : state.positions.find? fun row => row.positionId = key with
  | some row =>
    have hkey : row.positionId = key := by simpa using List.find?_some hfind
    obtain ⟨found, hfound, hrow⟩ := mapM_some hhere row (List.mem_of_find?_eq_some hfind)
    rw [hherenil found hfound] at hrow
    rw [← hkey]
    exact localFindings_nil hrow
  | none =>
    have hmissing : key ∉ state.positions.map LocalPosition.positionId := by
      intro hmem
      obtain ⟨row, hrow, hkey⟩ := List.mem_map.mp hmem
      simpa [hkey] using List.find?_eq_none.mp hfind row hrow
    cases hget : (venuePositions py rows).get? key with
    | none =>
      show decimalEq (.finite .zero) (.finite .zero) = some true
      decide
    | some position =>
      obtain ⟨found, hfound, hitem⟩ := mapM_some hthere (key, position) (OrderedDict.mem_items.mpr hget)
      rw [htherenil found hfound] at hitem
      exact venueFindings_nil hitem hmissing

theorem LocalState.same_order {o o' : LocalOrder} (ho : o ∈ state.orders) (ho' : o' ∈ state.orders)
    (hid : o.clientOrderId = some id) (hid' : o'.clientOrderId = some id) : o = o' := by
  have hpairs := List.pairwise_filterMap.mp state.distinctOrders
  have : Std.Symm fun a b : LocalOrder =>
      ∀ x, a.clientOrderId = some x → ∀ y, b.clientOrderId = some y → x ≠ y :=
    ⟨fun a b h x hx y hy => (h y hy x hx).symm⟩
  by_contra hne
  exact hpairs.forall ho ho' hne id hid id hid' rfl

/-- **A start that is allowed is two-way just where the orders are covered.** -/
theorem runStartup_twoWay_iff (hrun : runStartup py state snapshot = some result)
    (hallowed : result.activeAllowed = true) : TwoWay py state snapshot ↔ Covered py state snapshot := by
  obtain ⟨horders, hpositions⟩ := nothing_found hrun hallowed
  constructor
  · intro h
    refine ⟨fun row hrow id hid => ?_, fun o ho hlive => ?_, fun row hrow row' hrow' id hid hid' => ?_⟩
    · obtain ⟨o, ho, hoid, -⟩ := h.venueOrders row hrow id hid
      exact ⟨o, ho, hoid⟩
    · obtain ⟨id, hoid, row, hrow, hid, -⟩ := h.localOrders o ho hlive
      exact ⟨id, hoid, row, hrow, hid⟩
    · obtain ⟨o, ho, hoid, hstatus⟩ := h.venueOrders row hrow id hid
      obtain ⟨o', ho', hoid', hstatus'⟩ := h.venueOrders row' hrow' id hid'
      rw [← hstatus, ← hstatus', LocalState.same_order ho ho' hoid hoid']
  · intro h
    -- the status of any row of an id is the one that is looked up
    have hlookup : ∀ o ∈ state.orders, ∀ row ∈ rowsOf snapshot "orders", ∀ id, o.clientOrderId = some id →
        keyField py row "client_order_id" = some id → o.status = textField py row "status" := by
      intro o ho row hrow id hoid hid
      obtain ⟨status, hstatus⟩ := venueOrders_listed hrow hid
      obtain ⟨row', hrow', hid', rfl⟩ := venueOrders_mem hstatus
      rw [order_agrees horders ho hoid hstatus, h.single row hrow row' hrow' id hid hid']
    refine ⟨fun row hrow id hid => ?_, fun o ho hlive => ?_, positions_agree hpositions⟩
    · obtain ⟨o, ho, hoid⟩ := h.known row hrow id hid
      exact ⟨o, ho, hoid, hlookup o ho row hrow id hoid hid⟩
    · obtain ⟨id, hoid, row, hrow, hid⟩ := h.listed o ho hlive
      exact ⟨id, hoid, row, hrow, hid, (hlookup o ho row hrow id hoid hid).symm⟩

end

/-! ## Some snapshots -/

/-- One local order and no position. -/
def oneOrder (status : String) : LocalState where
  orders := [⟨"row", some "order", status⟩]
  positions := []
  account := none
  distinctOrders := List.nodup_singleton _
  distinctPositions := List.nodup_nil

def noOrder : LocalState where
  orders := []
  positions := []
  account := none
  distinctOrders := List.nodup_nil
  distinctPositions := List.nodup_nil

/-- A snapshot with these orders. -/
def listing (rows : List (String × String)) : Value :=
  .obj [("orders", .arr (rows.map fun row => .obj [("client_order_id", .str row.1), ("status", .str row.2)]))]

/-- Whether a start is allowed. -/
def allowed (state : LocalState) (snapshot : Value) : Option Bool :=
  (runStartup ascii state snapshot).map ReconciliationResult.activeAllowed

/-- A working order on both sides. -/
theorem runStartup_twoWay_working : TwoWay ascii (oneOrder "working") (listing [("order", "working")]) := by
  have hallowed : allowed (oneOrder "working") (listing [("order", "working")]) = some true := by decide +kernel
  obtain ⟨result, hrun, hresult⟩ := Option.map_eq_some_iff.mp hallowed
  rw [runStartup_twoWay_iff hrun hresult]
  set row : Value := .obj [("client_order_id", .str "order"), ("status", .str "working")] with hrow
  have hrows : rowsOf (listing [("order", "working")]) "orders" = [row] := by decide +kernel
  have hid : keyField ascii row "client_order_id" = some "order" := by decide +kernel
  constructor
  · rw [hrows]
    intro row' hrow' id hid'
    rw [List.mem_singleton.mp hrow', hid] at hid'
    exact ⟨_, List.mem_cons_self, hid'⟩
  · rw [hrows]
    intro o ho _
    rw [List.mem_singleton.mp ho]
    exact ⟨"order", rfl, row, List.mem_cons_self, hid⟩
  · rw [hrows]
    intro a ha b hb _ _ _
    rw [List.mem_singleton.mp ha, List.mem_singleton.mp hb]

/-- An order the venue lists and no row knows, and a working order the venue does
not list: both starts are allowed. -/
theorem runStartup_oneWay :
    allowed noOrder (listing [("order", "working")]) = some true ∧
      ¬ TwoWay ascii noOrder (listing [("order", "working")]) ∧
      allowed (oneOrder "working") (listing []) = some true ∧
      ¬ TwoWay ascii (oneOrder "working") (listing []) := by
  refine ⟨by decide +kernel, fun h => ?_, by decide +kernel, fun h => ?_⟩
  · obtain ⟨o, ho, -⟩ := h.venueOrders _ List.mem_cons_self "order" (by decide +kernel)
    cases ho
  · obtain ⟨id, -, row, hrow, -⟩ := h.localOrders _ List.mem_cons_self (by decide +kernel)
    cases hrow

end TraderBot.Reconciliation
