import TraderBot.Lib.DecimalSum
import TraderBot.Lib.OrderedDict

/-! # Fill evidence of an entry batch

`record_fill` keeps, for each order of a batch, its trades by id and the largest
filled quantity that trades or cumulative reports have shown; `owned_quantity`
takes the exits from the entries. Reports come late, twice and in any order. -/
namespace TraderBot.EntryBatch
open TraderBot.Lib
open TraderBot.Lib.Decimal (InContext limit Whole Fits)

/-! ## The state -/

/-- A text that reads as a finite decimal. -/
structure Amount where
  text : String
  number : FiniteDecimal
  reads : ∀ unicode, Decimal.ofText unicode text.toList = some (.finite number)

/-- `format(d, "f")`. -/
def Amount.format (d : FiniteDecimal) : Amount where
  text := String.ofList (Decimal.fixedText d)
  number := d.spread
  reads unicode := by
    rw [String.toList_ofList]
    exact Decimal.ofText_fixedText unicode d

inductive FillRole where
  | entry
  | exit
  deriving DecidableEq, Repr

/-- A role as it is written; anything else is no role. -/
def FillRole.ofText? (text : String) : Option FillRole :=
  if text = "entry" then some .entry else if text = "exit" then some .exit else none

structure FillRow where
  role : FillRole
  trades : OrderedDict String Amount := .empty
  filled : Amount := .format .zero

abbrev FillState := OrderedDict String FillRow

/-- The arguments of a call: quantities by their `str`, no cumulative one for
`False`. -/
structure FillReport where
  clientId : String
  role : String
  lastQuantity : String := "None"
  tradeId : String := ""
  cumulative : Option String := none
  deriving DecidableEq, Repr

/-- A `ValueError` with its text, or a signal of the decimal context. -/
inductive FillError where
  | invalid (message : String)
  | arithmetic
  deriving DecidableEq, Repr

/-! ## Operations -/

section
variable (unicode : Text.Unicode)

def positive (text : String) : Except FillError FiniteDecimal :=
  match Decimal.ofText unicode text.toList with
  | some (.finite d) =>
    if d.isPositive then .ok d else .error (.invalid "entry batch requires finite positive numbers")
  | some (.infinity _) | some (.nan _ _ _) | none =>
    .error (.invalid "entry batch requires finite positive numbers")

/-- The trades after a report; one without a trade id leaves them. -/
def addTrade (trades : OrderedDict String Amount) (r : FillReport) :
    Except FillError (OrderedDict String Amount) :=
  if r.tradeId = "" then .ok trades
  else do
    let quantity ← positive unicode r.lastQuantity
    match trades.get? r.tradeId with
    | some previous =>
      if previous.number.eq quantity then .ok (trades.set r.tradeId (.format quantity))
      else .error (.invalid "batch trade quantity changed")
    | none => .ok (trades.set r.tradeId (.format quantity))

/-- The sum of the trades, not below what was filled or what is reported. -/
def filledTotal (trades : OrderedDict String Amount) (filled : Amount) (cumulative : Option String) :
    Except FillError FiniteDecimal :=
  match (trades.values.map Amount.number).foldlM Decimal.add .zero with
  | none => .error .arithmetic
  | some total =>
    let total := total.max filled.number
    match cumulative with
    | none => .ok total
    | some cumulative => do return total.max (← positive unicode cumulative)

/-- `record_fill`: the state it leaves, also where it raises. -/
def recordFill (state : FillState) (r : FillReport) : FillState × Except FillError Unit :=
  match FillRole.ofText? r.role with
  | none => (state, .error (.invalid "invalid batch fill role"))
  | some role =>
    if r.tradeId = "" ∧ r.cumulative = none then
      (state, .error (.invalid "batch fill needs a trade id or cumulative quantity"))
    else
      let row := (state.get? r.clientId).getD { role }
      let state := state.setDefault r.clientId { role }
      if row.role ≠ role then (state, .error (.invalid "batch order role changed"))
      else
        match addTrade unicode row.trades r with
        | .error e => (state, .error e)
        | .ok trades =>
          let state := state.set r.clientId { row with trades }
          match filledTotal unicode trades row.filled r.cumulative with
          | .error e => (state, .error e)
          | .ok total => (state.set r.clientId { row with trades, filled := .format total }, .ok ())

/-- One report after the other, up to the first that raises. -/
def recordFills (state : FillState) (reports : List FillReport) : Except FillError FillState :=
  reports.foldlM (fun state r => (recordFill unicode state r).2.map fun _ => (recordFill unicode state r).1)
    state

end

/-- One row counted in. -/
def addOwned (quantity : FiniteDecimal) (row : FillRow) : Option FiniteDecimal :=
  match row.role with
  | .entry => Decimal.add quantity row.filled.number
  | .exit => Decimal.sub quantity row.filled.number

/-- `owned_quantity`; `none` raises. -/
def ownedQuantity (state : FillState) : Option FiniteDecimal :=
  (state.values.foldlM addOwned .zero).map fun quantity => quantity.max .zero

/-! ## What the reports say -/

section
variable (unicode : Text.Unicode)

/-- The amount of a text that `positive` takes. -/
def amountOf (text : String) : Option ℚ := (positive unicode text).toOption.map FiniteDecimal.value

/-- The trade a report gives for an order. -/
def FillReport.trade (order : String) (r : FillReport) : Option (String × ℚ) :=
  if r.clientId = order ∧ r.tradeId ≠ "" then (amountOf unicode r.lastQuantity).map fun x => (r.tradeId, x)
  else none

/-- The cumulative quantity a report gives for an order. -/
def FillReport.total (order : String) (r : FillReport) : Option ℚ :=
  if r.clientId = order then r.cumulative.bind (amountOf unicode) else none

def tradesOf (reports : Finset FillReport) (order : String) : Finset (String × ℚ) :=
  reports.biUnion fun r => (r.trade unicode order).toFinset

def totalsOf (reports : Finset FillReport) (order : String) : Finset ℚ :=
  reports.biUnion fun r => (r.total unicode order).toFinset

def tradedSum (reports : Finset FillReport) (order : String) : ℚ :=
  ∑ p ∈ tradesOf unicode reports order, p.2

/-- What an order has filled: the sum over its trade ids, or the largest
cumulative quantity. -/
def filledBy (reports : Finset FillReport) (order : String) : ℚ :=
  max (tradedSum unicode reports order) ((totalsOf unicode reports order).fold max 0 id)

/-- The orders reported in a role. -/
def ordersOf (reports : Finset FillReport) (role : FillRole) : Finset String :=
  (reports.filter fun r => FillRole.ofText? r.role = some role).image FillReport.clientId

def filledIn (reports : Finset FillReport) (role : FillRole) : ℚ :=
  ∑ order ∈ ordersOf reports role, filledBy unicode reports order

/-- Reports that can be read, with one role for an order and one quantity for a
trade of it. -/
structure Coherent (reports : Finset FillReport) : Prop where
  role : ∀ r ∈ reports, ∃ role, FillRole.ofText? r.role = some role
  evidence : ∀ r ∈ reports, ¬ (r.tradeId = "" ∧ r.cumulative = none)
  quantity : ∀ r ∈ reports, r.tradeId ≠ "" → ∃ q, positive unicode r.lastQuantity = .ok q
  cumulative : ∀ r ∈ reports, ∀ c, r.cumulative = some c → ∃ q, positive unicode c = .ok q
  sameRole : ∀ r ∈ reports, ∀ r' ∈ reports, r.clientId = r'.clientId → r.role = r'.role
  sameQuantity : ∀ r ∈ reports, ∀ r' ∈ reports, r.clientId = r'.clientId → r.tradeId = r'.tradeId →
    r.tradeId ≠ "" → amountOf unicode r.lastQuantity = amountOf unicode r'.lastQuantity

/-- Amounts with no digit past a place, at most 28 digits in all for an order's
trades. -/
structure Fitting (e : Int) (reports : Finset FillReport) : Prop where
  context : InContext e
  low : e ≤ 0
  quantity : ∀ r ∈ reports, r.tradeId ≠ "" → ∀ q, positive unicode r.lastQuantity = .ok q → e ≤ q.exponent
  cumulative : ∀ r ∈ reports, ∀ c, r.cumulative = some c → ∀ q, positive unicode c = .ok q → e ≤ q.exponent
  trades : ∀ order, tradedSum unicode reports order < limit e

end

section
variable {unicode : Text.Unicode} {e : Int} {reports : Finset FillReport} {r : FillReport} {order : String}

variable {text : String} {q : FiniteDecimal} {fewer : Finset FillReport}

theorem positive_pos (h : positive unicode text = .ok q) : q.negative = false ∧ 0 < q.value := by
  unfold positive at h
  split at h
  · split_ifs at h with hpos
    cases h
    have hvalue := FiniteDecimal.isPositive_iff.mp hpos
    simp only [FiniteDecimal.isPositive, Bool.and_eq_true, Bool.not_eq_true'] at hpos
    exact ⟨hpos.1, hvalue⟩
  all_goals cases h

theorem amountOf_eq (h : positive unicode text = .ok q) : amountOf unicode text = some q.value := by
  rw [amountOf, h]
  rfl

theorem amountOf_pos {x : ℚ} (h : amountOf unicode text = some x) : 0 < x := by
  obtain ⟨q, hq, rfl⟩ := Option.map_eq_some_iff.mp h
  cases hpos : positive unicode text with
  | error error => rw [hpos] at hq; cases hq
  | ok d =>
    rw [hpos] at hq
    cases hq
    exact (positive_pos hpos).2

theorem tradesOf_insert : tradesOf unicode (insert r reports) order =
    (r.trade unicode order).toFinset ∪ tradesOf unicode reports order := Finset.biUnion_insert

theorem totalsOf_insert : totalsOf unicode (insert r reports) order =
    (r.total unicode order).toFinset ∪ totalsOf unicode reports order := Finset.biUnion_insert

theorem trade_pos {p : String × ℚ} (h : p ∈ tradesOf unicode reports order) : 0 < p.2 := by
  obtain ⟨r, -, hr⟩ := Finset.mem_biUnion.mp h
  rw [Option.mem_toFinset, FillReport.trade] at hr
  split_ifs at hr
  · obtain ⟨x, hx, rfl⟩ := Option.map_eq_some_iff.mp hr
    exact amountOf_pos hx
  · cases hr

theorem tradedSum_mono {more : Finset FillReport} (h : reports ⊆ more) :
    tradedSum unicode reports order ≤ tradedSum unicode more order :=
  Finset.sum_le_sum_of_subset_of_nonneg (Finset.biUnion_subset_biUnion_of_subset_left _ h)
    fun _ hp _ => (trade_pos hp).le

/-- A report of another order says nothing of this one. -/
theorem filledBy_insert_other (h : r.clientId ≠ order) :
    tradesOf unicode (insert r reports) order = tradesOf unicode reports order ∧
      filledBy unicode (insert r reports) order = filledBy unicode reports order := by
  have htrade : r.trade unicode order = none := if_neg fun hboth => h hboth.1
  have htotal : r.total unicode order = none := if_neg h
  have htrades : tradesOf unicode (insert r reports) order = tradesOf unicode reports order := by
    rw [tradesOf_insert, htrade]
    exact Finset.empty_union _
  have htotals : totalsOf unicode (insert r reports) order = totalsOf unicode reports order := by
    rw [totalsOf_insert, htotal]
    exact Finset.empty_union _
  exact ⟨htrades, by rw [filledBy, filledBy, tradedSum, tradedSum, htrades, htotals]⟩

/-- What a report adds to its own order. -/
theorem filledBy_insert (total : Option ℚ) (h : r.total unicode order = total) :
    filledBy unicode (insert r reports) order =
      max (tradedSum unicode (insert r reports) order)
        (total.elim (filledBy unicode reports order) (max · (filledBy unicode reports order))) := by
  have hmono := @tradedSum_mono unicode reports order _ (Finset.subset_insert r reports)
  rw [filledBy, filledBy, totalsOf_insert, h]
  cases total with
  | none =>
    rw [show (none : Option ℚ).toFinset = ∅ from rfl, Finset.empty_union, Option.elim_none, ← max_assoc,
      max_eq_left hmono]
  | some x =>
    rw [show (some x).toFinset = {x} from rfl, ← Finset.insert_eq, Finset.fold_insert_idem, Option.elim_some,
      max_left_comm x, ← max_assoc (tradedSum unicode (insert r reports) order)
        (tradedSum unicode reports order), max_eq_left hmono]
    rfl

theorem Coherent.mono (h : Coherent unicode reports) (hle : fewer ⊆ reports) :
    Coherent unicode fewer where
  role r hr := h.role r (hle hr)
  evidence r hr := h.evidence r (hle hr)
  quantity r hr := h.quantity r (hle hr)
  cumulative r hr := h.cumulative r (hle hr)
  sameRole r hr r' hr' := h.sameRole r (hle hr) r' (hle hr')
  sameQuantity r hr r' hr' := h.sameQuantity r (hle hr) r' (hle hr')

theorem Fitting.mono (h : Fitting unicode e reports) (hle : fewer ⊆ reports) :
    Fitting unicode e fewer where
  context := h.context
  low := h.low
  quantity r hr := h.quantity r (hle hr)
  cumulative r hr := h.cumulative r (hle hr)
  trades order := (tradedSum_mono hle).trans_lt (h.trades order)

end

/-! ## One report -/

/-- The trades of an order as they are kept. -/
structure Traded (unicode : Text.Unicode) (e : Int) (reports : Finset FillReport) (order : String)
    (trades : OrderedDict String Amount) : Prop where
  iff : ∀ id x, (id, x) ∈ tradesOf unicode reports order ↔
    ∃ a, trades.get? id = some a ∧ a.number.value = x
  plain : ∀ id a, trades.get? id = some a → a.number.Plain e

/-- The row of an order as it is kept. -/
structure Kept (unicode : Text.Unicode) (e : Int) (reports : Finset FillReport) (order : String)
    (row : FillRow) : Prop where
  role : ∀ r ∈ reports, r.clientId = order → FillRole.ofText? r.role = some row.role
  trades : Traded unicode e reports order row.trades
  filled : row.filled.number.value = filledBy unicode reports order
  plain : row.filled.number.Plain e

section
variable {unicode : Text.Unicode} {e : Int} {reports : Finset FillReport} {r : FillReport} {order : String}
variable {trades : OrderedDict String Amount} {row : FillRow}

variable {d : FiniteDecimal}

theorem format_plain (hlow : e ≤ 0) (h : d.Plain e) : (Amount.format d).number.Plain e :=
  ⟨h.unsigned, le_min h.place hlow⟩

theorem format_value (d : FiniteDecimal) : (Amount.format d).number.value = d.value := d.spread_value

theorem max_plain {a b : FiniteDecimal} (ha : a.Plain e) (hb : b.Plain e) : (a.max b).Plain e := by
  unfold FiniteDecimal.max
  split_ifs
  · exact hb
  · exact ha

/-- The values that are kept add up to the sum over trade ids. -/
theorem Traded.sum_eq (h : Traded unicode e reports order trades) :
    ((trades.values.map Amount.number).map FiniteDecimal.value).sum = tradedSum unicode reports order := by
  set pairs : List (String × ℚ) := trades.items.map fun p => (p.1, p.2.number.value) with hpairs
  have hnodup : pairs.Nodup := by
    apply List.Nodup.of_map Prod.fst
    rw [hpairs, List.map_map]
    exact trades.distinct
  have hset : pairs.toFinset = tradesOf unicode reports order := by
    ext ⟨id, x⟩
    rw [h.iff, List.mem_toFinset, hpairs, List.mem_map]
    constructor
    · rintro ⟨⟨id', a⟩, hmem, heq⟩
      cases heq
      exact ⟨a, OrderedDict.mem_items.mp hmem, rfl⟩
    · rintro ⟨a, hget, rfl⟩
      exact ⟨(id, a), OrderedDict.mem_items.mpr hget, rfl⟩
  rw [tradedSum, ← hset, List.sum_toFinset _ hnodup, hpairs, OrderedDict.values]
  simp only [List.map_map]
  rfl

/-- **A trade is counted once.** -/
theorem Traded.addTrade (h : Traded unicode e reports order trades) (hr : r.clientId = order)
    (hco : Coherent unicode (insert r reports)) (hlow : e ≤ 0)
    (hplace : r.tradeId ≠ "" → ∀ q, positive unicode r.lastQuantity = .ok q → e ≤ q.exponent) :
    ∃ trades', EntryBatch.addTrade unicode trades r = .ok trades' ∧
      Traded unicode e (insert r reports) order trades' := by
  have hmem : r ∈ insert r reports := Finset.mem_insert_self r reports
  by_cases hid : r.tradeId = ""
  · have hnone : r.trade unicode order = none := if_neg fun hboth => hboth.2 hid
    refine ⟨trades, if_pos hid, fun id x => ?_, h.plain⟩
    rw [tradesOf_insert, hnone]
    exact (by simp : _ ↔ _).trans (h.iff id x)
  · obtain ⟨q, hq⟩ := hco.quantity r hmem hid
    have htrade : r.trade unicode order = some (r.tradeId, q.value) := by
      rw [FillReport.trade, if_pos ⟨hr, hid⟩, amountOf_eq hq]
      rfl
    have hplain : (Amount.format q).number.Plain e :=
      format_plain hlow ⟨(positive_pos hq).1, hplace hid q hq⟩
    -- a trade of this id that was seen has this quantity
    have hsame : ∀ x, (r.tradeId, x) ∈ tradesOf unicode reports order → x = q.value := by
      intro x hx
      obtain ⟨r', hr', hx⟩ := Finset.mem_biUnion.mp hx
      rw [Option.mem_toFinset, FillReport.trade] at hx
      split_ifs at hx with hboth
      · obtain ⟨y, hy, heq⟩ := Option.map_eq_some_iff.mp hx
        obtain ⟨hids, rfl⟩ := Prod.mk.inj heq
        have hagree := hco.sameQuantity r' (Finset.mem_insert_of_mem hr') r hmem (hboth.1.trans hr.symm)
          hids hboth.2
        rw [hy, amountOf_eq hq] at hagree
        exact Option.some.inj hagree
      · cases hx
    have hadd : EntryBatch.addTrade unicode trades r = .ok (trades.set r.tradeId (.format q)) := by
      rw [EntryBatch.addTrade, if_neg hid, hq]
      show (match trades.get? r.tradeId with | some previous => _ | none => _) = _
      cases hget : trades.get? r.tradeId with
      | none => rfl
      | some previous =>
        have hvalue := hsame _ ((h.iff _ _).mpr ⟨previous, hget, rfl⟩)
        exact if_pos (FiniteDecimal.eq_iff.mpr hvalue)
    refine ⟨_, hadd, fun id x => ?_, fun id a hget => ?_⟩
    · rw [tradesOf_insert, htrade, OrderedDict.get?_set, Finset.mem_union, h.iff,
        show (some (r.tradeId, q.value)).toFinset = {(r.tradeId, q.value)} from rfl, Finset.mem_singleton]
      split_ifs with heq
      · subst heq
        simp only [Prod.mk.injEq, true_and, Option.some.injEq, exists_eq_left', format_value]
        constructor
        · rintro (rfl | hold)
          · rfl
          · exact (hsame x ((h.iff _ _).mpr hold)).symm
        · intro hx
          exact .inl hx.symm
      · simp [heq]
    · rw [OrderedDict.get?_set] at hget
      split_ifs at hget
      · cases hget
        exact hplain
      · exact h.plain id a hget

/-- **The total of an order after a report.** -/
theorem Kept.filledTotal (h : Kept unicode e reports order row) (hr : r.clientId = order)
    (hco : Coherent unicode (insert r reports)) (hfit : Fitting unicode e (insert r reports))
    (htrades : Traded unicode e (insert r reports) order trades) :
    ∃ total, EntryBatch.filledTotal unicode trades row.filled r.cumulative = .ok total ∧
      total.Plain e ∧ total.value = filledBy unicode (insert r reports) order := by
  have hmem : r ∈ insert r reports := Finset.mem_insert_self r reports
  have hplain : ∀ x ∈ trades.values.map Amount.number, x.Plain e := by
    intro x hx
    obtain ⟨a, ha, rfl⟩ := List.mem_map.mp hx
    obtain ⟨⟨id, a'⟩, hitem, rfl⟩ := List.mem_map.mp ha
    exact htrades.plain id a' (OrderedDict.mem_items.mp hitem)
  obtain ⟨c, hc, hcplain, -, hcvalue⟩ := Decimal.foldlM_add_plain hfit.context
    (⟨rfl, hfit.low⟩ : FiniteDecimal.zero.Plain e) (le_refl _) hplain (by
      rw [htrades.sum_eq, FiniteDecimal.zero_value, zero_add]
      exact hfit.trades order)
  rw [htrades.sum_eq, FiniteDecimal.zero_value, zero_add] at hcvalue
  have hmax : (c.max row.filled.number).value =
      max (tradedSum unicode (insert r reports) order) (filledBy unicode reports order) := by
    rw [FiniteDecimal.max_value, hcvalue, h.filled]
  unfold EntryBatch.filledTotal
  rw [hc]
  cases hcum : r.cumulative with
  | none =>
    have htotal : r.total unicode order = none := by rw [FillReport.total, if_pos hr, hcum]; rfl
    exact ⟨_, rfl, max_plain hcplain h.plain, by rw [hmax, filledBy_insert none htotal]; rfl⟩
  | some cumulative =>
    obtain ⟨q, hq⟩ := hco.cumulative r hmem cumulative hcum
    have htotal : r.total unicode order = some q.value := by
      rw [FillReport.total, if_pos hr, hcum, Option.bind_some, amountOf_eq hq]
    refine ⟨(c.max row.filled.number).max q, ?_, ?_, ?_⟩
    · show (positive unicode cumulative).map _ = _
      rw [hq]
      rfl
    · exact max_plain (max_plain hcplain h.plain)
        ⟨(positive_pos hq).1, hfit.cumulative r hmem cumulative hcum q hq⟩
    · rw [FiniteDecimal.max_value, hmax, filledBy_insert _ htotal, Option.elim_some, max_assoc,
        max_comm (filledBy unicode reports order)]

/-- A row that was just opened. -/
theorem Kept.fresh (hlow : e ≤ 0) (h : ∀ r ∈ reports, r.clientId ≠ order) (role : FillRole) :
    Kept unicode e reports order { role } := by
  have htrades : tradesOf unicode reports order = ∅ := by
    refine Finset.eq_empty_of_forall_notMem fun x hx => ?_
    obtain ⟨r, hr, hx⟩ := Finset.mem_biUnion.mp hx
    rw [FillReport.trade, if_neg fun hboth => h r hr hboth.1] at hx
    cases Option.mem_toFinset.mp hx
  have htotals : totalsOf unicode reports order = ∅ := by
    refine Finset.eq_empty_of_forall_notMem fun x hx => ?_
    obtain ⟨r, hr, hx⟩ := Finset.mem_biUnion.mp hx
    rw [FillReport.total, if_neg (h r hr)] at hx
    cases Option.mem_toFinset.mp hx
  have hzero : (Amount.format .zero).number.value = 0 := by rw [format_value, FiniteDecimal.zero_value]
  refine ⟨fun r hr hid => absurd hid (h r hr), ⟨fun id x => ?_, fun id a hget => ?_⟩, ?_, ?_⟩
  · rw [htrades]
    simp
  · rw [OrderedDict.get?_empty] at hget
    cases hget
  · rw [hzero, filledBy, tradedSum, htrades, htotals]
    simp
  · exact format_plain hlow ⟨rfl, hlow⟩

/-- Every order that was reported has its row, and no other has one. -/
structure Recorded (unicode : Text.Unicode) (e : Int) (reports : Finset FillReport) (state : FillState) :
    Prop where
  rows : ∀ order row, state.get? order = some row → Kept unicode e reports order row
  orders : ∀ order, (state.get? order).isSome ↔ ∃ r ∈ reports, r.clientId = order

theorem Recorded.empty : Recorded unicode e ∅ .empty where
  rows order row h := by cases h
  orders order := by simp

variable {state : FillState}

/-- The row a report finds, or opens. -/
theorem Recorded.kept (h : Recorded unicode e reports state) (hlow : e ≤ 0) (order : String) (role : FillRole) :
    Kept unicode e reports order ((state.get? order).getD { role }) := by
  cases hget : state.get? order with
  | some row => exact h.rows order row hget
  | none =>
    refine Kept.fresh hlow (fun r hr heq => ?_) role
    have hsome := (h.orders order).mpr ⟨r, hr, heq⟩
    rw [hget] at hsome
    cases hsome

/-- **One report.** -/
theorem Recorded.recordFill (h : Recorded unicode e reports state)
    (hco : Coherent unicode (insert r reports)) (hfit : Fitting unicode e (insert r reports)) :
    ∃ state', EntryBatch.recordFill unicode state r = (state', .ok ()) ∧
      Recorded unicode e (insert r reports) state' := by
  have hmem : r ∈ insert r reports := Finset.mem_insert_self r reports
  obtain ⟨role, hrole⟩ := hco.role r hmem
  have hkept := h.kept hfit.low r.clientId role
  set row := (state.get? r.clientId).getD { role } with hrow
  have hsame : row.role = role := by
    rw [hrow]
    cases hget : state.get? r.clientId with
    | none => rfl
    | some old =>
      obtain ⟨r', hr', hid⟩ := (h.orders r.clientId).mp (by rw [hget]; rfl)
      have hold := (h.rows _ old hget).role r' hr' hid
      rw [hco.sameRole r' (Finset.mem_insert_of_mem hr') r hmem hid, hrole] at hold
      exact (Option.some.inj hold).symm
  obtain ⟨trades, htrades, htraded⟩ := hkept.trades.addTrade rfl hco hfit.low (hfit.quantity r hmem)
  obtain ⟨total, htotal, hplain, hvalue⟩ := hkept.filledTotal rfl hco hfit htraded
  set new : FillRow := { row with trades, filled := .format total } with hnew
  refine ⟨((state.setDefault r.clientId { role }).set r.clientId { row with trades }).set r.clientId new,
    ?_, ?_⟩
  · unfold EntryBatch.recordFill
    rw [hrole]
    dsimp only
    rw [if_neg (hco.evidence r hmem), ← hrow, if_neg (not_not.mpr hsame), htrades]
    dsimp only
    rw [htotal]
  · have hget : ∀ order, (((state.setDefault r.clientId { role }).set r.clientId { row with trades }).set
        r.clientId new).get? order = if order = r.clientId then some new else state.get? order := by
      intro order
      rw [OrderedDict.get?_set, OrderedDict.get?_set, OrderedDict.get?_setDefault]
      split_ifs <;> rfl
    refine ⟨fun order found hfound => ?_, fun order => ?_⟩
    · rw [hget] at hfound
      split_ifs at hfound with horder
      · cases hfound
        subst horder
        refine ⟨fun r' hr' hid => ?_, htraded, by rw [hnew, format_value, hvalue],
          format_plain hfit.low hplain⟩
        rw [hco.sameRole r' hr' r hmem hid, hrole, ← hsame]
      · obtain ⟨htrades', hfilled'⟩ := @filledBy_insert_other unicode reports r order (Ne.symm horder)
        have hold := h.rows order found hfound
        refine ⟨fun r' hr' hid => ?_, ⟨by rw [htrades']; exact hold.trades.iff, hold.trades.plain⟩,
          by rw [hfilled', hold.filled], hold.plain⟩
        rcases Finset.mem_insert.mp hr' with rfl | hr'
        · exact absurd hid (Ne.symm horder)
        · exact hold.role r' hr' hid
    · rw [hget, Finset.exists_mem_insert]
      split_ifs with horder
      · simp [horder]
      · rw [h.orders]
        simp [Ne.symm horder]

/-- **All reports**, in the order of a list. -/
theorem Recorded.recordFills (h : Recorded unicode e reports state) (l : List FillReport)
    (hco : Coherent unicode (reports ∪ l.toFinset)) (hfit : Fitting unicode e (reports ∪ l.toFinset)) :
    ∃ state', EntryBatch.recordFills unicode state l = .ok state' ∧
      Recorded unicode e (reports ∪ l.toFinset) state' := by
  induction l generalizing reports state with
  | nil => exact ⟨state, rfl, by simpa using h⟩
  | cons r l ih =>
    have hunion : reports ∪ (r :: l).toFinset = insert r reports ∪ l.toFinset := by
      rw [List.toFinset_cons, Finset.union_insert, Finset.insert_union]
    rw [hunion] at hco hfit ⊢
    have hsubset : insert r reports ⊆ insert r reports ∪ l.toFinset := Finset.subset_union_left
    obtain ⟨state', hstep, hrecorded⟩ := h.recordFill (hco.mono hsubset) (hfit.mono hsubset)
    obtain ⟨final, hrun, hfinal⟩ := ih hrecorded hco hfit
    refine ⟨final, ?_, hfinal⟩
    rw [EntryBatch.recordFills, List.foldlM_cons, hstep]
    exact hrun

/-! ## What is owned -/

/-- The filled quantities of the rows in a role. -/
def filledRows (role : FillRole) (rows : List FillRow) : ℚ :=
  ((rows.filter fun row => row.role = role).map fun row => row.filled.number.value).sum

theorem fits_sub {x y : ℚ} (hx : Whole e x) (hy : Whole e y) (hxlimit : x < limit e)
    (hylimit : y < limit e) : Fits e (x - y) := by
  obtain ⟨m, rfl⟩ := hx
  obtain ⟨n, rfl⟩ := hy
  have hpow := ten_zpow_pos e
  rw [Whole.lt_limit_iff] at hxlimit hylimit
  refine ⟨((m : Int) - n).natAbs, by omega, ?_⟩
  rw [← sub_mul, abs_mul, abs_of_pos hpow, Nat.cast_natAbs]
  push_cast
  rfl

theorem plain_whole (h : d.Plain e) : Whole e d.value := by
  rw [h.value_eq, ten_zpow_split h.place, ← mul_assoc, ← Nat.cast_mul]
  exact ⟨_, rfl⟩

/-- Entries less exits, row after row. -/
theorem foldlM_addOwned (he : InContext e) {rows : List FillRow} (hrows : ∀ row ∈ rows, row.filled.number.Plain e)
    {a : FiniteDecimal} {x y : ℚ} (ha : a.value = x - y) (hx : Whole e x) (hy : Whole e y)
    (hentry : x + filledRows .entry rows < limit e) (hexit : y + filledRows .exit rows < limit e) :
    ∃ c, rows.foldlM addOwned a = some c ∧
      c.value = x + filledRows .entry rows - (y + filledRows .exit rows) := by
  induction rows generalizing a x y with
  | nil => exact ⟨a, rfl, by simp [filledRows, ha]⟩
  | cons row rows ih =>
    have hrest := fun row' h => hrows row' (List.mem_cons_of_mem row h)
    have hwhole := plain_whole (hrows row List.mem_cons_self)
    have hnonneg : ∀ role, 0 ≤ filledRows role rows := by
      intro role
      refine List.sum_nonneg fun z hz => ?_
      obtain ⟨row', hrow', rfl⟩ := List.mem_map.mp hz
      exact (hrest row' (List.mem_of_mem_filter hrow')).nonneg
    rw [List.foldlM_cons]
    cases hrole : row.role with
    | entry =>
      have hentry' : filledRows .entry (row :: rows) = row.filled.number.value + filledRows .entry rows := by
        simp [filledRows, hrole]
      have hexit' : filledRows .exit (row :: rows) = filledRows .exit rows := by simp [filledRows, hrole]
      rw [hentry', ← add_assoc] at hentry ⊢
      rw [hexit'] at hexit ⊢
      have hlimit : x + row.filled.number.value < limit e := by linarith [hnonneg .entry]
      have hvalue : a.value + row.filled.number.value = x + row.filled.number.value - y := by
        rw [ha]
        ring
      obtain ⟨c, hc, hcvalue⟩ := Decimal.add_exact he (by
        rw [hvalue]
        exact fits_sub (hx.add hwhole) hy hlimit (by linarith [hnonneg .exit]))
      have hstep : addOwned a row = some c := by rw [addOwned, hrole]; exact hc
      rw [hstep]
      exact ih hrest (hcvalue.trans hvalue) (hx.add hwhole) hy hentry hexit
    | exit =>
      have hentry' : filledRows .entry (row :: rows) = filledRows .entry rows := by simp [filledRows, hrole]
      have hexit' : filledRows .exit (row :: rows) = row.filled.number.value + filledRows .exit rows := by
        simp [filledRows, hrole]
      rw [hexit', ← add_assoc] at hexit ⊢
      rw [hentry'] at hentry ⊢
      have hlimit : y + row.filled.number.value < limit e := by linarith [hnonneg .exit]
      have hvalue : a.value - row.filled.number.value = x - (y + row.filled.number.value) := by
        rw [ha]
        ring
      obtain ⟨c, hc, hcvalue⟩ := Decimal.sub_exact he (by
        rw [hvalue]
        exact fits_sub hx (hy.add hwhole) (by linarith [hnonneg .entry]) hlimit)
      have hstep : addOwned a row = some c := by rw [addOwned, hrole]; exact hc
      rw [hstep]
      exact ih hrest (hcvalue.trans hvalue) hx (hy.add hwhole) hentry hexit

/-- The rows of a role are its orders. -/
theorem Recorded.filledRows_eq (h : Recorded unicode e reports state) (role : FillRole) :
    filledRows role state.values = filledIn unicode reports role := by
  set items := state.items.filter fun p => p.2.role = role with hitems
  have hnodup : (items.map Prod.fst).Nodup := (List.filter_sublist.map _).nodup state.distinct
  have hset : (items.map Prod.fst).toFinset = ordersOf reports role := by
    ext order
    simp only [hitems, List.mem_toFinset, List.mem_map, List.mem_filter, decide_eq_true_eq, Prod.exists,
      exists_and_right, exists_eq_right, ordersOf, Finset.mem_image, Finset.mem_filter]
    constructor
    · rintro ⟨row, hmem, hrole⟩
      have hget := OrderedDict.mem_items.mp hmem
      obtain ⟨r, hr, hid⟩ := (h.orders order).mp (by rw [hget]; rfl)
      exact ⟨r, ⟨hr, by rw [(h.rows order row hget).role r hr hid, hrole]⟩, hid⟩
    · rintro ⟨r, ⟨hr, hrole⟩, hid⟩
      obtain ⟨row, hget⟩ := Option.isSome_iff_exists.mp ((h.orders order).mpr ⟨r, hr, hid⟩)
      have hkept := (h.rows order row hget).role r hr hid
      rw [hrole] at hkept
      exact ⟨row, OrderedDict.mem_items.mpr hget, (Option.some.inj hkept).symm⟩
  rw [filledIn, ← hset, List.sum_toFinset _ hnodup, filledRows, OrderedDict.values, List.filter_map,
    List.map_map, List.map_map]
  congr 1
  refine List.map_congr_left fun p hp => ?_
  exact (h.rows p.1 p.2 (OrderedDict.mem_items.mp (List.mem_of_mem_filter hp))).filled

/-- **Fill evidence in any order.** Over reports that can be read, with one role
for an order and one quantity for a trade, whatever their order and however often
each comes: an order has filled the larger of the sum over its trade ids and its
largest cumulative quantity, and what is owned is what entries filled less what
exits filled, if that is positive. -/
theorem recordFills_any_order (hco : Coherent unicode reports) (hfit : Fitting unicode e reports)
    (hroles : ∀ role, filledIn unicode reports role < limit e) {l : List FillReport}
    (hl : l.toFinset = reports) :
    ∃ state, EntryBatch.recordFills unicode .empty l = .ok state ∧
      (∀ r ∈ reports, ∃ row, state.get? r.clientId = some row ∧
        row.filled.number.value = filledBy unicode reports r.clientId) ∧
      ∃ owned, ownedQuantity state = some owned ∧
        owned.value = max (filledIn unicode reports .entry - filledIn unicode reports .exit) 0 := by
  have hempty : (∅ : Finset FillReport) ∪ l.toFinset = reports := by rw [Finset.empty_union, hl]
  obtain ⟨state, hrun, hrecorded⟩ := Recorded.empty.recordFills l (by rw [hempty]; exact hco)
    (by rw [hempty]; exact hfit)
  rw [hempty] at hrecorded
  refine ⟨state, hrun, fun r hr => ?_, ?_⟩
  · obtain ⟨row, hrow⟩ := Option.isSome_iff_exists.mp ((hrecorded.orders r.clientId).mpr ⟨r, hr, rfl⟩)
    exact ⟨row, hrow, (hrecorded.rows _ row hrow).filled⟩
  · have hplain : ∀ row ∈ state.values, row.filled.number.Plain e := by
      intro row hrow
      obtain ⟨⟨order, row'⟩, hitem, rfl⟩ := List.mem_map.mp hrow
      exact (hrecorded.rows order row' (OrderedDict.mem_items.mp hitem)).plain
    have hentry := hrecorded.filledRows_eq .entry
    have hexit := hrecorded.filledRows_eq .exit
    obtain ⟨c, hc, hvalue⟩ := foldlM_addOwned hfit.context hplain
      (show FiniteDecimal.zero.value = 0 - 0 by rw [FiniteDecimal.zero_value, sub_zero])
      (Whole.zero e) (Whole.zero e) (by rw [hentry, zero_add]; exact hroles .entry)
      (by rw [hexit, zero_add]; exact hroles .exit)
    refine ⟨c.max .zero, by rw [ownedQuantity, hc]; rfl, ?_⟩
    rw [FiniteDecimal.max_value, hvalue, hentry, hexit, FiniteDecimal.zero_value, zero_add, zero_add]

end

/-! ## Some reports -/

def tradeReport (role quantity tradeId : String) : FillReport :=
  { clientId := "e1", role, lastQuantity := quantity, tradeId }

/-- The text of what an order has filled after some reports. -/
def filledText (reports : List FillReport) : Except FillError (Option String) :=
  (recordFills .ascii .empty reports).map fun state => (state.get? "e1").map fun row => row.filled.text

/-- A trade of 10 with a cumulative 12. -/
def tenOfTwelve : FillReport := { tradeReport "entry" "10" "t1" with cumulative := some "12" }

theorem positive_ten : positive .ascii "10" = .ok ⟨false, 10, 0, by decide⟩ := by decide +kernel

theorem positive_twelve : positive .ascii "12" = .ok ⟨false, 12, 0, by decide⟩ := by decide +kernel

theorem tenOfTwelve_coherent : Coherent .ascii {tenOfTwelve} where
  role := by
    simp only [Finset.mem_singleton, forall_eq]
    exact ⟨.entry, by decide⟩
  evidence := by
    simp only [Finset.mem_singleton, forall_eq]
    decide
  quantity := by
    simp only [Finset.mem_singleton, forall_eq]
    exact fun _ => ⟨_, positive_ten⟩
  cumulative := by
    simp only [Finset.mem_singleton, forall_eq]
    intro c hc
    cases hc
    exact ⟨_, positive_twelve⟩
  sameRole := by simp
  sameQuantity := by simp

theorem tenOfTwelve_tradedSum (order : String) :
    tradedSum .ascii {tenOfTwelve} order = if order = "e1" then 10 else 0 := by
  have hten : amountOf .ascii tenOfTwelve.lastQuantity = some 10 := by
    rw [show tenOfTwelve.lastQuantity = "10" from rfl, amountOf_eq positive_ten]
    norm_num [FiniteDecimal.value, FiniteDecimal.signed]
  rw [tradedSum, tradesOf, Finset.singleton_biUnion, FillReport.trade, hten]
  by_cases horder : order = "e1"
  · rw [if_pos horder, if_pos ⟨horder.symm, by decide⟩]
    exact Finset.sum_singleton _ _
  · rw [if_neg horder, if_neg fun hboth => horder hboth.1.symm]
    exact Finset.sum_empty

theorem tenOfTwelve_filledBy : filledBy .ascii {tenOfTwelve} "e1" = 12 := by
  have htwelve : tenOfTwelve.total .ascii "e1" = some 12 := by
    rw [FillReport.total, if_pos (show tenOfTwelve.clientId = "e1" from rfl),
      show tenOfTwelve.cumulative = some "12" from rfl, Option.bind_some,
      amountOf_eq positive_twelve]
    norm_num [FiniteDecimal.value, FiniteDecimal.signed]
  rw [filledBy, tenOfTwelve_tradedSum, totalsOf, Finset.singleton_biUnion, htwelve, if_pos rfl,
    show (some (12 : ℚ)).toFinset = {12} from rfl, Finset.fold_singleton]
  norm_num

theorem tenOfTwelve_filledIn :
    filledIn .ascii {tenOfTwelve} .entry = 12 ∧ filledIn .ascii {tenOfTwelve} .exit = 0 := by
  have hentry : ordersOf {tenOfTwelve} .entry = {"e1"} := by decide
  have hexit : ordersOf {tenOfTwelve} .exit = ∅ := by decide
  rw [filledIn, filledIn, hentry, hexit, Finset.sum_singleton, tenOfTwelve_filledBy, Finset.sum_empty]
  exact ⟨rfl, rfl⟩

theorem twelve_lt_limit : (12 : ℚ) < limit 0 := by norm_num [limit, Decimal.prec]

theorem tenOfTwelve_fitting : Fitting .ascii 0 {tenOfTwelve} where
  context := ⟨by decide, by norm_num [Decimal.prec, Decimal.emax]⟩
  low := le_rfl
  quantity := by
    simp only [Finset.mem_singleton, forall_eq]
    intro _ q hq
    rw [show tenOfTwelve.lastQuantity = "10" from rfl, positive_ten] at hq
    cases hq
    exact le_rfl
  cumulative := by
    simp only [Finset.mem_singleton, forall_eq]
    intro c hc q hq
    cases hc
    rw [positive_twelve] at hq
    cases hq
    exact le_rfl
  trades order := by
    rw [tenOfTwelve_tradedSum]
    split_ifs
    · exact lt_trans (by norm_num) twelve_lt_limit
    · exact lt_trans (by norm_num) twelve_lt_limit

/-- The report twice. -/
theorem recordFills_twice :
    ∃ state, recordFills .ascii .empty [tenOfTwelve, tenOfTwelve] = .ok state ∧
      (∃ row, state.get? "e1" = some row ∧ row.filled.number.value = 12) ∧
      ∃ owned, ownedQuantity state = some owned ∧ owned.value = 12 := by
  obtain ⟨hentry, hexit⟩ := tenOfTwelve_filledIn
  have hroles : ∀ role, filledIn .ascii {tenOfTwelve} role < limit 0 := by
    intro role
    cases role with
    | entry => rw [hentry]; exact twelve_lt_limit
    | exit => rw [hexit]; exact lt_trans (by norm_num) twelve_lt_limit
  have htwice : [tenOfTwelve, tenOfTwelve].toFinset = {tenOfTwelve} := by decide
  obtain ⟨state, hrun, hrows, owned, howned, hvalue⟩ :=
    recordFills_any_order tenOfTwelve_coherent tenOfTwelve_fitting hroles htwice
  obtain ⟨row, hrow, hfilled⟩ := hrows tenOfTwelve (Finset.mem_singleton_self _)
  have hid : tenOfTwelve.clientId = "e1" := rfl
  rw [hid] at hrow hfilled
  rw [tenOfTwelve_filledBy] at hfilled
  rw [hentry, hexit] at hvalue
  exact ⟨state, hrun, ⟨row, hrow, hfilled⟩, owned, howned, by rw [hvalue]; norm_num⟩

/-- Three trades whose sum has 28 digits after the point, in two orders, and two
roles of one order. -/
theorem recordFills_apart :
    filledText [tradeReport "entry" "1" "t1", tradeReport "entry" "5E-28" "t2",
        tradeReport "entry" "5E-28" "t3"] = .ok (some "1.000000000000000000000000000") ∧
      filledText [tradeReport "entry" "5E-28" "t2", tradeReport "entry" "5E-28" "t3",
        tradeReport "entry" "1" "t1"] = .ok (some "1.000000000000000000000000001") ∧
      filledText [tradeReport "entry" "1" "t1", tradeReport "exit" "1" "t2"] =
        .error (.invalid "batch order role changed") := by
  refine ⟨?_, ?_, ?_⟩ <;> decide +kernel

end TraderBot.EntryBatch
