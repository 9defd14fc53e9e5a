import TraderBot.Lib.DecimalValue
import TraderBot.PositionProjection.Model

/-! # Stale and repeated position events

The order reducer drops an event it has seen and keeps an old one as history.
The position reducer does neither: its row takes what any event brings. So an
event that comes again, or late, is without effect exactly when the row it finds
has its own side, quantity and status (`ignoresOld_iff`). -/
namespace TraderBot.PositionProjection
open TraderBot.Lib TraderBot.Lib.Text TraderBot.Lib.Json
open TraderBot.Orders (Env Event Failure Side orRaise orRaise_ok decimal decimalOrNone decimalOrNone_eq quantityField)

/-! ## Runs -/

/-- The tables, and which events were applied on the way. -/
structure History where
  applied : List String
  tables : Tables

/-- One call after the other; a call that raises is rolled back. -/
def machine (env : Env) : Machine History Call (Except Failure PositionApplyResult) where
  step s call :=
    match applyEvent env call s.tables with
    | .ok (result, t) => (.ok result, ⟨call.event.eventId :: s.applied, t⟩)
    | .error failure => (.error failure, s)

/-- The event was applied before, or is older than the row. -/
def Old (s : History) (event : Normalized) (row : PositionRow) : Prop :=
  event.event.eventId ∈ s.applied ∨ ∃ ts, row.tsEvent = some ts ∧ event.tsEvent < ts

/-- The position did not change; a quantity is what it is worth. -/
structure SamePosition (old new : PositionRow) : Prop where
  side : new.side = old.side
  quantity : new.quantity.value.rank = old.quantity.value.rank
  status : new.status = old.status

/-- An old event leaves its position as it was. -/
def IgnoresOld (env : Env) (s : History) (call : Call) : Prop :=
  ∀ event row, normalizeEvent env call.now call.event = .ok event →
    s.tables.positions.find? event.key = some row → Old s event row →
      ∃ new, ((machine env).next s call).tables.positions.find? event.key = some new ∧ SamePosition row new

/-- The row has the quantity of the event. -/
def HasQuantity (env : Env) (event : Normalized) (row : PositionRow) : Prop :=
  ∃ quantity amount, eventQuantity env.unicode event.payload = .ok quantity ∧
    quantityColumn quantity = .ok amount ∧ amount.value.rank = row.quantity.value.rank

/-- The row has the side of the event, and is external, closed or open with the
event's quantity, as the event is marked external, closes, or does neither. -/
def Repeats (env : Env) (event : Normalized) (row : PositionRow) : Prop :=
  positionSide env event.payload = .ok row.side ∧
    if isExternal env event.payload then row.status = .external ∧ HasQuantity env event row
    else if event.event.eventType = "PositionClosed" then row.status = .closed ∧ row.quantity.value.rank = 0
    else row.status = .opened ∧ HasQuantity env event row

/-- An old event that is applied finds itself in the row. -/
def FindsItself (env : Env) (s : History) (call : Call) : Prop :=
  (applyEvent env call s.tables).isOk = true → ∀ event row,
    normalizeEvent env call.now call.event = .ok event →
      s.tables.positions.find? event.key = some row → Old s event row → Repeats env event row

/-! ## The status of an event -/

/-- The event brings less than there is, both rounded. -/
def Reduces (unicode : Unicode) (payload : Dict Value) (current : Option Decimal) : Prop :=
  ∃ quantity old new' old', decimal unicode (quantityField payload) = some quantity ∧ current = some old ∧
    quantity.absolute = some new' ∧ old.absolute = some old' ∧ new'.lt? old' = some true

variable {unicode : Unicode} {payload : Dict Value} {current : Option Decimal}
  {status : PositionStatus} {amount : Amount} {quantity : Decimal}

theorem derivePositionChangedState_ok
    (h : derivePositionChangedState unicode payload current = .ok status) :
    status = .opened ∨ (status = .reducing ∧ Reduces unicode payload current) := by
  unfold derivePositionChangedState at h
  split at h
  · rename_i quantity old hquantity
    obtain ⟨new', hnew, h⟩ := bind_ok h
    obtain ⟨old', hold, h⟩ := bind_ok h
    obtain ⟨less, hless, h⟩ := bind_ok h
    cases less with
    | false => exact .inl (pure_ok h).symm
    | true =>
      exact .inr ⟨(pure_ok h).symm, quantity, old, new', old', hquantity, rfl, orRaise_ok hnew, orRaise_ok hold,
        orRaise_ok hless⟩
  · exact .inl (pure_ok h).symm

/-- **The status of an event**: external where it is marked so, closed where it
closes, else open or reducing. -/
theorem targetOf_ok {env : Env} {event : Normalized} (h : targetOf env event current = .ok status) :
    (isExternal env event.payload = true ∧ status = .external) ∨
      (isExternal env event.payload = false ∧ event.event.eventType = "PositionClosed" ∧ status = .closed) ∨
      (isExternal env event.payload = false ∧ event.event.eventType ≠ "PositionClosed" ∧
        (status = .opened ∨ (status = .reducing ∧ event.event.eventType = "PositionChanged" ∧
          Reduces env.unicode event.payload current))) := by
  obtain ⟨target, htarget, h⟩ := bind_ok h
  have hstatus := pure_ok h
  cases hexternal : isExternal env event.payload with
  | true => exact .inl ⟨rfl, by rw [← hstatus, if_pos hexternal]⟩
  | false =>
    rw [if_neg (by simp [hexternal])] at hstatus
    subst hstatus
    unfold eventTarget at htarget
    by_cases hopened : event.event.eventType = "PositionOpened"
    · rw [if_pos hopened] at htarget
      cases pure_ok htarget
      exact .inr (.inr ⟨rfl, by rw [hopened]; decide, .inl rfl⟩)
    rw [if_neg hopened] at htarget
    by_cases hchanged : event.event.eventType = "PositionChanged"
    · rw [if_pos hchanged] at htarget
      obtain ⟨derived, hderived, htarget⟩ := bind_ok htarget
      cases pure_ok htarget
      refine .inr (.inr ⟨rfl, by rw [hchanged]; decide, ?_⟩)
      rcases derivePositionChangedState_ok hderived with hs | ⟨hs, hreduces⟩
      · exact .inl hs
      · exact .inr ⟨hs, hchanged, hreduces⟩
    rw [if_neg hchanged] at htarget
    by_cases hclosed : event.event.eventType = "PositionClosed"
    · rw [if_pos hclosed] at htarget
      cases pure_ok htarget
      exact .inr (.inl ⟨rfl, hclosed, rfl⟩)
    · rw [if_neg hclosed] at htarget
      cases pure_ok htarget
      exact .inr (.inr ⟨rfl, hclosed, .inl rfl⟩)

/-! ## Quantities -/

theorem quantityColumn_rank {d : FiniteDecimal} (h : quantityColumn (.finite d) = .ok amount) :
    amount.value.rank = (d.value : WithTop ℚ) := by
  obtain ⟨n, hn, h⟩ := Option.bind_eq_some_iff.mp (orRaise_ok h)
  unfold Amount.ofNumeric? at h
  split_ifs at h
  cases h
  exact Numeric.ofDecimal_rank hn

/-- The quantity of an event is its rounded number, zero for a number that is. -/
theorem eventQuantity_value {x a : FiniteDecimal}
    (hx : decimal unicode (quantityField payload) = some (.finite x))
    (ha : Decimal.fix false x.coeff x.exponent = some a)
    (h : eventQuantity unicode payload = .ok quantity) :
    ∃ e, quantity = .finite e ∧ e.value = a.value := by
  have h := orRaise_ok h
  rw [decimalOrNone_eq, hx] at h
  by_cases hzero : x.coeff = 0
  · have hfilter : (some (Decimal.finite x)).filter Decimal.truthy = none := by
      simp [Option.filter, Decimal.truthy, hzero]
    rw [hfilter] at h
    change (Decimal.fix false 0 0).map Decimal.finite = some quantity at h
    obtain ⟨e, he, rfl⟩ := Option.map_eq_some_iff.mp h
    rw [hzero] at ha
    exact ⟨e, rfl, by rw [Decimal.fix_zero_value false he, Decimal.fix_zero_value false ha]⟩
  · have hfilter : (some (Decimal.finite x)).filter Decimal.truthy = some (.finite x) := by
      simp [Option.filter, Decimal.truthy, hzero]
    rw [hfilter] at h
    obtain ⟨e, he, rfl⟩ := Option.map_eq_some_iff.mp h
    rw [ha] at he
    cases he
    exact ⟨a, rfl, rfl⟩

/-- The two numbers of a reduction are finite. -/
theorem Reduces.finite {current : Numeric} (h : Reduces unicode payload (some current.toDecimal)) :
    ∃ x a d c, decimal unicode (quantityField payload) = some (.finite x) ∧ current.toDecimal = .finite d ∧
      Decimal.fix false x.coeff x.exponent = some a ∧ Decimal.fix false d.coeff d.exponent = some c ∧
      a.value < c.value ∧ current.rank = (d.value : WithTop ℚ) := by
  obtain ⟨quantity, old, new', old', hquantity, hcurrent, hnew, hold, hless⟩ := h
  cases hcurrent
  obtain ⟨rest, hrest, hmore⟩ := Option.map_eq_some_iff.mp hless
  rcases Numeric.toDecimal_cases current with ⟨-, hnan⟩ | ⟨d, hd, hrank⟩
  · -- a NaN does not compare
    rw [hnan] at hold
    cases hold
    cases hrest
  rw [hd] at hold
  obtain ⟨c, hc, rfl⟩ := Option.map_eq_some_iff.mp hold
  cases quantity with
  | nan negative signaling payload =>
    cases signaling with
    | true => cases hnew
    | false =>
      cases hnew
      cases hrest
  | infinity negative =>
    cases hnew
    cases hrest
    cases hmore
  | finite x =>
    obtain ⟨a, ha, rfl⟩ := Option.map_eq_some_iff.mp hnew
    have hle : c.le a = rest := Option.some.inj hrest
    have hlt : a.lt c = true := by
      unfold FiniteDecimal.lt
      rw [hle]
      exact hmore
    exact ⟨x, a, d, c, hquantity, hd, ha, hc, FiniteDecimal.lt_iff.mp hlt, hrank⟩

/-- A reduction brings another quantity than the row has. -/
theorem Reduces.rank_ne {current : Numeric} (h : Reduces unicode payload (some current.toDecimal))
    (hquantity : eventQuantity unicode payload = .ok quantity)
    (hamount : quantityColumn quantity = .ok amount) : amount.value.rank ≠ current.rank := by
  obtain ⟨x, a, d, c, hx, -, ha, hc, hlt, hrank⟩ := h.finite
  obtain ⟨e, rfl, he⟩ := eventQuantity_value hx ha hquantity
  rw [quantityColumn_rank hamount, hrank, he]
  intro heq
  have hvalue : a.value = d.value := WithTop.coe_inj.mp heq
  -- what was rounded is not rounded up again
  have hle := Decimal.fix_le_of_fixed false ha hc (by rw [hvalue])
  rw [abs_of_nonneg (Decimal.fix_nonneg ha)] at hle
  exact absurd hlt (not_lt.mpr hle)

/-! ## Steps -/

section
variable {env : Env} {s : History} {call : Call} {t t' : Tables} {event : Normalized} {row new : PositionRow}

/-- The row of the position after a call. -/
theorem Applied.find? (h : Applied env call t t' event new) (hrow : t.positions.find? event.key = some row) :
    t'.positions.find? event.key = some (mergeRow row new) := by
  rw [h.positions, hrow, Table.find?_put, if_pos]
  · rfl
  · exact (Table.key_of_find? hrow).symm

/-- The row an event writes has its quantity unless it closes. -/
theorem Applied.hasQuantity_iff (h : Applied env call t t' event new) (hopen : new.status ≠ .closed) :
    HasQuantity env event row ↔ new.quantity.value.rank = row.quantity.value.rank := by
  obtain ⟨quantity, hquantity, hnew⟩ := h.proposed
  rw [if_neg hopen] at hnew
  have hcolumn := (proposedRow_ok hnew).2.2.2.2.1
  constructor
  · rintro ⟨quantity', amount, hquantity', hamount, hrank⟩
    rw [hquantity] at hquantity'
    cases hquantity'
    rw [hcolumn] at hamount
    cases hamount
    exact hrank
  · intro hrank
    exact ⟨quantity, new.quantity, hquantity, hcolumn, hrank⟩

/-- A row that is closed has nothing. -/
theorem Applied.closed_rank (h : Applied env call t t' event new) (hclosed : new.status = .closed) :
    new.quantity.value.rank = 0 := by
  obtain ⟨quantity, -, hnew⟩ := h.proposed
  rw [if_pos hclosed] at hnew
  rw [quantityColumn_rank (proposedRow_ok hnew).2.2.2.2.1]
  simp [FiniteDecimal.value, FiniteDecimal.signed, FiniteDecimal.zero]

/-- A position does not change under an event that repeats it, and under no other. -/
theorem Applied.same_iff (h : Applied env call t t' event new) (hrow : t.positions.find? event.key = some row) :
    SamePosition row (mergeRow row new) ↔ Repeats env event row := by
  have hside : positionSide env event.payload = .ok row.side ↔ new.side = row.side := by
    obtain ⟨quantity, -, hnew⟩ := h.proposed
    rw [(proposedRow_ok hnew).2.2.2.1]
    exact ⟨fun heq => Except.ok.inj heq, fun heq => by rw [heq]⟩
  have hsame : SamePosition row (mergeRow row new) ↔ new.side = row.side ∧
      new.status = row.status ∧ new.quantity.value.rank = row.quantity.value.rank :=
    ⟨fun h => ⟨h.side, h.status, h.quantity⟩, fun h => ⟨h.1, h.2.2, h.2.1⟩⟩
  rw [hsame, Repeats, hside]
  refine and_congr_right fun _ => ?_
  have htarget := h.target
  rw [hrow] at htarget
  rcases targetOf_ok htarget with ⟨hexternal, hs⟩ | ⟨hexternal, htype, hs⟩ | ⟨hexternal, htype, hs⟩
  · rw [if_pos hexternal, h.hasQuantity_iff (by rw [hs]; decide), hs, eq_comm]
  · rw [if_neg (by simp [hexternal]), if_pos htype, h.closed_rank hs, hs, eq_comm,
      @eq_comm _ (0 : WithTop ℚ)]
  · rw [if_neg (by simp [hexternal]), if_neg htype]
    rcases hs with hs | ⟨hs, -, hreduces⟩
    · rw [h.hasQuantity_iff (by rw [hs]; decide), hs, eq_comm]
    · -- a reduction changes the quantity, so neither side holds
      have hopen : new.status ≠ .closed := by
        rw [hs]
        decide
      obtain ⟨quantity, hquantity, hnew⟩ := h.proposed
      rw [if_neg hopen] at hnew
      have hne := hreduces.rank_ne hquantity (proposedRow_ok hnew).2.2.2.2.1
      rw [h.hasQuantity_iff hopen]
      exact ⟨fun h => absurd h.2 hne, fun h => absurd h.2 hne⟩

theorem next_ok {result : PositionApplyResult} (h : applyEvent env call s.tables = .ok (result, t')) :
    (machine env).next s call = ⟨call.event.eventId :: s.applied, t'⟩ := by
  simp only [Machine.next, machine, h]

theorem next_error {failure : Failure} (h : applyEvent env call s.tables = .error failure) :
    (machine env).next s call = s := by
  simp only [Machine.next, machine, h]

/-- **One step**: an old event is without effect exactly when it finds itself. -/
theorem ignoresOld_step (env : Env) (s : History) (call : Call) :
    IgnoresOld env s call ↔ FindsItself env s call := by
  unfold IgnoresOld FindsItself
  cases h : applyEvent env call s.tables with
  | error failure =>
    rw [next_error h]
    constructor
    · intro _ hok
      simp [Except.isOk, Except.toBool] at hok
    · intro _ event row _ hrow _
      exact ⟨row, hrow, rfl, rfl, rfl⟩
  | ok answer =>
    obtain ⟨event, new, happlied⟩ := applyEvent_ok h
    rw [next_ok h]
    constructor
    · intro hignores _ event' row hevent hrow hold
      obtain rfl := Except.ok.inj (happlied.normalized.symm.trans hevent)
      obtain ⟨after, hafter, hsame⟩ := hignores event row happlied.normalized hrow hold
      obtain rfl := Option.some.inj ((happlied.find? hrow).symm.trans hafter)
      exact (happlied.same_iff hrow).mp hsame
    · intro hfinds event' row hevent hrow hold
      obtain rfl := Except.ok.inj (happlied.normalized.symm.trans hevent)
      have hrepeats := hfinds rfl event row happlied.normalized hrow hold
      exact ⟨mergeRow row new, happlied.find? hrow, (happlied.same_iff hrow).mpr hrepeats⟩

end

/-- **Stale and repeated events over a run.** From any tables, every event that
comes again or late leaves the side, the quantity and the status of its position
as they are, if and only if each such event finds them in its row. -/
theorem ignoresOld_iff (env : Env) (t : Tables) (calls : List Call) :
    (machine env).Meets (IgnoresOld env) ⟨[], t⟩ calls ↔ (machine env).Meets (FindsItself env) ⟨[], t⟩ calls :=
  Machine.meets_congr (ignoresOld_step env)

/-- Noon and some seconds. -/
def noon (second : Fin 60) : DateTime :=
  ⟨2026, 6, 21, 12, 0, second, 0, ⟨by decide, by decide, by decide, by decide, by decide, by decide, by decide,
    by decide, second.isLt, by decide⟩⟩

/-- A position of one contract is opened and closed. -/
def openAndClose : List Call :=
  [callOf "e1" "PositionOpened" 1 "1", callOf "e2" "PositionClosed" 2 "0"]
where
  callOf (eventId eventType : String) (second : Fin 60) (quantity : String) : Call := {
    event := {
      eventId, accountId := "acct", instrumentId := some "BTCUSDT-PERP.BINANCE", eventType
      tsEvent := .datetime (noon second) none, payload := some (Dict.empty.set "quantity" (.str quantity)) }
    now := noon 59 }

/-- The state of the position after a run. -/
def stateAfter (calls : List Call) : Option (PositionStatus × Numeric) :=
  (((machine Env.plain).after ⟨[], Tables.empty⟩ calls).tables.positions.find? ⟨"acct", "acct:BTCUSDT"⟩).map
    fun row => (row.status, row.quantity.value)

/-- The first event comes again, and the closed position is open. -/
theorem closed_is_reopened :
    stateAfter openAndClose = some (.closed, .zero) ∧
      ¬ (machine Env.plain).Meets (IgnoresOld Env.plain) ⟨[], Tables.empty⟩
        (openAndClose ++ [openAndClose.callOf "e1" "PositionOpened" 1 "1"]) := by
  have hclosed : stateAfter openAndClose = some (.closed, .zero) := by decide +kernel
  have hopen : (stateAfter (openAndClose ++ [openAndClose.callOf "e1" "PositionOpened" 1 "1"])).map Prod.fst =
      some .opened := by decide +kernel
  refine ⟨hclosed, fun hmeets => ?_⟩
  obtain ⟨hlast, -⟩ := (Machine.meets_append.mp hmeets).2
  obtain ⟨row, hrow, hstatus⟩ := Option.map_eq_some_iff.mp hclosed
  obtain ⟨event, hevent, hkey, hid⟩ : ∃ event, normalizeEvent Env.plain (noon 59)
      (openAndClose.callOf "e1" "PositionOpened" 1 "1").event = .ok event ∧
      event.key = ⟨"acct", "acct:BTCUSDT"⟩ ∧ event.event.eventId = "e1" := by
    have hread : (normalizeEvent Env.plain (noon 59) (openAndClose.callOf "e1" "PositionOpened" 1 "1").event).toOption.map
        (fun event => (event.key, event.event.eventId)) = some (⟨"acct", "acct:BTCUSDT"⟩, "e1") := by decide +kernel
    obtain ⟨event, hevent, hread⟩ := Option.map_eq_some_iff.mp hread
    exact ⟨event, toOption_some hevent, (Prod.mk.inj hread).1, (Prod.mk.inj hread).2⟩
  have hold : Old ((machine Env.plain).after ⟨[], Tables.empty⟩ openAndClose) event row := by
    refine .inl ?_
    rw [hid]
    decide +kernel
  obtain ⟨new, hnew, hsame⟩ := hlast event row hevent (by rw [hkey]; exact hrow) hold
  rw [hkey] at hnew
  rw [stateAfter, Machine.after_append, Machine.after_cons, Machine.after_nil, hnew] at hopen
  have hreopened : new.status = .opened := by simpa using hopen
  have hstay := hsame.status
  rw [hreopened, (Prod.mk.inj hstatus).1] at hstay
  cases hstay

end TraderBot.PositionProjection
