import TraderBot.Lib.Floats
import TraderBot.PositionProjection.Replay

/-! # Exposure caps

The gateway loads the positions of an account whose status is `open`, and the
governor compares their notional with the caps. The reducer also gives other
statuses to positions that are there: `external` to one marked so, `reducing` to
one that got smaller. While no event does that, and the numbers of the events are
such that a float can hold, everything that is there is loaded
(`approved_within_caps`). -/
namespace TraderBot.Risk
open TraderBot.Lib TraderBot.Lib.Text
open TraderBot.Orders (Env Side venueSymbol)
open TraderBot.PositionProjection

/-! ## Loading -/

section
variable (fl : Floats)

/-- `float(n or 0)` of a numeric column. -/
def floatOrZero (n : Option Numeric) : Option fl.Num :=
  match n.filter Numeric.truthy with
  | some n => fl.ofDecimal n.toDecimal
  | none => some fl.zero

/-- The notional of a row: its quantity at its entry price. -/
def notionalOf (row : PositionRow) : Option fl.Num :=
  fl.times (floatOrZero fl (some row.quantity.value)) (floatOrZero fl row.avgEntryPrice)

/-- A position as the gateway loads it. -/
structure LoadedPosition where
  accountId : String
  positionId : String
  instrumentId : String
  side : Side
  quantity : Option fl.Num
  notional : Option fl.Num

def loadedPosition (row : PositionRow) : LoadedPosition fl where
  accountId := row.key.accountId
  positionId := row.key.positionId
  instrumentId := row.instrumentId
  side := row.side
  quantity := floatOrZero fl (some row.quantity.value)
  notional := notionalOf fl row

/-- `_load_positions`. -/
def loadPositions (t : Tables) (accountId : String) : List (LoadedPosition fl) :=
  (t.positions.rows.filter fun row => row.key.accountId = accountId ∧ row.status = .opened).map (loadedPosition fl)

/-! ## The exposure step -/

structure RiskPolicy where
  maxInstrumentNotional : fl.Num
  maxTotalRiskFraction : fl.Num
  maxCorrelatedNotional : fl.Num
  correlatedGroups : List (String × List String)

variable {fl}

def RiskPolicy.correlatedGroupFor (policy : RiskPolicy fl) (instrument : String) : Option (String × List String) :=
  policy.correlatedGroups.find? fun group => group.2.contains instrument

def instrumentsMatch (unicode : Unicode) (a b : String) : Bool :=
  venueSymbol unicode a ≠ "" ∧ venueSymbol unicode a = venueSymbol unicode b

/-- `_instrument_in_group`. -/
def instrumentInGroup (unicode : Unicode) (members : List String) (instrument : String) : Bool :=
  members.any fun member => instrumentsMatch unicode member instrument

/-- What the exposure step reads of a decision that opens: the account, the
instrument, the notional it proposes and its risk beside the open risk. -/
structure Opening (fl : Floats) where
  accountId : String
  instrument : String
  proposedNotional : Decimal
  existingRisk : Option fl.Num
  riskFraction : Option fl.Num

/-- A check that failed, with what it says. -/
structure Rejection where
  name : String
  detail : String
  deriving DecidableEq, Repr

/-- The notional of the positions on some instruments. -/
def existingNotional (positions : List (LoadedPosition fl)) (accountId : String) (on : String → Bool) :
    Option fl.Num :=
  fl.total ((positions.filter fun p => p.accountId = accountId ∧ on p.instrumentId).map LoadedPosition.notional)

/-- The exposure step of `evaluate`; `none` is a pass. -/
def exposureStep (unicode : Unicode) (policy : RiskPolicy fl) (o : Opening fl)
    (positions : List (LoadedPosition fl)) : Option Rejection :=
  let proposed := fl.ofDecimal o.proposedNotional
  let existing := existingNotional positions o.accountId (instrumentsMatch unicode o.instrument)
  if fl.gt (fl.plus existing proposed) policy.maxInstrumentNotional then
    some ⟨"instrument_exposure", "instrument notional cap reached"⟩
  else if fl.gt (fl.plus o.existingRisk o.riskFraction) policy.maxTotalRiskFraction then
    some ⟨"total_risk", "total open risk fraction cap reached"⟩
  else
    match policy.correlatedGroupFor o.instrument with
    | none => none
    | some (name, members) =>
      let existing := existingNotional positions o.accountId (instrumentInGroup unicode members)
      if fl.gt (fl.plus existing proposed) policy.maxCorrelatedNotional then
        some ⟨"correlated_exposure", "group " ++ name ++ " notional cap"⟩
      else none

/-! ## What is there -/

/-- The notional of all rows of an account with a quantity, on some instruments. -/
def liveNotional (fl : Floats) (t : Tables) (accountId : String) (on : String → Bool) : Option fl.Num :=
  fl.total ((t.positions.rows.filter fun row =>
    row.key.accountId = accountId ∧ row.quantity.value.rank ≠ 0 ∧ on row.instrumentId).map (notionalOf fl))

/-- What is there and what is proposed come to a number that is at most the cap. -/
def AtMost (existing proposed : Option fl.Num) (cap : fl.Num) : Prop :=
  ∃ projected, fl.plus existing proposed = some projected ∧ projected ≤ cap

/-- Both caps, over what is there. -/
structure WithinCaps (unicode : Unicode) (policy : RiskPolicy fl) (o : Opening fl) (t : Tables) : Prop where
  instrument : AtMost (liveNotional fl t o.accountId (instrumentsMatch unicode o.instrument))
    (fl.ofDecimal o.proposedNotional) policy.maxInstrumentNotional
  correlated : ∀ name members, policy.correlatedGroupFor o.instrument = some (name, members) →
    AtMost (liveNotional fl t o.accountId (instrumentInGroup unicode members))
      (fl.ofDecimal o.proposedNotional) policy.maxCorrelatedNotional

/-! ## Runs in which what is there is open -/

variable (fl)

/-- A float holds the number, which is not negative. -/
def Holds (n : Numeric) : Prop :=
  n.truthy = true → ∃ x, fl.ofDecimal n.toDecimal = some x ∧ fl.zero ≤ x ∧ x < fl.posInf

/-- The event closes its position. -/
def Closes (env : Env) (event : Normalized) : Prop :=
  isExternal env event.payload = false ∧ event.event.eventType = "PositionClosed"

/-- The event closes its position, or leaves it open or without a quantity: one
with a quantity is not marked external and does not reduce what is there. Floats
hold the numbers that are written. -/
def LeavesOpen (env : Env) (s : History) (call : Call) : Prop :=
  ∀ event, normalizeEvent env call.now call.event = .ok event →
    (∀ price, numberColumn env.unicode event.payload "avg_entry_price" = .ok (some price) → Holds fl price) ∧
      (¬ Closes env event → ∀ quantity amount, eventQuantity env.unicode event.payload = .ok quantity →
        quantityColumn quantity = .ok amount → Holds fl amount.value ∧
          (amount.value.rank ≠ 0 → isExternal env event.payload = false ∧
            ¬ (event.event.eventType = "PositionChanged" ∧ Reduces env.unicode event.payload
              ((s.tables.positions.find? event.key).map fun row => row.quantity.value.toDecimal))))

/-- A row with a quantity is open, and floats hold its numbers. -/
structure RowCounts (row : PositionRow) : Prop where
  status : row.quantity.value.rank ≠ 0 → row.status = .opened
  quantity : Holds fl row.quantity.value
  price : ∀ price, row.avgEntryPrice = some price → Holds fl price

def Counts (s : History) : Prop := ∀ row ∈ s.tables.positions.rows, RowCounts fl row

end

section
variable {fl : Floats} {env : Env} {s : History} {call : Call}

theorem truthy_iff (n : Numeric) : n.truthy = true ↔ n.rank ≠ 0 := by
  unfold Numeric.truthy
  rcases Numeric.toDecimal_cases n with ⟨hrank, hnan⟩ | ⟨d, hd, hrank⟩
  · rw [hnan, hrank]
    simp [Decimal.truthy]
  · rw [hd, hrank]
    have hzero : d.value = 0 ↔ d.coeff = 0 := by
      rw [← abs_eq_zero, FiniteDecimal.abs_value, mul_eq_zero, Nat.cast_eq_zero]
      exact or_iff_left (ten_zpow_pos _).ne'
    simp [Decimal.truthy, ← hzero]

theorem holds_of_rank_zero {n : Numeric} (h : n.rank = 0) : Holds fl n :=
  fun htruthy => absurd h ((truthy_iff n).mp htruthy)

variable {new : PositionRow} {proposed : Option fl.Num} {cap : fl.Num}

/-- The row a call proposes counts where the event leaves it open. -/
theorem new_counts {t' : Tables} {event : Normalized} (h : Applied env call s.tables t' event new)
    (hleaves : LeavesOpen fl env s call) : RowCounts fl new := by
  obtain ⟨hprices, hopen⟩ := hleaves event h.normalized
  obtain ⟨quantity, hquantity, hnew⟩ := h.proposed
  obtain ⟨-, -, -, -, hcolumn, -, hprice, -⟩ := proposedRow_ok hnew
  have hnewPrice : ∀ price, new.avgEntryPrice = some price → Holds fl price := by
    intro price hsome
    rw [hsome] at hprice
    exact hprices price hprice
  rcases targetOf_ok h.target with ⟨hexternal, hs⟩ | ⟨hexternal, htype, hs⟩ | ⟨hexternal, htype, hs⟩
  · have hcloses : ¬ Closes env event := fun hc => absurd hc.1 (by simp [hexternal])
    rw [if_neg (by rw [hs]; decide)] at hcolumn
    obtain ⟨hholds, hlive⟩ := hopen hcloses quantity new.quantity hquantity hcolumn
    refine ⟨fun hrank => ?_, hholds, hnewPrice⟩
    exact absurd (hlive hrank).1 (by simp [hexternal])
  · have hzero := h.closed_rank hs
    exact ⟨fun hrank => absurd hzero hrank, holds_of_rank_zero hzero, hnewPrice⟩
  · have hcloses : ¬ Closes env event := fun hc => htype hc.2
    have hstatus : new.status ≠ .closed := by
      rcases hs with hs | ⟨hs, -⟩ <;> rw [hs] <;> decide
    rw [if_neg hstatus] at hcolumn
    obtain ⟨hholds, hlive⟩ := hopen hcloses quantity new.quantity hquantity hcolumn
    refine ⟨fun hrank => ?_, hholds, hnewPrice⟩
    rcases hs with hs | ⟨-, hchanged, hreduces⟩
    · exact hs
    · exact absurd ⟨hchanged, hreduces⟩ (hlive hrank).2

/-- The row that is written counts, whatever was there. -/
theorem upserted_counts {old : Option PositionRow} (hnew : RowCounts fl new)
    (hold : ∀ row, old = some row → RowCounts fl row) : RowCounts fl (upsertedRow old new) := by
  cases old with
  | none => exact hnew
  | some row =>
    refine ⟨hnew.status, hnew.quantity, ?_⟩
    intro price hprice
    change new.avgEntryPrice.or row.avgEntryPrice = some price at hprice
    cases hgiven : new.avgEntryPrice with
    | none =>
      rw [hgiven, Option.none_or] at hprice
      exact (hold row rfl).price price hprice
    | some given =>
      rw [hgiven, Option.some_or] at hprice
      exact hnew.price price (hgiven.trans hprice)

/-- **One step** keeps every row with a quantity open. -/
theorem counts_next (hcounts : Counts fl s) (hleaves : LeavesOpen fl env s call) :
    Counts fl ((machine env).next s call) := by
  cases h : applyEvent env call s.tables with
  | error failure =>
    rw [next_error h]
    exact hcounts
  | ok answer =>
    obtain ⟨event, new, happlied⟩ := applyEvent_ok h
    rw [next_ok h]
    intro row hrow
    change row ∈ answer.2.positions.rows at hrow
    rw [happlied.positions] at hrow
    rcases Table.mem_put hrow with hrow | rfl
    · exact hcounts row hrow
    · refine upserted_counts (new_counts happlied hleaves) fun old hold => ?_
      exact hcounts old (List.mem_of_find?_eq_some hold)

/-! ## What is loaded is what is there -/

/-- The notional of a row that counts is a number, zero without a quantity. -/
theorem notionalOf_counts {row : PositionRow} (h : RowCounts fl row) :
    ∃ x, notionalOf fl row = some x ∧ fl.zero ≤ x ∧ (row.quantity.value.rank = 0 → x = fl.zero) := by
  have hfloat : ∀ n : Option Numeric, (∀ m, n = some m → Holds fl m) →
      ∃ x, floatOrZero fl n = some x ∧ fl.zero ≤ x ∧ x < fl.posInf := by
    intro n hn
    unfold floatOrZero
    cases hfilter : n.filter Numeric.truthy with
    | none => exact ⟨_, rfl, le_rfl, fl.zero_lt_posInf⟩
    | some m =>
      obtain ⟨hm, htruthy⟩ := Option.filter_eq_some_iff.mp hfilter
      exact hn m hm htruthy
  obtain ⟨price, hprice, hprice0, hprice1⟩ := hfloat row.avgEntryPrice h.price
  obtain ⟨quantity, hquantity, hquantity0, hquantity1⟩ :=
    hfloat (some row.quantity.value) fun m hm => by cases hm; exact h.quantity
  obtain ⟨x, hx, hx0⟩ := fl.mul_nonneg hquantity0 hquantity1 hprice0 hprice1
  have hnotional : notionalOf fl row = fl.mul quantity price := by
    rw [notionalOf, hquantity, hprice]
    rfl
  refine ⟨x, by rw [hnotional, hx], hx0, fun hrank => ?_⟩
  have hfalsy : row.quantity.value.truthy = false := by
    rw [Bool.eq_false_iff]
    exact fun htruthy => (truthy_iff _).mp htruthy hrank
  have hzero : floatOrZero fl (some row.quantity.value) = some fl.zero := by
    simp [floatOrZero, Option.filter, hfalsy]
  rw [hzero] at hquantity
  cases hquantity
  rw [fl.zero_mul hprice0 hprice1] at hx
  exact (Option.some.inj hx).symm

theorem existingNotional_load (t : Tables) (accountId : String) (on : String → Bool) :
    existingNotional (loadPositions fl t accountId) accountId on =
      fl.total ((t.positions.rows.filter fun row =>
        row.key.accountId = accountId ∧ row.status = .opened ∧ on row.instrumentId).map (notionalOf fl)) := by
  unfold existingNotional loadPositions
  rw [List.filter_map, List.map_map, List.filter_filter]
  refine congrArg fl.total (congrArg₂ _ rfl (List.filter_congr fun row _ => ?_))
  by_cases haccount : row.key.accountId = accountId
  · simp [loadedPosition, haccount, Bool.and_comm]
  · simp [loadedPosition, haccount]

/-- **What is loaded is what is there**, and it is a number. -/
theorem existing_eq_live (hcounts : Counts fl s) (accountId : String) (on : String → Bool) :
    ∃ x, existingNotional (loadPositions fl s.tables accountId) accountId on = some x ∧
      liveNotional fl s.tables accountId on = some x ∧ fl.negInf < x := by
  -- each row has its notional as a number
  let worth (row : PositionRow) : fl.Num := (notionalOf fl row).getD fl.zero
  have hworth : ∀ row ∈ s.tables.positions.rows, notionalOf fl row = some (worth row) ∧ fl.zero ≤ worth row ∧
      (row.quantity.value.rank = 0 → worth row = fl.zero) := by
    intro row hrow
    obtain ⟨x, hx, hx0, hrank⟩ := notionalOf_counts (hcounts row hrow)
    have hval : worth row = x := by simp [worth, hx]
    rw [hval]
    exact ⟨hx, hx0, hrank⟩
  have htotal : ∀ p : PositionRow → Bool, fl.total ((s.tables.positions.rows.filter p).map (notionalOf fl)) =
      fl.sum ((s.tables.positions.rows.filter p).map worth) := by
    intro p
    rw [← Floats.total_some, List.map_map]
    refine congrArg fl.total (List.map_congr_left fun row hrow => ?_)
    exact (hworth row (List.mem_of_mem_filter hrow)).1
  obtain ⟨x, hx, hx0⟩ := @Floats.sum_number fl ((s.tables.positions.rows.filter fun row =>
      row.key.accountId = accountId ∧ row.quantity.value.rank ≠ 0 ∧ on row.instrumentId).map worth) (by
    intro y hy
    obtain ⟨row, hrow, rfl⟩ := List.mem_map.mp hy
    exact (hworth row (List.mem_of_mem_filter hrow)).2.1)
  refine ⟨x, ?_, by rw [liveNotional, htotal, hx], hx0⟩
  rw [existingNotional_load, htotal, ← hx]
  refine Floats.sum_filter_congr fun row hrow hne => ?_
  have hlive : row.quantity.value.rank ≠ 0 := fun hrank => hne ((hworth row hrow).2.2 hrank)
  simp [hlive, (hcounts row hrow).status hlive]

/-- A cap that is not passed by what is loaded holds over what is there. -/
theorem atMost_of_passed (hcounts : Counts fl s) {accountId : String} {on : String → Bool}
    (hproposed : ∃ p, proposed = some p ∧ fl.negInf < p)
    (h : fl.gt (fl.plus (existingNotional (loadPositions fl s.tables accountId) accountId on) proposed) cap = false) :
    AtMost (liveNotional fl s.tables accountId on) proposed cap := by
  obtain ⟨x, hloaded, hlive, hx⟩ := existing_eq_live hcounts accountId on
  obtain ⟨p, rfl, hp⟩ := hproposed
  obtain ⟨projected, hprojected⟩ := fl.add_number hx hp
  have hplus : fl.plus (some x) (some p) = some projected := hprojected
  rw [hloaded, hplus] at h
  exact ⟨projected, by rw [hlive, hplus], Floats.le_of_not_gt h⟩

theorem not_atMost {existing : Option fl.Num} (h : fl.gt (fl.plus existing proposed) cap = true) :
    ¬ AtMost existing proposed cap := by
  rintro ⟨projected, hprojected, hle⟩
  rw [hprojected] at h
  exact absurd (of_decide_eq_true h) (not_lt.mpr hle)

end

/-- **Exposure caps over what is there.** After every run whose events each close
their position, or leave it open or without a quantity, with numbers that floats
hold: an opening that passes the exposure step, and proposes a number, keeps both
caps over all rows of the account that have a quantity. -/
theorem approved_within_caps (fl : Floats) (env : Env) (calls : List Call)
    (hrun : (machine env).Meets (LeavesOpen fl env) ⟨[], Tables.empty⟩ calls) (policy : RiskPolicy fl) (o : Opening fl)
    (hproposed : ∃ p, fl.ofDecimal o.proposedNotional = some p ∧ fl.negInf < p)
    (happroved : exposureStep env.unicode policy o (loadPositions fl
      ((machine env).after ⟨[], Tables.empty⟩ calls).tables o.accountId) = none) :
    WithinCaps env.unicode policy o ((machine env).after ⟨[], Tables.empty⟩ calls).tables := by
  have hcounts : Counts fl ((machine env).after ⟨[], Tables.empty⟩ calls) := by
    refine Machine.invariant_of_meets (fun s call hs hcall => counts_next hs hcall) ?_ hrun
    intro row hrow
    cases hrow
  unfold exposureStep at happroved
  dsimp only at happroved
  split_ifs at happroved with hinstrument hrisk
  refine ⟨atMost_of_passed hcounts hproposed (Bool.eq_false_iff.mpr hinstrument), ?_⟩
  intro name members hgroup
  rw [hgroup] at happroved
  dsimp only at happroved
  split_ifs at happroved with hcorrelated
  exact atMost_of_passed hcounts hproposed (Bool.eq_false_iff.mpr hcorrelated)

local instance seconds : NeZero 60 := ⟨by decide⟩

/-- A position event of an account at a price. -/
def positionCall (eventId eventType quantity : String) : Call where
  event := {
    eventId, accountId := "acct", instrumentId := some "BTCUSDT-PERP.BINANCE", eventType
    tsEvent := .datetime (noon 1) none
    payload := some ((Dict.empty.set "quantity" (.str quantity)).set "avg_entry_price" (.str "50000")) }
  now := noon 59

/-- The caps of the default policy. -/
def defaultPolicy : RiskPolicy exactFloats where
  maxInstrumentNotional := (100000 : ℚ)
  maxTotalRiskFraction := (1 / 10 : ℚ)
  maxCorrelatedNotional := (150000 : ℚ)
  correlatedGroups := [("majors", ["BTCUSDT", "ETHUSDT"])]

/-- An opening on the same instrument. -/
def openingOf (proposed : FiniteDecimal) : Opening exactFloats where
  accountId := "acct"
  instrument := "BTCUSDT"
  proposedNotional := .finite proposed
  existingRisk := some (0 : ℚ)
  riskFraction := some (3 / 200 : ℚ)

theorem holds_exact {n : Numeric} {q : ℚ} (h : n.rank = (q : WithTop ℚ)) (hq : 0 ≤ q) (hlt : q < 2 ^ 1024) :
    Holds exactFloats n := by
  intro _
  rcases Numeric.toDecimal_cases n with ⟨htop, -⟩ | ⟨d, hd, hrank⟩
  · rw [h] at htop
    cases htop
  · rw [h] at hrank
    cases hrank
    exact ⟨d.value, by rw [hd]; rfl, hq, hlt⟩

/-- An event that opens a position leaves it open. -/
theorem opened_leavesOpen (s : History) :
    LeavesOpen exactFloats Env.plain s (positionCall "e1" "PositionOpened" "1") := by
  intro event hevent
  have hread : (normalizeEvent Env.plain (noon 59) (positionCall "e1" "PositionOpened" "1").event).toOption.map
      (fun event => (event.event.eventType, isExternal Env.plain event.payload,
        (numberColumn Env.plain.unicode event.payload "avg_entry_price").toOption,
        ((eventQuantity Env.plain.unicode event.payload).bind quantityColumn).toOption.map Amount.value)) =
      some ("PositionOpened", false, some (some (.number 50000 0 (by decide))), some (.number 1 0 (by decide))) := by
    decide +kernel
  change normalizeEvent Env.plain (noon 59) _ = _ at hevent
  rw [hevent] at hread
  simp only [Except.toOption, Option.map_some, Option.some.injEq, Prod.mk.injEq] at hread
  obtain ⟨htype, hexternal, hprice, hquantity⟩ := hread
  refine ⟨fun price hcolumn => ?_, fun _ quantity amount hbrought hamount => ⟨?_, fun _ => ⟨hexternal, ?_⟩⟩⟩
  · rw [hcolumn] at hprice
    obtain rfl := Option.some.inj (Option.some.inj hprice)
    exact holds_exact (q := 50000) (by simp [Numeric.rank]) (by norm_num) (by decide +kernel)
  · rw [hbrought] at hquantity
    change (quantityColumn quantity).toOption.map _ = _ at hquantity
    rw [hamount] at hquantity
    rw [Option.some.inj hquantity]
    exact holds_exact (q := 1) (by simp [Numeric.rank]) (by norm_num) (by decide +kernel)
  · rintro ⟨hchanged, -⟩
    rw [htype] at hchanged
    exact absurd hchanged (by decide)

/-- One contract at 50000 is open, and 40000 more are within the caps. -/
theorem approved_within_caps_opened :
    WithinCaps Env.plain.unicode defaultPolicy (openingOf ⟨false, 40000, 0, by decide⟩)
      ((machine Env.plain).after ⟨[], Tables.empty⟩ [positionCall "e1" "PositionOpened" "1"]).tables :=
  approved_within_caps exactFloats Env.plain [positionCall "e1" "PositionOpened" "1"]
    ⟨opened_leavesOpen _, trivial⟩ defaultPolicy (openingOf ⟨false, 40000, 0, by decide⟩)
    ⟨_, rfl, show (-2 ^ 1024 : ℚ) < FiniteDecimal.value _ by decide +kernel⟩ (by decide +kernel)

/-- A position that got smaller is not loaded: the opening passes, and with what
is there it comes to more than the cap. -/
theorem reducing_not_counted :
    exposureStep Env.plain.unicode defaultPolicy (openingOf ⟨false, 60000, 0, by decide⟩) (loadPositions exactFloats
        ((machine Env.plain).after ⟨[], Tables.empty⟩ [positionCall "e1" "PositionOpened" "2",
          positionCall "e2" "PositionChanged" "1"]).tables "acct") = none ∧
      ¬ WithinCaps Env.plain.unicode defaultPolicy (openingOf ⟨false, 60000, 0, by decide⟩)
        ((machine Env.plain).after ⟨[], Tables.empty⟩ [positionCall "e1" "PositionOpened" "2",
          positionCall "e2" "PositionChanged" "1"]).tables := by
  refine ⟨by decide +kernel, fun hwithin => not_atMost ?_ hwithin.instrument⟩
  decide +kernel

end TraderBot.Risk
