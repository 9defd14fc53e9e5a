import TraderBot.Lib.Returns
import TraderBot.Planner.Intents
import TraderBot.Venue.Evidence

/-! # What a planned entry has passed

Every intent that is planned was admitted (`Admitted`); an entry is planned on a
book that was assessed flat or open from a fresh snapshot, or in a simulation that
has no assessment (`entry_guarded`). An assessment that raises is none, so that a
simulation plans without it even where it has a reconciled state
(`entry_unassessed`). -/
namespace TraderBot.Planner
open TraderBot.Lib TraderBot.Lib.Text TraderBot.Lib.Json
open TraderBot.Venue (Interpreter PositionSnapshot PositionState PositionAssessment BookKey Evidence
  ReconciledExecutionState)
open TraderBot.Lib.Decimal (InContext Fits limit etiny emax)

section
variable (py : Interpreter) (intent : Intent) (context : PlannerContext py)

/-- The guards every intent passes. -/
structure Admitted (action : Action) : Prop where
  named : Action.ofText? intent.action = some action
  authorized : ∃ authorization, authorizationSource py intent = .ok authorization
  permitted : haltedActionAllowed action (py.unicode.upper (py.unicode.upper context.tradingState)) = true
  unseen : intent.intentId.str ∉ context.existingIntentIds
  account : intent.accountId = context.accountId
  instrument : ∃ instrument, context.instrument = some instrument ∧ instrument.instrumentId = intent.instrumentId
  valid : DateTime.instant context.now < DateTime.instant intent.validUntil

/-- A cached position on a side, with a quantity that is not zero. -/
def Held (side : OrderSide) (position : PositionSnapshot) : Prop :=
  position ∈ context.cached ∧ py.unicode.upper position.side = side.book ∧
    ∃ quantity, Decimal.ofText py.unicode position.quantity.toList = some quantity ∧ isZero? quantity = some false

/-- The intent's book, assessed flat or open from a fresh snapshot. -/
def Assessed (side : OrderSide) (a : PositionAssessment) : Prop :=
  (a.state = .knownFlat ∨ a.state = .knownOpen) ∧
    ∃ r, context.reconciledState = some r ∧ r.evidence.Fresh ∧
      r.state.assess py ⟨context.accountId, intent.instrumentId, side.book⟩ = some a

/-- A simulation without an assessment of the book: it has no reconciled state, or
the assessment raised. -/
def Unassessed (side : OrderSide) : Prop :=
  context.simulation = true ∧
    (context.reconciledState = none ∨ ∃ r, context.reconciledState = some r ∧
      r.state.assess py ⟨context.accountId, intent.instrumentId, side.book⟩ = none)

end

section
variable {A : Arithmetic} {py : Interpreter} {intent : Intent} {context : PlannerContext py}

theorem raising_ok {α : Type} {x : Option α} {a : α} (h : raising x = .ok a) : x = some a := by
  cases x with
  | none => cases h
  | some b => cases h; rfl

/-! ## Every intent -/

variable {instrument : InstrumentSpec} {p : String → Bool} {l : List PositionSnapshot}
  {position : PositionSnapshot} {side : OrderSide}

theorem instrumentFor_ok (h : instrumentFor py intent context = .ok instrument) :
    context.instrument = some instrument ∧ instrument.instrumentId = intent.instrumentId := by
  unfold instrumentFor at h
  cases hinstrument : context.instrument with
  | none => rw [hinstrument] at h; cases h
  | some found =>
    rw [hinstrument] at h
    dsimp only at h
    by_cases hid : found.instrumentId = intent.instrumentId
    · rw [if_pos hid] at h
      cases h
      exact ⟨rfl, hid⟩
    · rw [if_neg hid] at h
      cases h

/-- What planned an admitted intent. -/
inductive PlannedBy (A : Arithmetic) (py : Interpreter) (intent : Intent) (context : PlannerContext py)
    (instrument : InstrumentSpec) : Action → Plan → Prop where
  | cancel {plan : ManagementPlan} (h : planCancelOrderIntent py intent context = .ok plan) :
      PlannedBy A py intent context instrument .cancelOrder (.management plan)
  | entry {action : Action} {order : OrderPlan} (hentry : action.isEntry = true)
      (h : planEntryIntent A py intent action context instrument = .ok order) :
      PlannedBy A py intent context instrument action (.entry order)
  | management {action : Action} {plan : ManagementPlan} (hcancel : action ≠ .cancelOrder)
      (hentry : action.isEntry = false)
      (h : planManagementIntent A py intent action context instrument = .ok plan) :
      PlannedBy A py intent context instrument action (.management plan)

/-- **Every plan is of an intent that was admitted.** -/
theorem plan_cases {plan : Plan} (h : planIntentExecution A py intent context = .ok plan) :
    ∃ action instrument, Admitted py intent context action ∧
      instrumentFor py intent context = .ok instrument ∧ PlannedBy A py intent context instrument action plan := by
  unfold planIntentExecution at h
  cases hnamed : Action.ofText? intent.action with
  | none => rw [hnamed] at h; cases h
  | some action =>
    rw [hnamed] at h
    obtain ⟨authorization, hauth, h⟩ := bind_ok h
    dsimp only at h
    by_cases hmode : haltedActionAllowed action (py.unicode.upper (py.unicode.upper context.tradingState)) = false
    · rw [if_pos hmode] at h; cases h
    rw [if_neg hmode] at h
    by_cases hseen : context.existingIntentIds.contains intent.intentId.str = true
    · rw [if_pos hseen] at h; cases h
    rw [if_neg hseen] at h
    by_cases haccount : intent.accountId ≠ context.accountId
    · rw [if_pos haccount] at h; cases h
    rw [if_neg haccount] at h
    obtain ⟨instrument, hinstrument, h⟩ := bind_ok h
    by_cases hexpired : DateTime.instant intent.validUntil ≤ DateTime.instant context.now
    · rw [if_pos hexpired] at h; cases h
    rw [if_neg hexpired] at h
    have hadmitted : Admitted py intent context action :=
      { named := hnamed, authorized := ⟨authorization, hauth⟩, permitted := by simpa using hmode
        unseen := by simpa using hseen, account := not_not.mp haccount
        instrument := ⟨instrument, instrumentFor_ok hinstrument⟩, valid := not_le.mp hexpired }
    refine ⟨action, instrument, hadmitted, hinstrument, ?_⟩
    by_cases hcancel : action = .cancelOrder
    · rw [if_pos hcancel] at h
      obtain ⟨plan, hplan, h⟩ := bind_ok h
      cases pure_ok h
      subst hcancel
      exact .cancel hplan
    rw [if_neg hcancel] at h
    by_cases hentry : action.isEntry = true
    · rw [if_pos hentry] at h
      obtain ⟨order, horder, h⟩ := bind_ok h
      cases pure_ok h
      exact .entry hentry horder
    · rw [if_neg hentry] at h
      obtain ⟨plan, hplan, h⟩ := bind_ok h
      cases pure_ok h
      exact .management hcancel (by simpa using hentry) hplan

/-! ## The cache -/

theorem findCached_some (h : findCached py p l = .ok (some position)) :
    position ∈ l ∧ p (py.unicode.upper position.side) = true ∧
      ∃ quantity, Decimal.ofText py.unicode position.quantity.toList = some quantity ∧
        isZero? quantity = some false := by
  induction l with
  | nil => cases h
  | cons x rest ih =>
    have hrest (h : findCached py p rest = .ok (some position)) := by
      obtain ⟨hmem, hfound⟩ := ih h
      exact And.intro (List.mem_cons_of_mem x hmem) hfound
    unfold findCached at h
    cases hread : Decimal.ofText py.unicode x.quantity.toList with
    | none =>
      rw [hread] at h
      exact hrest h
    | some quantity =>
      rw [hread] at h
      obtain ⟨zero, hzero, h⟩ := bind_ok h
      cases zero with
      | true => exact hrest h
      | false =>
        rw [if_neg Bool.false_ne_true] at h
        by_cases hside : p (py.unicode.upper x.side) = true
        · rw [if_pos hside] at h
          cases h
          exact ⟨List.mem_cons_self, hside, quantity, hread, raising_ok hzero⟩
        · rw [if_neg hside] at h
          exact hrest h

theorem findCached_none (h : findCached py p l = .ok none) :
    ∀ position ∈ l, p (py.unicode.upper position.side) = true →
      ∀ quantity, Decimal.ofText py.unicode position.quantity.toList = some quantity →
        isZero? quantity = some true := by
  induction l with
  | nil => exact fun _ hmem => absurd hmem List.not_mem_nil
  | cons x rest ih =>
    unfold findCached at h
    intro position hmem hside quantity hread
    rcases List.mem_cons.mp hmem with rfl | hmem
    · rw [hread] at h
      obtain ⟨zero, hzero, h⟩ := bind_ok h
      cases zero with
      | true => exact raising_ok hzero
      | false =>
        rw [if_neg Bool.false_ne_true, if_pos hside] at h
        cases h
    · refine ih ?_ position hmem hside quantity hread
      cases hx : Decimal.ofText py.unicode x.quantity.toList with
      | none =>
        rw [hx] at h
        exact h
      | some first =>
        rw [hx] at h
        obtain ⟨zero, hzero, h⟩ := bind_ok h
        cases zero with
        | true => exact h
        | false =>
          rw [if_neg Bool.false_ne_true] at h
          by_cases hother : p (py.unicode.upper x.side) = true
          · rw [if_pos hother] at h
            cases h
          · rw [if_neg hother] at h
            exact h

theorem held_of_findCached
    (h : findCached py (fun s => s = side.book) context.cached = .ok (some position)) :
    Held py context side position := by
  obtain ⟨hmem, hside, hquantity⟩ := findCached_some h
  exact ⟨hmem, by simpa using hside, hquantity⟩

theorem not_held_of_findCached
    (h : findCached py (fun s => s = side.book) context.cached = .ok none)
    (position : PositionSnapshot) : ¬ Held py context side position := by
  rintro ⟨hmem, hside, quantity, hread, hzero⟩
  rw [findCached_none h position hmem (by simpa using hside) quantity hread] at hzero
  cases hzero

/-! ## The book -/

/-- What passes the check of the venue's state. -/
theorem riskIncreaseState_ok {assessment : Option PositionAssessment}
    (h : riskIncreaseState py context assessment = .ok ()) :
    (assessment = none ∧ context.simulation = true) ∨
      ∃ a, assessment = some a ∧ (a.state = .knownFlat ∨ a.state = .knownOpen) := by
  unfold riskIncreaseState at h
  cases assessment with
  | none =>
    by_cases hsimulation : context.simulation = true
    · exact .inl ⟨rfl, hsimulation⟩
    · rw [if_neg hsimulation] at h
      cases h
  | some a =>
    refine .inr ⟨a, rfl, ?_⟩
    cases hstate : a.state with
    | knownFlat => exact .inl rfl
    | knownOpen => exact .inr rfl
    | unknown => simp [hstate] at h
    | conflicted => simp [hstate] at h

theorem assessed_of {a : PositionAssessment}
    (h : reconciledAssessment py context intent.instrumentId side.book = some a)
    (hstate : a.state = .knownFlat ∨ a.state = .knownOpen) : Assessed py intent context side a := by
  obtain ⟨r, hr, hassess⟩ := Option.bind_eq_some_iff.mp h
  refine ⟨hstate, r, hr, ?_, hassess⟩
  have hfresh : r.state.venueFresh = true := by
    rcases hstate with hflat | hopen
    · exact ((Venue.assess_cases hassess).1 hflat).1
    · exact ((Venue.assess_cases hassess).2 hopen).1
  have hbuilt := r.built
  unfold ReconciledExecutionState.build at hbuilt
  obtain ⟨venue, -, hbuilt⟩ := Option.bind_eq_some_iff.mp hbuilt
  obtain ⟨cache, -, hbuilt⟩ := Option.bind_eq_some_iff.mp hbuilt
  rw [← Option.some.inj hbuilt] at hfresh
  exact Venue.venueFreshness_iff.mp hfresh

theorem unassessed_of (h : reconciledAssessment py context intent.instrumentId side.book = none)
    (hsimulation : context.simulation = true) : Unassessed py intent context side := by
  refine ⟨hsimulation, ?_⟩
  cases hstate : context.reconciledState with
  | none => exact .inl rfl
  | some r =>
    refine .inr ⟨r, rfl, ?_⟩
    rw [reconciledAssessment, hstate] at h
    exact h

/-- Opening: no position in the cache, and the book is not open. -/
theorem opens_ok (h : validatePosition py false side context intent.instrumentId = .ok ()) :
    (Unassessed py intent context side ∨ ∃ a, Assessed py intent context side a) ∧
      (∀ position, ¬ Held py context side position) ∧
      ∀ a, reconciledAssessment py context intent.instrumentId side.book = some a → a.state ≠ .knownOpen := by
  unfold validatePosition at h
  obtain ⟨cached, hcached, h⟩ := bind_ok h
  obtain ⟨⟨⟩, hrisk, h⟩ := bind_ok h
  rw [if_neg Bool.false_ne_true] at h
  cases cached with
  | some position => cases h
  | none =>
    refine ⟨?_, not_held_of_findCached hcached, ?_⟩
    · rcases riskIncreaseState_ok hrisk with ⟨hnone, hsimulation⟩ | ⟨a, hsome, hstate⟩
      · exact .inl (unassessed_of hnone hsimulation)
      · exact .inr ⟨a, assessed_of hsome hstate⟩
    · intro a hsome hopen
      rw [hsome] at h
      dsimp only at h
      rw [if_pos hopen] at h
      cases h

/-- Adding: the book is open, or a simulation without an assessment has a position
in its cache. -/
theorem adds_ok (h : validatePosition py true side context intent.instrumentId = .ok ()) :
    (∃ a, Assessed py intent context side a ∧ a.state = .knownOpen) ∨
      (Unassessed py intent context side ∧ ∃ position, Held py context side position) := by
  unfold validatePosition at h
  obtain ⟨cached, hcached, h⟩ := bind_ok h
  obtain ⟨⟨⟩, hrisk, h⟩ := bind_ok h
  rw [if_pos rfl] at h
  rcases riskIncreaseState_ok hrisk with ⟨hnone, hsimulation⟩ | ⟨a, hsome, hstate⟩
  · refine .inr ⟨unassessed_of hnone hsimulation, ?_⟩
    cases cached with
    | some position => exact ⟨position, held_of_findCached hcached⟩
    | none =>
      rw [hnone] at h
      obtain ⟨opposite, -, h⟩ := bind_ok h
      cases opposite with
      | none => cases h
      | some position => cases h
  · rcases hstate with hflat | hopen
    · rw [hsome, Option.map_some, hflat] at h
      cases h
    · exact .inl ⟨a, assessed_of hsome (.inr hopen), hopen⟩

/-! ## Entries -/

theorem entry_side {action : Action} {order : OrderPlan}
    (h : planEntryIntent A py intent action context instrument = .ok order) :
    validatePosition py (action = .addPosition) order.side context intent.instrumentId = .ok () := by
  unfold planEntryIntent at h
  obtain ⟨plan, -, h⟩ := bind_ok h
  obtain ⟨side, -, h⟩ := bind_ok h
  obtain ⟨⟨⟩, hposition, h⟩ := bind_ok h
  obtain ⟨spec, -, h⟩ := bind_ok h
  obtain ⟨approved, -, h⟩ := bind_ok h
  obtain ⟨⟨⟩, -, h⟩ := bind_ok h
  obtain ⟨clientOrderId, -, h⟩ := bind_ok h
  obtain ⟨slippage, -, h⟩ := bind_ok h
  obtain ⟨guard, -, h⟩ := bind_ok h
  rw [← pure_ok h]
  exact hposition

/-- **An entry that is planned has passed its guards.** The intent was admitted;
its book was assessed flat or open from a fresh snapshot, or the context is a
simulation without an assessment; one that opens finds no position on its side in
the cache and no open book; one that adds finds an open book, or, in a simulation
without an assessment only, a position on its side in the cache. -/
theorem entry_guarded (A : Arithmetic) (py : Interpreter) (intent : Intent) (context : PlannerContext py)
    (order : OrderPlan) (h : planIntentExecution A py intent context = .ok (.entry order)) :
    ∃ action, action.isEntry = true ∧ Admitted py intent context action ∧
      (Unassessed py intent context order.side ∨ ∃ a, Assessed py intent context order.side a) ∧
      (action = .openPosition → (∀ position, ¬ Held py context order.side position) ∧
        ∀ a, reconciledAssessment py context intent.instrumentId order.side.book = some a → a.state ≠ .knownOpen) ∧
      (action = .addPosition → (∃ a, Assessed py intent context order.side a ∧ a.state = .knownOpen) ∨
        (Unassessed py intent context order.side ∧ ∃ position, Held py context order.side position)) := by
  obtain ⟨action, instrument, hadmitted, -, hplanned⟩ := plan_cases h
  cases hplanned with
  | entry hentry hplan =>
    have hposition := entry_side hplan
    refine ⟨action, hentry, hadmitted, ?_⟩
    by_cases hadds : action = .addPosition
    · rw [decide_eq_true hadds] at hposition
      have hbook := adds_ok hposition
      refine ⟨?_, fun hopens => absurd (hadds.symm.trans hopens) (by decide), fun _ => hbook⟩
      rcases hbook with ⟨a, hassessed, -⟩ | ⟨hunassessed, -⟩
      · exact .inr ⟨a, hassessed⟩
      · exact .inl hunassessed
    · rw [decide_eq_false hadds] at hposition
      obtain ⟨hbook, hcache, hnotopen⟩ := opens_ok hposition
      exact ⟨hbook, fun _ => ⟨hcache, hnotopen⟩, fun h => absurd h hadds⟩

end

/-! ## An addition in a simulation -/

def btc : InstrumentSpec := ⟨"BTCUSDT-PERP.BINANCE", "0.1", "0.001"⟩

def oneLong : PositionSnapshot := { instrumentId := btc.instrumentId, side := "LONG", quantity := "1" }

/-- Adds one at a hundred, on the word of a user. -/
def addition : Intent where
  intentId := ⟨7, by decide⟩
  action := "add_position"
  accountId := "account"
  instrumentId := btc.instrumentId
  decisionId := "decision"
  riskDecisionId := "risk"
  idempotencyKey := "key"
  validUntil := Venue.later
  orderPlan := some ⟨[("authorization", .obj [("authorized_by_id", .str "1"), ("authorized_by_type", .str "user"),
      ("source_message_id", .str "2")]), ("price", .str "100"), ("quantity", .str "1"), ("side", .str "buy"),
    ("type", .str "limit")], by decide⟩
  riskBudget := some ⟨[("max_notional", .str "1000")], by decide⟩

/-- A simulation with one long in its cache. -/
def simulated (state : Option (Reconciled Venue.ascii)) : PlannerContext Venue.ascii where
  accountId := "account"
  tradingState := "ACTIVE"
  now := Venue.noon
  instrument := some btc
  position := some oneLong
  reconciledState := state
  simulation := true

def Plan.order? : Plan → Option OrderPlan
  | .entry order => some order
  | .management _ => none

def Plan.management? : Plan → Option ManagementPlan
  | .entry _ => none
  | .management plan => some plan

theorem addition_planned : ∃ order, planIntentExecution defaultContext Venue.ascii addition (simulated none) =
    .ok (.entry order) ∧ order.side = .buy := by
  have hrun : ((planIntentExecution defaultContext Venue.ascii addition (simulated none)).toOption.bind
      Plan.order?).map OrderPlan.side = some .buy := by decide +kernel
  obtain ⟨order, hrun, hside⟩ := Option.map_eq_some_iff.mp hrun
  obtain ⟨plan, hplan, horder⟩ := Option.bind_eq_some_iff.mp hrun
  cases plan with
  | management _ => cases horder
  | entry found =>
    cases horder
    exact ⟨order, toOption_some hplan, hside⟩

/-- The entry of a simulation that has no reconciled state. -/
theorem entry_guarded_addition : ∃ order,
    planIntentExecution defaultContext Venue.ascii addition (simulated none) = .ok (.entry order) ∧
      ∃ action, action.isEntry = true ∧ Admitted Venue.ascii addition (simulated none) action := by
  obtain ⟨order, hplan, -⟩ := addition_planned
  obtain ⟨action, hentry, hadmitted, -⟩ := entry_guarded _ _ _ _ _ hplan
  exact ⟨order, hplan, action, hentry, hadmitted⟩

/-! ## An assessment that raises -/

theorem absolute_value {q r : FiniteDecimal} {e : Int} (he : InContext e) (hfits : Fits e |q.value|)
    (h : Venue.absolute q = some r) : |r.value| = |q.value| ∧ r.value = |q.value| ∧ etiny ≤ r.exponent := by
  rw [FiniteDecimal.abs_value] at hfits
  obtain ⟨d, hd, hsign, hvalue⟩ := Decimal.fix_exact false he hfits
  rw [Venue.absolute, hd] at h
  cases h
  rw [← FiniteDecimal.abs_value] at hvalue
  refine ⟨hvalue, ?_, Decimal.fix_exponent _ hd⟩
  rw [← hvalue, abs_of_nonneg (Decimal.fix_nonneg hd)]

/-- The smallest number against one: the quotient overflows. -/
theorem drift_raises {venue cache : FiniteDecimal} (hvenue : venue.value = 10 ^ etiny) (hcache : cache.value = 1) :
    Venue.driftExceedsTolerance venue cache = none := by
  have htiny : (10 : ℚ) ^ etiny ≤ 1 / 10 := by
    have htenth : (1 / 10 : ℚ) = 10 ^ (-1 : Int) := by norm_num
    rw [htenth]
    exact zpow_le_zpow_right₀ (by norm_num) (by decide)
  have hpos := ten_zpow_pos etiny
  rw [Option.eq_none_iff_forall_ne_some]
  intro answer h
  unfold Venue.driftExceedsTolerance at h
  obtain ⟨reference, hreference, h⟩ := Option.bind_eq_some_iff.mp h
  have hcontext : InContext etiny := ⟨le_rfl, by decide⟩
  obtain ⟨-, hrvalue, hrexp⟩ := absolute_value hcontext
    ⟨1, by decide, by rw [hvenue, abs_abs, abs_of_pos hpos, Nat.cast_one, one_mul]⟩ hreference
  rw [hvenue, abs_of_pos hpos] at hrvalue
  have hrcoeff : reference.coeff ≠ 0 := by
    intro hzero
    rw [Venue.value_eq_zero hzero] at hrvalue
    exact hpos.ne hrvalue
  rw [if_neg hrcoeff] at h
  obtain ⟨held, hheld, h⟩ := Option.bind_eq_some_iff.mp h
  obtain ⟨-, hhvalue, hhexp⟩ := absolute_value (e := 0) ⟨by decide, by decide⟩ ⟨1, by decide, by rw [hcache]; norm_num⟩
    hheld
  rw [hcache, abs_one] at hhvalue
  obtain ⟨difference, hdifference, h⟩ := Option.bind_eq_some_iff.mp h
  obtain ⟨size, hsize, h⟩ := Option.bind_eq_some_iff.mp h
  obtain ⟨drift, hdrift, -⟩ := Option.bind_eq_some_iff.mp h
  have hle := Decimal.half_le_sub hrexp hhexp hdifference
  rw [hrvalue, hhvalue, abs_sub_comm, abs_of_nonneg (by linarith)] at hle
  have hdexp : etiny ≤ difference.exponent := Decimal.fix_exponent _ hdifference
  have hle' := Decimal.half_le_fix false hdexp hsize
  rw [← FiniteDecimal.abs_value] at hle'
  have hscale : (10 : ℚ) ^ (emax + 1) * 10 ^ etiny ≤ 1 / 10 := by
    have htenth : (1 / 10 : ℚ) = 10 ^ (-1 : Int) := by norm_num
    rw [htenth, ← zpow_add₀ (by norm_num)]
    exact zpow_le_zpow_right₀ (by norm_num) (by decide)
  have hnone : Decimal.div size reference = none := by
    refine Decimal.div_none (by rw [hrvalue]; exact hpos) ?_
    rw [hrvalue, mul_assoc]
    linarith only [htiny, hle, hle', hscale]
  rw [hnone] at hdrift
  cases hdrift

/-- The smallest amount there is, long at the venue, with one long in the cache. -/
def smallest : Evidence where
  venueSnapshot := some (.obj [("positions", .arr [Venue.amountRow "1E-1000026"])])
  venueFetchedAt := some Venue.noon
  cachePositions := [oneLong]
  now := Venue.noon

def smallestAmount : FiniteDecimal := ⟨false, 1, -1000026, by decide⟩

def one : FiniteDecimal := ⟨false, 1, 0, .one⟩

theorem smallest_readings :
    smallest.venueReadings Venue.ascii = [(Venue.bookLookupKey Venue.ascii Venue.longBook, smallestAmount)] ∧
      smallest.cacheReadings Venue.ascii = [(Venue.bookLookupKey Venue.ascii Venue.longBook, one)] := by
  decide +kernel

theorem smallestAmount_value : smallestAmount.value = 10 ^ etiny := by
  show ((1 : Int) : ℚ) * 10 ^ etiny = 10 ^ etiny
  rw [Int.cast_one, one_mul]

theorem one_value : one.value = 1 := by
  norm_num [FiniteDecimal.value, FiniteDecimal.signed, one]

/-- The totals of the two rows. -/
theorem smallest_built : ∃ venue cache,
    (∀ state, ReconciledExecutionState.build Venue.ascii "account" smallest = some state ↔
      state = ⟨"account", true, "venue snapshot fresh", venue, cache⟩) ∧
    (venue (Venue.bookLookupKey Venue.ascii Venue.longBook)).value = 10 ^ etiny ∧
    (cache (Venue.bookLookupKey Venue.ascii Venue.longBook)).value = 1 := by
  have hlimit : ∀ e, (10 : ℚ) ^ e < limit e := by
    intro e
    have hpos := ten_zpow_pos e
    have hprec : (1 : ℚ) < 10 ^ Decimal.prec := one_lt_pow₀ (by norm_num) (by decide)
    exact lt_mul_of_one_lt_left hpos hprec
  have hvenuefit := Venue.FittingRows.single (e := etiny) (Venue.bookLookupKey Venue.ascii Venue.longBook) (q := smallestAmount)
    ⟨le_rfl, by decide⟩ (by decide) (by decide)
    (by rw [smallestAmount_value, abs_of_pos (ten_zpow_pos _)]; exact hlimit _)
  have hcachefit := Venue.FittingRows.single (e := 0) (Venue.bookLookupKey Venue.ascii Venue.longBook) (q := one)
    ⟨by decide, by decide⟩ le_rfl le_rfl (by rw [one_value, abs_one]; exact hlimit 0)
  obtain ⟨venue, hvenue, hvenuesum, -⟩ := hvenuefit.quantities (by decide)
  obtain ⟨cache, hcache, hcachesum, -⟩ := hcachefit.quantities (by decide)
  refine ⟨venue, cache, fun state => ?_, ?_, ?_⟩
  · unfold ReconciledExecutionState.build
    rw [smallest_readings.1, smallest_readings.2, hvenue, hcache]
    have hfresh : smallest.venueFreshness = (true, "venue snapshot fresh") := by decide +kernel
    rw [hfresh]
    exact Option.some_inj.trans eq_comm
  · rw [hvenuesum, Venue.bookSum_single, smallestAmount_value, abs_of_pos (ten_zpow_pos _)]
  · rw [hcachesum, Venue.bookSum_single, one_value, abs_one]

theorem smallest_unassessed : ∃ r : Reconciled Venue.ascii, r.state.assess Venue.ascii Venue.longBook = none := by
  obtain ⟨venue, cache, hbuild, hvenue, hcache⟩ := smallest_built
  refine ⟨⟨"account", smallest, _, (hbuild _).mpr rfl⟩, ?_⟩
  have hvenue' := (@Venue.lookup_value venue _).trans hvenue
  have hcache' := (@Venue.lookup_value cache _).trans hcache
  have hvcoeff : (Venue.lookup venue (Venue.bookLookupKey Venue.ascii Venue.longBook)).coeff ≠ 0 := by
    intro hzero
    rw [Venue.value_eq_zero hzero] at hvenue'
    exact (ten_zpow_pos etiny).ne hvenue'
  have hccoeff : (Venue.lookup cache (Venue.bookLookupKey Venue.ascii Venue.longBook)).coeff ≠ 0 := by
    intro hzero
    rw [Venue.value_eq_zero hzero] at hcache'
    exact zero_ne_one hcache'
  unfold ReconciledExecutionState.assess
  dsimp only
  rw [if_neg (by decide), if_pos hvcoeff, if_pos hccoeff, drift_raises hvenue' hcache']
  rfl

/-- Without an assessment the addition is planned as without a state. -/
theorem addition_without {r : Reconciled Venue.ascii} (h : r.state.assess Venue.ascii Venue.longBook = none) :
    planIntentExecution defaultContext Venue.ascii addition (simulated (some r)) =
      planIntentExecution defaultContext Venue.ascii addition (simulated none) := by
  have hassessment : reconciledAssessment Venue.ascii (simulated (some r)) addition.instrumentId "LONG" =
      reconciledAssessment Venue.ascii (simulated none) addition.instrumentId "LONG" := h
  have hposition : validatePosition Venue.ascii true .buy (simulated (some r)) addition.instrumentId =
      validatePosition Venue.ascii true .buy (simulated none) addition.instrumentId := by
    unfold validatePosition
    rw [show OrderSide.buy.book = "LONG" from rfl, hassessment]
    rfl
  have hplan : ∀ c, entryOrderPlan Venue.ascii addition c = .ok addition.plan := fun _ => rfl
  have hside : parseSide Venue.ascii (addition.plan.get? "side") = .ok .buy := by decide +kernel
  have hentry : ∀ instrument, planEntryIntent defaultContext Venue.ascii addition .addPosition (simulated (some r))
      instrument = planEntryIntent defaultContext Venue.ascii addition .addPosition (simulated none) instrument := by
    intro instrument
    unfold planEntryIntent
    simp only [hplan, ok_bind, hside, hposition, decide_true]
  have hnamed : Action.ofText? addition.action = some .addPosition := by decide +kernel
  unfold planIntentExecution
  rw [hnamed]
  simp only [hentry, show Action.addPosition.isEntry = true from rfl, if_true,
    if_neg (show ¬ Action.addPosition = .cancelOrder by decide)]
  rfl

/-- **An assessment that raises is none**: the quotient of one by the smallest
amount overflows, and a simulation that has a reconciled state plans an entry on a
book that was not assessed. -/
theorem entry_unassessed : ∃ r order,
    planIntentExecution defaultContext Venue.ascii addition (simulated (some r)) = .ok (.entry order) ∧
      ¬ ((simulated (some r)).simulation = true ∧ (simulated (some r)).reconciledState = none) ∧
      ∀ a, ¬ Assessed Venue.ascii addition (simulated (some r)) order.side a := by
  obtain ⟨r, hnone⟩ := smallest_unassessed
  obtain ⟨order, hplan, hside⟩ := addition_planned
  refine ⟨r, order, (addition_without hnone).trans hplan, fun h => (nomatch h.2), ?_⟩
  rintro a ⟨-, r', hr', -, hassess⟩
  rw [hside] at hassess
  cases Option.some.inj hr'
  exact nomatch hnone.symm.trans hassess

end TraderBot.Planner
