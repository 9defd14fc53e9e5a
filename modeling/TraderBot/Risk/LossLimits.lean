import TraderBot.Lib.DateTime
import TraderBot.Lib.DecimalValue
import TraderBot.Lib.Machine

/-! # Loss limits

`evaluate_loss_limits` compares an account's equity with the highest it has had
and with the equity at the start of the day, and moves the account to `HALT` or
`REDUCING`; only `confirm_loss_limit_reset` takes it back. The two limits write
one mode. An account that is halted and has recovered from the drawdown is moved
to `REDUCING` by the daily limit; apart from that its mode only gets more severe
(`sticky_iff`). -/
namespace TraderBot.Risk
open TraderBot.Lib

/-! ## The state -/

/-- The mode of an account, in upper case. -/
inductive LossMode where
  | active
  | reducing
  | halt
  | halted
  | unknown (text : String)
  deriving DecidableEq, Repr

/-- A time and its offset from UTC, none for a naive one. -/
abbrev Clock := DateTime × Option Int

structure LossLimitState where
  accountId : String
  mode : LossMode
  dayKey : String
  dayStartEquity : FiniteDecimal
  peakEquity : FiniteDecimal
  breachedAt : Option Clock := none
  cooldownUntil : Option Clock := none
  deriving DecidableEq, Repr

structure LossLimitDecision where
  mode : LossMode
  reason : String
  dailyLoss : FiniteDecimal
  drawdownPct : FiniteDecimal
  requiresConfirmation : Bool
  state : LossLimitState
  deriving DecidableEq, Repr

/-- What is read of the `RiskConfig`; a limit that is not positive is not set. -/
structure LossConfig where
  dailyLossLimit : FiniteDecimal := .zero
  maxDrawdownPct : FiniteDecimal := .zero
  lossCooldownSeconds : Int := 0

/-- An equity, the clock and the time zone of the day. -/
structure Observation where
  currentEquity : FiniteDecimal
  now : Clock
  tz : Int := 0

/-! ## Operations -/

/-- `_aware`; `none` is an `OverflowError`. -/
def aware (value : Clock) : Option DateTime := DateTime.toUtc value

/-- `_day_key` of a time in UTC. -/
def dayKeyOf (now : DateTime) (tz : Int) : Option String :=
  if now.toMicros + tz < 0 then none
  else (DateTime.ofMicros (now.toMicros + tz).toNat).map fun day =>
    String.ofList (Text.decPad 4 day.year ++ '-' :: (Text.decPad 2 day.month ++ '-' :: Text.decPad 2 day.day))

/-- `_cooldown_until`; the outer `none` is an `OverflowError`. -/
def cooldownUntil (now : DateTime) (config : LossConfig) : Option (Option Clock) :=
  if config.lossCooldownSeconds ≤ 0 then some none
  else (DateTime.ofMicros (now.toMicros + config.lossCooldownSeconds.toNat * 1000000)).map fun ends => some (ends, some 0)

/-- The state on the day of the clock. -/
def LossLimitState.onDay (state : LossLimitState) (dayKey : String) (equity : FiniteDecimal) : LossLimitState :=
  if state.dayKey ≠ dayKey then
    { state with dayKey, dayStartEquity := equity, peakEquity := equity.max state.peakEquity }
  else state

/-- `(peak - equity) / peak`, nothing without a positive peak; `none` raises. -/
def drawdownOf (peak equity : FiniteDecimal) : Option FiniteDecimal :=
  if FiniteDecimal.zero.lt peak then (Decimal.sub peak equity).bind fun lost => Decimal.div lost peak
  else some .zero

/-- What an evaluation compares with the limits. -/
structure Reading where
  now : DateTime
  state : LossLimitState
  peak : FiniteDecimal
  dailyLoss : FiniteDecimal
  drawdownPct : FiniteDecimal

def readingOf (state : LossLimitState) (o : Observation) : Option Reading := do
  let now ← aware o.now
  let dayKey ← dayKeyOf now o.tz
  let state := state.onDay dayKey o.currentEquity
  let peak := state.peakEquity.max o.currentEquity
  let lost ← Decimal.sub state.dayStartEquity o.currentEquity
  let drawdownPct ← drawdownOf peak o.currentEquity
  return { now, state, peak, dailyLoss := lost.max .zero, drawdownPct }

/-- A limit that is set is reached. -/
def reached (limit amount : FiniteDecimal) : Bool := FiniteDecimal.zero.lt limit && limit.le amount

def LossMode.limited (mode : LossMode) : Bool := mode = .reducing ∨ mode = .halt ∨ mode = .halted

/-- A breach: the mode, the peak, the first time and the cooldown. -/
def LossLimitState.breach (state : LossLimitState) (mode : LossMode) (peak : FiniteDecimal) (now : DateTime)
    (cooldown : Option Clock) : LossLimitState :=
  { state with
    mode, peakEquity := peak, breachedAt := state.breachedAt.or (some (now, some 0))
    cooldownUntil := cooldown }

/-- A mode that is limited is past its cooldown; `none` is an `OverflowError`. -/
def LossLimitState.cooldownEnded (state : LossLimitState) (now : DateTime) : Option Bool :=
  match state.mode.limited, state.cooldownUntil with
  | true, some cooldown => (aware cooldown).map fun cooldown => decide (cooldown.toMicros ≤ now.toMicros)
  | _, _ => some false

/-- `evaluate_loss_limits`; `none` raises. -/
def evaluateLossLimits (config : LossConfig) (state : LossLimitState) (o : Observation) :
    Option LossLimitDecision := do
  let r ← readingOf state o
  if reached config.maxDrawdownPct r.drawdownPct then
    let cooldown ← cooldownUntil r.now config
    return ⟨.halt, "max drawdown breached", r.dailyLoss, r.drawdownPct, false,
      r.state.breach .halt r.peak r.now cooldown⟩
  else if reached config.dailyLossLimit r.dailyLoss then
    let cooldown ← cooldownUntil r.now config
    return ⟨.reducing, "daily loss limit breached", r.dailyLoss, r.drawdownPct, false,
      r.state.breach .reducing r.peak r.now cooldown⟩
  else
    let cooled ← r.state.cooldownEnded r.now
    let mode := if r.state.mode.limited then r.state.mode else .active
    return ⟨mode, if cooled then "cooldown ended; explicit confirm required" else "within loss limits",
      r.dailyLoss, r.drawdownPct, cooled, { r.state with mode, peakEquity := r.peak }⟩

/-- `confirm_loss_limit_reset`; `none` raises. -/
def confirmLossLimitReset (state : LossLimitState) (o : Observation) : Option LossLimitState := do
  let dayKey ← dayKeyOf (← aware o.now) o.tz
  return {
    accountId := state.accountId, mode := .active, dayKey, dayStartEquity := o.currentEquity
    peakEquity := o.currentEquity }

/-! ## Steps and runs -/

inductive LossStep where
  | evaluate (o : Observation)
  | confirm (o : Observation)

/-- One call after the other on the state that came back; a call that raises
leaves it. -/
def lossMachine (config : LossConfig) : Machine LossLimitState LossStep (Option LossLimitDecision) where
  step state step :=
    match step with
    | .evaluate o =>
      match evaluateLossLimits config state o with
      | some d => (some d, d.state)
      | none => (none, state)
    | .confirm o => (none, (confirmLossLimitReset state o).getD state)

/-- A halt is written in two ways. -/
def LossMode.severity : LossMode → Nat
  | .active | .unknown _ => 0
  | .reducing => 1
  | .halt | .halted => 2

/-- What an evaluation keeps, where `high` is the highest equity seen before it. -/
structure StepSticks (config : LossConfig) (high : ℚ) (state : LossLimitState) (o : Observation)
    (d : LossLimitDecision) : Prop where
  severity : state.mode.severity ≤ d.state.mode.severity
  peak : state.peakEquity.value ≤ d.state.peakEquity.value
  breachedAt : ∀ t, state.breachedAt = some t → d.state.breachedAt = some t
  highest : d.state.peakEquity.value = max high o.currentEquity.value
  halts : ∀ x, drawdownOf d.state.peakEquity o.currentEquity = some x →
    reached config.maxDrawdownPct x = true → d.state.mode = .halt

/-- Every evaluation of a run sticks; a confirmation starts over. -/
def Sticky (config : LossConfig) : ℚ → LossLimitState → List LossStep → Prop
  | _, _, [] => True
  | high, state, .evaluate o :: steps =>
    match evaluateLossLimits config state o with
    | some d => StepSticks config high state o d ∧ Sticky config (max high o.currentEquity.value) d.state steps
    | none => Sticky config high state steps
  | high, state, .confirm o :: steps =>
    match confirmLossLimitReset state o with
    | some state => Sticky config o.currentEquity.value state steps
    | none => Sticky config high state steps

/-- The account is halted, the drawdown is below its limit, the loss of the day
has reached its own. -/
def Downgrades (config : LossConfig) (state : LossLimitState) (o : Observation) : Prop :=
  state.mode.severity = 2 ∧ ∃ r, readingOf state o = some r ∧ (cooldownUntil r.now config).isSome ∧
    reached config.maxDrawdownPct r.drawdownPct = false ∧ reached config.dailyLossLimit r.dailyLoss = true

/-- No downgrade of a halt. -/
def KeepsHalt (config : LossConfig) (state : LossLimitState) : LossStep → Prop
  | .evaluate o => ¬ Downgrades config state o
  | .confirm _ => True

section
variable {config : LossConfig} {state : LossLimitState} {o : Observation} {r : Reading} {d : LossLimitDecision}

/-- What a reading leaves of the state, and what it reads. -/
theorem readingOf_some (h : readingOf state o = some r) :
    r.state.mode = state.mode ∧ r.state.breachedAt = state.breachedAt ∧
      r.peak.value = max state.peakEquity.value o.currentEquity.value ∧
      drawdownOf r.peak o.currentEquity = some r.drawdownPct := by
  obtain ⟨now, -, h⟩ := Option.bind_eq_some_iff.mp h
  obtain ⟨dayKey, -, h⟩ := Option.bind_eq_some_iff.mp h
  obtain ⟨lost, -, h⟩ := Option.bind_eq_some_iff.mp h
  obtain ⟨drawdown, hdrawdown, h⟩ := Option.bind_eq_some_iff.mp h
  cases h
  refine ⟨?_, ?_, ?_, hdrawdown⟩
  · unfold LossLimitState.onDay
    split_ifs <;> rfl
  · unfold LossLimitState.onDay
    split_ifs <;> rfl
  · unfold LossLimitState.onDay
    split_ifs
    · rw [FiniteDecimal.max_value, FiniteDecimal.max_value, max_right_comm, max_self, max_comm]
    · exact FiniteDecimal.max_value _ _

/-- **What an evaluation does.** -/
theorem evaluate_cases (h : evaluateLossLimits config state o = some d) :
    ∃ r, readingOf state o = some r ∧ d.state.peakEquity = r.peak ∧
      ((reached config.maxDrawdownPct r.drawdownPct = true ∧
          ∃ cooldown, d.state = r.state.breach .halt r.peak r.now cooldown) ∨
        (reached config.maxDrawdownPct r.drawdownPct = false ∧ reached config.dailyLossLimit r.dailyLoss = true ∧
          (cooldownUntil r.now config).isSome ∧
          ∃ cooldown, d.state = r.state.breach .reducing r.peak r.now cooldown) ∨
        (reached config.maxDrawdownPct r.drawdownPct = false ∧ reached config.dailyLossLimit r.dailyLoss = false ∧
          d.state = { r.state with
            mode := if r.state.mode.limited then r.state.mode else .active, peakEquity := r.peak })) := by
  obtain ⟨r, hr, h⟩ := Option.bind_eq_some_iff.mp h
  refine ⟨r, hr, ?_⟩
  by_cases hdrawdown : reached config.maxDrawdownPct r.drawdownPct = true
  · rw [if_pos hdrawdown] at h
    obtain ⟨cooldown, -, h⟩ := Option.bind_eq_some_iff.mp h
    cases h
    exact ⟨rfl, .inl ⟨hdrawdown, cooldown, rfl⟩⟩
  rw [if_neg hdrawdown] at h
  have hbelow := Bool.eq_false_iff.mpr hdrawdown
  by_cases hdaily : reached config.dailyLossLimit r.dailyLoss = true
  · rw [if_pos hdaily] at h
    obtain ⟨cooldown, hcooldown, h⟩ := Option.bind_eq_some_iff.mp h
    cases h
    exact ⟨rfl, .inr (.inl ⟨hbelow, hdaily, by rw [hcooldown]; rfl, cooldown, rfl⟩)⟩
  · rw [if_neg hdaily] at h
    obtain ⟨cooled, -, h⟩ := Option.bind_eq_some_iff.mp h
    cases h
    exact ⟨rfl, .inr (.inr ⟨hbelow, Bool.eq_false_iff.mpr hdaily, rfl⟩)⟩

/-- A mode that is limited is left, any other has no severity. -/
theorem severity_kept (mode : LossMode) :
    mode.severity ≤ (if mode.limited then mode else .active).severity := by
  cases mode <;> simp [LossMode.limited, LossMode.severity]

theorem severity_le_two (mode : LossMode) : mode.severity ≤ 2 := by
  cases mode <;> simp [LossMode.severity]

/-- **One evaluation** sticks just where it does not downgrade a halt. -/
theorem stepSticks_iff (h : evaluateLossLimits config state o = some d) :
    StepSticks config state.peakEquity.value state o d ↔ ¬ Downgrades config state o := by
  obtain ⟨r, hr, hpeak, hcases⟩ := evaluate_cases h
  obtain ⟨hmode, hbreached, hvalue, hdrawdown⟩ := readingOf_some hr
  have hhighest : d.state.peakEquity.value = max state.peakEquity.value o.currentEquity.value := by
    rw [hpeak, hvalue]
  have hmono : state.peakEquity.value ≤ d.state.peakEquity.value := by
    rw [hhighest]
    exact le_max_left _ _
  have hread : ∀ x, drawdownOf d.state.peakEquity o.currentEquity = some x → x = r.drawdownPct := by
    intro x hx
    rw [hpeak, hdrawdown] at hx
    exact (Option.some.inj hx).symm
  rcases hcases with ⟨hreached, cooldown, hd⟩ | ⟨hbelow, hdaily, hcooldown, cooldown, hd⟩ | ⟨hbelow, hdaily, hd⟩
  · refine iff_of_true ⟨?_, hmono, fun t ht => ?_, hhighest, fun x _ _ => ?_⟩ ?_
    · rw [hd]
      exact severity_le_two _
    · rw [hd, LossLimitState.breach, hbreached, ht]
      rfl
    · rw [hd]
      rfl
    · rintro ⟨-, r', hr', -, hbelow, -⟩
      rw [hr] at hr'
      cases hr'
      rw [hreached] at hbelow
      cases hbelow
  · constructor
    · rintro hsticks ⟨hhalted, -⟩
      have hseverity := hsticks.severity
      rw [hhalted, hd] at hseverity
      exact absurd hseverity (show ¬ 2 ≤ 1 by decide)
    · intro hkeeps
      refine ⟨?_, hmono, fun t ht => ?_, hhighest, fun x hx hreached => ?_⟩
      · rw [hd]
        show state.mode.severity ≤ 1
        have hle := severity_le_two state.mode
        have hne : state.mode.severity ≠ 2 := fun htwo =>
          hkeeps ⟨htwo, r, hr, hcooldown, hbelow, hdaily⟩
        omega
      · rw [hd, LossLimitState.breach, hbreached, ht]
        rfl
      · rw [hread x hx, hbelow] at hreached
        cases hreached
  · refine iff_of_true ⟨?_, hmono, fun t ht => ?_, hhighest, fun x hx hreached => ?_⟩ ?_
    · rw [hd, ← hmode]
      exact severity_kept r.state.mode
    · rw [hd, ← ht]
      exact hbreached
    · rw [hread x hx, hbelow] at hreached
      cases hreached
    · rintro ⟨-, r', hr', -, -, hdaily'⟩
      rw [hr] at hr'
      cases hr'
      rw [hdaily] at hdaily'
      cases hdaily'

/-- The peak of the state is the highest equity seen. -/
theorem evaluate_highest (h : evaluateLossLimits config state o = some d) :
    d.state.peakEquity.value = max state.peakEquity.value o.currentEquity.value := by
  obtain ⟨r, hr, hpeak, -⟩ := evaluate_cases h
  rw [hpeak, (readingOf_some hr).2.2.1]

theorem confirm_highest {next : LossLimitState} (h : confirmLossLimitReset state o = some next) :
    next.peakEquity = o.currentEquity := by
  obtain ⟨now, -, h⟩ := Option.bind_eq_some_iff.mp h
  obtain ⟨dayKey, -, h⟩ := Option.bind_eq_some_iff.mp h
  cases h
  rfl

/-- **Loss limits stick just where no halt is downgraded.** Over every run of
evaluations, with confirmations between them: the mode gets no less severe, the
peak is the highest equity seen, the first breach stays, and a drawdown that
reaches its limit halts, if and only if no evaluation finds a halted account with
the drawdown below its limit and the loss of the day at its own. -/
theorem sticky_iff (config : LossConfig) (state : LossLimitState) (steps : List LossStep) :
    Sticky config state.peakEquity.value state steps ↔
      (lossMachine config).Meets (KeepsHalt config) state steps := by
  induction steps generalizing state with
  | nil => exact Iff.rfl
  | cons step steps ih =>
    cases step with
    | evaluate o =>
      unfold Sticky Machine.Meets Machine.next lossMachine
      cases h : evaluateLossLimits config state o with
      | some d =>
        dsimp only
        rw [← evaluate_highest h, ih d.state, stepSticks_iff h]
        simp only [h]
        rfl
      | none =>
        have hkeeps : KeepsHalt config state (.evaluate o) := by
          rintro ⟨-, r, hr, hcooldown, hbelow, hdaily⟩
          obtain ⟨cooldown, hcooldown⟩ := Option.isSome_iff_exists.mp hcooldown
          unfold evaluateLossLimits at h
          rw [hr] at h
          simp [hbelow, hdaily, hcooldown] at h
        dsimp only
        rw [ih state]
        simp only [h]
        exact (and_iff_right hkeeps).symm
    | confirm o =>
      unfold Sticky Machine.Meets Machine.next lossMachine
      cases h : confirmLossLimitReset state o with
      | some next =>
        dsimp only
        rw [← confirm_highest h, ih next]
        simp only [h]
        exact (and_iff_right trivial).symm
      | none =>
        dsimp only
        rw [ih state]
        simp only [h]
        exact (and_iff_right trivial).symm

end

/-! ## A halt that is downgraded -/

def tenPercent : LossConfig where
  dailyLossLimit := ⟨false, 500, 0, by decide⟩
  maxDrawdownPct := ⟨false, 1, -1, .tenth⟩

theorem noon_valid : DateTime.Valid 2026 6 21 12 0 0 0 := by decide

/-- An equity at noon. -/
def equityAt (coeff : Nat) (h : Decimal.InRange coeff 0 := by decide) : Observation where
  currentEquity := ⟨false, coeff, 0, h⟩
  now := (⟨2026, 6, 21, 12, 0, 0, 0, noon_valid⟩, some 0)

/-- A day that starts at 12000, the highest equity so far. -/
def startOfDay : LossLimitState where
  accountId := "account"
  mode := .active
  dayKey := "2026-06-21"
  dayStartEquity := (equityAt 12000).currentEquity
  peakEquity := (equityAt 12000).currentEquity

/-- The day after an equity of 10000. -/
def haltedDay : LossLimitState :=
  { startOfDay with mode := .halt, breachedAt := some (equityAt 10000 .tenThousand).now }

/-- At 10000 the drawdown halts the account; at 11500 it is below ten percent,
and the loss of the day is 500. -/
theorem halt_is_downgraded :
    ¬ Sticky tenPercent startOfDay.peakEquity.value startOfDay
      [.evaluate (equityAt 10000), .evaluate (equityAt 11500)] := by
  have hfirst : (evaluateLossLimits tenPercent startOfDay (equityAt 10000)).map (·.state) = some haltedDay := by
    decide +kernel
  have hsecond : (evaluateLossLimits tenPercent haltedDay (equityAt 11500)).map (·.state.mode) =
      some .reducing := by
    decide +kernel
  obtain ⟨d, hd, hstate⟩ := Option.map_eq_some_iff.mp hfirst
  obtain ⟨d', hd', hmode⟩ := Option.map_eq_some_iff.mp hsecond
  intro h
  rw [Sticky, hd] at h
  obtain ⟨-, h⟩ := h
  rw [hstate, Sticky, hd'] at h
  have hseverity := h.1.severity
  rw [hmode] at hseverity
  exact absurd hseverity (show ¬ 2 ≤ 1 by decide)

end TraderBot.Risk
