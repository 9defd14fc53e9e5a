import TraderBot.Lib.DateTime
import TraderBot.Lib.Machine

/-! # The exchange evidence provider

`BinanceExchangeEvidenceProvider.snapshot` answers from a cache, or one call refreshes it
and the others wait for that refresh. Everything under `_refresh_condition` is one step;
between two of them other calls take their turns, and a waiter may be resumed at any time.
A step carries the readings of the clocks; the monotonic one never goes back.

`turn` counts the steps and `failed` the refreshes that failed: the code keeps neither. -/
namespace TraderBot.Evidence
open TraderBot.Lib

/-! ## Floats -/

/-- The floats of the platform that are not NaN, as far as the provider computes. -/
structure FloatOps (F : Type) [LinearOrder F] where
  zero : F
  /-- `float(n)` of an `int` that is in their range. -/
  ofNat : Nat → F
  add : F → F → F
  sub : F → F → F
  mul : F → F → F
  /-- `x * 0.25`. -/
  quarter : F → F
  /-- `timedelta.total_seconds()` of microseconds. -/
  totalSeconds : Int → F
  /-- `f"{x:.3f}"`. -/
  fixed3 : F → String
  le_add : ∀ {x d}, zero ≤ d → x ≤ add x d

section
variable {F : Type} [LinearOrder F]

/-- `x * (2 ** n)`; an `int` from `2 ** 1024` on is no float, which raises. -/
def FloatOps.timesPower (ops : FloatOps F) (x : F) (n : Nat) : Option F :=
  if n < 1024 then some (ops.mul x (ops.ofNat (2 ^ n))) else none

/-- The settings that the constructor has checked. -/
structure Settings (ops : FloatOps F) where
  refreshIntervalSeconds : F
  totalDeadlineSeconds : F
  backoffBaseSeconds : F
  backoffMaxSeconds : F
  circuitFailureThreshold : Nat
  interval_pos : ops.zero < refreshIntervalSeconds
  deadline_pos : ops.zero < totalDeadlineSeconds
  base_pos : ops.zero < backoffBaseSeconds
  base_le_max : backoffBaseSeconds ≤ backoffMaxSeconds
  threshold_pos : 1 ≤ circuitFailureThreshold

/-! ## Failures -/

/-- What `float` and `parsedate_to_datetime` make of a `retry-after` header. -/
inductive RetryAfter (F : Type) where
  | seconds (x : F)
  | nan
  | date (at' : DateTime × Option Int)
  | unreadable
  deriving DecidableEq

/-- What `_refresh_evidence` raised; `httpStatus` and the header are those of a `BinanceApiError`. -/
structure Failure (F : Type) where
  httpStatus : Option Int
  retryAfter : Option (RetryAfter F)
  detail : String
  deriving DecidableEq

/-- What the failure handler reads: its clocks and what `_jitter` returns. -/
structure Readings (F : Type) where
  now : DateTime × Option Int
  monotonic : F
  jitter : F
  deriving DecidableEq

def Failure.rateLimited (f : Failure F) : Bool := f.httpStatus.any fun status => status = 418 ∨ status = 429

/-- `_retry_after_seconds`; `none` is an exception. A NaN loses against the delay that it is
compared with. -/
def retryAfterSeconds (ops : FloatOps F) (value : Option (RetryAfter F)) (now : DateTime × Option Int) : Option F :=
  match value with
  | none | some .nan | some .unreadable => some ops.zero
  | some (.seconds x) => some (max x ops.zero)
  | some (.date retryAt) =>
    if now.2 = none then none
    else
      (DateTime.toUtc retryAt).bind fun retryAt =>
        (DateTime.toUtc now).map fun now => max (ops.totalSeconds (retryAt.toMicros - now.toMicros)) ops.zero

/-! ## The provider and its calls -/

/-- `_cached` with `_cached_at`, and the turn in which the refresh completed. -/
structure Stored (F E : Type) where
  evidence : E
  cachedAt : F
  completed : Nat
  deriving DecidableEq

structure Provider (F E : Type) where
  cached : Option (Stored F E)
  consecutiveFailures : Nat
  nextAttemptAt : F
  circuitOpenUntil : F
  refreshInFlight : Bool
  refreshGeneration : Nat
  /-- `False` where no refresh has failed since the last one that did not. -/
  refreshError : Option String
  refreshErrorGeneration : Nat
  deriving DecidableEq

/-- An `ExchangeCancelError`, or an exception that the provider did not mean to raise. -/
inductive Raised where
  | exchangeCancelError (message : String)
  | uncaught
  deriving DecidableEq, Repr

/-- Where a call of `snapshot` is. -/
inductive Phase (F E : Type) where
  | entering
  | refreshing (generation : Nat)
  | waiting (generation : Nat) (notified : Bool)
  | returned (stored : Stored F E) (awaited : Option Nat)
  | raised (e : Raised)
  deriving DecidableEq

def Phase.isEntering {F E : Type} : Phase F E → Bool
  | .entering => true
  | _ => false

structure Call (F E : Type) where
  forceRefresh : Bool
  /-- The turn in which the call began. -/
  since : Nat
  deadline : F
  /-- `current_monotonic`, once it is read. -/
  entered : Option F
  phase : Phase F E
  deriving DecidableEq

structure State (F E : Type) where
  provider : Provider F E
  now : F
  turn : Nat
  failed : List Nat
  calls : Nat → Option (Call F E)

/-- What happens next. `enter` has a second reading of the clock for the loop of `_await_refresh`. -/
inductive Label (F E : Type) where
  | call (id : Nat) (forceRefresh : Bool) (reading : F)
  | enter (id : Nat) (reading reading' : F)
  | resume (id : Nat) (reading : F)
  | succeed (id : Nat) (evidence : E) (reading : F)
  | fail (id : Nat) (failure : Failure F) (readings : Readings F)

/-! ## Steps -/

section
variable {E : Type} {ops : FloatOps F} (settings : Settings ops)

/-- `_raise_if_backoff_active`. -/
def backoffActive (ops : FloatOps F) (p : Provider F E) (current : F) : Option Raised :=
  if current < p.circuitOpenUntil then
    some (.exchangeCancelError ("exchange evidence circuit open; backoff active for " ++
      ops.fixed3 (ops.sub p.circuitOpenUntil current) ++ "s"))
  else if current < p.nextAttemptAt then
    some (.exchangeCancelError ("exchange evidence backoff active for " ++
      ops.fixed3 (ops.sub p.nextAttemptAt current) ++ "s"))
  else none

/-- `bounded_delay` after a number of failures. -/
def boundedDelay (consecutiveFailures : Nat) (jitter : F) : Option F :=
  (ops.timesPower settings.backoffBaseSeconds (consecutiveFailures - 1)).map fun exponential =>
    let exponential := min exponential settings.backoffMaxSeconds
    let jitter := min (max jitter ops.zero) (ops.quarter exponential)
    min (ops.add exponential jitter) settings.backoffMaxSeconds

/-- `_record_failure`: the provider afterwards, and the delay with the failure it returns, or nothing when it raises. -/
def recordFailure (p : Provider F E) (f : Failure F) (r : Readings F) : Provider F E × Option (F × String) :=
  let p := { p with consecutiveFailures := p.consecutiveFailures + 1 }
  match boundedDelay settings p.consecutiveFailures r.jitter with
  | none => (p, none)
  | some bounded =>
    match if f.rateLimited then retryAfterSeconds ops f.retryAfter r.now else some ops.zero with
    | none => (p, none)
    | some retryAfter =>
      let delay := max bounded retryAfter
      let nextAttemptAt := ops.add r.monotonic delay
      let open' := f.rateLimited ∨ settings.circuitFailureThreshold ≤ p.consecutiveFailures
      ({ p with
          nextAttemptAt := nextAttemptAt
          circuitOpenUntil := if open' then nextAttemptAt else p.circuitOpenUntil },
        some (delay, (if f.rateLimited then "exchange evidence rate limited; retry in "
          else "exchange evidence unavailable; retry in ") ++ ops.fixed3 delay ++ "s: " ++ f.detail))

namespace State
variable (s : State F E)

def setCall (id : Nat) (c : Call F E) : State F E := { s with calls := Function.update s.calls id (some c) }

/-- A call goes on to another phase. -/
def goto (id : Nat) (c : Call F E) (phase : Phase F E) : State F E := s.setCall id { c with phase := phase }

def withProvider (p : Provider F E) : State F E := { s with provider := p }

/-- `_refresh_condition.notify_all()`. -/
def notifyAll : State F E :=
  { s with calls := fun id => (s.calls id).map fun c =>
      match c.phase with
      | .waiting generation _ => { c with phase := .waiting generation true }
      | _ => c }

/-- The time goes on to a reading. -/
def tick (reading : F) : State F E := { s with now := reading, turn := s.turn + 1 }

/-- `_await_refresh` from the head of its loop. -/
def await (ops : FloatOps F) (id : Nat) (c : Call F E) (generation : Nat) (reading : F) : State F E :=
  if s.provider.refreshGeneration < generation then
    if ops.sub c.deadline reading ≤ ops.zero then
      s.goto id c (.raised (.exchangeCancelError "exchange evidence singleflight deadline exceeded"))
    else s.goto id c (.waiting generation false)
  else
    match if s.provider.refreshErrorGeneration = generation then s.provider.refreshError else none with
    | some error => s.goto id c (.raised (.exchangeCancelError error))
    | none =>
      match s.provider.cached with
      | none =>
        s.goto id c (.raised (.exchangeCancelError "exchange evidence singleflight completed without a snapshot"))
      | some stored => s.goto id c (.returned stored (some generation))

/-- Whether the cached evidence answers a call. -/
def answers (c : Call F E) (reading : F) (stored : Stored F E) : Bool :=
  !c.forceRefresh && decide (ops.sub reading stored.cachedAt < settings.refreshIntervalSeconds)

/-- The first critical section of `snapshot`. -/
def enter (id : Nat) (c : Call F E) (reading reading' : F) : State F E :=
  let c := { c with entered := some reading }
  match s.provider.cached.filter (answers settings c reading) with
  | some stored => s.goto id c (.returned stored none)
  | none =>
    if s.provider.refreshInFlight then s.await ops id c (s.provider.refreshGeneration + 1) reading'
    else
      match backoffActive ops s.provider reading with
      | some e => s.goto id c (.raised e)
      | none =>
        (s.withProvider { s.provider with refreshInFlight := true }).goto id c
          (.refreshing (s.provider.refreshGeneration + 1))

/-- The last critical section, after a refresh that returned. -/
def succeed (ops : FloatOps F) (id : Nat) (c : Call F E) (generation : Nat) (evidence : E) (reading : F) : State F E :=
  let stored := { evidence := evidence, cachedAt := reading, completed := s.turn }
  ((s.withProvider
    { cached := some stored, consecutiveFailures := 0, nextAttemptAt := ops.zero, circuitOpenUntil := ops.zero,
      refreshInFlight := false, refreshGeneration := generation, refreshError := none,
      refreshErrorGeneration := 0 }).notifyAll).goto id c (.returned stored none)

/-- The failure handler. An exception of its own leaves it before the flag is cleared. -/
def fail (id : Nat) (c : Call F E) (generation : Nat) (f : Failure F) (r : Readings F) : State F E :=
  let s := { s with failed := generation :: s.failed }
  match recordFailure settings s.provider f r with
  | (p, none) => (s.withProvider p).goto id c (.raised .uncaught)
  | (p, some (_, message)) =>
    ((s.withProvider
      { p with refreshGeneration := generation, refreshError := some message, refreshErrorGeneration := generation,
               refreshInFlight := false }).notifyAll).goto id c (.raised (.exchangeCancelError message))

def next : Label F E → State F E
  | .call id forceRefresh reading =>
    if s.now ≤ reading ∧ s.calls id = none then
      (s.tick reading).setCall id
        ⟨forceRefresh, s.turn, ops.add reading settings.totalDeadlineSeconds, none, .entering⟩
    else s
  | .enter id reading reading' =>
    match s.calls id with
    | some c =>
      if s.now ≤ reading ∧ reading ≤ reading' ∧ c.phase.isEntering then
        (s.tick reading').enter settings id c reading reading'
      else s
    | none => s
  | .resume id reading =>
    match s.calls id with
    | some c =>
      match c.phase with
      | .waiting generation _ =>
        if s.now ≤ reading then (s.tick reading).await ops id c generation reading else s
      | _ => s
    | none => s
  | .succeed id evidence reading =>
    match s.calls id with
    | some c =>
      match c.phase with
      | .refreshing generation =>
        if s.now ≤ reading then (s.tick reading).succeed ops id c generation evidence reading else s
      | _ => s
    | none => s
  | .fail id f r =>
    match s.calls id with
    | some c =>
      match c.phase with
      | .refreshing generation =>
        if s.now ≤ r.monotonic then (s.tick r.monotonic).fail settings id c generation f r else s
      | _ => s
    | none => s

end State

end
end

section
variable {F E : Type}

/-- A call is between its two critical sections. -/
def Refreshing (s : State F E) (id : Nat) : Prop :=
  ∃ c generation, s.calls id = some c ∧ c.phase = .refreshing generation

variable {s : State F E} {id id' : Nat} {c : Call F E}

variable {phase : Phase F E}

theorem Phase.eq_entering (h : phase.isEntering = true) : phase = .entering := by
  cases phase with
  | entering => rfl
  | refreshing | waiting | returned | raised => cases h

theorem setCall_self (s : State F E) (id : Nat) (c : Call F E) : (s.setCall id c).calls id = some c := by
  show Function.update s.calls id (some c) id = some c
  rw [Function.update_self]

theorem setCall_ne (s : State F E) (c : Call F E) (h : id' ≠ id) : (s.setCall id c).calls id' = s.calls id' := by
  show Function.update s.calls id (some c) id' = s.calls id'
  rw [Function.update_of_ne h]

theorem refreshing_setCall_ne (h : id' ≠ id) : Refreshing (s.setCall id c) id' ↔ Refreshing s id' := by
  unfold Refreshing
  rw [setCall_ne s c h]

/-- A call that comes to another phase than a refresh is not at one. -/
theorem not_refreshing_setCall (h : ∀ generation, c.phase ≠ .refreshing generation) :
    ¬ Refreshing (s.setCall id c) id := by
  intro hr
  obtain ⟨c', generation, hc', hphase⟩ := hr
  rw [setCall_self] at hc'
  cases hc'
  exact h generation hphase

theorem refreshing_of_setCall (h : ∀ generation, c.phase ≠ .refreshing generation)
    (hr : Refreshing (s.setCall id c) id') : Refreshing s id' := by
  by_cases heq : id' = id
  · exact absurd (heq ▸ hr) (not_refreshing_setCall h)
  · exact (refreshing_setCall_ne heq).mp hr

/-- A call that goes on to another phase than a refresh has left it. -/
theorem refreshing_setCall (h : ∀ generation, c.phase ≠ .refreshing generation) (id' : Nat) :
    Refreshing (s.setCall id c) id' ↔ Refreshing s id' ∧ id' ≠ id := by
  constructor
  · intro hr
    refine ⟨refreshing_of_setCall h hr, fun heq => ?_⟩
    exact not_refreshing_setCall h (heq ▸ hr)
  · intro hr
    exact (refreshing_setCall_ne hr.2).mpr hr.1

theorem refreshing_setCall_of_not (h : ∀ generation, c.phase ≠ .refreshing generation) (hid : ¬ Refreshing s id)
    (id' : Nat) : Refreshing (s.setCall id c) id' ↔ Refreshing s id' := by
  rw [refreshing_setCall h]
  exact ⟨And.left, fun hr => ⟨hr, fun heq => hid (heq ▸ hr)⟩⟩

theorem refreshing_notifyAll : Refreshing s.notifyAll id ↔ Refreshing s id := by
  constructor
  · intro hr
    obtain ⟨c', generation, hc', hphase⟩ := hr
    obtain ⟨old, hold, rfl⟩ := Option.map_eq_some_iff.mp hc'
    refine ⟨old, generation, hold, ?_⟩
    cases hp : old.phase with
    | waiting g n =>
      rw [hp] at hphase
      cases hphase
    | entering | refreshing | returned | raised =>
      rw [hp] at hphase
      exact hp ▸ hphase
  · intro hr
    obtain ⟨old, generation, hold, hphase⟩ := hr
    refine ⟨old, generation, ?_, hphase⟩
    show (s.calls id).map _ = some old
    rw [hold, Option.map_some, hphase]

theorem not_refreshing_of_none (hid : s.calls id = none) : ¬ Refreshing s id := by
  intro hr
  obtain ⟨c, generation, hc, -⟩ := hr
  rw [hid] at hc
  cases hc

theorem not_refreshing_of_phase (hid : s.calls id = some c) (h : ∀ generation, c.phase ≠ .refreshing generation) :
    ¬ Refreshing s id := by
  intro hr
  obtain ⟨c', generation, hc', hg⟩ := hr
  rw [hid] at hc'
  cases hc'
  exact h generation hg

/-- A step that leaves the provider and those at a refresh as they are. -/
structure Quiet (s s' : State F E) : Prop where
  provider : s'.provider = s.provider
  now : s'.now = s.now
  same : ∀ id, Refreshing s' id ↔ Refreshing s id

theorem Quiet.goto (h : ∀ generation, phase ≠ .refreshing generation) (hid : ¬ Refreshing s id) :
    Quiet s (s.goto id c phase) := ⟨rfl, rfl, refreshing_setCall_of_not h hid⟩

/-- A refresh that completes: nobody else is at one, and those that waited are notified. -/
theorem refreshing_complete (h : ∀ generation, phase ≠ .refreshing generation) (p : Provider F E)
    (failed : List Nat) (id' : Nat) :
    Refreshing (((({ s with failed := failed } : State F E).withProvider p).notifyAll).goto id c phase) id' ↔
      Refreshing s id' ∧ id' ≠ id := by
  rw [State.goto, refreshing_setCall h, refreshing_notifyAll]
  exact Iff.rfl

/-- The calls after a refresh has completed: those that waited are notified. -/
theorem notified_calls (p : Provider F E) (phase : Phase F E) {id' : Nat} {c' : Call F E}
    (hc' : (((s.withProvider p).notifyAll).goto id c phase).calls id' = some c') (hne : id' ≠ id) :
    ∃ old, s.calls id' = some old ∧ c'.since = old.since ∧ c'.forceRefresh = old.forceRefresh ∧
      c'.entered = old.entered ∧
      ((c'.phase = old.phase ∧ ∀ generation notified, old.phase ≠ .waiting generation notified) ∨
        ∃ generation notified, old.phase = .waiting generation notified ∧ c'.phase = .waiting generation true) := by
  rw [State.goto, setCall_ne _ _ hne] at hc'
  obtain ⟨old, hold, rfl⟩ := Option.map_eq_some_iff.mp hc'
  refine ⟨old, hold, ?_⟩
  cases hphase : old.phase with
  | waiting generation notified => exact ⟨rfl, rfl, rfl, .inr ⟨generation, notified, rfl, rfl⟩⟩
  | entering | refreshing | returned | raised => exact ⟨rfl, rfl, rfl, .inl ⟨hphase, nofun⟩⟩

end

section
variable {F : Type} [LinearOrder F] {E : Type} {ops : FloatOps F} (settings : Settings ops)

/-- A label that comes to nothing; of a failure that is what is left of its conditions. -/
def Idle (s : State F E) : Label F E → Prop
  | .fail id _ r => Refreshing s id → ¬ s.now ≤ r.monotonic
  | _ => True

/-- The effect of a label, if it has one. -/
inductive Steps (s : State F E) : Label F E → State F E → Prop where
  | stay {label : Label F E} (idle : Idle s label) : Steps s label s
  | call {id : Nat} {forceRefresh : Bool} {reading : F} (clock : s.now ≤ reading) (free : s.calls id = none) :
      Steps s (.call id forceRefresh reading) ((s.tick reading).setCall id
        ⟨forceRefresh, s.turn, ops.add reading settings.totalDeadlineSeconds, none, .entering⟩)
  | enter {id : Nat} {c : Call F E} {reading reading' : F} (hid : s.calls id = some c) (phase : c.phase = .entering)
      (clock : s.now ≤ reading) (le : reading ≤ reading') :
      Steps s (.enter id reading reading') ((s.tick reading').enter settings id c reading reading')
  | resume {id : Nat} {c : Call F E} {generation : Nat} {notified : Bool} {reading : F} (hid : s.calls id = some c)
      (phase : c.phase = .waiting generation notified) (clock : s.now ≤ reading) :
      Steps s (.resume id reading) ((s.tick reading).await ops id c generation reading)
  | succeed {id : Nat} {c : Call F E} {generation : Nat} {evidence : E} {reading : F} (hid : s.calls id = some c)
      (phase : c.phase = .refreshing generation) (clock : s.now ≤ reading) :
      Steps s (.succeed id evidence reading) ((s.tick reading).succeed ops id c generation evidence reading)
  | fail {id : Nat} {c : Call F E} {generation : Nat} {f : Failure F} {r : Readings F} (hid : s.calls id = some c)
      (phase : c.phase = .refreshing generation) (clock : s.now ≤ r.monotonic) :
      Steps s (.fail id f r) ((s.tick r.monotonic).fail settings id c generation f r)

theorem steps (s : State F E) (label : Label F E) : Steps settings s label (s.next settings label) := by
  unfold State.next
  cases label with
  | call id forceRefresh reading =>
    dsimp only
    split_ifs with h
    · exact .call h.1 h.2
    · exact .stay trivial
  | enter id reading reading' =>
    dsimp only
    cases hid : s.calls id with
    | none => exact .stay trivial
    | some c =>
      dsimp only
      split_ifs with h
      · exact .enter hid (Phase.eq_entering h.2.2) h.1 h.2.1
      · exact .stay trivial
  | resume id reading =>
    dsimp only
    cases hid : s.calls id with
    | none => exact .stay trivial
    | some c =>
      dsimp only
      cases hphase : c.phase with
      | waiting generation notified =>
        dsimp only
        split_ifs with h
        · exact .resume hid hphase h
        · exact .stay trivial
      | entering | refreshing | returned | raised => exact .stay trivial
  | succeed id evidence reading =>
    dsimp only
    cases hid : s.calls id with
    | none => exact .stay trivial
    | some c =>
      dsimp only
      cases hphase : c.phase with
      | refreshing generation =>
        dsimp only
        split_ifs with h
        · exact .succeed hid hphase h
        · exact .stay trivial
      | entering | waiting | returned | raised => exact .stay trivial
  | fail id f r =>
    dsimp only
    cases hid : s.calls id with
    | none => exact .stay fun hr => absurd hr (not_refreshing_of_none hid)
    | some c =>
      dsimp only
      cases hphase : c.phase with
      | refreshing generation =>
        dsimp only
        split_ifs with h
        · exact .fail hid hphase h
        · exact .stay fun _ => h
      | entering | waiting | returned | raised =>
        refine .stay fun hr => absurd hr (not_refreshing_of_phase hid fun generation hg => ?_)
        rw [hphase] at hg
        cases hg

section
variable {settings} {s : State F E} {id : Nat} {c : Call F E}

variable {reading : F}

theorem next_call (clock : s.now ≤ reading) (free : s.calls id = none) (forceRefresh : Bool) :
    s.next settings (.call id forceRefresh reading) = (s.tick reading).setCall id
      ⟨forceRefresh, s.turn, ops.add reading settings.totalDeadlineSeconds, none, .entering⟩ := if_pos ⟨clock, free⟩

theorem next_enter {reading' : F} (hid : s.calls id = some c) (hphase : c.phase = .entering)
    (hclock : s.now ≤ reading) (hle : reading ≤ reading') :
    s.next settings (.enter id reading reading') = (s.tick reading').enter settings id c reading reading' := by
  unfold State.next
  simp only [hid, hphase, Phase.isEntering, hclock, hle, and_self, if_pos]

theorem next_fail {generation : Nat} {f : Failure F} {r : Readings F} (hid : s.calls id = some c)
    (hphase : c.phase = .refreshing generation) (hclock : s.now ≤ r.monotonic) :
    s.next settings (.fail id f r) = (s.tick r.monotonic).fail settings id c generation f r := by
  unfold State.next
  simp only [hid, hphase, if_pos hclock]

/-- A call that the cache does not answer begins a refresh when none is under way and no backoff is active. -/
theorem enter_starts {reading' : F}
    (hcached : s.provider.cached.filter (State.answers settings { c with entered := some reading } reading) = none)
    (hidle : s.provider.refreshInFlight = false) (hcircuit : s.provider.circuitOpenUntil ≤ reading)
    (hdelay : s.provider.nextAttemptAt ≤ reading) :
    s.enter settings id c reading reading' =
      (s.withProvider { s.provider with refreshInFlight := true }).goto id { c with entered := some reading }
        (.refreshing (s.provider.refreshGeneration + 1)) := by
  have hbackoff : backoffActive ops s.provider reading = none := by
    unfold backoffActive
    rw [if_neg hcircuit.not_gt, if_neg hdelay.not_gt]
  unfold State.enter
  simp only [hcached, hidle, hbackoff, Bool.false_eq_true, if_false]

end

/-- Any number of threads at one provider. -/
def threads : Machine (State F E) (Label F E) Unit where
  step s label := ((), s.next settings label)

/-- A provider that nobody has asked yet. -/
def fresh (ops : FloatOps F) (now : F) : State F E where
  provider :=
    { cached := none, consecutiveFailures := 0, nextAttemptAt := ops.zero, circuitOpenUntil := ops.zero,
      refreshInFlight := false, refreshGeneration := 0, refreshError := none, refreshErrorGeneration := 0 }
  now := now
  turn := 0
  failed := []
  calls _ := none

end
end TraderBot.Evidence
