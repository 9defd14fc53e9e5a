import TraderBot.Evidence.SingleFlight

/-! # The provider recovers from failures

The flag is cleared after the failure handler has returned. An exception of the handler
itself, at the 1025th failure in a row or at a date that has no UTC time, leaves it set:
from then on no call refreshes anything. -/
namespace TraderBot.Evidence
open TraderBot.Lib

section
variable {F E : Type} {s : State F E} {id : Nat} {c : Call F E}

/-- Nobody waits that has not been notified. -/
def AllNotified (s : State F E) : Prop :=
  ∀ id c generation notified, s.calls id = some c → c.phase = .waiting generation notified → notified = true

theorem allNotified_complete (p : Provider F E) (failed : List Nat) {phase : Phase F E}
    (h : ∀ generation notified, phase ≠ .waiting generation notified) :
    AllNotified (((({ s with failed := failed } : State F E).withProvider p).notifyAll).goto id c phase) := by
  intro id' c' generation notified hc' hphase
  by_cases heq : id' = id
  · rw [heq, State.goto, setCall_self] at hc'
    cases hc'
    exact absurd hphase (h generation notified)
  · obtain ⟨old, hold, -, -, -, ⟨hsame, hnot⟩ | ⟨g, n, -, hwaiting⟩⟩ := notified_calls p phase hc' heq
    · exact absurd (hsame.symm.trans hphase) (hnot generation notified)
    · cases hwaiting.symm.trans hphase
      rfl

end

section
variable {F : Type} [LinearOrder F] {E : Type} {ops : FloatOps F} (settings : Settings ops)

/-- While nobody is at a refresh the flag is clear. -/
def Unwedged (s : State F E) : Prop := (∀ id, ¬ Refreshing s id) → s.provider.refreshInFlight = false

/-- The `retry_after` of `_record_failure`. -/
def retryAfterOf (ops : FloatOps F) (f : Failure F) (r : Readings F) : Option F :=
  if f.rateLimited then retryAfterSeconds ops f.retryAfter r.now else some ops.zero

/-- A failing call records its generation, wakes who waits and sets a delay within the bounds;
the first call after the delay that the cache does not answer attempts a refresh. -/
def Recovers (s : State F E) : Label F E → Prop
  | .fail id f r =>
    ∀ c generation, s.calls id = some c → c.phase = .refreshing generation → s.now ≤ r.monotonic →
      let s' := s.next settings (.fail id f r)
      s'.provider.refreshGeneration = generation ∧ s'.provider.refreshErrorGeneration = generation ∧
        s'.provider.refreshError.isSome = true ∧ s'.provider.refreshInFlight = false ∧ AllNotified s' ∧
        ∃ retryAfter delay, retryAfterOf ops f r = some retryAfter ∧
          s'.provider.nextAttemptAt = ops.add r.monotonic delay ∧ delay ≤ max settings.backoffMaxSeconds retryAfter
  | .enter id reading reading' =>
    ∀ c, s.calls id = some c → c.phase = .entering → s.now ≤ reading → reading ≤ reading' →
      (∀ id', ¬ Refreshing s id') → s.provider.nextAttemptAt ≤ reading →
      s.provider.cached.filter (State.answers settings { c with entered := some reading } reading) = none →
      Refreshing (s.next settings (.enter id reading reading')) id
  | _ => True

/-- The handler gets through: the count of failures is in the range of floats, and the clock and
a date of the header have a time in UTC. -/
def Handleable (p : Provider F E) (f : Failure F) (r : Readings F) : Prop :=
  p.consecutiveFailures < 1024 ∧ (f.rateLimited = true → ∀ retryAt, f.retryAfter = some (.date retryAt) →
    r.now.2 ≠ none ∧ (DateTime.toUtc retryAt).isSome = true ∧ (DateTime.toUtc r.now).isSome = true)

def Handled (s : State F E) : Label F E → Prop
  | .fail id f r => Refreshing s id → s.now ≤ r.monotonic → Handleable s.provider f r
  | _ => True

/-! ## The handler -/

variable {settings} {p : Provider F E} {f : Failure F} {r : Readings F}

theorem boundedDelay_isSome {n : Nat} {jitter : F} :
    (boundedDelay settings n jitter).isSome = true ↔ n - 1 < 1024 := by
  unfold boundedDelay FloatOps.timesPower
  by_cases h : n - 1 < 1024
  · rw [if_pos h]
    exact ⟨fun _ => h, fun _ => rfl⟩
  · rw [if_neg h]
    exact ⟨nofun, fun hlt => absurd hlt h⟩

theorem boundedDelay_le {n : Nat} {jitter bounded : F} (h : boundedDelay settings n jitter = some bounded) :
    bounded ≤ settings.backoffMaxSeconds := by
  obtain ⟨exponential, -, rfl⟩ := Option.map_eq_some_iff.mp h
  exact min_le_right _ _

theorem retryAfterSeconds_isSome {value : Option (RetryAfter F)} {now : DateTime × Option Int} :
    (retryAfterSeconds ops value now).isSome = true ↔ ∀ retryAt, value = some (.date retryAt) →
      now.2 ≠ none ∧ (DateTime.toUtc retryAt).isSome = true ∧ (DateTime.toUtc now).isSome = true := by
  cases value with
  | none => exact ⟨fun _ _ h => (nomatch h), fun _ => rfl⟩
  | some value =>
    cases value with
    | seconds | nan | unreadable => exact ⟨fun _ _ h => (nomatch h), fun _ => rfl⟩
    | date retryAt =>
      have hone : (∀ other, some (RetryAfter.date (F := F) retryAt) = some (.date other) →
          now.2 ≠ none ∧ (DateTime.toUtc other).isSome = true ∧ (DateTime.toUtc now).isSome = true) ↔
          now.2 ≠ none ∧ (DateTime.toUtc retryAt).isSome = true ∧ (DateTime.toUtc now).isSome = true :=
        ⟨fun h => h retryAt rfl, fun h other heq => by cases heq; exact h⟩
      rw [hone]
      unfold retryAfterSeconds
      dsimp only
      by_cases hnaive : now.2 = none
      · rw [if_pos hnaive]
        exact ⟨nofun, fun h => absurd hnaive h.1⟩
      · rw [if_neg hnaive]
        cases DateTime.toUtc retryAt with
        | none => simp
        | some at' => cases DateTime.toUtc now <;> simp [hnaive]

theorem retryAfterOf_isSome : (retryAfterOf ops f r).isSome = true ↔ (f.rateLimited = true →
    ∀ retryAt, f.retryAfter = some (.date retryAt) →
      r.now.2 ≠ none ∧ (DateTime.toUtc retryAt).isSome = true ∧ (DateTime.toUtc r.now).isSome = true) := by
  unfold retryAfterOf
  by_cases h : f.rateLimited = true
  · rw [if_pos h, retryAfterSeconds_isSome]
    exact ⟨fun hall _ => hall, fun hall => hall h⟩
  · rw [if_neg h]
    exact ⟨fun _ hlimited => absurd hlimited h, fun _ => rfl⟩

theorem retryAfterSeconds_nonneg {value : Option (RetryAfter F)} {now : DateTime × Option Int} {x : F}
    (h : retryAfterSeconds ops value now = some x) : ops.zero ≤ x := by
  unfold retryAfterSeconds at h
  split at h
  · exact (Option.some.inj h).le
  · exact (Option.some.inj h).le
  · exact (Option.some.inj h).le
  · exact Option.some.inj h ▸ le_max_right _ _
  · split_ifs at h
    obtain ⟨at', -, h⟩ := Option.bind_eq_some_iff.mp h
    obtain ⟨now', -, rfl⟩ := Option.map_eq_some_iff.mp h
    exact le_max_right _ _

theorem retryAfterOf_nonneg {x : F} (h : retryAfterOf ops f r = some x) : ops.zero ≤ x := by
  unfold retryAfterOf at h
  split_ifs at h
  · exact retryAfterSeconds_nonneg h
  · exact (Option.some.inj h).le

/-- What the handler does when it gets through, and what is left of the provider when it does not. -/
theorem recordFailure_cases (settings : Settings ops) (p : Provider F E) (f : Failure F) (r : Readings F) :
    (Handleable p f r ∧ ∃ retryAfter delay message, retryAfterOf ops f r = some retryAfter ∧
      delay ≤ max settings.backoffMaxSeconds retryAfter ∧ ops.zero ≤ delay ∧
      recordFailure settings p f r =
        ({ p with
            consecutiveFailures := p.consecutiveFailures + 1
            nextAttemptAt := ops.add r.monotonic delay
            circuitOpenUntil :=
              if f.rateLimited ∨ settings.circuitFailureThreshold ≤ p.consecutiveFailures + 1 then
                ops.add r.monotonic delay
              else p.circuitOpenUntil }, some (delay, message))) ∨
    ¬ Handleable p f r ∧
      recordFailure settings p f r = ({ p with consecutiveFailures := p.consecutiveFailures + 1 }, none) := by
  have hbounded : (boundedDelay settings (p.consecutiveFailures + 1) r.jitter).isSome = true ↔
      p.consecutiveFailures + 1 - 1 < 1024 := boundedDelay_isSome
  have hretry : (retryAfterOf ops f r).isSome = true ↔ _ := retryAfterOf_isSome
  unfold recordFailure
  dsimp only
  cases hb : boundedDelay settings (p.consecutiveFailures + 1) r.jitter with
  | none =>
    rw [hb] at hbounded
    exact .inr ⟨fun h => (nomatch hbounded.mpr h.1), rfl⟩
  | some bounded =>
    rw [hb] at hbounded
    dsimp only
    cases hr : retryAfterOf ops f r with
    | none =>
      rw [hr] at hretry
      refine .inr ⟨fun h => (nomatch hretry.mpr h.2), ?_⟩
      have hsame : (if f.rateLimited then retryAfterSeconds ops f.retryAfter r.now else some ops.zero) = none := hr
      rw [hsame]
    | some retryAfter =>
      rw [hr] at hretry
      have hsame : (if f.rateLimited then retryAfterSeconds ops f.retryAfter r.now else some ops.zero) =
          some retryAfter := hr
      rw [hsame]
      exact .inl ⟨⟨hbounded.mp rfl, hretry.mp rfl⟩, retryAfter, max bounded retryAfter, _, rfl,
        max_le_max_right retryAfter (boundedDelay_le hb), le_max_of_le_right (retryAfterOf_nonneg hr), rfl⟩

/-! ## Steps -/

variable {s s' : State F E} {id : Nat} {c : Call F E}

/-- One call at most is at a refresh, which then was due; an open circuit lasts as long as the backoff. -/
structure Paced (s : State F E) : Prop where
  single : ∀ id id', Refreshing s id → Refreshing s id' → id = id'
  flight : ∀ id, Refreshing s id → s.provider.refreshInFlight = true
  due : ∀ id, Refreshing s id → s.provider.circuitOpenUntil ≤ s.now
  circuit : s.provider.circuitOpenUntil ≤ s.provider.nextAttemptAt

theorem Paced.of_none (hnone : ∀ id, ¬ Refreshing s id)
    (hcircuit : s.provider.circuitOpenUntil ≤ s.provider.nextAttemptAt) : Paced s where
  single id _ hr := absurd hr (hnone id)
  flight id hr := absurd hr (hnone id)
  due id hr := absurd hr (hnone id)
  circuit := hcircuit

/-- What a step does to the flag, the pace and those at a refresh. -/
inductive Moves (s s' : State F E) : Label F E → Prop where
  | quiet {label} (clock : s.now ≤ s'.now) (provider : s'.provider = s.provider)
    (same : ∀ id, Refreshing s' id ↔ Refreshing s id) (handled : Handled s label) : Moves s s' label
  | starts {id reading reading'} (idle : s.provider.refreshInFlight = false)
    (due : s.provider.circuitOpenUntil ≤ s'.now)
    (provider : s'.provider = { s.provider with refreshInFlight := true })
    (refreshing : ∀ id', Refreshing s' id' ↔ Refreshing s id' ∨ id' = id) :
    Moves s s' (.enter id reading reading')
  | succeeds {id evidence reading} (refreshing : Refreshing s id) (flag : s'.provider.refreshInFlight = false)
    (pace : s'.provider.circuitOpenUntil ≤ s'.provider.nextAttemptAt)
    (left : ∀ id', Refreshing s' id' ↔ Refreshing s id' ∧ id' ≠ id) : Moves s s' (.succeed id evidence reading)
  | fails {id : Nat} {f : Failure F} {r : Readings F} (refreshing : Refreshing s id) (clock : s.now ≤ r.monotonic)
    (flag : Handleable s.provider f r ∧ s'.provider.refreshInFlight = false ∨
      ¬ Handleable s.provider f r ∧ s'.provider.refreshInFlight = s.provider.refreshInFlight)
    (pace : s'.provider.circuitOpenUntil ≤ s'.provider.nextAttemptAt)
    (left : ∀ id', Refreshing s' id' ↔ Refreshing s id' ∧ id' ≠ id) : Moves s s' (.fail id f r)

theorem Quiet.await (hid : ¬ Refreshing s id) (generation : Nat) (reading : F) :
    Quiet s (s.await ops id c generation reading) := by
  unfold State.await
  by_cases hlt : s.provider.refreshGeneration < generation
  · rw [if_pos hlt]
    split_ifs
    · exact .goto nofun hid
    · exact .goto nofun hid
  rw [if_neg hlt]
  cases if s.provider.refreshErrorGeneration = generation then s.provider.refreshError else none with
  | some error => exact .goto nofun hid
  | none =>
    dsimp only
    cases s.provider.cached with
    | none => exact .goto nofun hid
    | some stored => exact .goto nofun hid

/-- A call that enters leaves the others alone, or it starts a refresh. -/
theorem enter_cases (settings : Settings ops) (hid : ¬ Refreshing s id) (c : Call F E) (reading reading' : F) :
    Quiet s (s.enter settings id c reading reading') ∨
      s.provider.refreshInFlight = false ∧ s.provider.circuitOpenUntil ≤ reading ∧
        (s.enter settings id c reading reading').now = s.now ∧
        (s.enter settings id c reading reading').provider = { s.provider with refreshInFlight := true } ∧
        ∀ id', Refreshing (s.enter settings id c reading reading') id' ↔ Refreshing s id' ∨ id' = id := by
  unfold State.enter
  dsimp only
  cases s.provider.cached.filter (State.answers settings { c with entered := some reading } reading) with
  | some stored => exact .inl (.goto nofun hid)
  | none =>
    dsimp only
    by_cases hflight : s.provider.refreshInFlight = true
    · rw [if_pos hflight]
      exact .inl (.await hid _ _)
    rw [if_neg hflight]
    cases hbackoff : backoffActive ops s.provider reading with
    | some e => exact .inl (.goto nofun hid)
    | none =>
      refine .inr ⟨Bool.eq_false_iff.mpr hflight, ?_, rfl, rfl, fun id' => ?_⟩
      · unfold backoffActive at hbackoff
        split_ifs at hbackoff with hopen
        exact le_of_not_gt hopen
      · by_cases heq : id' = id
        · exact ⟨fun _ => .inr heq, fun _ => heq ▸ ⟨_, _, setCall_self _ _ _, rfl⟩⟩
        · rw [State.goto, refreshing_setCall_ne heq]
          exact ⟨.inl, fun h => h.resolve_right heq⟩

theorem succeed_moves (hr : Refreshing s id) (generation : Nat) (evidence : E) (reading : F) :
    Moves s ((s.tick reading).succeed ops id c generation evidence reading) (.succeed id evidence reading) := by
  have hdone : ∀ stored g, (.returned stored none : Phase F E) ≠ .refreshing g := nofun
  exact .succeeds hr rfl le_rfl fun id' => refreshing_complete (s := s.tick reading) (hdone _) _ s.failed id'

theorem fail_moves (h : Paced s) (hr : Refreshing s id) (hclock : s.now ≤ r.monotonic) (generation : Nat) :
    Moves s ((s.tick r.monotonic).fail settings id c generation f r) (.fail id f r) := by
  have hdone : ∀ e g, (.raised e : Phase F E) ≠ .refreshing g := nofun
  unfold State.fail
  dsimp only
  obtain ⟨hhandled, retryAfter, delay, message, -, -, hdelay, heq⟩ | ⟨hhandled, heq⟩ :=
    recordFailure_cases settings s.provider f r
  · rw [show (s.tick r.monotonic).provider = s.provider from rfl, heq]
    refine .fails hr hclock (.inl ⟨hhandled, rfl⟩) ?_ fun id' => refreshing_complete (hdone _) _ _ id'
    show (if _ then ops.add r.monotonic delay else s.provider.circuitOpenUntil) ≤ ops.add r.monotonic delay
    split_ifs
    · exact le_rfl
    · exact ((h.due id hr).trans hclock).trans (ops.le_add hdelay)
  · rw [show (s.tick r.monotonic).provider = s.provider from rfl, heq]
    exact .fails hr hclock (.inr ⟨hhandled, rfl⟩) h.circuit fun id' => refreshing_setCall (hdone _) id'

theorem Moves.of_quiet {label : Label F E} {reading : F} (h : Quiet (s.tick reading) s') (hclock : s.now ≤ reading)
    (hhandled : Handled s label) : Moves s s' label := .quiet (h.now.ge.trans' hclock) h.provider h.same hhandled

theorem handled_of_idle {label : Label F E} (h : Idle s label) : Handled s label := by
  cases label with
  | fail id f r => exact fun hr hclock => absurd hclock (h hr)
  | call | enter | resume | succeed => trivial

variable (settings) in
theorem moves (h : Paced s) (label : Label F E) : Moves s (s.next settings label) label := by
  have hstep := steps settings s label
  generalize s.next settings label = s' at hstep ⊢
  cases hstep with
  | stay idle => exact .quiet le_rfl rfl (fun _ => Iff.rfl) (handled_of_idle idle)
  | call clock free =>
    exact .quiet clock rfl (refreshing_setCall_of_not (by nofun) (not_refreshing_of_none free)) trivial
  | enter hid phase clock le =>
    have hnot := not_refreshing_of_phase hid fun generation hg => nomatch phase.symm.trans hg
    obtain hquiet | ⟨hidle, hdue, hnow, hprovider, hrefreshing⟩ := enter_cases settings (s := s.tick _) hnot _ _ _
    · exact .of_quiet hquiet (clock.trans le) trivial
    · exact .starts hidle (hnow.ge.trans' (hdue.trans le)) hprovider hrefreshing
  | @resume id c generation notified reading hid phase clock =>
    have hnot : ¬ Refreshing (s.tick reading) id := not_refreshing_of_phase hid fun g hg => nomatch phase.symm.trans hg
    exact .of_quiet (Quiet.await hnot _ _) clock trivial
  | succeed hid phase clock => exact succeed_moves ⟨_, _, hid, phase⟩ _ _ _
  | fail hid phase clock => exact fail_moves h ⟨_, _, hid, phase⟩ clock _

theorem Paced.next (h : Paced s) (label : Label F E) : Paced (s.next settings label) := by
  have hmoves := moves settings h label
  generalize s.next settings label = s' at hmoves ⊢
  cases hmoves with
  | quiet clock provider same _ =>
    refine ⟨fun id id' hr hr' => h.single id id' ((same id).mp hr) ((same id').mp hr'), fun id hr => ?_,
      fun id hr => ?_, ?_⟩
    · exact provider ▸ h.flight id ((same id).mp hr)
    · exact provider ▸ (h.due id ((same id).mp hr)).trans clock
    · exact provider ▸ h.circuit
  | starts idle due provider refreshing =>
    have honly : ∀ id, ¬ Refreshing s id := fun id hr => Bool.false_ne_true (idle.symm.trans (h.flight id hr))
    have hone := fun id' hr => ((refreshing id').mp hr).resolve_left (honly id')
    refine ⟨fun id id' hr hr' => (hone id hr).trans (hone id' hr').symm, fun id _ => ?_, fun id _ => ?_, ?_⟩
    · rw [provider]
    · rw [provider]
      exact due
    · rw [provider]
      exact h.circuit
  | succeeds refreshing flag pace left | fails refreshing clock flag pace left =>
    have hnone := fun id' hr => ((left id').mp hr).2 (h.single _ _ ((left id').mp hr).1 refreshing)
    exact .of_none hnone pace

variable (settings) in
/-- A step leaves the provider unwedged exactly when the handler gets through, where it runs. -/
theorem unwedged_next_iff (h : Paced s) (hs : Unwedged s) (label : Label F E) :
    Unwedged (s.next settings label) ↔ Handled s label := by
  have hmoves := moves settings h label
  generalize s.next settings label = s' at hmoves ⊢
  cases hmoves with
  | quiet clock provider same handled =>
    refine ⟨fun _ => handled, fun _ hnone => ?_⟩
    rw [provider]
    exact hs fun id hr => hnone id ((same id).mpr hr)
  | starts idle due provider refreshing =>
    exact ⟨fun _ => trivial, fun _ hnone => absurd ((refreshing _).mpr (.inr rfl)) (hnone _)⟩
  | succeeds refreshing flag pace left => exact ⟨fun _ => trivial, fun _ _ => flag⟩
  | fails refreshing clock flag pace left =>
    have hnone := fun id' hr => ((left id').mp hr).2 (h.single _ _ ((left id').mp hr).1 refreshing)
    obtain ⟨hhandled, hflag⟩ | ⟨hhandled, hflag⟩ := flag
    · exact ⟨fun _ _ _ => hhandled, fun _ _ => hflag⟩
    · refine ⟨fun hun => ?_, fun hall => absurd (hall refreshing clock) hhandled⟩
      have hclear := hun hnone
      rw [hflag, h.flight _ refreshing] at hclear
      cases hclear

/-! ## Recovery -/

/-- A failing call that the handler gets through, and a call after the delay. -/
theorem recovers_of_handled (h : Paced s) (hs : Unwedged s) {label : Label F E} (hl : Handled s label) :
    Recovers settings s label := by
  cases label with
  | call | resume | succeed => trivial
  | fail id f r =>
    intro c generation hid hphase hclock
    obtain ⟨-, retryAfter, delay, message, hretry, hbound, -, heq⟩ | ⟨hnot, -⟩ := recordFailure_cases settings
      s.provider f r
    · simp only [next_fail hid hphase hclock]
      unfold State.fail
      dsimp only
      rw [show (s.tick r.monotonic).provider = s.provider from rfl, heq]
      exact ⟨rfl, rfl, rfl, rfl, allNotified_complete _ _ nofun, retryAfter, delay, hretry, rfl, hbound⟩
    · exact absurd (hl ⟨c, generation, hid, hphase⟩ hclock) hnot
  | enter id reading reading' =>
    intro c hid hphase hclock hle hnone hdelay hcached
    have hcircuit := h.circuit.trans hdelay
    rw [next_enter hid hphase hclock hle, enter_starts (s := s.tick reading') hcached (hs hnone) hcircuit hdelay]
    exact ⟨_, _, setCall_self _ _ _, rfl⟩

theorem Paced.start (ops : FloatOps F) (now : F) : Paced (Evidence.fresh (E := E) ops now) := by
  have hnone : ∀ id, ¬ Refreshing (Evidence.fresh (E := E) ops now) id := fun id => not_refreshing_of_none rfl
  exact .of_none hnone le_rfl

variable (settings) in
theorem paced_after (now : F) (labels : List (Label F E)) :
    Paced ((threads settings).after (Evidence.fresh ops now) labels) :=
  Machine.invariant (fun s label (h : Paced s) => show Paced ((threads settings).next s label) from h.next label)
    (Paced.start ops now) labels

variable (settings) in
/-- The provider is never wedged and recovers from every failure exactly in the runs whose failures
the handler gets through. -/
theorem never_wedged_iff (now : F) (labels : List (Label F E)) :
    (∀ done, done <+: labels → Unwedged ((threads settings).after (Evidence.fresh ops now) done)) ∧
        (threads settings).Meets (Recovers settings) (Evidence.fresh ops now) labels ↔
      (threads settings).Meets Handled (Evidence.fresh ops now) labels := by
  have hthroughout : (∀ done, done <+: labels → Unwedged ((threads settings).after (Evidence.fresh ops now) done)) ↔
      (threads settings).Meets Handled (Evidence.fresh ops now) labels :=
    Machine.throughout_iff
      (fun s label _ (h : Paced s) _ => show Paced ((threads settings).next s label) from h.next label)
      (fun s label _ h hs => show Unwedged ((threads settings).next s label) ↔ _ from
        unwedged_next_iff settings h hs label)
      (Paced.start ops now) fun _ => rfl
  refine ⟨fun h => hthroughout.mp h.1, fun h => ⟨hthroughout.mpr h, ?_⟩⟩
  refine Machine.meets_of_meets (I := fun s => Paced s ∧ Unwedged s) (fun s label hs hl => ⟨?_, ?_, ?_⟩)
    ⟨Paced.start ops now, fun _ => rfl⟩ h
  · exact recovers_of_handled hs.1 hs.2 hl
  · exact hs.1.next label
  · exact (unwedged_next_iff settings hs.1 hs.2 label).mpr hl

end

/-! ## Wedged providers -/

/-- Rate limited by a server whose clock is at the end of the calendar, an hour west of Greenwich. -/
def limitedForever : Failure Int where
  httpStatus := some 429
  retryAfter := some (.date (⟨9999, 12, 31, 23, 59, 59, 0, by decide⟩, some (-3600000000)))
  detail := "Too many requests"

/-- One call, which the exchange refuses. -/
def refused : List (Label Int String) := [.call 0 false 0, .enter 0 0 0, .fail 0 limitedForever ⟨noon, 1, 0⟩]

/-- A call in an outage comes ten seconds after the one before it. -/
def attempt (n : Nat) : List (Label Int String) := [.call n false (10 * n), .enter n (10 * n) (10 * n)]

/-- Its refresh fails at once. -/
def failure (n : Nat) : Label Int String := .fail n timedOut ⟨noon, 10 * n, 0⟩

def outage : Nat → List (Label Int String)
  | 0 => []
  | n + 1 => outage n ++ (attempt n ++ [failure n])

/-- After a number of failed calls that is in the range of floats. -/
structure Out (n : Nat) (s : State Int String) : Prop where
  failures : s.provider.consecutiveFailures = n
  idle : s.provider.refreshInFlight = false
  cached : s.provider.cached = none
  delay : s.provider.nextAttemptAt ≤ 10 * n
  circuit : s.provider.circuitOpenUntil ≤ 10 * n
  clock : s.now ≤ 10 * n
  free : ∀ id, n ≤ id → s.calls id = none

/-- The call of an outage is at its refresh. -/
structure Attempts (n : Nat) (s s' : State Int String) : Prop where
  refreshing : ∃ c generation, s'.calls n = some c ∧ c.phase = .refreshing generation
  provider : s'.provider = { s.provider with refreshInFlight := true }
  clock : s'.now = 10 * n
  free : ∀ id, n < id → s'.calls id = none

theorem Out.attempts {n : Nat} {s : State Int String} (h : Out n s) :
    Attempts n s ((threads usualSettings).after s (attempt n)) := by
  let began : Call Int String := ⟨false, s.turn, 10 * n + 4, none, .entering⟩
  let s₁ := (s.tick (10 * n)).setCall n began
  let s₂ := (((s₁.tick (10 * n)).withProvider { s.provider with refreshInFlight := true })).goto n
    { began with entered := some (10 * n) } (.refreshing (s.provider.refreshGeneration + 1))
  have hcall : s.next usualSettings (.call n false (10 * n)) = s₁ := next_call h.clock (h.free n le_rfl) false
  have henter : s₁.next usualSettings (.enter n (10 * n) (10 * n)) = s₂ := by
    refine (next_enter (s := s₁) (c := began) (setCall_self _ _ _) rfl le_rfl le_rfl).trans ?_
    refine enter_starts (s := s₁.tick (10 * n)) ?_ h.idle h.circuit h.delay
    show s.provider.cached.filter _ = none
    rw [h.cached, Option.filter_none]
  have hafter : (threads usualSettings).after s (attempt n) = s₂ := by
    show (s.next usualSettings (.call n false (10 * n))).next usualSettings (.enter n (10 * n) (10 * n)) = _
    rw [hcall, henter]
  rw [hafter]
  refine ⟨⟨_, _, setCall_self _ _ _, rfl⟩, rfl, rfl, fun id hid => ?_⟩
  show (s₁.setCall n _).calls id = none
  rw [setCall_ne _ _ hid.ne', setCall_ne _ _ hid.ne']
  exact h.free id hid.le

theorem outage_out {n : Nat} (hn : n ≤ 1024) :
    Out n ((threads usualSettings).after (fresh wholeSeconds 0) (outage n)) := by
  induction n with
  | zero => exact ⟨rfl, rfl, rfl, le_rfl, le_rfl, le_rfl, fun _ _ => rfl⟩
  | succ n ih =>
    have hout := ih (by omega)
    have hattempts := hout.attempts
    rw [outage, Machine.after_append, Machine.after_append]
    generalize (threads usualSettings).after (fresh wholeSeconds 0) (outage n) = s at *
    generalize (threads usualSettings).after s (attempt n) = s' at *
    obtain ⟨c, generation, hid, hphase⟩ := hattempts.refreshing
    show Out (n + 1) (s'.next usualSettings (failure n))
    rw [failure, next_fail hid hphase hattempts.clock.le]
    obtain ⟨-, retryAfter, delay, message, hretry, hbound, -, heq⟩ | ⟨hnot, -⟩ := recordFailure_cases usualSettings
      s'.provider timedOut ⟨noon, 10 * n, 0⟩
    · have hfour : delay ≤ 4 := by
        cases hretry
        exact hbound
      unfold State.fail
      dsimp only
      rw [show (s'.tick (10 * n)).provider = s'.provider from rfl, heq]
      have hnext : (10 : Int) * n + delay ≤ 10 * (n + 1 : Nat) := by
        push_cast
        omega
      refine ⟨?_, rfl, ?_, hnext, ?_, ?_, fun id hle => ?_⟩
      · show s'.provider.consecutiveFailures + 1 = n + 1
        rw [hattempts.provider, hout.failures]
      · show s'.provider.cached = none
        rw [hattempts.provider, hout.cached]
      · show (if _ then (10 : Int) * n + delay else s'.provider.circuitOpenUntil) ≤ _
        rw [hattempts.provider]
        have hcircuit := hout.circuit
        split_ifs
        · exact hnext
        · show s.provider.circuitOpenUntil ≤ _
          push_cast
          omega
      · show (10 : Int) * n ≤ _
        push_cast
        omega
      · refine (setCall_ne _ _ (by omega)).trans ?_
        show Option.map _ (s'.calls id) = none
        rw [hattempts.free id (by omega), Option.map_none]
    · refine absurd ⟨?_, nofun⟩ hnot
      rw [hattempts.provider, hout.failures]
      omega

theorem outage_wedged {n : Nat} (hn : n = 1024) :
    ¬ Unwedged ((threads usualSettings).after (fresh wholeSeconds 0) (outage (n + 1))) := by
  have hout := outage_out hn.le
  have hattempts := hout.attempts
  have hs := paced_after usualSettings 0 (outage n ++ attempt n)
  rw [outage, Machine.after_append, Machine.after_append]
  rw [Machine.after_append] at hs
  generalize (threads usualSettings).after (fresh wholeSeconds 0) (outage n) = s at *
  generalize (threads usualSettings).after s (attempt n) = s' at *
  obtain ⟨c, generation, hid, hphase⟩ := hattempts.refreshing
  have hr : Refreshing s' n := ⟨c, generation, hid, hphase⟩
  intro hun
  have hhandled := (unwedged_next_iff usualSettings hs (fun hnone => absurd hr (hnone _)) (failure n)).mp hun
  have hfew := (hhandled hr hattempts.clock.le).1
  rw [hattempts.provider, hout.failures] at hfew
  omega

/-- The provider gets through 1024 failures in a row, and the next one leaves it wedged; so does
the first one where the exchange names a date that is past the calendar. -/
theorem outage_wedges :
    ¬ Unwedged ((threads usualSettings).after (fresh wholeSeconds 0) (outage 1025)) ∧
      ¬ Unwedged ((threads usualSettings).after (fresh wholeSeconds 0) refused) := by
  refine ⟨outage_wedged rfl, fun hun => ?_⟩
  have hs := paced_after (E := String) usualSettings 0 [.call 0 false 0, .enter 0 0 0]
  have hr : Refreshing ((threads usualSettings).after (fresh (E := String) wholeSeconds 0)
      [.call 0 false 0, .enter 0 0 0]) 0 := ⟨_, _, rfl, rfl⟩
  have hhandled := (unwedged_next_iff usualSettings hs (fun hnone => absurd hr (hnone _))
    (.fail 0 limitedForever ⟨noon, 1, 0⟩)).mp hun
  have hdate := ((hhandled hr (by decide)).2 rfl _ rfl).2.1
  revert hdate
  decide

end TraderBot.Evidence
