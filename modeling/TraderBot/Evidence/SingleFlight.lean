import TraderBot.Evidence.Provider

/-! # Single-flight evidence

A waiter knows its refresh by number, and the provider keeps the number of the last failure
only. Evidence is fresh as long as no refresh completes between the failure of another one
and the turn of those that waited for it. -/
namespace TraderBot.Evidence
open TraderBot.Lib

section
variable {F : Type} [LinearOrder F] {E : Type} {ops : FloatOps F} (settings : Settings ops)

/-- Evidence of less than the refresh interval before the call, which did not force a refresh,
or of a refresh that completed after the call had begun. -/
def Fresh (c : Call F E) (stored : Stored F E) : Prop :=
  (c.forceRefresh = false ∧
    ∃ reading ∈ c.entered, ops.sub reading stored.cachedAt < settings.refreshIntervalSeconds) ∨
    c.since < stored.completed

/-- What calls returned was fresh, and a refresh that failed gave none of those who waited for it anything. -/
def FreshAnswers (s : State F E) : Prop :=
  ∀ id c stored awaited, s.calls id = some c → c.phase = .returned stored awaited →
    Fresh settings c stored ∧ ∀ generation ∈ awaited, generation ∉ s.failed

/-- A call waits for a refresh that has failed, and has not been resumed since. -/
def Pending (s : State F E) : Prop :=
  ∃ id c generation notified, s.calls id = some c ∧ c.phase = .waiting generation notified ∧ generation ∈ s.failed

/-- No refresh completes while somebody still waits for one that failed; a failure may where nothing is cached. -/
def Undisturbed (s : State F E) : Label F E → Prop
  | .succeed id _ _ => Refreshing s id → ¬ Pending s
  | .fail id f r => Refreshing s id → (recordFailure settings s.provider f r).2.isSome = true → Pending s →
      s.provider.cached = none
  | _ => True

/-! ## What holds of every call -/

/-- What a call that waits can rely on, once its refresh is over. -/
def Settled (p : Provider F E) (failed : List Nat) (since generation : Nat) : Prop :=
  if generation ∈ failed then
    (p.refreshErrorGeneration = generation ∧ p.refreshError.isSome = true) ∨ p.cached = none
  else ∃ stored, p.cached = some stored ∧ since < stored.completed

def CallOk (p : Provider F E) (turn : Nat) (failed : List Nat) (c : Call F E) : Prop :=
  c.since < turn ∧
    match c.phase with
    | .entering | .raised _ => True
    | .refreshing generation => p.refreshInFlight = true ∧ generation = p.refreshGeneration + 1
    | .waiting generation _ =>
      generation ≤ p.refreshGeneration + 1 ∧ (generation ≤ p.refreshGeneration → Settled p failed c.since generation)
    | .returned stored awaited =>
      Fresh settings c stored ∧ ∀ generation ∈ awaited, generation ≤ p.refreshGeneration ∧ generation ∉ failed

/-- One refresh at most is under way; those that failed are over, up to one whose failure was not recorded. -/
structure Kept (s : State F E) : Prop where
  calls : ∀ id c, s.calls id = some c → CallOk settings s.provider s.turn s.failed c
  single : ∀ id id', Refreshing s id → Refreshing s id' → id = id'
  failed : ∀ generation ∈ s.failed, generation ≤ s.provider.refreshGeneration ∨
    s.provider.refreshInFlight = true ∧ ∀ id, ¬ Refreshing s id

variable {settings} {s : State F E} {id : Nat} {c : Call F E}

theorem Kept.fresh (h : Kept settings s) : FreshAnswers settings s := by
  intro id c stored awaited hc hphase
  have hok := (h.calls id c hc).2
  rw [hphase] at hok
  exact ⟨hok.1, fun generation hg => (hok.2 generation hg).2⟩

variable {p : Provider F E} {generation : Nat}

theorem CallOk.later {turn turn' : Nat} {failed : List Nat} (h : CallOk settings p turn failed c)
    (hle : turn ≤ turn') : CallOk settings p turn' failed c := ⟨h.1.trans_le hle, h.2⟩

theorem Kept.tick (h : Kept settings s) (reading : F) : Kept settings (s.tick reading) :=
  ⟨fun id c hc => (h.calls id c hc).later (Nat.le_succ _), h.single, h.failed⟩

/-- A call that comes to another phase than a refresh. -/
theorem Kept.setCall (h : Kept settings s) (hok : CallOk settings s.provider s.turn s.failed c)
    (hphase : ∀ generation, c.phase ≠ .refreshing generation) : Kept settings (s.setCall id c) := by
  have hother : ∀ id', Refreshing (s.setCall id c) id' → Refreshing s id' := fun _ => refreshing_of_setCall hphase
  refine ⟨fun id' c' hc' => ?_, fun id' id'' hr hr' => h.single _ _ (hother _ hr) (hother _ hr'),
    fun generation hg => ?_⟩
  · by_cases heq : id' = id
    · rw [heq, setCall_self] at hc'
      cases hc'
      exact hok
    · rw [setCall_ne s c heq] at hc'
      exact h.calls id' c' hc'
  · exact (h.failed generation hg).imp_right fun hnone => ⟨hnone.1, fun id' hr => hnone.2 id' (hother id' hr)⟩

theorem Kept.await (h : Kept settings s) (hsince : c.since < s.turn) {reading : F}
    (hle : generation ≤ s.provider.refreshGeneration + 1)
    (hsettled : generation ≤ s.provider.refreshGeneration → Settled s.provider s.failed c.since generation) :
    Kept settings (s.await ops id c generation reading) := by
  have hraised : ∀ e, Kept settings (s.goto id c (.raised e)) := fun e => h.setCall ⟨hsince, trivial⟩ nofun
  unfold State.await
  by_cases hlt : s.provider.refreshGeneration < generation
  · rw [if_pos hlt]
    split_ifs
    · exact hraised _
    · exact h.setCall ⟨hsince, hle, hsettled⟩ nofun
  rw [if_neg hlt]
  have hdone := hsettled (Nat.le_of_not_lt hlt)
  cases herror : if s.provider.refreshErrorGeneration = generation then s.provider.refreshError else none with
  | some error => exact hraised _
  | none =>
    dsimp only
    cases hcached : s.provider.cached with
    | none => exact hraised _
    | some stored =>
      unfold Settled at hdone
      by_cases hfailed : generation ∈ s.failed
      · -- the failure is still the last one, and it is what a waiter of it raises
        rw [if_pos hfailed, hcached] at hdone
        obtain ⟨hgeneration, hsome⟩ := hdone.resolve_right nofun
        rw [if_pos hgeneration] at herror
        rw [herror] at hsome
        cases hsome
      · rw [if_neg hfailed, hcached] at hdone
        obtain ⟨stored', heq, hlate⟩ := hdone
        cases heq
        refine h.setCall ⟨hsince, .inr hlate, fun g hg => ?_⟩ nofun
        cases hg
        exact ⟨Nat.le_of_not_lt hlt, hfailed⟩

theorem Kept.enter (h : Kept settings s) (hsince : c.since < s.turn) (reading reading' : F) :
    Kept settings (s.enter settings id c reading reading') := by
  unfold State.enter
  dsimp only
  cases hcached : s.provider.cached.filter (State.answers settings { c with entered := some reading } reading) with
  | some stored =>
    obtain ⟨-, hanswers⟩ := Option.filter_eq_some_iff.mp hcached
    unfold State.answers at hanswers
    rw [Bool.and_eq_true, Bool.not_eq_true', decide_eq_true_eq] at hanswers
    exact h.setCall ⟨hsince, .inl ⟨hanswers.1, reading, rfl, hanswers.2⟩, nofun⟩ nofun
  | none =>
    dsimp only
    by_cases hflight : s.provider.refreshInFlight = true
    · rw [if_pos hflight]
      refine h.await ?_ le_rfl fun hle => absurd hle (Nat.not_succ_le_self _)
      exact hsince
    rw [if_neg hflight]
    cases hbackoff : backoffActive ops s.provider reading with
    | some e => exact h.setCall ⟨hsince, trivial⟩ nofun
    | none =>
      -- nobody was refreshing, for the flag was clear
      have hnone : ∀ id', ¬ Refreshing s id' := by
        intro id' hr
        obtain ⟨c', generation, hc', hg⟩ := hr
        have hok := (h.calls id' c' hc').2
        rw [hg] at hok
        exact hflight hok.1
      have honly : ∀ id', Refreshing ((s.withProvider { s.provider with refreshInFlight := true }).goto id
          { c with entered := some reading } (.refreshing (s.provider.refreshGeneration + 1))) id' → id' = id := by
        intro id' hr
        by_contra hne
        exact hnone id' ((refreshing_setCall_ne hne).mp hr)
      refine ⟨fun id' c' hc' => ?_, fun id' id'' hr hr' => (honly _ hr).trans (honly _ hr').symm,
        fun generation hg => ?_⟩
      · by_cases heq : id' = id
        · rw [heq, State.goto, setCall_self] at hc'
          cases hc'
          exact ⟨hsince, rfl, rfl⟩
        · rw [State.goto, setCall_ne _ _ heq] at hc'
          have hok := h.calls id' c' hc'
          refine ⟨hok.1, ?_⟩
          cases hphase : c'.phase with
          | refreshing generation => exact absurd ⟨c', generation, hc', hphase⟩ (hnone id')
          | entering | raised | waiting | returned =>
            have hsame := hok.2
            rw [hphase] at hsame
            exact hsame
      · exact .inl ((h.failed generation hg).resolve_right fun hwedged => hflight hwedged.1)

/-- A refresh completes: its call goes on, and what the others wait for is settled. -/
theorem Kept.complete (h : Kept settings s) (hid : s.calls id = some c)
    (hrefreshing : c.phase = .refreshing generation) (failed : List Nat) {phase : Phase F E}
    (hgeneration : p.refreshGeneration = generation)
    (hfailed : ∀ g ∈ failed, g ∈ s.failed ∨ g = generation)
    (hnew : ∀ g, g ≤ s.provider.refreshGeneration → g ∈ failed → g ∈ s.failed)
    (hsettled : ∀ since < s.turn, ∀ g ≤ generation,
      (g ≤ s.provider.refreshGeneration → Settled s.provider s.failed since g) →
      (g ∈ s.failed → Pending s) → Settled p failed since g)
    (hphase : CallOk settings p s.turn failed { c with phase := phase })
    (hdone : ∀ g, phase ≠ .refreshing g) :
    Kept settings (((({ s with failed := failed } : State F E).withProvider p).notifyAll).goto id c phase) := by
  have hok := (h.calls id c hid).2
  rw [hrefreshing] at hok
  obtain ⟨hflight, hnumber⟩ := hok
  have hself : Refreshing s id := ⟨c, generation, hid, hrefreshing⟩
  have hnone : ∀ id', ¬ Refreshing (((({ s with failed := failed } : State F E).withProvider p).notifyAll).goto id c
      phase) id' := by
    intro id' hr
    have hid' : id' = id := h.single _ _ (refreshing_notifyAll.mp (refreshing_of_setCall hdone hr)) hself
    exact not_refreshing_setCall hdone (hid' ▸ hr)
  refine ⟨fun id' c' hc' => ?_, fun id' _ hr => absurd hr (hnone id'), fun g hg => .inl ?_⟩
  · by_cases heq : id' = id
    · rw [heq, State.goto, setCall_self] at hc'
      cases hc'
      exact hphase
    · obtain ⟨old, hold, hsince, hforce, hentered, hchange⟩ := notified_calls p phase hc' heq
      have hcall := h.calls id' old hold
      refine ⟨hsince ▸ hcall.1, ?_⟩
      have hwait : ∀ g n, old.phase = .waiting g n → g ≤ p.refreshGeneration + 1 ∧
          (g ≤ p.refreshGeneration → Settled p failed c'.since g) := by
        intro g n hg
        have hw := hcall.2
        rw [hg] at hw
        refine ⟨by omega, fun hle => ?_⟩
        rw [hsince]
        exact hsettled _ hcall.1 g (hgeneration ▸ hle) hw.2 fun hmem => ⟨id', old, g, n, hold, hg, hmem⟩
      rcases hchange with ⟨hsame, -⟩ | ⟨g, n, hg, hwaiting⟩
      · rw [hsame]
        cases hold' : old.phase with
        | entering | raised => trivial
        | refreshing g => exact absurd (h.single _ _ ⟨old, g, hold, hold'⟩ hself) heq
        | waiting g n => exact hwait g n hold'
        | returned stored awaited =>
          have hr := hcall.2
          rw [hold'] at hr
          refine ⟨?_, fun g hg => ⟨?_, fun hmem => (hr.2 g hg).2 (hnew g (hr.2 g hg).1 hmem)⟩⟩
          · have hfresh := hr.1
            unfold Fresh at hfresh ⊢
            rwa [hforce, hentered, hsince]
          · show g ≤ p.refreshGeneration
            have hle := (hr.2 g hg).1
            omega
      · rw [hwaiting]
        exact hwait g n hg
  · show g ≤ p.refreshGeneration
    rcases hfailed g hg with hmem | rfl
    · have hle := (h.failed g hmem).resolve_right fun hwedged => hwedged.2 id hself
      omega
    · exact hgeneration.ge

theorem Kept.succeed (h : Kept settings s) (hid : s.calls id = some c) (evidence : E) (reading : F)
    (hrefreshing : c.phase = .refreshing generation) (hpending : ¬ Pending s) :
    Kept settings (s.succeed ops id c generation evidence reading) := by
  have hcall := h.calls id c hid
  have hnumber := hcall.2
  rw [hrefreshing] at hnumber
  have hself : Refreshing s id := ⟨c, generation, hid, hrefreshing⟩
  refine h.complete hid hrefreshing s.failed rfl (fun g hg => .inl hg) (fun g _ hg => hg) ?_ ?_ nofun
  · intro since hsince g hle _ hwaits
    unfold Settled
    rw [if_neg fun hmem => hpending (hwaits hmem)]
    exact ⟨_, rfl, hsince⟩
  · exact ⟨hcall.1, .inr hcall.1, nofun⟩

variable (settings) in
/-- What a failure leaves of the provider when it is recorded. -/
theorem recordFailure_cached (p : Provider F E) (f : Failure F) (r : Readings F) :
    (recordFailure settings p f r).1.cached = p.cached ∧
      (recordFailure settings p f r).1.refreshGeneration = p.refreshGeneration ∧
      (recordFailure settings p f r).1.refreshInFlight = p.refreshInFlight ∧
      (recordFailure settings p f r).1.refreshError = p.refreshError ∧
      (recordFailure settings p f r).1.refreshErrorGeneration = p.refreshErrorGeneration := by
  unfold recordFailure
  dsimp only
  cases boundedDelay settings (p.consecutiveFailures + 1) r.jitter with
  | none => exact ⟨rfl, rfl, rfl, rfl, rfl⟩
  | some bounded =>
    dsimp only
    cases if f.rateLimited then retryAfterSeconds ops f.retryAfter r.now else some ops.zero with
    | none => exact ⟨rfl, rfl, rfl, rfl, rfl⟩
    | some retryAfter => exact ⟨rfl, rfl, rfl, rfl, rfl⟩

/-- The handler raised: its call is over and no other refresh will begin. -/
theorem Kept.abandon (h : Kept settings s) (hid : s.calls id = some c) {e : Raised}
    (hrefreshing : c.phase = .refreshing generation) (hcached : p.cached = s.provider.cached)
    (hsame : p.refreshGeneration = s.provider.refreshGeneration)
    (hflight : p.refreshInFlight = s.provider.refreshInFlight)
    (herror : p.refreshError = s.provider.refreshError)
    (herrorGeneration : p.refreshErrorGeneration = s.provider.refreshErrorGeneration) :
    Kept settings ((({ s with failed := generation :: s.failed } : State F E).withProvider p).goto id c (.raised e)) := by
  have hcall := h.calls id c hid
  have hnumber := hcall.2
  rw [hrefreshing] at hnumber
  have hself : Refreshing s id := ⟨c, generation, hid, hrefreshing⟩
  have hmem : ∀ g, g ≤ s.provider.refreshGeneration → (g ∈ generation :: s.failed ↔ g ∈ s.failed) := fun g hle => by
    rw [List.mem_cons, or_iff_right]
    omega
  have hdone : ∀ g, (.raised e : Phase F E) ≠ .refreshing g := nofun
  have hnone : ∀ id', ¬ Refreshing ((({ s with failed := generation :: s.failed } : State F E).withProvider p).goto id c
      (.raised e)) id' := by
    intro id' hr
    have hid' : id' = id := h.single _ _ (refreshing_of_setCall hdone hr) hself
    exact not_refreshing_setCall hdone (hid' ▸ hr)
  refine ⟨fun id' c' hc' => ?_, fun id' _ hr => absurd hr (hnone id'), fun g hg => ?_⟩
  · by_cases heq : id' = id
    · rw [heq, State.goto, setCall_self] at hc'
      cases hc'
      exact ⟨hcall.1, trivial⟩
    · rw [State.goto, setCall_ne _ _ heq] at hc'
      have hok := h.calls id' c' hc'
      refine ⟨hok.1, ?_⟩
      cases hphase : c'.phase with
      | entering | raised => trivial
      | refreshing g => exact absurd (h.single _ _ ⟨c', g, hc', hphase⟩ hself) heq
      | waiting g n =>
        have hw := hok.2
        rw [hphase] at hw
        refine ⟨hsame ▸ hw.1, fun hle => ?_⟩
        have hle' : g ≤ s.provider.refreshGeneration := hsame ▸ hle
        have hsettled := hw.2 hle'
        unfold Settled at hsettled ⊢
        show if g ∈ generation :: s.failed then
          (p.refreshErrorGeneration = g ∧ p.refreshError.isSome = true) ∨ p.cached = none
          else ∃ stored, p.cached = some stored ∧ c'.since < stored.completed
        rw [hcached, herror, herrorGeneration]
        simpa only [hmem g hle'] using hsettled
      | returned stored awaited =>
        have hr := hok.2
        rw [hphase] at hr
        refine ⟨hr.1, fun g hg => ⟨hsame ▸ (hr.2 g hg).1, fun hfailed => ?_⟩⟩
        exact (hr.2 g hg).2 ((hmem g (hr.2 g hg).1).mp hfailed)
  · show g ≤ p.refreshGeneration ∨ p.refreshInFlight = true ∧ _
    rcases List.mem_cons.mp hg with rfl | hg
    · exact .inr ⟨hflight ▸ hnumber.1, hnone⟩
    · left
      rw [hsame]
      exact (h.failed g hg).resolve_right fun hwedged => hwedged.2 id hself

theorem Kept.fail (h : Kept settings s) (hid : s.calls id = some c) {f : Failure F} {r : Readings F}
    (hrefreshing : c.phase = .refreshing generation)
    (hpending : (recordFailure settings s.provider f r).2.isSome = true → Pending s → s.provider.cached = none) :
    Kept settings (s.fail settings id c generation f r) := by
  have hcall := h.calls id c hid
  have hnumber := hcall.2
  rw [hrefreshing] at hnumber
  have hself : Refreshing s id := ⟨c, generation, hid, hrefreshing⟩
  obtain ⟨hcached, hsame, hflight, herror, herrorGeneration⟩ := recordFailure_cached settings s.provider f r
  have hnew : ∀ g, g ≤ s.provider.refreshGeneration → g ∈ generation :: s.failed → g ∈ s.failed := by
    intro g hle hg
    refine (List.mem_cons.mp hg).resolve_left fun heq => ?_
    omega
  unfold State.fail
  dsimp only
  cases hrecord : recordFailure settings s.provider f r with
  | mk p recorded =>
    rw [hrecord] at hcached hsame hflight herror herrorGeneration hpending
    dsimp only at hcached hsame hflight herror herrorGeneration hpending
    cases recorded with
    | none => exact h.abandon hid hrefreshing hcached hsame hflight herror herrorGeneration
    | some recorded =>
      obtain ⟨delay, message⟩ := recorded
      refine h.complete hid hrefreshing (generation :: s.failed) rfl
        (fun g hg => (List.mem_cons.mp hg).symm) hnew ?_ ?_ nofun
      · intro since hsince g hle hwas hwaits
        unfold Settled
        by_cases heq : g = generation
        · rw [if_pos (heq ▸ List.mem_cons_self)]
          exact .inl ⟨heq.symm, rfl⟩
        have hold := hwas (by omega)
        unfold Settled at hold
        by_cases hmem : g ∈ s.failed
        · rw [if_pos (List.mem_cons_of_mem _ hmem)]
          exact .inr (hcached.trans (hpending rfl (hwaits hmem)))
        · rw [if_neg hmem] at hold
          rw [if_neg fun hg => (List.mem_cons.mp hg).elim heq hmem]
          obtain ⟨stored, hstored, hlate⟩ := hold
          exact ⟨stored, hcached.trans hstored, hlate⟩
      · exact ⟨hcall.1, trivial⟩

theorem Kept.next (h : Kept settings s) {label : Label F E} (hlabel : Undisturbed settings s label) :
    Kept settings (s.next settings label) := by
  have hstep := steps settings s label
  generalize s.next settings label = s' at hstep ⊢
  cases hstep with
  | stay idle => exact h
  | call clock free => exact (h.tick _).setCall ⟨Nat.lt_succ_self _, trivial⟩ nofun
  | enter hid phase clock le => exact (h.tick _).enter ((h.calls _ _ hid).1.trans (Nat.lt_succ_self _)) _ _
  | resume hid phase clock =>
    have hok := h.calls _ _ hid
    have hwait := hok.2
    rw [phase] at hwait
    exact (h.tick _).await (hok.1.trans (Nat.lt_succ_self _)) hwait.1 hwait.2
  | succeed hid phase clock => exact (h.tick _).succeed hid _ _ phase (hlabel ⟨_, _, hid, phase⟩)
  | fail hid phase clock => exact (h.tick _).fail hid phase (hlabel ⟨_, _, hid, phase⟩)

theorem Kept.start (ops : FloatOps F) {settings : Settings ops} (now : F) :
    Kept settings (Evidence.fresh (E := E) ops now) :=
  ⟨nofun, fun _ _ hr => (hr.elim fun _ hc => hc.elim fun _ hc => nomatch hc.1), nofun⟩

variable (settings) in
/-- Evidence is fresh in every run that no refresh disturbs. -/
theorem evidence_fresh (now : F) {labels : List (Label F E)}
    (hlabels : (threads settings).Meets (Undisturbed settings) (Evidence.fresh ops now) labels) :
    ∀ done, done <+: labels → FreshAnswers settings ((threads settings).after (Evidence.fresh ops now) done) := by
  intro done hdone
  obtain ⟨rest, rfl⟩ := hdone
  have hkept : Kept settings ((threads settings).after (Evidence.fresh ops now) done) :=
    Machine.invariant_of_meets
      (fun s label (h : Kept settings s) hl => show Kept settings ((threads settings).next s label) from h.next hl)
      (Kept.start ops now)
      (Machine.meets_append.mp hlabels).1
  exact hkept.fresh

end

/-! ## A waiter that is overtaken -/

/-- Whole seconds. -/
def wholeSeconds : FloatOps Int where
  zero := 0
  ofNat n := n
  add := (· + ·)
  sub := (· - ·)
  mul := (· * ·)
  quarter x := x / 4
  totalSeconds n := n / 1000000
  fixed3 x := toString x ++ ".000"
  le_add h := by omega

def usualSettings : Settings wholeSeconds where
  refreshIntervalSeconds := 5
  totalDeadlineSeconds := 4
  backoffBaseSeconds := 1
  backoffMaxSeconds := 4
  circuitFailureThreshold := 3
  interval_pos := by decide
  deadline_pos := by decide
  base_pos := by decide
  base_le_max := by decide
  threshold_pos := by decide

def timedOut : Failure Int := ⟨none, none, "timed out"⟩

def noon : DateTime × Option Int := (⟨2026, 7, 1, 12, 0, 0, 0, by decide⟩, some 0)

/-- One call refreshes; ten seconds later another one's refresh fails that a third waits for. -/
def firstFailure : List (Label Int String) :=
  [.call 0 false 0, .enter 0 0 0, .succeed 0 "at noon" 0, .call 1 false 10, .enter 1 10 10, .call 2 true 10,
    .enter 2 10 10, .fail 1 timedOut ⟨noon, 11, 0⟩]

/-- Before the third call has its turn a fourth one's refresh fails as well. -/
def secondFailure : List (Label Int String) :=
  [.call 3 false 12, .enter 3 12 12, .fail 3 timedOut ⟨noon, 13, 0⟩, .resume 2 13]

theorem evidence_fresh_firstFailure :
    FreshAnswers usualSettings
      ((threads usualSettings).after (fresh wholeSeconds 0) (firstFailure ++ [.resume 2 11])) := by
  refine evidence_fresh usualSettings 0 ?_ _ (List.prefix_refl _)
  have hquiet : ∀ s : State Int String, s.failed = [] → ¬ Pending s := by
    intro s hs hp
    obtain ⟨id, c, generation, notified, -, -, hmem⟩ := hp
    rw [hs] at hmem
    cases hmem
  exact ⟨trivial, trivial, fun _ => hquiet _ rfl, trivial, trivial, trivial, trivial,
    fun _ _ hp => absurd hp (hquiet _ rfl), trivial, trivial⟩

/-- The third call forced a refresh, and gets evidence of ten seconds before it. -/
theorem overtaken_waiter_stale :
    let s := (threads usualSettings).after (fresh wholeSeconds 0) (firstFailure ++ secondFailure)
    ∃ c, s.calls 2 = some c ∧ c.phase = .returned ⟨"at noon", 0, 3⟩ (some 2) ∧ 2 ∈ s.failed ∧
      ¬ Fresh usualSettings c ⟨"at noon", 0, 3⟩ ∧ ¬ FreshAnswers usualSettings s := by
  intro s
  have hcall : (s.calls 2).map (fun c => (c.phase, c.forceRefresh, c.since)) =
      some (.returned ⟨"at noon", 0, 3⟩ (some 2), true, 5) := by decide +kernel
  have hfailed : s.failed = [3, 2] := by decide +kernel
  obtain ⟨c, hc, heq⟩ := Option.map_eq_some_iff.mp hcall
  obtain ⟨hphase, hrest⟩ := Prod.mk.inj heq
  obtain ⟨hforce, hsince⟩ := Prod.mk.inj hrest
  have hstale : ¬ Fresh usualSettings c ⟨"at noon", 0, 3⟩ := by
    intro hfresh
    unfold Fresh at hfresh
    rw [hforce, hsince] at hfresh
    exact hfresh.elim (fun hcached => nomatch hcached.1) (by decide)
  refine ⟨c, hc, hphase, ?_, hstale, fun hfresh => hstale (hfresh 2 c _ _ hc hphase).1⟩
  rw [hfailed]
  decide

end TraderBot.Evidence
