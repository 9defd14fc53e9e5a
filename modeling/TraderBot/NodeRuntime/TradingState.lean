import TraderBot.NodeRuntime.Lifecycle

/-! # When a node trades

Every operation keeps `Sound`, so a live node is active only with every dependency
ready and none of the flags set (`trading_state_invariant`). `evaluate_safety` gives
up when the node is active without a healthy reconciliation proof, and there alone a
reachable node of an operator keeps trading out of contact
(`still_active_in_contact_iff`). -/
namespace TraderBot.NodeRuntime
open TraderBot.Lib TraderBot.Lib.Text

variable (config : Config) (now : Int) (latest : Except String (Option Int))

@[simp] theorem Lifecycle.refreshReconciliation_restartRequired (s : Lifecycle) :
    (s.refreshReconciliation config now).restartRequired = s.restartRequired := by
  unfold Lifecycle.refreshReconciliation
  split_ifs <;> rfl

@[simp] theorem Lifecycle.evaluateSnapshot_restartRequired (s : Lifecycle) :
    (s.evaluateSnapshot config now latest).2.restartRequired = s.restartRequired := by
  unfold evaluateSnapshot
  split
  · rfl
  · split_ifs <;> rfl
  · split_ifs <;> rfl

@[simp] theorem Lifecycle.evaluateContact_restartRequired (s : Lifecycle) :
    (s.evaluateContact config now latest).2.restartRequired = s.restartRequired := by
  unfold evaluateContact
  split
  · split_ifs <;> rfl
  · split_ifs
    · rfl
    · rfl
    · exact evaluateSnapshot_restartRequired config now latest s

/-- What an active node needs; a failed tick takes the command stream away. -/
structure Sound (s : Lifecycle) : Prop where
  ready : s.tradingState = .active → ∀ d, d ≠ .reconciliation → d ∈ s.ready
  tick : s.actorTickFailed = true → Dependency.commandStream ∉ s.ready
  restart : s.restartRequired = true → s.tradingState ≠ .active

namespace Sound
variable {config : Config} {s : Lifecycle}

theorem restartRequired (h : Sound s) (hactive : s.tradingState = .active) : s.restartRequired = false := by
  by_contra hrequired
  exact h.restart (by simpa using hrequired) hactive

/-- A halted node is sound as long as a failed tick keeps the command stream away. -/
theorem of_halted (hhalted : s.tradingState = .halted)
    (htick : s.actorTickFailed = true → Dependency.commandStream ∉ s.ready) : Sound s := by
  refine ⟨fun hactive => ?_, htick, fun _ hactive => ?_⟩ <;>
    · rw [hhalted] at hactive
      cases hactive

theorem start (hlive : config.live = true) : Sound (.start config) :=
  of_halted (by simp [Lifecycle.start, hlive]) fun h => by cases h

theorem halt (h : Sound s) (reason : String) : Sound (s.halt reason) := of_halted rfl h.tick

theorem discardReady_halt (h : Sound s) (d : Dependency) (reason : String) :
    Sound ((s.discardReady d).halt reason) :=
  of_halted rfl fun hfailed hmem => h.tick hfailed (Finset.mem_of_mem_erase hmem)

/-- What is done to the reconciliation dependency alone. -/
theorem of_reconciliation {s' : Lifecycle} (h : Sound s) (hstate : s'.tradingState = s.tradingState)
    (hready : ∀ d, d ≠ .reconciliation → (d ∈ s'.ready ↔ d ∈ s.ready))
    (htick : s'.actorTickFailed = s.actorTickFailed) (hrestart : s'.restartRequired = s.restartRequired) :
    Sound s' where
  ready hactive d hd := (hready d hd).mpr (h.ready (hstate ▸ hactive) d hd)
  tick hfailed hmem := h.tick (htick ▸ hfailed) ((hready .commandStream (by decide)).mp hmem)
  restart hrequired := hstate ▸ h.restart (hrestart ▸ hrequired)

theorem refreshReconciliation (h : Sound s) (now : Int) : Sound (s.refreshReconciliation config now) := by
  unfold Lifecycle.refreshReconciliation
  split_ifs
  · exact h.of_reconciliation rfl (fun d hd => by simp [Lifecycle.addReady, hd]) rfl rfl
  · exact h.of_reconciliation rfl (fun d hd => by simp [Lifecycle.discardReady, hd]) rfl rfl

theorem haltIfLeaseStale (h : Sound s) (monotonic : ℚ) : Sound (s.haltIfLeaseStale monotonic) := by
  unfold Lifecycle.haltIfLeaseStale
  split_ifs
  · exact h.halt _
  · exact h

theorem configureLease (h : Sound s) (epoch : String) (generation : Int) (freshness monotonic : ℚ) :
    Sound (s.configureLease epoch generation freshness monotonic).2 := by
  unfold Lifecycle.configureLease
  split_ifs <;> exact ⟨h.ready, h.tick, h.restart⟩

theorem recordLeaseRefresh (h : Sound s) (epoch : String) (generation : Int) (monotonic : ℚ) :
    Sound (s.recordLeaseRefresh epoch generation monotonic).2 := by
  unfold Lifecycle.recordLeaseRefresh
  split_ifs
  · exact h
  · exact h.halt _
  · exact h.halt _
  · exact ⟨h.ready, h.tick, h.restart⟩

theorem markDependencyReady (h : Sound s) (d : Dependency) (now : Int) :
    Sound (s.markDependencyReady d now).2 := by
  have hadd (htick : d = .commandStream → s.actorTickFailed = false) : Sound (s.addReady d) := by
    refine ⟨fun hactive d' hd' => Finset.mem_insert_of_mem (h.ready hactive d' hd'), fun hfailed hmem => ?_,
      h.restart⟩
    rcases Finset.mem_insert.mp hmem with hd | hmem
    · have hnot : s.actorTickFailed = false := htick hd.symm
      exact Bool.noConfusion (hnot.symm.trans hfailed)
    · exact h.tick hfailed hmem
  unfold Lifecycle.markDependencyReady
  by_cases hrec : d = .reconciliation
  · rw [if_pos hrec]
    exact h
  rw [if_neg hrec]
  by_cases hrestart : (d = .redis ∨ d = .commandStream) ∧ s.restartRequired
  · rw [if_pos hrestart]
    exact h
  rw [if_neg hrestart]
  by_cases htick : d = .commandStream ∧ s.actorTickFailed
  · rw [if_pos htick]
    exact h
  rw [if_neg htick]
  have hsound := hadd fun hd => by simpa [hd] using htick
  show Sound (if d = .controlPlane then { s.addReady d with lastControlPlaneOkAt := some now } else s.addReady d)
  split_ifs
  · exact ⟨hsound.ready, hsound.tick, hsound.restart⟩
  · exact hsound

theorem markDependencyFailed (h : Sound s) (d : Dependency) (reason : String) :
    Sound (s.markDependencyFailed d reason).2 := by
  unfold Lifecycle.markDependencyFailed
  by_cases hrec : d = .reconciliation
  · subst hrec
    exact h.of_reconciliation rfl (fun d hd => by simp [Lifecycle.discardReady, hd]) rfl rfl
  · simp only [if_neg hrec]
    refine of_halted rfl fun hfailed hmem => ?_
    split_ifs at hfailed hmem <;> exact h.tick hfailed (Finset.mem_of_mem_erase hmem)

theorem beginReconciliation (h : Sound s) : Sound s.beginReconciliation.2 :=
  h.of_reconciliation rfl (fun d hd => by simp [Lifecycle.beginReconciliation, Lifecycle.discardReady, hd]) rfl
    rfl

theorem recordReconciliationProof (h : Sound s) (proof : ReconciliationProof) (now : Int) :
    Sound (s.recordReconciliationProof config proof now).2 := by
  unfold Lifecycle.recordReconciliationProof
  split_ifs
  · exact h
  · have hrecorded : Sound { s with
        reconciliationProof := some proof
        lastReconciliationCompletedAt := some proof.completedAt
        reconciliationInFlight := false } := ⟨h.ready, h.tick, h.restart⟩
    exact hrecorded.refreshReconciliation now

/-- **Only an operator makes a node active**, and only a ready one. -/
theorem applyOperatorState (h : Sound s) (state : TradingState) (reason : String) (now : Int)
    (monotonic : ℚ) : Sound (s.applyOperatorState config state reason now monotonic).2 := by
  cases state with
  | active =>
    unfold Lifecycle.applyOperatorState
    have hrefreshed : Sound (s.refreshReconciliation config now) := h.refreshReconciliation now
    split_ifs with hrestart hstale
    · exact h
    · exact h.haltIfLeaseStale monotonic
    · simp only
      split_ifs with hmissing
      · refine ⟨fun _ d hd => ?_, hrefreshed.tick, fun hrequired => ?_⟩
        · by_contra hmem
          have hlist : d ∈ (s.refreshReconciliation config now).missing :=
            List.mem_filter.mpr ⟨Dependency.mem_all d, decide_eq_true ⟨hd, hmem⟩⟩
          rw [hmissing] at hlist
          cases hlist
        · have hnot : s.restartRequired = true := by simpa using hrequired
          exact absurd hnot hrestart
      · exact hrefreshed
  | halted => exact of_halted rfl h.tick
  | reducing => exact ⟨fun hactive => (nomatch hactive), h.tick, fun _ hactive => (nomatch hactive)⟩

theorem recordActorTick (h : Sound s) : Sound s.recordActorTick.2 := by
  refine ⟨h.ready, fun hfailed => h.tick ?_, h.restart⟩
  revert hfailed
  show (if s.restartRequired then s.actorTickFailed else false) = true → _
  split_ifs <;> simp

theorem markActorTickStale (_ : Sound s) (age : ℚ) : Sound (s.markActorTickStale config age).2 :=
  of_halted rfl fun _ => Finset.notMem_erase _ _

theorem markRestartRequired (_ : Sound s) (age : ℚ) : Sound (s.markRestartRequired config age).2 :=
  of_halted rfl fun _ => Finset.notMem_erase _ _

theorem sendHeartbeat (h : Sound s) (answer : Except String (Option Lifecycle.Receipt)) (now : Int) :
    Sound (s.sendHeartbeat config answer now).2 := by
  have hrefreshed : Sound (s.refreshReconciliation config now) := h.refreshReconciliation now
  have hbeat : Sound { s.refreshReconciliation config now with
      heartbeatSequence := s.heartbeatSequence + 1 } :=
    ⟨hrefreshed.ready, hrefreshed.tick, hrefreshed.restart⟩
  unfold Lifecycle.sendHeartbeat
  split_ifs
  · exact h
  · cases answer with
    | error message => exact hbeat
    | ok receipt =>
      simp only
      split_ifs
      · exact hbeat.markDependencyFailed _ _
      · exact ⟨hbeat.ready, hbeat.tick, hbeat.restart⟩

theorem evaluateSnapshot (h : Sound s) (now : Int) (latest : Except String (Option Int)) :
    Sound (s.evaluateSnapshot config now latest).2 := by
  unfold Lifecycle.evaluateSnapshot
  split
  · exact h
  · split_ifs
    · exact h.discardReady_halt _ _
    · exact h
  · split_ifs
    · exact h.discardReady_halt _ _
    · exact h

theorem evaluateContact (h : Sound s) (now : Int) (latest : Except String (Option Int)) :
    Sound (s.evaluateContact config now latest).2 := by
  unfold Lifecycle.evaluateContact
  split
  · split_ifs
    · exact h.halt _
    · exact h
  · split_ifs
    · exact h.discardReady_halt _ _
    · exact h
    · exact h.evaluateSnapshot now latest

theorem evaluateSafety (h : Sound s) (now : Int) (latest : Except String (Option Int)) :
    Sound (s.evaluateSafety config now latest).2 := by
  unfold Lifecycle.evaluateSafety
  simp only
  split_ifs
  · exact h.refreshReconciliation now
  · exact (h.refreshReconciliation now).evaluateContact now latest

end Sound

/-! ## Runs of operations -/

section
variable {config : Config} {s : Lifecycle}

variable (op : Operation) {now : Int} {latest : Option Int}

/-- **Every operation keeps a node sound.** -/
theorem sound_next (h : Sound s) : Sound ((lifecycle config).next s op) := by
  cases op with
  | markDependencyReady d now => exact h.markDependencyReady d now
  | markDependencyFailed d reason => exact h.markDependencyFailed d reason
  | beginReconciliation => exact h.beginReconciliation
  | recordReconciliationProof proof now => exact h.recordReconciliationProof proof now
  | configureLease epoch generation freshness monotonic =>
    exact h.configureLease epoch generation freshness monotonic
  | recordLeaseRefresh epoch generation monotonic => exact h.recordLeaseRefresh epoch generation monotonic
  | invalidateLease reason => exact Sound.of_halted rfl h.tick
  | applyOperatorState state reason now monotonic => exact h.applyOperatorState state reason now monotonic
  | forceHalt reason => exact h.halt _
  | recordActorTick => exact h.recordActorTick
  | recordActorTickAge age => exact ⟨h.ready, h.tick, h.restart⟩
  | markActorTickStale age => exact h.markActorTickStale age
  | markRestartRequired age => exact h.markRestartRequired age
  | sendHeartbeat answer now => exact h.sendHeartbeat answer now
  | evaluateSafety now latest => exact h.evaluateSafety now latest
  | readTradingState monotonic => exact h.haltIfLeaseStale monotonic
  | readReadiness now => exact h.refreshReconciliation now
  | readReconciliation now => exact h.refreshReconciliation now

theorem refreshReconciliation_tradingState (config : Config) (now : Int) (s : Lifecycle) :
    (s.refreshReconciliation config now).tradingState = s.tradingState := by
  unfold Lifecycle.refreshReconciliation
  split_ifs <;> rfl

theorem refreshReconciliation_lastControlPlaneOkAt (config : Config) (now : Int) (s : Lifecycle) :
    (s.refreshReconciliation config now).lastControlPlaneOkAt = s.lastControlPlaneOkAt := by
  unfold Lifecycle.refreshReconciliation
  split_ifs <;> rfl

theorem mem_refreshReconciliation (config : Config) (now : Int) (s : Lifecycle) {d : Dependency}
    (hd : d ≠ .reconciliation) : d ∈ (s.refreshReconciliation config now).ready ↔ d ∈ s.ready := by
  unfold Lifecycle.refreshReconciliation
  split_ifs
  · simp [Lifecycle.addReady, hd]
  · simp [Lifecycle.discardReady, hd]

/-- The last contact is within the timeout and the latest snapshot is not stale. -/
def InContact (config : Config) (now : Int) (latest : Option Int) (s : Lifecycle) : Prop :=
  (∃ okAt, s.lastControlPlaneOkAt = some okAt ∧ now - okAt ≤ config.heartbeatTimeout) ∧
    ∃ snapshotAt, latest = some snapshotAt ∧ now - snapshotAt ≤ config.snapshotStaleAfter

/-- What the checks of the contact ask of an active node that they are to halt: a
node that never heard of the control plane halts only if that is marked ready, a
missing snapshot only if the projection is. -/
structure Watched (config : Config) (now : Int) (s : Lifecycle) : Prop where
  controlPlane : s.lastControlPlaneOkAt = none → .controlPlane ∈ s.ready
  projection : ∀ okAt, s.lastControlPlaneOkAt = some okAt → now - okAt ≤ config.heartbeatTimeout →
    .projection ∈ s.ready

theorem evaluateSnapshot_active
    (h : (s.evaluateSnapshot config now (.ok latest)).2.tradingState = .active) :
    (s.evaluateSnapshot config now (.ok latest)).2 = s ∧
      (latest = none → Dependency.projection ∉ s.ready) ∧
      ∀ snapshotAt, latest = some snapshotAt → now - snapshotAt ≤ config.snapshotStaleAfter := by
  cases latest with
  | none =>
    by_cases hready : Dependency.projection ∈ s.ready
    · simp [Lifecycle.evaluateSnapshot, hready, Lifecycle.halt] at h
    · exact ⟨by simp [Lifecycle.evaluateSnapshot, hready], fun _ => hready, fun _ h => (nomatch h)⟩
  | some snapshotAt =>
    by_cases hstale : config.snapshotStaleAfter < now - snapshotAt
    · simp [Lifecycle.evaluateSnapshot, hstale, Lifecycle.halt] at h
    · refine ⟨by simp [Lifecycle.evaluateSnapshot, hstale], fun h => (nomatch h), fun at' hat => ?_⟩
      exact Option.some.inj hat ▸ not_lt.mp hstale

theorem evaluateContact_active (hclient : config.hasControlPlane = true)
    (h : (s.evaluateContact config now (.ok latest)).2.tradingState = .active) :
    (s.evaluateContact config now (.ok latest)).2 = s ∧
      (s.lastControlPlaneOkAt = none → Dependency.controlPlane ∉ s.ready) ∧
      ∀ okAt, s.lastControlPlaneOkAt = some okAt → now - okAt ≤ config.heartbeatTimeout ∧
        (latest = none → Dependency.projection ∉ s.ready) ∧
        ∀ snapshotAt, latest = some snapshotAt → now - snapshotAt ≤ config.snapshotStaleAfter := by
  unfold Lifecycle.evaluateContact at h ⊢
  cases hok : s.lastControlPlaneOkAt with
  | none =>
    rw [hok] at h
    by_cases hready : Dependency.controlPlane ∈ s.ready
    · simp [hready, Lifecycle.halt] at h
    · exact ⟨by simp [hready], fun _ => hready, fun _ h => (nomatch h)⟩
  | some okAt =>
    rw [hok] at h
    by_cases hstale : config.heartbeatTimeout < now - okAt
    · simp [hstale, Lifecycle.halt] at h
    · simp only [if_neg hstale, hclient, Bool.true_eq_false, if_false] at h ⊢
      obtain ⟨hsame, hlatest⟩ := evaluateSnapshot_active h
      refine ⟨hsame, fun h => (nomatch h), fun okAt' hokAt => ?_⟩
      exact ⟨Option.some.inj hokAt ▸ not_lt.mp hstale, hlatest⟩

/-- **The checks of the contact halt every node that is watched and out of contact**,
whatever the latest snapshot is, and no other condition will do. -/
theorem evaluateContact_inContact_iff (hclient : config.hasControlPlane = true)
    (hactive : s.tradingState = .active) :
    (∀ latest, (s.evaluateContact config now (.ok latest)).2.tradingState = .active →
      InContact config now latest (s.evaluateContact config now (.ok latest)).2) ↔ Watched config now s := by
  constructor
  · intro h
    refine ⟨fun hok => ?_, fun okAt hok htime => ?_⟩
    · by_contra hready
      have hsame : (s.evaluateContact config now (.ok none)).2 = s := by
        simp [Lifecycle.evaluateContact, hok, hready]
      obtain ⟨⟨okAt, hokAt, -⟩, -⟩ := hsame ▸ h none (hsame.symm ▸ hactive)
      rw [hok] at hokAt
      cases hokAt
    · by_contra hready
      have hsame : (s.evaluateContact config now (.ok none)).2 = s := by
        simp [Lifecycle.evaluateContact, hok, not_lt.mpr htime, hclient, Lifecycle.evaluateSnapshot, hready]
      obtain ⟨-, snapshotAt, hnone, -⟩ := h none (hsame.symm ▸ hactive)
      cases hnone
  · intro hwatched latest hstill
    obtain ⟨hsame, hunheard, hheard⟩ := evaluateContact_active hclient hstill
    rw [hsame]
    cases hok : s.lastControlPlaneOkAt with
    | none => exact absurd (hwatched.controlPlane hok) (hunheard hok)
    | some okAt =>
      obtain ⟨htime, hmissing, hseen⟩ := hheard okAt hok
      cases latest with
      | none => exact absurd (hwatched.projection okAt hok htime) (hmissing rfl)
      | some snapshotAt => exact ⟨⟨okAt, hok, htime⟩, snapshotAt, rfl, hseen snapshotAt rfl⟩

theorem watched_refreshReconciliation :
    Watched config now (s.refreshReconciliation config now) ↔ Watched config now s := by
  constructor <;> intro h
  · refine ⟨fun hok => ?_, fun okAt hok htime => ?_⟩
    · rw [← mem_refreshReconciliation config now s (by decide)]
      exact h.controlPlane (by rw [refreshReconciliation_lastControlPlaneOkAt, hok])
    · rw [← mem_refreshReconciliation config now s (by decide)]
      exact h.projection okAt (by rw [refreshReconciliation_lastControlPlaneOkAt, hok]) htime
  · refine ⟨fun hok => ?_, fun okAt hok htime => ?_⟩
    · rw [mem_refreshReconciliation config now s (by decide)]
      exact h.controlPlane (by rw [← refreshReconciliation_lastControlPlaneOkAt config now, hok])
    · rw [mem_refreshReconciliation config now s (by decide)]
      exact h.projection okAt (by rw [← refreshReconciliation_lastControlPlaneOkAt config now, hok]) htime

/-- **When `evaluate_safety` leaves a node active only in contact**, whatever the
latest snapshot is. -/
theorem evaluateSafety_inContact_iff (hclient : config.hasControlPlane = true) :
    (∀ latest, (s.evaluateSafety config now (.ok latest)).2.tradingState = .active →
      InContact config now latest (s.evaluateSafety config now (.ok latest)).2) ↔
    (s.tradingState = .active →
      (s.proofSnapshot config now).status = .healthy ∧ Watched config now s) := by
  have hstate := refreshReconciliation_tradingState config now s
  by_cases hactive : s.tradingState = .active
  · by_cases hhealthy : (s.proofSnapshot config now).status = .healthy
    · have heval (latest : Option Int) : s.evaluateSafety config now (.ok latest) =
          (s.refreshReconciliation config now).evaluateContact config now (.ok latest) :=
        if_neg fun h => h.2 hhealthy
      simp only [heval, evaluateContact_inContact_iff hclient (hstate.trans hactive),
        watched_refreshReconciliation]
      exact ⟨fun h _ => ⟨hhealthy, h⟩, fun h => (h hactive).2⟩
    · -- the call gives up before it looks at the contact
      have heval (latest : Option Int) :
          (s.evaluateSafety config now (.ok latest)).2 = s.refreshReconciliation config now := by
        unfold Lifecycle.evaluateSafety
        simp only
        rw [if_pos ⟨hactive, hhealthy⟩]
      refine iff_of_false (fun h => ?_) fun h => hhealthy (h hactive).1
      obtain ⟨-, snapshotAt, hnone, -⟩ := h none (by rw [heval, hstate, hactive])
      cases hnone
  · have heval (latest : Option Int) : s.evaluateSafety config now (.ok latest) =
        (s.refreshReconciliation config now).evaluateContact config now (.ok latest) :=
      if_neg fun h => hactive h.1
    refine iff_of_true (fun latest hstill => ?_) fun h => absurd h hactive
    rw [heval] at hstill
    obtain ⟨hsame, -⟩ := evaluateContact_active hclient hstill
    rw [hsame, hstate] at hstill
    exact absurd hstill hactive

/-- **A node that is active after `evaluate_safety` is in contact**, whatever the
latest snapshot is, exactly when it was not active without a healthy reconciliation
proof, and was watched. -/
theorem still_active_in_contact_iff (config : Config) (hclient : config.hasControlPlane = true)
    (ops : List Operation) (now : Int) :
    let s := (lifecycle config).after (.start config) ops
    (∀ latest, (s.evaluateSafety config now (.ok latest)).2.tradingState = .active →
      InContact config now latest (s.evaluateSafety config now (.ok latest)).2) ↔
    (s.tradingState = .active →
      (s.proofSnapshot config now).status = .healthy ∧ Watched config now s) :=
  evaluateSafety_inContact_iff hclient

/-- A live node is always watched while it is active. -/
theorem live_watched (hlive : config.live = true) (ops : List Operation) (now : Int) :
    let s := (lifecycle config).after (.start config) ops
    s.tradingState = .active → Watched config now s := by
  intro s hactive
  have hsound : Sound s := Machine.invariant (fun _ op h => sound_next op h) (Sound.start hlive) ops
  exact ⟨fun _ => hsound.ready hactive _ (by decide), fun _ _ _ => hsound.ready hactive _ (by decide)⟩

end

/-! ## A node out of contact -/

/-- A live node that gives up on contact after fifteen seconds. -/
def liveNode : Config where
  accountId := "acct"
  nodeId := "node"
  releaseId := "release"
  live := true
  requestedState := .halted
  heartbeatTimeout := 15000000
  snapshotStaleAfter := 30000000
  proofMaxAge := 60000000
  hasControlPlane := true
  monotonicText _ := ""

/-- Every dependency is ready at time zero and the operator resumes. -/
def resumed : List Operation :=
  (Dependency.all.map fun d => .markDependencyReady d 0) ++ [.applyOperatorState .active "resume" 0 0]

/-- With a healthy proof the resumed node is halted a minute later. -/
theorem reconciled_in_contact :
    let s := (lifecycle liveNode).after (.start liveNode)
      (resumed ++ [.recordReconciliationProof ⟨"acct", "node", "release", .healthy, 60000000, 0⟩ 60000000])
    (s.evaluateSafety liveNode 60000000 (.ok none)).2.tradingState = .active →
      InContact liveNode 60000000 none (s.evaluateSafety liveNode 60000000 (.ok none)).2 :=
  (still_active_in_contact_iff liveNode rfl _ 60000000).mpr
    (fun hactive => ⟨by decide, live_watched rfl _ _ hactive⟩) none

/-- Without a proof it stays active, a minute after the last contact. -/
theorem unreconciled_stays_active :
    ¬ ∀ ops now latest, let s := (lifecycle liveNode).after (.start liveNode) ops
      (s.evaluateSafety liveNode now (.ok latest)).2.tradingState = .active →
        InContact liveNode now latest (s.evaluateSafety liveNode now (.ok latest)).2 := by
  intro h
  obtain ⟨⟨okAt, hok, htime⟩, -⟩ := h resumed 60000000 none (by decide)
  have hzero : okAt = 0 := by
    have hfield : (((lifecycle liveNode).after (.start liveNode) resumed).evaluateSafety liveNode 60000000
      (.ok none)).2.lastControlPlaneOkAt = some 0 := by decide
    exact Option.some.inj (hok.symm.trans hfield)
  subst hzero
  exact absurd htime (by decide)

end TraderBot.NodeRuntime
