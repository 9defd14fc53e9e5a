import TraderBot.Lib.Machine
import TraderBot.Lib.Text

/-! # The lifecycle of a node

`NodeLifecycle` keeps the trading state of one node: which dependencies are ready,
the reconciliation proof, the lease and the flags of the actor watchdog. An
operation may change the state and raise all the same.

Times are microseconds, readings of the monotonic clock are numbers. What only goes
into a heartbeat (the projection's lag, degraded reasons, the rollout gate) is left
out. -/
namespace TraderBot.NodeRuntime
open TraderBot.Lib TraderBot.Lib.Text

inductive TradingState where
  | active
  | halted
  | reducing
  deriving DecidableEq, Repr

/-- `DependencyName`. -/
inductive Dependency where
  | instruments
  | redis
  | controlPlane
  | intentStream
  | commandStream
  | reconciliation
  | projection
  deriving DecidableEq, Repr

namespace Dependency

def all : List Dependency :=
  [.instruments, .redis, .controlPlane, .intentStream, .commandStream, .reconciliation, .projection]

def text : Dependency → String
  | .instruments => "instruments"
  | .redis => "redis"
  | .controlPlane => "control_plane"
  | .intentStream => "intent_stream"
  | .commandStream => "command_stream"
  | .reconciliation => "reconciliation"
  | .projection => "projection"

theorem mem_all (d : Dependency) : d ∈ all := by cases d <;> decide

end Dependency

/-! ## The reconciliation proof -/

inductive ReconciliationState where
  | healthy
  | degraded
  | failed
  deriving DecidableEq, Repr

/-- `ReconciliationProof`, without the summaries of its data. -/
structure ReconciliationProof where
  accountId : String
  nodeId : String
  releaseId : String
  state : ReconciliationState
  completedAt : Int
  generation : Nat

inductive ProofStatus where
  | missing
  | inFlight
  | releaseIdentityMissing
  | identityMismatch
  | generationMismatch
  | unhealthy
  | invalidTime
  | stale
  | healthy
  deriving DecidableEq, Repr

/-- `ReconciliationProofSnapshot`. -/
structure ProofSnapshot where
  status : ProofStatus
  proofAge : Option Int
  fresh : Bool
  completedAt : Option Int
  reason : String

/-- The configuration of a node and what it starts from; `monotonicText` writes an
age with three digits after the point. -/
structure Config where
  accountId : String
  nodeId : String
  releaseId : String
  live : Bool
  requestedState : TradingState
  heartbeatTimeout : Int
  snapshotStaleAfter : Int
  proofMaxAge : Int
  hasControlPlane : Bool
  monotonicText : ℚ → String

/-- `_snapshot`. -/
def snapshotOf (status : ProofStatus) (proof : ReconciliationProof) (now : Int) (reason : String)
    (fresh : Bool) : ProofSnapshot :=
  ⟨status, some (max (now - proof.completedAt) 0), fresh, some proof.completedAt, reason⟩

def evaluateReconciliationProof (config : Config) (proof : Option ReconciliationProof) (now : Int)
    (expectedGeneration : Nat) (inFlight : Bool) : ProofSnapshot :=
  if inFlight then ⟨.inFlight, none, false, none, "reconciliation is in flight"⟩
  else
    match proof with
    | none => ⟨.missing, none, false, none, "reconciliation proof is missing"⟩
    | some proof =>
      if proof.generation ≠ expectedGeneration then
        snapshotOf .generationMismatch proof now
          "reconciliation proof generation does not match runtime" false
      else if config.releaseId = "" then
        snapshotOf .releaseIdentityMissing proof now "runtime release identity is missing" false
      else if (proof.accountId, proof.nodeId, proof.releaseId) ≠
          (config.accountId, config.nodeId, config.releaseId) then
        snapshotOf .identityMismatch proof now
          "reconciliation proof identity does not match runtime" false
      else if proof.state ≠ .healthy then
        snapshotOf .unhealthy proof now "reconciliation proof is not healthy" false
      else if now - proof.completedAt < 0 then
        snapshotOf .invalidTime proof now "reconciliation proof completed_at is in the future" false
      else if config.proofMaxAge < now - proof.completedAt then
        snapshotOf .stale proof now "reconciliation proof is stale" false
      else snapshotOf .healthy proof now "" true

/-! ## The state -/

/-- The fields of `NodeLifecycle`. -/
structure Lifecycle where
  ready : Finset Dependency
  tradingState : TradingState
  haltReason : String
  lastControlPlaneOkAt : Option Int
  reconciliationState : ReconciliationState
  reconciliationProof : Option ReconciliationProof
  lastReconciliationCompletedAt : Option Int
  reconciliationGeneration : Nat
  reconciliationInFlight : Bool
  leaseRequired : Bool
  redisFencingEpoch : Option String
  leaseGeneration : Int
  leaseLastRefreshAt : Option ℚ
  leaseFreshnessSeconds : ℚ
  heartbeatSequence : Nat
  actorTickAgeSeconds : ℚ
  actorTickFailed : Bool
  restartRequired : Bool

/-- `NodeLifecycle(config)`. -/
def Lifecycle.start (config : Config) : Lifecycle where
  ready := ∅
  tradingState := if config.live then .halted else config.requestedState
  haltReason := "startup"
  lastControlPlaneOkAt := none
  reconciliationState := .degraded
  reconciliationProof := none
  lastReconciliationCompletedAt := none
  reconciliationGeneration := 0
  reconciliationInFlight := false
  leaseRequired := false
  redisFencingEpoch := none
  leaseGeneration := 0
  leaseLastRefreshAt := none
  leaseFreshnessSeconds := 0
  heartbeatSequence := 0
  actorTickAgeSeconds := 0
  actorTickFailed := false
  restartRequired := false

/-- What an operation gives back. -/
inductive Reply where
  | returned
  | generation (n : Nat)
  | tradingState (s : TradingState)
  | readiness (missing : List Dependency) (proof : ProofSnapshot)
  | proof (snapshot : ProofSnapshot)
  | raised (message : String)

namespace Lifecycle

/-- `_halt`. -/
def halt (reason : String) (s : Lifecycle) : Lifecycle := { s with tradingState := .halted, haltReason := reason }

def addReady (d : Dependency) (s : Lifecycle) : Lifecycle := { s with ready := insert d s.ready }

def discardReady (d : Dependency) (s : Lifecycle) : Lifecycle := { s with ready := s.ready.erase d }

/-! ## The lease -/

/-- `_lease_is_stale_locked`. -/
def leaseIsStale (monotonic : ℚ) (s : Lifecycle) : Bool :=
  s.leaseRequired &&
    match s.leaseLastRefreshAt with
    | none => true
    | some refreshedAt => decide (s.leaseFreshnessSeconds < max (monotonic - refreshedAt) 0)

/-- `_halt_if_lease_stale_locked`. -/
def haltIfLeaseStale (monotonic : ℚ) (s : Lifecycle) : Lifecycle :=
  if s.tradingState = .active ∧ s.leaseIsStale monotonic then
    s.halt "Redis namespace lease freshness expired"
  else s

/-- The `trading_state` property. -/
def readTradingState (monotonic : ℚ) (s : Lifecycle) : Reply × Lifecycle :=
  (.tradingState (s.haltIfLeaseStale monotonic).tradingState, s.haltIfLeaseStale monotonic)

def configureLease (redisFencingEpoch : String) (generation : Int) (freshnessSeconds monotonic : ℚ)
    (s : Lifecycle) : Reply × Lifecycle :=
  if strip redisFencingEpoch = "" then (.raised "redis fencing epoch is required", s)
  else if generation = 0 then (.raised "lease generation is required", s)
  else if freshnessSeconds ≤ 0 then (.raised "lease freshness_seconds must be positive", s)
  else (.returned, { s with
    leaseRequired := true
    redisFencingEpoch := some (strip redisFencingEpoch)
    leaseGeneration := generation
    leaseFreshnessSeconds := freshnessSeconds
    leaseLastRefreshAt := some monotonic })

def recordLeaseRefresh (redisFencingEpoch : String) (generation : Int) (monotonic : ℚ) (s : Lifecycle) :
    Reply × Lifecycle :=
  if s.leaseRequired = false then (.raised "runtime lease is not configured", s)
  else if some (strip redisFencingEpoch) ≠ s.redisFencingEpoch then
    (.raised "redis fencing epoch does not match runtime", s.halt "Redis fencing epoch changed")
  else if generation ≠ s.leaseGeneration then
    (.raised "lease generation does not match runtime", s.halt "Redis namespace lease generation changed")
  else (.returned, { s with leaseLastRefreshAt := some monotonic })

def invalidateLease (reason : String) (s : Lifecycle) : Reply × Lifecycle :=
  (.returned, { s with leaseLastRefreshAt := none }.halt reason)

/-! ## Dependencies and reconciliation -/

section
variable (config : Config)

/-- What `_refresh_reconciliation_locked` finds. -/
def proofSnapshot (now : Int) (s : Lifecycle) : ProofSnapshot :=
  evaluateReconciliationProof config s.reconciliationProof now s.reconciliationGeneration
    s.reconciliationInFlight

/-- `_refresh_reconciliation_locked`. -/
def refreshReconciliation (now : Int) (s : Lifecycle) : Lifecycle :=
  if (s.proofSnapshot config now).status = .healthy then
    { s.addReady .reconciliation with reconciliationState := .healthy }
  else { s.discardReady .reconciliation with reconciliationState := .degraded }

/-- The dependencies that are missing, reconciliation aside. -/
def missing (s : Lifecycle) : List Dependency :=
  Dependency.all.filter fun d => d ≠ .reconciliation ∧ d ∉ s.ready

/-- The `readiness` property; a node is ready when nothing is missing. -/
def readReadiness (now : Int) (s : Lifecycle) : Reply × Lifecycle :=
  let s' := s.refreshReconciliation config now
  (.readiness s'.missing (s.proofSnapshot config now), s')

/-- The `reconciliation` property. -/
def readReconciliation (now : Int) (s : Lifecycle) : Reply × Lifecycle :=
  (.proof (s.proofSnapshot config now), s.refreshReconciliation config now)

def markDependencyReady (d : Dependency) (now : Int) (s : Lifecycle) : Reply × Lifecycle :=
  if d = .reconciliation then (.returned, s)
  else if (d = .redis ∨ d = .commandStream) ∧ s.restartRequired then (.returned, s)
  else if d = .commandStream ∧ s.actorTickFailed then (.returned, s)
  else
    let s := s.addReady d
    (.returned, if d = .controlPlane then { s with lastControlPlaneOkAt := some now } else s)

def markDependencyFailed (d : Dependency) (reason : String) (s : Lifecycle) : Reply × Lifecycle :=
  let s := s.discardReady d
  let s := if d = .redis then { s with restartRequired := true } else s
  if d = .reconciliation then
    (.returned, { s with
      reconciliationProof := none
      reconciliationInFlight := false
      reconciliationState := .degraded })
  else (.returned, s.halt (d.text ++ " failed: " ++ reason))

def beginReconciliation (s : Lifecycle) : Reply × Lifecycle :=
  (.generation (s.reconciliationGeneration + 1), { s.discardReady .reconciliation with
    reconciliationGeneration := s.reconciliationGeneration + 1
    reconciliationProof := none
    reconciliationInFlight := true
    reconciliationState := .degraded })

def recordReconciliationProof (proof : ReconciliationProof) (now : Int) (s : Lifecycle) : Reply × Lifecycle :=
  if proof.generation ≠ s.reconciliationGeneration then (.returned, s)
  else
    let s := { s with
      reconciliationProof := some proof
      lastReconciliationCompletedAt := some proof.completedAt
      reconciliationInFlight := false }
    (.returned, s.refreshReconciliation config now)

/-! ## The trading state -/

/-- `apply_operator_state`, with both clocks. -/
def applyOperatorState (state : TradingState) (reason : String) (now : Int) (monotonic : ℚ)
    (s : Lifecycle) : Reply × Lifecycle :=
  match state with
  | .active =>
    if s.restartRequired then (.raised "cannot switch ACTIVE while restart is required", s)
    else if s.leaseIsStale monotonic then
      (.raised "Redis namespace lease freshness expired", s.haltIfLeaseStale monotonic)
    else
      let s := s.refreshReconciliation config now
      if s.missing = [] then (.returned, { s with tradingState := .active, haltReason := "" })
      else (.raised "cannot switch ACTIVE before readiness is true", s)
  | .halted => (.returned, { s with tradingState := .halted, haltReason := reason })
  | .reducing => (.returned, { s with tradingState := .reducing })

def forceHalt (reason : String) (s : Lifecycle) : Reply × Lifecycle :=
  (.returned, s.halt (if strip reason = "" then "runtime safety halt" else strip reason))

def recordActorTick (s : Lifecycle) : Reply × Lifecycle :=
  (.returned, { s with
    actorTickAgeSeconds := 0
    actorTickFailed := if s.restartRequired then s.actorTickFailed else false })

def recordActorTickAge (ageSeconds : ℚ) (s : Lifecycle) : Reply × Lifecycle :=
  (.returned, { s with actorTickAgeSeconds := max ageSeconds 0 })

def markActorTickStale (ageSeconds : ℚ) (s : Lifecycle) : Reply × Lifecycle :=
  let s := { s.discardReady .commandStream with
    actorTickAgeSeconds := max ageSeconds 0
    actorTickFailed := true }
  (.returned, s.halt ("actor event loop tick stale (" ++ config.monotonicText s.actorTickAgeSeconds ++ "s)"))

def markRestartRequired (ageSeconds : ℚ) (s : Lifecycle) : Reply × Lifecycle :=
  let s := { s.discardReady .commandStream with
    actorTickAgeSeconds := max ageSeconds 0
    restartRequired := true }
  (.returned, s.halt ("actor event loop restart required (" ++ config.monotonicText s.actorTickAgeSeconds ++
    "s stale)"))

/-! ## Heartbeats -/

/-- A heartbeat receipt: the status of its release gate, stripped, and whether its
live open gate is one. -/
structure Receipt where
  gateStatus : String
  liveOpenGate : Bool

/-- `_heartbeat_receipt_requires_halt`. -/
def receiptRequiresHalt (receipt : Option Receipt) : Bool :=
  match receipt with
  | none => config.live
  | some r => if r.gateStatus ≠ "pass" then true else config.live && !r.liveOpenGate

/-- `_heartbeat_receipt_halt_reason`. -/
def receiptHaltReason (receipt : Option Receipt) : String :=
  match receipt with
  | none => "heartbeat receipt is missing"
  | some r =>
    if r.gateStatus ≠ "pass" then
      "heartbeat release gate failed: " ++ if r.gateStatus = "" then "missing" else r.gateStatus
    else if r.liveOpenGate = false then "heartbeat live open gate is invalid"
    else "heartbeat receipt requires sticky HALT"

/-- `send_heartbeat`, with what the control plane answers: it raises, or gives a
receipt or none. -/
def sendHeartbeat (answer : Except String (Option Receipt)) (now : Int) (s : Lifecycle) : Reply × Lifecycle :=
  if config.hasControlPlane = false then (.raised "control-plane client is not configured", s)
  else
    let s := { s.refreshReconciliation config now with heartbeatSequence := s.heartbeatSequence + 1 }
    match answer with
    | .error message => (.raised message, s)
    | .ok receipt =>
      if receiptRequiresHalt config receipt then
        (.raised (receiptHaltReason receipt),
          (s.markDependencyFailed .controlPlane (receiptHaltReason receipt)).2)
      else (.returned, { s with lastControlPlaneOkAt := some now })

/-! ## `evaluate_safety` -/

/-- The check of the latest snapshot, with what the control plane answers. -/
def evaluateSnapshot (now : Int) (latest : Except String (Option Int)) (s : Lifecycle) : Reply × Lifecycle :=
  match latest with
  | .error message => (.raised message, s)
  | .ok none =>
    (.returned, if .projection ∈ s.ready then
      (s.discardReady .projection).halt "control-plane snapshot missing" else s)
  | .ok (some snapshotAt) =>
    (.returned, if config.snapshotStaleAfter < now - snapshotAt then
      (s.discardReady .projection).halt "control-plane snapshot stale" else s)

/-- The checks after that of the reconciliation. -/
def evaluateContact (now : Int) (latest : Except String (Option Int)) (s : Lifecycle) : Reply × Lifecycle :=
  match s.lastControlPlaneOkAt with
  | none =>
    (.returned, if .controlPlane ∈ s.ready then s.halt "control-plane heartbeat missing" else s)
  | some okAt =>
    if config.heartbeatTimeout < now - okAt then
      (.returned, (s.discardReady .controlPlane).halt "control-plane heartbeat stale")
    else if config.hasControlPlane = false then (.returned, s)
    else s.evaluateSnapshot config now latest

def evaluateSafety (now : Int) (latest : Except String (Option Int)) (s : Lifecycle) : Reply × Lifecycle :=
  let refreshed := s.refreshReconciliation config now
  if s.tradingState = .active ∧ (s.proofSnapshot config now).status ≠ .healthy then (.returned, refreshed)
  else refreshed.evaluateContact config now latest

end
end Lifecycle

/-! ## Runs -/

/-- The operations, with the clocks they read and the answers they get. -/
inductive Operation where
  | markDependencyReady (d : Dependency) (now : Int)
  | markDependencyFailed (d : Dependency) (reason : String)
  | beginReconciliation
  | recordReconciliationProof (proof : ReconciliationProof) (now : Int)
  | configureLease (redisFencingEpoch : String) (generation : Int) (freshnessSeconds monotonic : ℚ)
  | recordLeaseRefresh (redisFencingEpoch : String) (generation : Int) (monotonic : ℚ)
  | invalidateLease (reason : String)
  | applyOperatorState (state : TradingState) (reason : String) (now : Int) (monotonic : ℚ)
  | forceHalt (reason : String)
  | recordActorTick
  | recordActorTickAge (ageSeconds : ℚ)
  | markActorTickStale (ageSeconds : ℚ)
  | markRestartRequired (ageSeconds : ℚ)
  | sendHeartbeat (answer : Except String (Option Lifecycle.Receipt)) (now : Int)
  | evaluateSafety (now : Int) (latest : Except String (Option Int))
  | readTradingState (monotonic : ℚ)
  | readReadiness (now : Int)
  | readReconciliation (now : Int)

def lifecycle (config : Config) : Machine Lifecycle Operation Reply where
  step s
    | .markDependencyReady d now => s.markDependencyReady d now
    | .markDependencyFailed d reason => s.markDependencyFailed d reason
    | .beginReconciliation => s.beginReconciliation
    | .recordReconciliationProof proof now => s.recordReconciliationProof config proof now
    | .configureLease epoch generation freshness monotonic =>
      s.configureLease epoch generation freshness monotonic
    | .recordLeaseRefresh epoch generation monotonic => s.recordLeaseRefresh epoch generation monotonic
    | .invalidateLease reason => s.invalidateLease reason
    | .applyOperatorState state reason now monotonic =>
      s.applyOperatorState config state reason now monotonic
    | .forceHalt reason => s.forceHalt reason
    | .recordActorTick => s.recordActorTick
    | .recordActorTickAge age => s.recordActorTickAge age
    | .markActorTickStale age => s.markActorTickStale config age
    | .markRestartRequired age => s.markRestartRequired config age
    | .sendHeartbeat answer now => s.sendHeartbeat config answer now
    | .evaluateSafety now latest => s.evaluateSafety config now latest
    | .readTradingState monotonic => s.readTradingState monotonic
    | .readReadiness now => s.readReadiness config now
    | .readReconciliation now => s.readReconciliation config now

end TraderBot.NodeRuntime
