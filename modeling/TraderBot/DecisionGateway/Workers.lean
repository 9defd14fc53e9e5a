import TraderBot.Lib.Json
import TraderBot.Lib.Machine

/-! # The workers of the decision gateway

`process_one_decision` as a transaction under READ COMMITTED, statement by statement.
The candidate query takes its snapshot first; the lock on the decision it returns is
taken after that, and a decision that another worker has locked is skipped. What the
checks of one decision need (the schema, its freshness, the governor) is given as
functions; the rest is as the code has it. -/
namespace TraderBot.DecisionGateway
open TraderBot.Lib TraderBot.Lib.Text

/-- A row of `hermes_decisions`, with what the gateway reads of it beyond its checks. -/
structure HermesDecision where
  decisionId : String
  createdAt : Int
  modelProvider : String
  action : String
  instrumentSymbol : Option String
  targetAccountId : Option String
  content : Json.Value
  deriving DecidableEq, Repr

inductive Status where
  | approved
  | rejected
  | needsReview
  deriving DecidableEq, Repr

structure CheckEntry where
  name : String
  passed : Bool
  detail : Option String
  deriving DecidableEq, Repr

/-- `governor.RiskDecision`. -/
structure RiskDecision where
  status : Status
  accountId : Option String
  instrumentId : Option String
  riskBudget : Json.Value
  reason : String
  checks : List CheckEntry
  deriving DecidableEq, Repr

/-- A row of `reviewed_release_rollouts`. -/
structure Rollout where
  releaseId : String
  phase : String
  phaseVersion : Int
  createdAt : Int
  deriving DecidableEq, Repr

structure LiveOpenGate where
  mode : String
  releaseId : String
  rolloutPhase : String
  phaseVersion : Int
  deriving DecidableEq, Repr

/-- A row of `risk_decisions`. -/
structure RiskDecisionRow where
  riskDecisionId : String
  hermesDecisionId : String
  status : Status
  accountId : String
  instrumentId : Option String
  riskBudget : Json.Value
  checks : List CheckEntry
  reason : String
  deriving DecidableEq, Repr

/-- What a transaction had read when it came to write: not columns of any table. -/
structure Readings where
  clock : Int
  verdict : RiskDecision
  heartbeat : Option (Int × Int)
  rollout : Option Rollout
  deriving DecidableEq, Repr

/-- A row of `trade_intents`, with the decision it is for and what was read for it. -/
structure TradeIntent where
  intentId : String
  riskDecisionId : String
  accountId : Option String
  instrumentId : Option String
  riskBudget : Json.Value
  idempotencyKey : String
  liveOpenGate : Option LiveOpenGate
  decision : HermesDecision
  readings : Readings
  deriving DecidableEq, Repr

/-- What the checks of one decision need; `α` and `β` are the positions and the risk
state of an account as the governor is given them. -/
structure Gateway (α β : Type) where
  defaultAccountId : Option String
  schemaProblem : HermesDecision → Option String
  freshnessProblem : Int → HermesDecision → Option String
  evaluate : HermesDecision → Option α → Option β → RiskDecision
  sha256 : String → String

/-- The committed tables. -/
structure Tables (α β : Type) where
  decisions : List HermesDecision
  riskDecisions : List RiskDecisionRow
  tradeIntents : List TradeIntent
  positions : String → α
  riskState : String → String → β
  lastSeenAt : Option Int
  rollouts : List Rollout

/-! ## The checks -/

def isOpening (action : String) : Bool := action = "open_position" || action = "add_position"

def gatedAccounts : List String := ["account-a", "account-b", "account-c", "account-d"]

def rolloutPhases : List String :=
  ["account_a_canary", "account_b_rollout", "account_c_rollout", "account_d_rollout", "fleet_complete"]

def nonEmpty : Option String → Option String
  | some "" => none
  | text => text

section
variable {α β : Type} (g : Gateway α β)

/-- The early exits: foreign provenance, an invalid schema, a stale decision. -/
def earlyOutcome (clock : Int) (row : HermesDecision) : Option RiskDecision :=
  if row.modelProvider ≠ "hermes" then
    some ⟨.rejected, none, row.instrumentSymbol, .obj [], "non-hermes decision provenance",
      [⟨"provenance", false, none⟩]⟩
  else match g.schemaProblem row with
    | some problem => some ⟨.rejected, none, row.instrumentSymbol, .obj [], problem, [⟨"schema", false, none⟩]⟩
    | none => match g.freshnessProblem clock row with
      | some problem =>
        some ⟨.needsReview, none, row.instrumentSymbol, .obj [], problem, [⟨"freshness", false, none⟩]⟩
      | none => none

/-- `intent.get("target_account_id") or policy.default_account_id`. -/
def accountOf (row : HermesDecision) : Option String :=
  nonEmpty ((nonEmpty row.targetAccountId).or g.defaultAccountId)

end

/-- `_projection_is_stale`: no heartbeat, or the last more than a minute ago. -/
def projectionIsStale (now : Int) (lastSeenAt : Option Int) : Bool :=
  match lastSeenAt with
  | none => true
  | some last => 60000000 < now - last

def heldForProjection (verdict : RiskDecision) : RiskDecision :=
  { verdict with
    status := .needsReview
    reason := "context_stale: approval held pending fresh projection"
    checks := verdict.checks ++ [⟨"context_freshness", false, none⟩] }

/-- `ORDER BY created_at DESC, release_id DESC LIMIT 1`. -/
def latestRollout (rollouts : List Rollout) : Option Rollout :=
  (rollouts.insertionSort fun a b =>
    b.createdAt < a.createdAt ∨ b.createdAt = a.createdAt ∧ b.releaseId ≤ a.releaseId).head?

/-- `_current_live_open_gate`; an error is a `GatewayError`. -/
def currentLiveOpenGate (latest : Option Rollout) : Except String (Option LiveOpenGate) :=
  match latest with
  | none => .ok none
  | some row =>
    let releaseId := strip row.releaseId
    let phase := strip row.phase
    if phase = "aborted" then .ok none
    else if releaseId = "" ∨ phase ∉ rolloutPhases ∨ row.phaseVersion < 1 then
      .error "reviewed release rollout state is invalid"
    else .ok (some ⟨if phase = "fleet_complete" then "normal" else "canary_only", releaseId, phase,
      row.phaseVersion⟩)

/-- Whether the gate of the rollouts applies to an outcome. -/
def isGated (row : HermesDecision) (outcome : RiskDecision) : Bool :=
  outcome.status = .approved && isOpening row.action && gatedAccounts.contains (strip (outcome.accountId.getD ""))

def liveOpenGateDetail (gate : LiveOpenGate) : String :=
  "release_id=" ++ gate.releaseId ++ " rollout_phase=" ++ gate.rolloutPhase ++ " phase_version=" ++
    toString gate.phaseVersion ++ " mode=" ++ gate.mode

/-- `_apply_live_open_rollout_gate`, to an outcome that the gate applies to. -/
def applyGate (outcome : RiskDecision) : Option LiveOpenGate → RiskDecision × Option LiveOpenGate
  | none =>
    ({ outcome with
        status := .needsReview
        reason := "live_open_gate_unavailable: reviewed release rollout missing"
        checks := outcome.checks ++ [⟨"live_open_gate", false, some "reviewed release rollout missing"⟩] }, none)
  | some gate =>
    if gate.mode = "normal" then
      ({ outcome with checks := outcome.checks ++ [⟨"live_open_gate", true, some (liveOpenGateDetail gate)⟩] },
        some gate)
    else
      ({ outcome with
          status := .needsReview
          reason := "live_open_gate_canary_only: opening action held until fleet_complete; " ++
            "canary opens require the operator permit path"
          checks := outcome.checks ++ [⟨"live_open_gate", false, some (liveOpenGateDetail gate)⟩] }, some gate)

/-- `_idempotency_key`. -/
def idempotencyKey {α β : Type} (g : Gateway α β) (row : HermesDecision) (outcome : RiskDecision) : String :=
  g.sha256 (row.decisionId ++ "|" ++ row.action ++ "|" ++ outcome.instrumentId.getD "" ++ "|" ++
    outcome.accountId.getD "")

/-! ## The statements of a transaction -/

/-- What a full evaluation hands to the writes. -/
structure Evaluated where
  gate : Option LiveOpenGate
  readings : Readings
  deriving DecidableEq, Repr

/-- The next statement of a worker. -/
inductive Point (α β : Type) where
  | select
  | lock (candidates : List HermesDecision)
  | check (row : HermesDecision)
  | account (row : HermesDecision) (clock : Int)
  | positions (row : HermesDecision) (clock : Int)
  | riskState (row : HermesDecision) (clock : Int) (positions : Option α)
  | heartbeat (row : HermesDecision) (clock : Int) (verdict : RiskDecision)
  | lockRollouts (row : HermesDecision) (readings : Readings) (outcome : RiskDecision)
  | rollout (row : HermesDecision) (readings : Readings) (outcome : RiskDecision)
  | record (row : HermesDecision) (outcome : RiskDecision) (evaluated : Option Evaluated)
  | findIntent (row : HermesDecision) (outcome : RiskDecision) (evaluated : Evaluated) (riskDecisionId : String)
  | insertIntent (row : HermesDecision) (outcome : RiskDecision) (evaluated : Evaluated) (riskDecisionId : String)
  | commit

/-- A worker: its next statement, what its transaction wrote, the locks it holds. -/
structure Worker (α β : Type) where
  point : Point α β
  risk : Option RiskDecisionRow
  intent : Option TradeIntent
  rowLock : Option String
  accountLock : Option String
  rolloutLock : Bool

def Worker.fresh {α β : Type} : Worker α β := ⟨.select, none, none, none, none, false⟩

structure State (ι α β : Type) where
  tables : Tables α β
  workers : ι → Worker α β

/-- What happens next: a worker runs its next statement, at a reading of its clock and
with an id that it draws; a transaction is rolled back (an exception, a lost
connection); or others commit to the tables the gateway reads. -/
inductive Label (ι α β : Type) where
  | run (i : ι) (clock : Int) (uuid : String)
  | abort (i : ι)
  | decided (row : HermesDecision)
  | positions (positions : String → α)
  | riskState (riskState : String → String → β)
  | heartbeat (lastSeenAt : Option Int)
  | rollouts (rollouts : List Rollout)

/-- The decisions without a risk decision, oldest first: what the candidate query finds on its snapshot. -/
def Tables.candidates {α β : Type} (t : Tables α β) : List HermesDecision :=
  (t.decisions.filter fun row => t.riskDecisions.all fun r => r.hermesDecisionId ≠ row.decisionId).insertionSort
    fun a b => a.createdAt < b.createdAt ∨ a.createdAt = b.createdAt ∧ a.decisionId ≤ b.decisionId

section
variable {ι α β : Type} [Fintype ι] [DecidableEq ι] (g : Gateway α β) (s : State ι α β) (i : ι)

namespace State

def put (w : Worker α β) : State ι α β := { s with workers := Function.update s.workers i w }

/-- The transaction goes on to another statement. -/
def goto (point : Point α β) : State ι α β := s.put i { s.workers i with point := point }

/-- Another worker has locked the decision. -/
def locked (decisionId : String) : Bool :=
  decide (∃ j, j ≠ i ∧ (s.workers j).rowLock = some decisionId)

/-- Another worker has the advisory lock of the account. -/
def accountTaken (accountId : String) : Bool :=
  decide (∃ j, j ≠ i ∧ (s.workers j).accountLock = some accountId)

/-- Another worker has written, and not committed, an intent of the key. -/
def keyPending (key : String) : Bool :=
  decide (∃ j, j ≠ i ∧ ((s.workers j).intent.map (·.idempotencyKey)) = some key)

/-- Some worker has the table of the rollouts locked against writes. -/
def rolloutsLocked : Bool := decide (∃ j, (s.workers j).rolloutLock = true)

/-- The commit: the rows the transaction wrote become visible and its locks are gone. -/
def commit : State ι α β :=
  let w := s.workers i
  { tables :=
      { s.tables with
        riskDecisions := s.tables.riskDecisions ++ w.risk.toList
        tradeIntents := s.tables.tradeIntents ++ w.intent.toList }
    workers := Function.update s.workers i .fresh }

/-- After the governor: an approval needs the heartbeat, the rest is recorded. -/
def afterVerdict (row : HermesDecision) (clock : Int) (verdict : RiskDecision) : Point α β :=
  if verdict.status = .approved then .heartbeat row clock verdict
  else .record row verdict (some ⟨none, ⟨clock, verdict, none, none⟩⟩)

/-- After the heartbeat: an opening action of a gated account needs the rollouts. -/
def afterHeartbeat (row : HermesDecision) (readings : Readings) (outcome : RiskDecision) : Point α β :=
  if isGated row outcome then .lockRollouts row readings outcome
  else .record row outcome (some ⟨none, readings⟩)

/-- One statement of a worker; one that has to wait does nothing yet. -/
def run (clock : Int) (uuid : String) : State ι α β :=
  let w := s.workers i
  match w.point with
  | .select => s.goto i (.lock s.tables.candidates)
  | .lock [] => s.commit i
  | .lock (row :: rest) =>
    if s.locked i row.decisionId then s.goto i (.lock rest)
    else s.put i { w with point := .check row, rowLock := some row.decisionId }
  | .check row =>
    match earlyOutcome g clock row with
    | some outcome => s.goto i (.record row outcome none)
    | none => s.goto i (.account row clock)
  | .account row clock =>
    match accountOf g row with
    | some account =>
      if isOpening row.action then
        if s.accountTaken i account then s
        else s.put i { w with point := .positions row clock, accountLock := some account }
      else s.goto i (.positions row clock)
    | none => s.goto i (.positions row clock)
  | .positions row clock => s.goto i (.riskState row clock ((accountOf g row).map s.tables.positions))
  | .riskState row clock positions =>
    let riskState := match accountOf g row, nonEmpty row.instrumentSymbol with
      | some account, some symbol => some (s.tables.riskState account symbol)
      | _, _ => none
    s.goto i (afterVerdict row clock (g.evaluate row positions riskState))
  | .heartbeat row started verdict =>
    if projectionIsStale clock s.tables.lastSeenAt then
      s.goto i (.record row (heldForProjection verdict) (some ⟨none, ⟨started, verdict, none, none⟩⟩))
    else s.goto i (afterHeartbeat row
      ⟨started, verdict, s.tables.lastSeenAt.map fun last => (clock, last), none⟩ verdict)
  | .lockRollouts row readings outcome =>
    s.put i { w with point := .rollout row readings outcome, rolloutLock := true }
  | .rollout row readings outcome =>
    match currentLiveOpenGate (latestRollout s.tables.rollouts) with
    | .error _ => s.put i .fresh
    | .ok found =>
      let (outcome, gate) := applyGate outcome found
      s.goto i (.record row outcome
        (some ⟨gate, { readings with rollout := latestRollout s.tables.rollouts }⟩))
  | .record row outcome evaluated =>
    let risk : RiskDecisionRow := ⟨uuid, row.decisionId, outcome.status, (nonEmpty outcome.accountId).getD "unassigned",
      outcome.instrumentId, outcome.riskBudget, outcome.checks, outcome.reason⟩
    match outcome.status, evaluated with
    | .approved, some evaluated =>
      s.put i { w with point := .findIntent row outcome evaluated uuid, risk := some risk }
    | _, _ => s.put i { w with point := .commit, risk := some risk }
  | .findIntent row outcome evaluated riskDecisionId =>
    -- an intent of the key that is there already is returned as it is
    if s.tables.tradeIntents.any fun t => t.idempotencyKey = idempotencyKey g row outcome then s.goto i .commit
    else s.goto i (.insertIntent row outcome evaluated riskDecisionId)
  | .insertIntent row outcome evaluated riskDecisionId =>
    let key := idempotencyKey g row outcome
    if s.keyPending i key then s
    -- the unique index refuses a key that was committed since
    else if s.tables.tradeIntents.any fun t => t.idempotencyKey = key then s.put i .fresh
    else s.put i
      { w with
        point := .commit
        intent := some ⟨uuid, riskDecisionId, outcome.accountId, outcome.instrumentId, outcome.riskBudget, key,
          evaluated.gate, row, evaluated.readings⟩ }
  | .commit => s.commit i

def next : Label ι α β → State ι α β
  | .run i clock uuid => s.run g i clock uuid
  | .abort i => s.put i .fresh
  | .decided row => { s with tables := { s.tables with decisions := s.tables.decisions ++ [row] } }
  | .positions positions => { s with tables := { s.tables with positions := positions } }
  | .riskState riskState => { s with tables := { s.tables with riskState := riskState } }
  | .heartbeat lastSeenAt => { s with tables := { s.tables with lastSeenAt := lastSeenAt } }
  | .rollouts rollouts =>
    if s.rolloutsLocked then s else { s with tables := { s.tables with rollouts := rollouts } }

end State

/-- Any number of workers at one database. -/
def workers (ι : Type) [Fintype ι] [DecidableEq ι] (g : Gateway α β) : Machine (State ι α β) (Label ι α β) Unit where
  step s label := ((), s.next g label)

/-- No transaction has begun. -/
def begun (t : Tables α β) : State ι α β := ⟨t, fun _ => .fresh⟩

end

end TraderBot.DecisionGateway
