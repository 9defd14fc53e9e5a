import TraderBot.SignalQueue.Model

/-! # The transactions of the queue

Workers claim a task, capture what they decide on, freeze one request and hand
it over; each is a transaction of its own. The legacy queue, which shares the
table of runs, ends every run whose lease is past before it claims. -/
namespace TraderBot.SignalQueue
open TraderBot.Lib TraderBot.Lib.Json

def microseconds : Int := 1000000

/-- `a = b` of two columns or parameters; a null equals nothing. -/
def sqlEq {α : Type} [DecidableEq α] (a b : Option α) : Bool := a.isSome && a = b

/-! ## Ingress -/

def defaultAccountId : String := "unassigned"

structure Enqueue where
  taskId : String
  rawMessageId : String
  sourcePlatform : String := "telegram"
  channelId : String
  sourceMessageId : String
  editVersion : String
  accountId : Option String := none
  expiresAt : Option Int := none
  skippedReason : Option String := none
  processingPurpose : ProcessingPurpose := .shadow
  deriving DecidableEq, Repr

/-- `(account_id or DEFAULT_ACCOUNT_ID).strip() or DEFAULT_ACCOUNT_ID`. -/
def resolvedAccount (accountId : Option String) : String :=
  let account := Text.strip (if accountId.getD "" = "" then defaultAccountId else accountId.getD "")
  if account = "" then defaultAccountId else account

/-- The row of this source identity and edit. -/
def Store.sourceTask (v : Store) (source : Source) (editVersion : String) : Option TaskRow :=
  v.tasks.rows.find? fun t => t.toSource = source ∧ t.editVersion = editVersion

/-- `INSERT ... ON CONFLICT (source identity) DO NOTHING`: whether it inserted. -/
def insertTask (t : TaskRow) : Transaction Bool :=
  .perform
    (fun v => if (v.sourceTask t.toSource t.editVersion).isSome then []
      else [.source t.toSource t.editVersion, .task t.taskId])
    (fun v => if (v.sourceTask t.toSource t.editVersion).isSome || (v.task t.taskId).isSome then id
      else Store.setTask t)
    fun v =>
      if (v.sourceTask t.toSource t.editVersion).isSome then some false
      else if (v.task t.taskId).isSome then none
      else some true

/-- The row of a new task. -/
def enqueuedRow (e : Enqueue) (accountId : String) (now : Int) : TaskRow :=
  let skipped := e.skippedReason.any (· ≠ "")
  let queued := if e.processingPurpose = .signal then "signal_queued"
    else "shadow_queued_legacy_still_live"
  { taskId := e.taskId, rawMessageId := e.rawMessageId, sourcePlatform := e.sourcePlatform
    channelId := e.channelId, sourceMessageId := e.sourceMessageId, editVersion := e.editVersion
    accountId := accountId, status := if skipped then .skipped else .pending
    disposition := some (if skipped then "skipped" else "pending")
    dispositionReason := if skipped then e.skippedReason else some queued
    expiresAt := e.expiresAt, processingPurpose := e.processingPurpose, createdAt := now }

def enqueueSignalTask (e : Enqueue) : Transaction Unit := do
  let account := resolvedAccount e.accountId
  if e.processingPurpose = .legacy then .raised
  else if e.processingPurpose = .signal ∧ account = defaultAccountId then .raised
  else
    let now ← select (·.clock)
    let row := enqueuedRow e account now
    let inserted ← insertTask row
    if inserted then pure ()
    else
      let existing ← select fun v => v.sourceTask row.toSource row.editVersion
      match existing with
      | none => .raised -- the conflict is with no task
      | some t => if t.processingPurpose ≠ e.processingPurpose then .raised else pure ()

/-! ## Claims -/

def openSignalTtl : Int := 30 * 60 * microseconds

/-- One turn of the loop of a claim: the worker's own clock at its two readings. -/
structure Turn where
  claimableAt : Int
  expiredAt : Int
  deriving DecidableEq, Repr

/-- A call of `claim_signal_task`, with the identifiers it makes and the readings of
each turn of its loop; a loop that goes on after the last is cut off. -/
structure ClaimCall where
  workerId : String
  leaseSeconds : Int := 30
  accountId : Option String := none
  openTtlSeconds : Option Int := none
  processingPurpose : ProcessingPurpose := .shadow
  claimToken : String
  processingRunId : String
  turns : List Turn
  deriving DecidableEq, Repr

def ClaimCall.lease (c : ClaimCall) (now : Int) : Int := now + c.leaseSeconds * microseconds

def rowIsClaimable (t : SignalTask) (now : Int) : Bool :=
  t.executionRequest.isNone &&
    (t.status = .pending ||
      (t.status = .leased && (t.leaseExpiresAt.isNone || past t.leaseExpiresAt now)))

def taskTtlExpired (t : SignalTask) (openTtlSeconds : Option Int) (now : Int) : Bool :=
  match t.expiresAt with
  | none => openTtlSeconds.any (· ≤ 0)
  | some expires =>
    match openTtlSeconds with
    | none => expires ≤ now
    | some ttl => expires - openSignalTtl + ttl * microseconds ≤ now

/-- Some task keeps the account busy. -/
def Store.accountBusy (v : Store) (accountId : String) : Bool :=
  v.tasks.rows.any fun t => t.accountId = accountId && t.busy v.clock

/-- The first of two rows by `created_at, task_id`. -/
def earlier (a b : TaskRow) : TaskRow :=
  if a.createdAt < b.createdAt ∨ (a.createdAt = b.createdAt ∧ a.taskId ≤ b.taskId) then a else b

def firstRow (rows : List TaskRow) : Option TaskRow :=
  rows.foldl (fun best t => some (best.elim t fun b => earlier b t)) none

def peekClaimCandidate (c : ClaimCall) (skipAccounts : List String) (now : Int) :
    Transaction (Option TaskRow) :=
  select fun v => firstRow <| v.tasks.rows.filter fun t =>
    (t.status = .pending || t.status = .leased) && t.processingPurpose = c.processingPurpose &&
      t.executionRequest.isNone &&
      (t.status = .pending || t.leaseExpiresAt.isNone || past t.leaseExpiresAt now) &&
      !v.accountBusy t.accountId &&
      (c.accountId.getD "" = "" || some t.accountId = c.accountId) &&
      !skipAccounts.contains t.accountId

/-- Whether the account has a live lease; a claim that finds it free is marked. -/
def accountHasLiveLease (accountId : String) : Transaction Bool :=
  .read (fun v => if v.accountBusy accountId then [] else [.found accountId]) fun v =>
    v.accountBusy accountId

/-- `COALESCE(MAX(attempt), 0)` over the runs of the task's message, purpose and
account. -/
def Store.maxAttempt (v : Store) (t : SignalTask) : Nat :=
  (v.runs.rows.filter fun r => r.rawMessageId = t.rawMessageId ∧
    r.processingPurpose = t.processingPurpose ∧ r.accountId = some t.accountId).foldl
      (fun n r => max n r.attempt) 0

/-- The unique indexes on active runs: one for a message and purpose, and for
signals one for a message and account. -/
def Store.activeRunConflicts (v : Store) (r : Run) : Bool :=
  v.runs.rows.any fun x => x.status.isActive && x.rawMessageId = r.rawMessageId &&
    x.processingPurpose = r.processingPurpose &&
    (r.processingPurpose ≠ .signal || x.accountId = r.accountId)

/-- `INSERT INTO message_processing_runs ...`; a unique index may refuse it. -/
def insertRun (r : Run) : Transaction Unit :=
  .perform (fun _ => [.run r.processingRunId])
    (fun v => if (v.run r.processingRunId).isSome || v.activeRunConflicts r then id
      else Store.setRun r)
    fun v => if (v.run r.processingRunId).isSome || v.activeRunConflicts r then none else some ()

/-- The end of the current run of a task, if it has one. -/
def endRun (task : SignalTask) (where_ : Store → Run → Bool) (set : Run → Run) : Transaction Unit :=
  match task.processingRunId with
  | some runId => updateRun runId where_ set >>= fun _ => pure ()
  | none => pure ()

/-- The end of a run whose lease is past. -/
def timedOut (r : Run) : Run :=
  { r with status := .hermesTimeout, error := r.error.or (some "lease expired before completion") }

/-- The run of a new claim. -/
def startedRun (c : ClaimCall) (task : SignalTask) (now : Int) (attempt : Nat) : Run :=
  { processingRunId := c.processingRunId, rawMessageId := task.rawMessageId
    accountId := some task.accountId, processingPurpose := task.processingPurpose
    status := .started, leaseExpiresAt := some (c.lease now), attempt := attempt
    claimToken := some c.claimToken }

def leasedRow (c : ClaimCall) (now : Int) (attempt : Nat) (t : TaskRow) : TaskRow :=
  { t with
    status := .leased, workerId := some c.workerId, claimToken := some c.claimToken
    attempt := attempt, processingRunId := some c.processingRunId
    leaseExpiresAt := some (c.lease now), executionContext := none, executionRequest := none }

def leaseTask (c : ClaimCall) (task : TaskRow) (now : Int) : Transaction (Option TaskRow) := do
  endRun task.toSignalTask (fun _ r => r.status.isActive && past r.leaseExpiresAt now) timedOut
  let attempt ← select fun v => v.maxAttempt task.toSignalTask + 1
  insertRun (startedRun c task.toSignalTask now attempt)
  let leased ← updateTask task.taskId
    (fun _ t => (t.status = .pending || t.status = .leased) && t.executionRequest.isNone &&
      (t.status = .pending || t.leaseExpiresAt.isNone || past t.leaseExpiresAt now))
    (fun _ t => leasedRow c now attempt t) [.leased task.taskId]
  match leased with
  | some t => pure (some t)
  | none => .raised -- the task disappeared during the claim

/-- The shadow payload of an expired task. -/
def expiredPayload : Dict Value :=
  [("mode", .str "shadow"), ("operator_submitted", .bool false), ("exchange_submitted", .bool false),
    ("live_order", .bool false), ("outbox_published", .bool false),
    ("legacy_outbox_consumed", .bool false), ("expired", .bool true)].foldl
      (fun d p => d.set p.1 p.2) Dict.empty

/-- The end of the run of a task that is disposed of. -/
def skippedRun (r : Run) : Run :=
  { r with status := .skipped, error := r.error.or (some "signal_ttl_exceeded") }

def disposeExpired (task : TaskRow) (workerId : String) : Transaction Unit := do
  endRun task.toSignalTask (fun _ r => r.status.isActive) skippedRun
  let _ ← updateTask task.taskId (fun _ t => t.status = .pending || t.status = .leased)
    fun _ t => { t with
      status := .expired, disposition := some "expired"
      dispositionReason := some "signal_ttl_exceeded", workerId := some workerId
      shadowResult := expiredPayload }
  pure ()

/-- The loop of a claim. -/
def claimLoop (c : ClaimCall) (now : Int) : List Turn → List String → Transaction (Option TaskRow)
  | [], _ => .raised
  | turn :: turns, skipAccounts => do
    let candidate ← peekClaimCandidate c skipAccounts now
    match candidate with
    | none => pure none
    | some task =>
      advisoryLock (.queue task.accountId)
      let busy ← accountHasLiveLease task.accountId
      if busy then claimLoop c now turns (task.accountId :: skipAccounts)
      else
        let locked ← selectTaskForUpdate task.taskId
        match locked with
        | none => claimLoop c now turns (task.accountId :: skipAccounts)
        | some fresh =>
          if fresh.processingPurpose ≠ c.processingPurpose ∨
              rowIsClaimable fresh.toSignalTask turn.claimableAt = false then
            claimLoop c now turns (task.accountId :: skipAccounts)
          else if taskTtlExpired fresh.toSignalTask c.openTtlSeconds turn.expiredAt then
            disposeExpired fresh c.workerId
            claimLoop c now turns skipAccounts
          else leaseTask c fresh now

def claimSignalTask (c : ClaimCall) : Transaction (Option TaskRow) := do
  if c.processingPurpose = .legacy ∨ c.workerId = "" ∨ c.leaseSeconds ≤ 0 then .raised
  else
    let now ← select (·.clock)
    claimLoop c now c.turns []

/-! ## Results -/

structure Completion where
  taskId : String
  claimToken : String
  status : TaskStatus
  disposition : Option String := none
  dispositionReason : Option String := none
  shadowResult : Dict Value := Dict.empty

/-- The status of the run of a task that ends with this status. -/
def runStatusOf : TaskStatus → RunStatus
  | .shadowDispatched => .succeeded
  | .failed => .hermesFailed
  | .pending | .leased | .expired | .skipped | .dispatched | .reconciling => .skipped

def completeSignalTask (c : Completion) : Transaction TaskRow := do
  if c.claimToken = "" ∨ c.status.isTerminal = false ∨ c.disposition = some "filled" then .raised
  else
    let row ← updateTask c.taskId
      (fun v t => t.claimToken = some c.claimToken && t.status = .leased &&
        ahead t.leaseExpiresAt v.clock)
      fun _ t => { t with
        status := c.status, disposition := c.disposition, dispositionReason := c.dispositionReason
        shadowResult := t.shadowResult.merge c.shadowResult }
    match row with
    | none => .raised -- a stale or expired claim token
    | some task =>
      match task.processingRunId with
      | none => pure task
      | some runId =>
        let ended ← updateRun runId
          (fun v r => r.claimToken = some c.claimToken && r.status.isActive &&
            ahead r.leaseExpiresAt v.clock)
          fun r => { r with status := runStatusOf c.status }
        if ended then pure task else .raised

/-- `fail_signal_task`. -/
def failure (taskId claimToken dispositionReason : String) (shadowResult : Dict Value) : Completion :=
  { taskId := taskId, claimToken := claimToken, status := .failed, disposition := some "failed"
    dispositionReason := some dispositionReason, shadowResult := shadowResult }

/-! ## Execution -/

/-- The task and the run still carry this claim. -/
def sameClaim (task : SignalTask) (t : TaskRow) : Bool :=
  sqlEq t.processingRunId task.processingRunId && sqlEq t.claimToken task.claimToken &&
    t.attempt = task.attempt

/-- The run is of the task's claim and has not ended. -/
def runMatches (t : TaskRow) (r : Run) : Bool :=
  sqlEq r.claimToken t.claimToken && r.attempt = t.attempt && r.accountId = some t.accountId &&
    r.rawMessageId = t.rawMessageId && r.processingPurpose = .signal && r.status.isActive

/-- `SELECT ... FOR UPDATE OF t, r`: whether there is such a task and run. -/
def selectClaimForUpdate (taskId : String) (where_ : Store → TaskRow → Run → Bool) : Transaction Bool :=
  .read
    (fun v => match eligible taskId where_ v with
      | some (_, r) => [.task taskId, .run r.processingRunId]
      | none => [])
    fun v => (eligible taskId where_ v).isSome

def lockExecutionClaim (task : SignalTask) : Transaction Unit := do
  if task.processingPurpose ≠ .signal then .raised
  else
    advisoryLock (.account task.accountId)
    let found ← selectClaimForUpdate task.taskId fun v t r =>
      t.accountId = task.accountId && sameClaim task t && t.processingPurpose = .signal &&
        t.status = .leased && t.executionRequest.isNone && ahead t.leaseExpiresAt v.clock &&
        runMatches t r && ahead r.leaseExpiresAt v.clock
    if found then pure () else .raised

/-- The task's lease and its current run's are unexpired. -/
def leasesAhead (v : Store) (t : TaskRow) : Bool :=
  ahead t.leaseExpiresAt v.clock &&
    (v.currentRun t.toSignalTask).any fun r => ahead r.leaseExpiresAt v.clock

/-- Capture the versions before the model is asked, in the transaction that locks
the claim. -/
def storeExecutionContext (task : SignalTask) (versions : JsonObject) : Transaction Unit := do
  lockExecutionClaim task
  if versions.get? "account_id" ≠ some (.str task.accountId) then .raised
  else
    let row ← updateTask task.taskId
      (fun v t => sameClaim task t && t.status = .leased && t.executionContext.isNone &&
        t.executionRequest.isNone && leasesAhead v t)
      fun _ t => { t with executionContext := some versions }
    match row with
    | some _ => pure ()
    | none => .raised

/-- What a decision leaves in the shadow result. -/
def decisionPayload (semantic stages snapshot : Value) : Dict Value :=
  [("mode", .str "signal"), ("semantic", semantic), ("stages", stages), ("snapshot", snapshot),
    ("operator_submitted", .bool false), ("outbox_published", .bool false)].foldl
      (fun d p => d.set p.1 p.2) Dict.empty

def recordSignalDecision (task : SignalTask) (semantic stages snapshot : Value) : Transaction Unit := do
  lockExecutionClaim task
  let row ← updateTask task.taskId (fun v t => leasesAhead v t)
    fun _ t => { t with shadowResult := decisionPayload semantic stages snapshot }
  match row with
  | some _ => pure ()
  | none => .raised

/-- The text of a string, and of a number or a truth value as JSON writes it. -/
def scalarText : Value → Option String
  | .str s => some s
  | .int n => some (String.ofList (renderInt n))
  | .bool b => some (if b then "true" else "false")
  | .float x => some (String.ofList (renderFloat x))
  | .null | .arr _ | .obj _ => none

/-- `shadow_result #>> '{semantic,decision,decision_id}'`. -/
def decisionId (t : TaskRow) : Option String :=
  (((t.shadowResult.get? "semantic").bind (Value.get? "decision")).bind
    (Value.get? "decision_id")).bind scalarText

/-- `value == text`, where `None` is no value. -/
def equalsText (value : Option Value) (text : Option String) : Bool :=
  present value = text.map Value.str

/-- The request names the claim of the task. -/
def namesClaim (task : SignalTask) (body : JsonObject) : Bool :=
  match body.get? "signal_claim" with
  | some (.obj claim) =>
    equalsText (Dict.lookup "task_id" claim) (some task.taskId) &&
      equalsText (Dict.lookup "processing_run_id" claim) task.processingRunId &&
      equalsText (Dict.lookup "claim_token" claim) task.claimToken &&
      Dict.lookup "attempt" claim = some (.int task.attempt)
  | _ => false

def registerExecutionRequest (task : SignalTask) (body : JsonObject) : Transaction TaskRow := do
  if namesClaim task body = false then .raised
  else if body.get? "account_id" ≠ some (.str task.accountId) then .raised
  else
    lockExecutionClaim task
    let row ← updateTask task.taskId
      (fun v t => t.executionContext.isSome &&
        sqlEq (decisionId t) ((body.get? "decision_id").bind scalarText) && leasesAhead v t)
      fun _ t => { t with
        executionRequest := some body, status := .reconciling, disposition := some "pending"
        dispositionReason := some "operator_result_pending" }
    match row with
    | some t => pure t
    | none => .raised

/-- `str(detail)[:500]`. -/
def detailText (detail : String) : String := String.ofList (detail.toList.take 500)

/-- The request is let go when both leases are past and no operation was bound. -/
def expireClaim (taskId : String) : Transaction (Option TaskRow) :=
  updateClaim taskId
    (fun v t r => t.processingPurpose = .signal && t.operatorIntentId.isNone && t.status.isClaimed &&
      runMatches t r && past t.leaseExpiresAt v.clock && past r.leaseExpiresAt v.clock)
    (fun t => { t with
      status := .expired, disposition := some "rejected"
      dispositionReason := some "claim_expired_without_operation"
      shadowResult := (t.shadowResult.set "operator_submitted" (.bool false)).set "operator_result"
        (.str "expired_without_operation") })
    fun r => { r with status := .hermesTimeout, error := some "claim_expired_without_operation" }

def recordOperatorDetail (taskId : String) : Option Value → Transaction Unit
  | some detail => do
    let _ ← updateTask taskId (fun _ _ => true)
      fun _ t => { t with shadowResult := t.shadowResult.set "operator_detail" detail }
    pure ()
  | none => pure ()

/-- The downstream result is unknown. -/
def markReconciling (task : SignalTask) (detail : String) : Transaction (Option TaskRow) :=
  updateTask task.taskId
    (fun _ t => sameClaim task t && sqlEq t.executionRequest task.executionRequest &&
      t.status.isClaimed)
    fun _ t => { t with
      status := .reconciling, disposition := some "pending"
      dispositionReason := some (detailText detail)
      shadowResult := (t.shadowResult.set "operator_submitted" .null).set "operator_result"
        (.str "unknown") }

def recordOperatorUncertainty (task : SignalTask) (detail : String) (operatorDetail : Option Value) :
    Transaction TaskRow := do
  advisoryLock (.account task.accountId)
  let locked ← selectTaskForUpdate task.taskId
  match locked with
  | none => .raised -- the task disappeared
  | some current =>
    if current.operatorIntentId.isSome ∨ current.status.isTerminal then pure current
    else if current.claimToken ≠ task.claimToken ∨ current.attempt ≠ task.attempt ∨
        current.processingRunId ≠ task.processingRunId ∨
        current.executionRequest ≠ task.executionRequest then .raised
    else
      match task.processingRunId with
      | none => .raised
      | some runId =>
        let run ← selectRunForUpdate runId
        match run with
        | none => .raised -- the run disappeared
        | some _ =>
          recordOperatorDetail task.taskId operatorDetail
          let expired ← expireClaim task.taskId
          match expired with
          | some t => pure t
          | none =>
            let row ← markReconciling task detail
            match row with
            | some t => pure t
            | none =>
              let authoritative ← select (·.task task.taskId)
              match authoritative with
              | some t => pure t
              | none => .raised

/-! ## The legacy queue -/

/-- The runs whose lease is past. -/
def Store.dueRuns (v : Store) (now : Int) : List Run :=
  v.runs.rows.filter fun r => r.status.isActive && past r.leaseExpiresAt now

def Store.setTimedOut (rs : List Run) (s : Store) : Store :=
  rs.foldl (fun s r => s.setRun (timedOut r)) s

/-- `_expire_timed_out_runs`, the first statement of a legacy claim. -/
def expireTimedOutRuns : Transaction Unit := do
  let now ← select (·.clock)
  .perform (fun v => (v.dueRuns now).map fun r => .run r.processingRunId)
    (fun v => Store.setTimedOut (v.dueRuns now)) fun _ => some ()

end TraderBot.SignalQueue
