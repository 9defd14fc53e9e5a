import TraderBot.Execution.Model
import TraderBot.Planner.Model
import TraderBot.Risk.ExecutionJobs

/-! # Execution jobs

The calls of `execution_jobs.py` on a job: it is created for an approved intent,
claimed by a worker, put back for a retry or closed; `persist_intent_status` writes
it as well. Each call is one transaction that holds its row, so calls come one
after the other. -/
namespace TraderBot.Execution
open TraderBot.Lib TraderBot.Lib.Text TraderBot.Lib.Json TraderBot.Venue

/-- What is outside the code: hashes, `str` and `int` of the interpreter, the
database's reading of a text as a time, in microseconds, and the labels of its
intent statuses. -/
structure Env where
  hashes : Risk.Hashes
  py : Interpreter
  intOf : Value → Option Int
  intOf_int : ∀ n, intOf (.int n) = some n
  timestamptz : String → Option Int
  enum : List IntentStatus

/-- `_aware(now or datetime.now(timezone.utc))`; `none` raises. -/
def aware (clock : DateTime) (now : Option (DateTime × Option Int)) : Option DateTime :=
  DateTime.toUtc (now.getD (clock, some 0))

/-- `now + timedelta(seconds=seconds)`; `none` raises. -/
def addSeconds (now : DateTime) (seconds : Int) : Option DateTime :=
  let micros := now.toMicros + seconds * 1000000
  if micros < 0 then none else DateTime.ofMicros micros.toNat

/-! ## The request of an intent -/

/-- What a call to create a job comes with, besides the intent's row: the texts it
draws, the database's time and whether the database refuses one of the rows that
are written beside the job. -/
structure Creation where
  intentId : String
  now : Option (DateTime × Option Int)
  clock : DateTime
  requestId : Option String
  drawnTrace : String
  createdAt : Nat
  refused : Bool

def TradeIntent.forRisk (intent : TradeIntent) : Risk.Intent where
  intentId := intent.intentId
  accountId := intent.accountId
  instrumentId := intent.instrumentId
  action := intent.action
  status := intent.status.text
  orderPlan := intent.orderPlan
  riskBudget := intent.riskBudget

section
variable (env : Env)

/-- `_clean_optional`. -/
def cleanOptional (v : Option Value) : Option String :=
  match v.map env.py.str with
  | some s => if strip s = "" then none else some (strip s)
  | none => none

/-- `_uuidish`. -/
def uuidish (s : String) : String :=
  match Uuid.parse env.hashes.unicode s with
  | some u => u.str
  | none => env.hashes.jobId s

/-- `derive_trace_id`, with the names and values it looks through. -/
def deriveTraceId (drawn : String) (traceId : Option Value) (parts : List (String × Option Value)) :
    String :=
  match cleanOptional env traceId with
  | some s => uuidish env s
  | none =>
    match parts.findSome? fun p => (cleanOptional env p.2).map fun s => p.1 ++ "=" ++ s with
    | some material => env.hashes.jobId material
    | none => drawn

/-- `inject_trace_context`. -/
def injectTraceContext (drawn : String) (payload : Dict Value)
    (traceId requestId idempotencyKey intentId : Option Value) : Dict Value :=
  let requestValue := (cleanOptional env requestId).or (cleanOptional env (payload.get? "request_id"))
  let trace := deriveTraceId env drawn (Json.orElse traceId (payload.get? "trace_id"))
    [("request_id", requestValue.map .str),
      ("idempotency_key", Json.orElse idempotencyKey (payload.get? "idempotency_key")),
      ("intent_id", Json.orElse intentId (payload.get? "intent_id")),
      ("execution_job_id", payload.get? "execution_job_id"),
      ("order_id", Json.orElse (payload.get? "order_id") (payload.get? "client_order_id")),
      ("command_id", payload.get? "command_id")]
  let payload :=
    match requestValue with
    | some s => payload.setDefault "request_id" (.str s)
    | none => payload
  payload.setDefault "trace_id" (.str trace)

/-- `request_id or str(RequestId.for_material(...))`. -/
def Creation.requestText (c : Creation) (key : String) : String :=
  orText (c.requestId.getD "")
    ("req_" ++ String.ofList
      ((env.hashes.sha256 ("execution_job|" ++ c.intentId ++ "|" ++ key)).toList.take 32))

/-- `_reservation_payload`; `none` raises. -/
def reservationDict (intent : TradeIntent) : Option (Dict Value) := do
  let r ← Risk.reservationPayload env.hashes.unicode intent.riskBudget intent.orderPlan
  return Dict.empty.set "notional" (.str (Planner.fixedDecimal r.notional))
    |>.set "risk_amount" (.str (Planner.fixedDecimal r.riskAmount))
    |>.set "margin_amount" (.str (Planner.fixedDecimal r.marginAmount))
    |>.set "expires_at" .null

/-- `payload["intent"]` before the trace context. -/
def TradeIntent.dict (intent : TradeIntent) : Dict Value :=
  Dict.empty.set "intent_id" (.str intent.intentId)
    |>.set "account_id" (.str intent.accountId)
    |>.set "instrument_id" (.str intent.instrumentId)
    |>.set "action" (.str intent.action)
    |>.set "idempotency_key" (.str intent.idempotencyKey)
    |>.set "valid_until" (.str intent.validUntil.isoformat)
    |>.set "order_plan" (.obj intent.orderPlan.items)
    |>.set "risk_budget" (.obj intent.riskBudget.items)

/-- The payload of a new job. -/
def requestPayload (c : Creation) (intent : TradeIntent) (key : String) (now : DateTime)
    (reservation : Dict Value) : Dict Value :=
  let requestId := some (.str (c.requestText env key))
  let payload := Dict.empty.set "schema_version" (.str "1.0")
    |>.set "created_by" (.str "order_management.execution_jobs")
    |>.set "created_at" (.str now.isoformat)
    |>.set "attempts" (.int 0)
    |>.set "intent" (.obj intent.dict.items)
    |>.set "reservation" (.obj reservation.items)
  let payload := injectTraceContext env c.drawnTrace payload none requestId (some (.str key))
    (some (.str intent.intentId))
  payload.set "intent" (.obj (injectTraceContext env c.drawnTrace intent.dict (payload.get? "trace_id")
    requestId (some (.str key)) (some (.str intent.intentId))).items)

/-- `build_execution_job_request`, with the payload as the database keeps it and
the columns a new row is given; `none` raises. -/
def buildExecutionJobRequest (c : Creation) (intent : TradeIntent) : Option Job := do
  let now ← aware c.clock c.now
  let key := Risk.executionJobKey env.hashes intent.forRisk
  let payload ← Jsonb.storedDict (requestPayload env c intent key now (← reservationDict env intent))
  return {
    executionJobId := env.hashes.jobId key
    intentId := some intent.intentId
    accountId := intent.accountId
    instrumentId := intent.instrumentId
    venueSymbol := intent.instrumentId
    action := intent.action
    status := .pending
    requestId := some (c.requestText env key)
    idempotencyKey := key
    payload
    createdAt := c.createdAt
    startedAt := none
    completedAt := none }

/-- The request of an approved intent; `none` raises. -/
def Creation.request? (c : Creation) (t : Tables) : Option Job := do
  let intent ← t.intents.find? c.intentId
  if intent.status = .approved ∧ c.refused = false then buildExecutionJobRequest env c intent else none

end

/-! ## `create_execution_job_for_approved_intent` -/

/-- `INSERT` of a row no other conflicts with. -/
def Jobs.insert (jobs : Jobs) (job : Job) (h : job.key ∉ jobs.table.rows.map Job.key)
    (hid : job.executionJobId ∉ jobs.table.rows.map Job.executionJobId) : Jobs where
  table := jobs.table.insert job
  keys := by
    have hrows : (jobs.table.insert job).rows = jobs.table.rows ++ [job] := by
      unfold Table.insert
      rw [dif_neg hid]
    rw [hrows, List.map_append, List.map_singleton]
    exact List.Nodup.append jobs.keys (List.nodup_singleton _) (by simpa using h)

/-- What a request that comes again leaves of a job. -/
def Job.recreate (request job : Job) : Job :=
  { job with
    requestId := coalesce job.requestId request.requestId
    payload := job.payload.merge request.payload }

@[simp] theorem Job.recreate_executionJobId (request job : Job) :
    (request.recreate job).executionJobId = job.executionJobId := rfl

@[simp] theorem Job.recreate_key (request job : Job) : (request.recreate job).key = job.key := rfl

/-- `ON CONFLICT (account_id, idempotency_key) DO UPDATE`. -/
def Jobs.recreate (jobs : Jobs) (request : Job) : Jobs :=
  jobs.update (fun r => r.key = request.key) request.recreate request.recreate_executionJobId
    request.recreate_key

local instance lawfulKeys : LawfulBEq (String × String) := inferInstance

/-- `_insert_execution_job`; a job under this id for another key makes it raise. -/
def Jobs.insertExecutionJob (jobs : Jobs) (request : Job) : Option Jobs :=
  if h : request.key ∈ jobs.table.rows.map Job.key then some (jobs.recreate request)
  else if hid : request.executionJobId ∈ jobs.table.rows.map Job.executionJobId then none
  else some (jobs.insert request h hid)

/-- The tables after the call; `none` raises. -/
def createExecutionJob (env : Env) (c : Creation) (t : Tables) : Option Tables := do
  let request ← c.request? env t
  let jobs ← t.jobs.insertExecutionJob request
  return { t with jobs }

/-! ## `claim_next_execution_job` -/

/-- A worker's call, with the rows that others hold. -/
structure Claim where
  workerId : String
  now : Option (DateTime × Option Int)
  clock : DateTime
  locked : List String

/-- A JSON value as `#>>` gives it. -/
def pathText : Value → Option String
  | .null => none
  | .str s => some s
  | v => some (String.ofList (render v))

/-- `payload#>>'{retry,next_attempt_at}'`. -/
def Job.nextAttemptAt (job : Job) : Option String :=
  match job.payload.get? "retry" with
  | some (.obj members) => (Dict.lookup "next_attempt_at" members).bind pathText
  | _ => none

section
variable (env : Env)

/-- The condition of the `SELECT`; `none` raises. -/
def Job.claimable (now : DateTime) (job : Job) : Option Bool :=
  match job.status with
  | .pending => some true
  | .retryScheduled =>
    match job.nextAttemptAt with
    | none => some true
    | some text => (env.timestamptz text).map fun due => decide (due ≤ (now.toMicros : Int))
  | _ => some false

/-- `int(payload.get("attempts") or 0)`; `none` raises. -/
def attempts (payload : Dict Value) : Option Int :=
  match Json.orElse (payload.get? "attempts") none with
  | some v => env.intOf v
  | none => some 0

/-- `ORDER BY created_at, execution_job_id`. -/
def Job.comesBefore (a b : Job) : Bool :=
  a.createdAt < b.createdAt || (a.createdAt == b.createdAt && decide (a.executionJobId ≤ b.executionJobId))

/-- The first claimable row that nobody holds. -/
def Jobs.nextJob (jobs : Jobs) (c : Claim) (now : DateTime) : Option (Option Job) :=
  if jobs.table.rows.any fun r => (r.claimable env now).isNone then none
  else
    let rows := jobs.table.rows.filter fun r =>
      r.claimable env now = some true && !c.locked.contains r.executionJobId
    some (rows.mergeSort Job.comesBefore).head?

/-- What the claim writes to the job. -/
def Job.claim (now : DateTime) (payload : Dict Value) (job : Job) : Job :=
  { job with status := .claimed, startedAt := coalesce job.startedAt (some now), payload }

/-- The payload of a claimed job, as the database keeps it; `none` raises. -/
def claimedPayload (c : Claim) (now : DateTime) (payload : Dict Value) : Option (Dict Value) := do
  let n ← attempts env payload
  Jsonb.storedDict (payload.set "claimed_by" (.str c.workerId)
    |>.set "claimed_at" (.str now.isoformat)
    |>.set "attempts" (.int n))

variable (now : DateTime) (payload : Dict Value) (status : JobStatus)

@[simp] theorem Job.claim_executionJobId (job : Job) :
    (job.claim now payload).executionJobId = job.executionJobId := rfl

@[simp] theorem Job.claim_key (job : Job) :
    (job.claim now payload).key = job.key := rfl

def Jobs.claim (jobs : Jobs) (id : String) (now : DateTime) (payload : Dict Value) : Jobs :=
  jobs.update (fun r => r.executionJobId = id) (Job.claim now payload)
    (Job.claim_executionJobId now payload) (Job.claim_key now payload)

/-- The job that is claimed, if there is one, and the tables; `none` raises. -/
def claimNextExecutionJob (c : Claim) (t : Tables) : Option (Option String × Tables) := do
  let now ← aware c.clock c.now
  match ← t.jobs.nextJob env c now with
  | none => return (none, t)
  | some job =>
    let payload ← claimedPayload env c now job.payload
    return (some job.executionJobId, { t with jobs := t.jobs.claim job.executionJobId now payload })

/-! ## `schedule_job_retry` and `mark_job_terminal` -/

structure Retry where
  executionJobId : String
  reason : String
  delaySeconds : Int
  now : Option (DateTime × Option Int)
  clock : DateTime

/-- The status and the payload of a job after a failed attempt; `none` raises. -/
def retryPayload (r : Retry) (maxAttempts : Int) (now : DateTime) (payload : Dict Value) :
    Option (JobStatus × Dict Value) := do
  let n := (← attempts env payload) + 1
  let next := payload.set "attempts" (.int n)
  if maxAttempts < n then
    return (.failed, next.set "terminal" (.obj (Dict.empty.set "reason" (.str "max_attempts_exceeded")
      |>.set "last_error" (.str r.reason)
      |>.set "at" (.str now.isoformat)).items))
  else
    let due ← addSeconds now r.delaySeconds
    return (.retryScheduled, next.set "retry" (.obj (Dict.empty.set "reason" (.str r.reason)
      |>.set "next_attempt_at" (.str due.isoformat)).items))

/-- The status, the payload the database keeps and the time of a call for a job. -/
def Retry.outcome? (r : Retry) (maxAttempts : Int) (job : Job) :
    Option (JobStatus × Dict Value × DateTime) := do
  let now ← aware r.clock r.now
  let (status, payload) ← retryPayload env r maxAttempts now job.payload
  return (status, ← Jsonb.storedDict payload, now)

/-- What a status that is reached writes to the job. -/
def Job.settle (status : JobStatus) (payload : Dict Value) (completed : Option DateTime) (job : Job) : Job :=
  { job with status, payload, completedAt := coalesce completed job.completedAt }

@[simp] theorem Job.settle_executionJobId (payload : Dict Value) (completed : Option DateTime)
    (job : Job) :
    (job.settle status payload completed).executionJobId = job.executionJobId := rfl

@[simp] theorem Job.settle_key (payload : Dict Value) (completed : Option DateTime) (job : Job) :
    (job.settle status payload completed).key = job.key := rfl

/-- `UPDATE execution_jobs SET status, payload, completed_at WHERE execution_job_id`. -/
def Jobs.settle (jobs : Jobs) (id : String) (status : JobStatus) (payload : Dict Value)
    (completed : Option DateTime) : Jobs :=
  jobs.update (fun r => r.executionJobId = id) (Job.settle status payload completed)
    (Job.settle_executionJobId status payload completed) (Job.settle_key status payload completed)

/-- The new status and the tables; `none` raises. -/
def scheduleJobRetry (r : Retry) (maxAttempts : Int) (t : Tables) : Option (JobStatus × Tables) := do
  let job ← t.jobs.find? r.executionJobId
  let (status, payload, now) ← r.outcome? env maxAttempts job
  let completed := if status.isTerminal then some now else none
  return (status, { t with jobs := t.jobs.settle r.executionJobId status payload completed })

structure Closing where
  executionJobId : String
  status : String
  reason : String
  detail : Option (Dict Value)
  now : Option (DateTime × Option Int)
  clock : DateTime

/-- A status of `TERMINAL_STATUSES` by its text. -/
def terminalStatus? (text : String) : Option JobStatus :=
  [JobStatus.completed, .denied, .rejected, .failed, .cancelled, .expired].find? fun s => s.text = text

/-- The status, the payload the database keeps and the time of a call for a job. -/
def Closing.outcome? (m : Closing) (job : Job) : Option (JobStatus × Dict Value × DateTime) := do
  let status ← terminalStatus? m.status
  let now ← aware m.clock m.now
  let terminal := (Dict.empty.set "status" (.str m.status)
    |>.set "reason" (.str m.reason)
    |>.set "at" (.str now.isoformat)).merge (m.detail.getD Dict.empty)
  return (status, ← Jsonb.storedDict (job.payload.set "terminal" (.obj terminal.items)), now)

/-- The tables after the call; `none` raises. -/
def markJobTerminal (m : Closing) (t : Tables) : Option Tables := do
  let job ← t.jobs.find? m.executionJobId
  let (status, payload, now) ← m.outcome? job
  return { t with jobs := t.jobs.settle m.executionJobId status payload (some now) }

end
end TraderBot.Execution
