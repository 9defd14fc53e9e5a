import TraderBot.Lib.Machine
import TraderBot.Venue.Ledger

/-! # Intents and their execution jobs

The rows of `trade_intents` and `execution_jobs`, and `persist_intent_status`,
which writes what an execution event says of an intent and of its job over
whatever is stored. -/
namespace TraderBot.Execution
open TraderBot.Lib TraderBot.Lib.Json TraderBot.Venue

/-! ## Rows -/

/-- The labels of `trade_intent_status`; a draft is not yet in the lifecycle. -/
inductive IntentStatus where
  | draft
  | approved
  | dispatched
  | nodeAccepted
  | executing
  | completed
  | rejected
  | denied
  | failed
  | expired
  | cancelled
  | needsReview
  deriving DecidableEq, Repr

namespace IntentStatus

def text : IntentStatus → String
  | .draft => "draft"
  | .approved => "approved"
  | .dispatched => "dispatched"
  | .nodeAccepted => "node_accepted"
  | .executing => "executing"
  | .completed => "completed"
  | .rejected => "rejected"
  | .denied => "denied"
  | .failed => "failed"
  | .expired => "expired"
  | .cancelled => "cancelled"
  | .needsReview => "needs_review"

end IntentStatus

/-- `execution_jobs.status`. -/
inductive JobStatus where
  | pending
  | retryScheduled
  | claimed
  | executing
  | needsReview
  | completed
  | denied
  | rejected
  | failed
  | cancelled
  | expired
  deriving DecidableEq, Repr

namespace JobStatus

def text : JobStatus → String
  | .pending => "pending"
  | .retryScheduled => "retry_scheduled"
  | .claimed => "claimed"
  | .executing => "executing"
  | .needsReview => "needs_review"
  | .completed => "completed"
  | .denied => "denied"
  | .rejected => "rejected"
  | .failed => "failed"
  | .cancelled => "cancelled"
  | .expired => "expired"

/-- `TERMINAL_STATUSES`. -/
def isTerminal : JobStatus → Bool
  | .completed | .denied | .rejected | .failed | .cancelled | .expired => true
  | .pending | .retryScheduled | .claimed | .executing | .needsReview => false

end JobStatus

/-- A row of `trade_intents`. -/
structure TradeIntent where
  intentId : String
  accountId : String
  instrumentId : String
  action : String
  status : IntentStatus
  orderPlan : Dict Value
  riskBudget : Dict Value
  validUntil : DateTime
  idempotencyKey : String

/-- A row of `execution_jobs`. -/
structure Job where
  executionJobId : String
  intentId : Option String
  accountId : String
  instrumentId : String
  venueSymbol : String
  action : String
  status : JobStatus
  requestId : Option String
  idempotencyKey : String
  payload : Dict Value
  createdAt : Nat
  startedAt : Option DateTime
  completedAt : Option DateTime

def Job.key (job : Job) : String × String := (job.accountId, job.idempotencyKey)

/-- `execution_jobs` with its primary key and `uq_execution_jobs_account_idempotency`. -/
structure Jobs where
  table : Table Job.executionJobId
  keys : (table.rows.map Job.key).Nodup

namespace Jobs

theorem empty_keys : ((Table.empty : Table Job.executionJobId).rows.map Job.key).Nodup := List.nodup_nil

def empty : Jobs := ⟨Table.empty, empty_keys⟩

def find? (jobs : Jobs) (id : String) : Option Job := jobs.table.find? id

/-- `UPDATE ... WHERE p`, with both keys left alone. -/
def update (jobs : Jobs) (p : Job → Bool) (f : Job → Job)
    (hid : ∀ r, (f r).executionJobId = r.executionJobId) (hkey : ∀ r, (f r).key = r.key) : Jobs where
  table := jobs.table.update p f hid
  keys := by
    have hkeep : (jobs.table.rows.map fun r => if p r then f r else r).map Job.key =
        jobs.table.rows.map Job.key := by
      rw [List.map_map]
      refine List.map_congr_left fun r _ => ?_
      by_cases h : p r <;> simp [h, hkey]
    show ((jobs.table.rows.map fun r => if p r then f r else r).map Job.key).Nodup
    rw [hkeep]
    exact jobs.keys

theorem find?_update {jobs : Jobs} {p : Job → Bool} {f : Job → Job}
    {hid : ∀ r, (f r).executionJobId = r.executionJobId} {hkey : ∀ r, (f r).key = r.key} {id : String} :
    (jobs.update p f hid hkey).find? id = (jobs.find? id).map fun r => if p r then f r else r := by
  show (jobs.table.update p f hid).find? id = _
  exact Table.find?_update

end Jobs

/-- A row of `audit_events`, as the timeline writes it. -/
structure AuditEvent where
  eventType : String
  aggregateType : String
  aggregateId : String
  intentId : String
  payload : Dict Value

structure Tables where
  intents : Table TradeIntent.intentId
  jobs : Jobs
  auditEvents : List AuditEvent

/-- The stored status of an intent. -/
def Tables.intentStatus? (t : Tables) (intentId : String) : Option IntentStatus :=
  (t.intents.find? intentId).map TradeIntent.status

/-! ## What an event says -/

/-- An execution event, a dict of the node; its payload is a dict where it has one. -/
structure Event where
  eventId : Option String
  eventType : Option String
  payload : Option (Dict Value)

structure IntentStatusUpdate where
  intentStatus : IntentStatus
  jobStatus : JobStatus
  reason : String
  deriving DecidableEq, Repr

/-- `str(event.get("event_type") or "")`. -/
def Event.typeText (event : Event) : String := event.eventType.getD ""

/-- `a or b` of two texts. -/
def orText (a b : String) : String := if a = "" then b else a

section
variable (py : Interpreter)

def classifyIntentOutcome (event : Event) : IntentStatusUpdate :=
  let payload := event.payload.getD Dict.empty
  let reason := py.textOf (Json.orElse (payload.get? "reason") (payload.get? "error"))
  if event.typeText ∈ ["OrderDenied", "IntentDenied"] then ⟨.denied, .denied, orText reason "denied"⟩
  else if event.typeText ∈ ["OrderRejected", "IntentRejected"] then
    ⟨.rejected, .rejected, orText reason "rejected"⟩
  else if event.typeText ∈ ["OrderSubmitFailed", "ExecutionFailed"] then
    ⟨.failed, .failed, orText reason "failed"⟩
  else if event.typeText ∈ ["OrderFilled", "IntentCompleted"] then ⟨.completed, .completed, "filled"⟩
  else if event.typeText = "NodeAcceptedIntent" then ⟨.nodeAccepted, .claimed, "node_accepted"⟩
  else if event.typeText ∈ ["OrderWorking", "OrderAccepted"] then ⟨.executing, .executing, "executing"⟩
  else ⟨.needsReview, .needsReview, orText reason "unmapped_event"⟩

/-- A text or a null. -/
def optionalText : Option String → Value
  | some s => .str s
  | none => .null

def buildTimelineItem (intentId : String) (executionJobId : Option String) (update : IntentStatusUpdate)
    (eventId : Option String) (eventType : String) (observedAt : DateTime) (payload : Dict Value) :
    Dict Value :=
  Dict.empty.set "intent_id" (.str intentId)
    |>.set "execution_job_id" (optionalText executionJobId)
    |>.set "intent_status" (.str update.intentStatus.text)
    |>.set "job_status" (.str update.jobStatus.text)
    |>.set "reason" (.str update.reason)
    |>.set "event_id" (optionalText eventId)
    |>.set "event_type" (.str eventType)
    |>.set "observed_at" (.str observedAt.isoformat)
    |>.set "payload" (.obj payload.items)

/-! ## `persist_intent_status` -/

/-- A call, with the time it reads and whether the database refuses a statement of
it for an id that is no UUID or names no row. -/
structure Delivery where
  intentId : String
  executionJobId : Option String
  event : Event
  observedAt : Option (DateTime × Option Int)
  now : DateTime
  refused : Bool

/-- The timeline item as the database takes it, with its time; `none` raises. -/
def Delivery.item? (d : Delivery) : Option (DateTime × Dict Value) :=
  if d.refused then none
  else do
    let observedAt ← DateTime.toUtc (d.observedAt.getD (d.now, some 0))
    let item ← Jsonb.storedDict (buildTimelineItem d.intentId d.executionJobId
      (classifyIntentOutcome py d.event) d.event.eventId (d.event.eventType.getD "None") observedAt
      (d.event.payload.getD Dict.empty))
    return (observedAt, item)

/-- What an enum without the status takes for it. -/
def IntentStatus.fallback : IntentStatus → Option IntentStatus
  | .denied | .failed => some .rejected
  | .needsReview | .nodeAccepted | .executing => some .approved
  | .completed => none
  | s => some s

/-- `_db_intent_status`, with the labels of the enum. -/
def dbIntentStatus (enum : List IntentStatus) (desired : IntentStatus) : Option IntentStatus :=
  if desired ∈ enum then some desired else desired.fallback.filter fun s => s ∈ enum

/-- `UPDATE trade_intents SET status WHERE intent_id`. -/
def Tables.setIntentStatus (t : Tables) (intentId : String) (status : IntentStatus) : Tables :=
  { t with intents :=
      t.intents.update (fun r => r.intentId = intentId) (fun r => { r with status }) fun _ => rfl }

/-- What the call writes to the job it names. -/
def Job.observe (status : JobStatus) (observedAt : DateTime) (item : Dict Value) (job : Job) : Job :=
  { job with
    status
    completedAt := if status.isTerminal then job.completedAt.or (some observedAt) else job.completedAt
    payload := job.payload.set "intent_timeline_last" (.obj item.items) }

variable (status : JobStatus) (observedAt : DateTime) (item : Dict Value)

@[simp] theorem Job.observe_executionJobId (job : Job) :
    (job.observe status observedAt item).executionJobId = job.executionJobId := rfl

@[simp] theorem Job.observe_key (job : Job) :
    (job.observe status observedAt item).key = job.key := rfl

/-- `UPDATE execution_jobs ... WHERE execution_job_id`. -/
def Jobs.observe (jobs : Jobs) (id : String) (status : JobStatus) (observedAt : DateTime)
    (item : Dict Value) : Jobs :=
  jobs.update (fun r => r.executionJobId = id) (Job.observe status observedAt item)
    (Job.observe_executionJobId status observedAt item) (Job.observe_key status observedAt item)

/-- The tables after the call, with the labels of the enum; `none` raises, and the
transaction is rolled back. -/
def persistIntentStatus (enum : List IntentStatus) (d : Delivery) (t : Tables) : Option Tables := do
  let (observedAt, item) ← d.item? py
  let update := classifyIntentOutcome py d.event
  let t :=
    match dbIntentStatus enum update.intentStatus with
    | some status => t.setIntentStatus d.intentId status
    | none => t
  let t :=
    match d.executionJobId with
    | some id => { t with jobs := t.jobs.observe id update.jobStatus observedAt item }
    | none => t
  return { t with auditEvents :=
      t.auditEvents ++ [⟨"intent.timeline", "trade_intent", d.intentId, d.intentId, item⟩] }

/-- Deliveries one after the other; the answer says whether the call returned. -/
def deliveries (enum : List IntentStatus) : Machine Tables Delivery Bool where
  step t d :=
    match persistIntentStatus py enum d t with
    | some t' => (true, t')
    | none => (false, t)

end
end TraderBot.Execution
