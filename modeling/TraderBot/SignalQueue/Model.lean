import TraderBot.Lib.Postgres
import TraderBot.Lib.Program

/-! # The tables of the signal queue

`signal_dispatch_tasks` and `message_processing_runs`, what they are locked by,
and the kinds of statement the queue makes on them. A statement takes its row
locks and reads the clock of the database when it runs; `now()` is the clock at
the start of the transaction. -/
namespace TraderBot.SignalQueue
open TraderBot.Lib TraderBot.Lib.Json

/-! ## Rows -/

inductive ProcessingPurpose where
  | legacy
  | shadow
  | signal
  deriving DecidableEq, Repr

inductive TaskStatus where
  | pending
  | leased
  | shadowDispatched
  | expired
  | failed
  | skipped
  | dispatched
  | reconciling
  deriving DecidableEq, Repr

/-- `TERMINAL_STATUSES`. -/
def TaskStatus.isTerminal : TaskStatus → Bool
  | .shadowDispatched | .expired | .failed | .skipped => true
  | .pending | .leased | .dispatched | .reconciling => false

/-- `status IN ('leased', 'reconciling')`. -/
def TaskStatus.isClaimed : TaskStatus → Bool
  | .leased | .reconciling => true
  | .pending | .shadowDispatched | .expired | .failed | .skipped | .dispatched => false

inductive RunStatus where
  | started
  | processing
  | succeeded
  | failed
  | skipped
  | hermesTimeout
  | hermesFailed
  | outboxFailed
  deriving DecidableEq, Repr

/-- `status IN ('started', 'processing')`. -/
def RunStatus.isActive : RunStatus → Bool
  | .started | .processing => true
  | .succeeded | .failed | .skipped | .hermesTimeout | .hermesFailed | .outboxFailed => false

/-- What a claim is known by: its token, its run and its lease. -/
structure Claim where
  claimToken : Option String := none
  processingRunId : Option String := none
  leaseExpiresAt : Option Int := none
  deriving DecidableEq, Repr

/-- The message a task is about, for one account; its edits have other versions. -/
structure Source where
  sourcePlatform : String
  channelId : String
  sourceMessageId : String
  accountId : String
  deriving DecidableEq, Repr

/-- A task as the code reads it. Times are microseconds. -/
structure SignalTask extends Source, Claim where
  taskId : String
  rawMessageId : String
  editVersion : String
  status : TaskStatus
  attempt : Nat := 0
  expiresAt : Option Int := none
  workerId : Option String := none
  disposition : Option String := none
  dispositionReason : Option String := none
  processingPurpose : ProcessingPurpose := .shadow
  executionContext : Option JsonObject := none
  executionRequest : Option JsonObject := none
  operatorIntentId : Option String := none
  deriving DecidableEq, Repr

/-- A row of `signal_dispatch_tasks`. -/
structure TaskRow extends SignalTask where
  shadowResult : Dict Value := Dict.empty
  createdAt : Int := 0

/-- A row of `message_processing_runs`. -/
structure Run where
  processingRunId : String
  rawMessageId : String
  accountId : Option String
  processingPurpose : ProcessingPurpose
  status : RunStatus
  leaseExpiresAt : Option Int
  attempt : Nat
  claimToken : Option String
  error : Option String := none
  deriving DecidableEq, Repr

/-- A time is past. -/
def past (t : Option Int) (now : Int) : Bool := t.any (· ≤ now)

/-- A time is still to come. -/
def ahead (t : Option Int) (now : Int) : Bool := t.any (now < ·)

/-- The task keeps its account busy. -/
def SignalTask.busy (t : SignalTask) (now : Int) : Bool :=
  t.status = .reconciling ||
    (t.status = .leased && (ahead t.leaseExpiresAt now || t.executionRequest.isSome))

/-! ## The store -/

structure Store where
  clock : Int
  tasks : Table fun t : TaskRow => t.taskId
  runs : Table fun r : Run => r.processingRunId

namespace Store

def task (s : Store) (taskId : String) : Option TaskRow := s.tasks.find? taskId

def run (s : Store) (processingRunId : String) : Option Run := s.runs.find? processingRunId

/-- The current run of a task. -/
def currentRun (s : Store) (t : SignalTask) : Option Run := t.processingRunId.bind s.run

def setTask (t : TaskRow) (s : Store) : Store := { s with tasks := s.tasks.put t }

def setRun (r : Run) (s : Store) : Store := { s with runs := s.runs.put r }

/-- Time passes. -/
def tick (d : Nat) (s : Store) : Store := { s with clock := s.clock + d }

variable {s : Store}

variable {t : TaskRow} {id : String} {r : Run}

@[simp] theorem task_setTask :
    (s.setTask t).task id = if id = t.taskId then some t else s.task id := Table.find?_put

@[simp] theorem task_setRun : (s.setRun r).task id = s.task id := rfl

@[simp] theorem run_setRun :
    (s.setRun r).run id = if id = r.processingRunId then some r else s.run id := Table.find?_put

@[simp] theorem run_setTask : (s.setTask t).run id = s.run id := rfl

@[simp] theorem clock_setTask : (s.setTask t).clock = s.clock := rfl

@[simp] theorem clock_setRun : (s.setRun r).clock = s.clock := rfl

theorem task_id (h : s.task id = some t) : t.taskId = id :=
  Table.key_of_find? (t := s.tasks) h

theorem run_id (h : s.run id = some r) : r.processingRunId = id :=
  Table.key_of_find? (t := s.runs) h

theorem task_of_mem (h : t ∈ s.tasks.rows) : s.task t.taskId = some t :=
  Table.find?_of_mem (t := s.tasks) h

theorem mem_of_task (h : s.task id = some t) : t ∈ s.tasks.rows :=
  List.mem_of_find?_eq_some h

end Store

/-! ## Locks -/

/-- What is locked: an account at the risk lock, an account at the queue, a
source identity being inserted, a row. The last two are marks: a claim that finds
an account free, or leases a task, leaves one under a lock that already keeps out
everyone else who could, so nobody ever waits for it. -/
inductive Lock where
  | account (accountId : String)
  | queue (accountId : String)
  | source (source : Source) (editVersion : String)
  | task (taskId : String)
  | run (processingRunId : String)
  | found (accountId : String)
  | leased (taskId : String)
  deriving DecidableEq, Repr

abbrev Transaction := Program Store Lock

/-! ## Statements -/

/-- `SELECT pg_advisory_xact_lock(...)`. -/
def advisoryLock (lock : Lock) : Transaction Unit := .read (fun _ => [lock]) fun _ => ()

/-- `SELECT ...`. -/
def select {α : Type} (answer : Store → α) : Transaction α := .read (fun _ => []) answer

/-- `SELECT ... FOR UPDATE` of one task. -/
def selectTaskForUpdate (taskId : String) : Transaction (Option TaskRow) :=
  .read (fun v => if (v.task taskId).isSome then [.task taskId] else []) fun v => v.task taskId

/-- `SELECT ... FOR UPDATE` of one run. -/
def selectRunForUpdate (processingRunId : String) : Transaction (Option Run) :=
  .read (fun v => if (v.run processingRunId).isSome then [.run processingRunId] else []) fun v =>
    v.run processingRunId

/-- `protect_signal_execution_request`, the trigger of every update. -/
def protectSignalExecutionRequest (old new : TaskRow) : Bool :=
  new.processingPurpose = old.processingPurpose &&
    (old.executionRequest.isNone || (new.executionRequest = old.executionRequest &&
      new.executionContext = old.executionContext)) &&
    (old.operatorIntentId.isNone || new.operatorIntentId = old.operatorIntentId)

/-- The row an update of a task leaves, when its condition holds. -/
def updatedTask (taskId : String) (where_ : Store → TaskRow → Bool) (set : Store → TaskRow → TaskRow)
    (v : Store) : Option (TaskRow × TaskRow) :=
  match v.task taskId with
  | some t => if where_ v t then some (t, set v t) else none
  | none => none

/-- `UPDATE signal_dispatch_tasks SET ... WHERE task_id = ... RETURNING ...`, with
what it is to mark. -/
def updateTask (taskId : String) (where_ : Store → TaskRow → Bool) (set : Store → TaskRow → TaskRow)
    (marks : List Lock := []) : Transaction (Option TaskRow) :=
  .perform
    (fun v => if (updatedTask taskId where_ set v).isSome then .task taskId :: marks else [])
    (fun v => match updatedTask taskId where_ set v with
      | some (old, new) => if protectSignalExecutionRequest old new then Store.setTask new else id
      | none => id)
    fun v => match updatedTask taskId where_ set v with
      | some (old, new) => if protectSignalExecutionRequest old new then some (some new) else none
      | none => some none

/-- `UPDATE message_processing_runs SET ... WHERE processing_run_id = ...`: whether
it found the row. -/
def updateRun (processingRunId : String) (where_ : Store → Run → Bool) (set : Run → Run) :
    Transaction Bool :=
  .perform
    (fun v => if (v.run processingRunId).any (where_ v) then [.run processingRunId] else [])
    (fun v => match v.run processingRunId with
      | some r => if where_ v r then Store.setRun (set r) else id
      | none => id)
    fun v => some ((v.run processingRunId).any (where_ v))

/-- A task and its current run that meet a condition. -/
def eligible (taskId : String) (where_ : Store → TaskRow → Run → Bool) (v : Store) :
    Option (TaskRow × Run) :=
  match v.task taskId with
  | some t =>
    match v.currentRun t.toSignalTask with
    | some r => if where_ v t r then some (t, r) else none
    | none => none
  | none => none

/-- One statement that updates a task and its current run together. -/
def updateClaim (taskId : String) (where_ : Store → TaskRow → Run → Bool) (setTask : TaskRow → TaskRow)
    (setRun : Run → Run) : Transaction (Option TaskRow) :=
  .perform
    (fun v => match eligible taskId where_ v with
      | some (_, r) => [.task taskId, .run r.processingRunId]
      | none => [])
    (fun v => match eligible taskId where_ v with
      | some (t, r) =>
        if protectSignalExecutionRequest t (setTask t) then
          Store.setTask (setTask t) ∘ Store.setRun (setRun r)
        else id
      | none => id)
    fun v => match eligible taskId where_ v with
      | some (t, _) =>
        if protectSignalExecutionRequest t (setTask t) then some (some (setTask t)) else none
      | none => some none

end TraderBot.SignalQueue
