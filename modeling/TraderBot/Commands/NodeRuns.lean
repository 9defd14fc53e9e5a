import TraderBot.Execution.Jobs
import TraderBot.Lib.Program

/-! # Command runs of the nodes

`node_command_runs` holds a run for each node and idempotency key. A request makes
it or gives back the one that is there; it is then advanced by its request id, as
the `command` domain of `order_state.v1.json` allows. Each call is a transaction
of a few statements. -/
namespace TraderBot.Commands.NodeRuns
open TraderBot.Lib TraderBot.Lib.Text TraderBot.Lib.Json TraderBot.Execution

/-! ## The lifecycle -/

inductive RunStatus where
  | requested
  | accepted
  | running
  | verifying
  | completed
  | partially
  | failed
  | timedOut
  deriving DecidableEq, Repr

namespace RunStatus

/-- The name of a state in the descriptor. -/
def text : RunStatus → String
  | .requested => "requested"
  | .accepted => "accepted"
  | .running => "running"
  | .verifying => "verifying"
  | .completed => "completed"
  | .partially => "partial"
  | .failed => "failed"
  | .timedOut => "timed_out"

/-- `TERMINAL_STATUSES`, the states the descriptor calls terminal. -/
def isTerminal : RunStatus → Bool
  | .completed | .partially | .failed | .timedOut => true
  | .requested | .accepted | .running | .verifying => false

def terminalStatuses : List RunStatus := [.completed, .partially, .failed, .timedOut]

end RunStatus

/-- `transitions` of the `command` domain, source and target. -/
def transitions : List (RunStatus × RunStatus) := [
  (.requested, .accepted),
  (.accepted, .running),
  (.running, .verifying),
  (.verifying, .completed),
  (.verifying, .partially),
  (.running, .partially),
  (.running, .failed),
  (.running, .timedOut),
  (.verifying, .timedOut)]

/-- `legal_transition("command", ...)`; no state is a target from any other. -/
def legalTransition (current target : RunStatus) : Bool :=
  current = target || (!current.isTerminal && transitions.contains (current, target))

/-! ## Rows -/

/-- What a run is unique by. -/
structure Slot where
  nodeId : String
  idempotencyKey : String
  deriving DecidableEq, Repr

/-- A row of `node_command_runs`. Times are microseconds. -/
structure NodeRun extends Slot where
  nodeCommandRunId : String
  commandId : Option String
  commandType : String
  requestId : Option String
  status : RunStatus
  payload : Dict Value
  startedAt : Int
  completedAt : Option Int := none
  createdAt : Int

abbrev Runs := Table NodeRun.nodeCommandRunId

namespace Runs
variable (s : Runs)

/-- The run of a node and an idempotency key. -/
def slot? (slot : Slot) : Option NodeRun := s.rows.find? fun r => r.toSlot = slot

/-- The runs of a request id of which none is newer. -/
def latest (requestId : String) : List NodeRun :=
  (s.rows.filter fun r => r.requestId = some requestId).filter fun r =>
    (s.rows.filter fun x => x.requestId = some requestId).all fun x => x.createdAt ≤ r.createdAt

/-- `WHERE request_id=... ORDER BY created_at DESC LIMIT 1`. Of several that were
created at the same time the database may take any. -/
def newest (requestId : String) (choice : Nat) : Option NodeRun :=
  (s.latest requestId)[choice % (s.latest requestId).length]?

end Runs

/-- A row, the place in a unique index that an insert takes. -/
inductive Lock where
  | run (nodeCommandRunId : String)
  | slot (slot : Slot)
  deriving DecidableEq, Repr

abbrev Transaction := Program Runs Lock

/-! ## The calls -/

/-- `_require`; `none` raises. -/
def required (value : String) : Option String :=
  if strip value = "" then none else some (strip value)

/-- `request_command_run(...)`, with the identifier it draws, the trace it would draw
and the time its transaction starts. -/
structure RunRequest where
  nodeId : String
  commandType : String
  requestId : String
  payload : Dict Value := Dict.empty
  commandId : Option String := none
  idempotencyKey : Option String := none
  runId : String
  drawnTrace : String
  now : Int

/-- `INSERT INTO node_command_runs`; the unique indexes refuse it. -/
def insertRun (r : NodeRun) : Transaction NodeRun :=
  .perform (fun _ => [.run r.nodeCommandRunId, .slot r.toSlot])
    (fun v s => if (v.find? r.nodeCommandRunId).isSome || (v.slot? r.toSlot).isSome then s else s.put r)
    fun v =>
      if (v.find? r.nodeCommandRunId).isSome || (v.slot? r.toSlot).isSome then none else some r

/-- The slot a request is for. -/
def RunRequest.slot (c : RunRequest) (requestId : String) : Slot where
  nodeId := c.nodeId
  idempotencyKey := orText (c.idempotencyKey.getD "") requestId

/-- The row of a new run. Its `command_id` is only looked at for a trace where there
is no request id. -/
def RunRequest.row (env : Env) (c : RunRequest) (requestId : String) : NodeRun where
  toSlot := c.slot requestId
  nodeCommandRunId := c.runId
  commandId := c.commandId
  commandType := c.commandType
  requestId := some requestId
  status := .accepted
  payload := injectTraceContext env c.drawnTrace c.payload none (some (.str requestId))
    (some (.str (c.slot requestId).idempotencyKey)) none
  startedAt := c.now
  createdAt := c.now

/-- The run, and whether it was there. -/
def requestCommandRun (env : Env) (c : RunRequest) : Transaction (NodeRun × Bool) :=
  match required c.nodeId, required c.commandType, required c.requestId with
  | some _, some _, some requestId => do
    let existing ← .read (fun _ => []) fun v : Runs => v.slot? (c.slot requestId)
    match existing with
    | some r => pure (r, true)
    | none =>
      let r ← insertRun (c.row env requestId)
      pure (r, false)
  | _, _, _ => .raised

/-- A call that advances a run: its result and error, the trace it would draw, the
time its transaction starts and the run it takes among the newest. -/
structure Advance where
  requestId : String
  result : Option (Dict Value) := none
  error : Option String := none
  drawnTrace : String
  now : Int
  choice : Nat := 0

/-- The payload of a run that is advanced. -/
def Advance.payload (env : Env) (c : Advance) (requestId : String) (status : RunStatus) (row : NodeRun) :
    Dict Value :=
  let payload := injectTraceContext env c.drawnTrace row.payload none (some (.str requestId))
    (some (.str row.idempotencyKey)) none
  let payload :=
    match c.result with
    | some result => payload.set "result" (.obj result.items)
    | none => payload
  let payload :=
    match c.error with
    | some error => payload.set "error" (.str error)
    | none => payload
  payload.set "last_status" (.str status.text)

/-- The row an advance leaves. -/
def NodeRun.advanced (r : NodeRun) (status : RunStatus) (payload : Dict Value) (now : Int) : NodeRun :=
  { r with
    status
    payload
    completedAt := if status.isTerminal then coalesce r.completedAt (some now) else r.completedAt }

/-- `ck_node_command_runs_time_order`. -/
def NodeRun.timeOrder (r : NodeRun) : Bool := r.completedAt.all fun t => r.startedAt ≤ t

/-- `SELECT ... FOR UPDATE` of the newest run of a request. -/
def selectNewestForUpdate (requestId : String) (choice : Nat) : Transaction (Option NodeRun) :=
  .read (fun v => ((v.newest requestId choice).map fun r => Lock.run r.nodeCommandRunId).toList)
    fun v => v.newest requestId choice

/-- `UPDATE node_command_runs ... WHERE node_command_run_id=... RETURNING ...`. -/
def updateRun (nodeCommandRunId : String) (set : NodeRun → NodeRun) : Transaction NodeRun :=
  .perform (fun v => if (v.find? nodeCommandRunId).isSome then [.run nodeCommandRunId] else [])
    (fun v s => match v.find? nodeCommandRunId with
      | some r => if (set r).timeOrder then s.put (set r) else s
      | none => s)
    fun v => match v.find? nodeCommandRunId with
      | some r => if (set r).timeOrder then some (set r) else none
      | none => none

/-- What is done with the run that was found. -/
def advanceRow (env : Env) (c : Advance) (requestId : String) (status : RunStatus) (row : NodeRun) :
    Transaction NodeRun :=
  if row.status = status ∨ row.status.isTerminal then pure row
  else if legalTransition row.status status = false then .raised
  else
    updateRun row.nodeCommandRunId fun r =>
      r.advanced status (c.payload env requestId status row) c.now

/-- `_transition`. -/
def transition (env : Env) (c : Advance) (status : RunStatus) : Transaction NodeRun :=
  match required c.requestId with
  | none => .raised
  | some requestId => do
    let row ← selectNewestForUpdate requestId c.choice
    match row with
    | none => .raised -- unknown command request_id
    | some row => advanceRow env c requestId status row

def markRunning (env : Env) (c : Advance) : Transaction NodeRun :=
  transition env { c with error := none } .running

def markVerifying (env : Env) (c : Advance) : Transaction NodeRun :=
  transition env { c with error := none } .verifying

def markTerminal (env : Env) (c : Advance) (status : String) : Transaction NodeRun :=
  match RunStatus.terminalStatuses.find? fun s => s.text = status with
  | some status => transition env c status
  | none => .raised

/-! ## All of them -/

inductive Call where
  | request (c : RunRequest)
  | running (c : Advance)
  | verifying (c : Advance)
  | terminal (c : Advance) (status : String)

def Call.program (env : Env) : Call → Transaction Unit
  | .request c => requestCommandRun env c >>= fun _ => pure ()
  | .running c => markRunning env c >>= fun _ => pure ()
  | .verifying c => markVerifying env c >>= fun _ => pure ()
  | .terminal c status => markTerminal env c status >>= fun _ => pure ()

/-- The request id and the status a call is to advance to. -/
def Call.advances : Call → Option (String × RunStatus)
  | .request _ => none
  | .running c => (required c.requestId).map (·, .running)
  | .verifying c => (required c.requestId).map (·, .verifying)
  | .terminal c status => do
    let target ← RunStatus.terminalStatuses.find? fun s => s.text = status
    let requestId ← required c.requestId
    pure (requestId, target)

/-- The slot a call may make a run for. -/
def Call.opens : Call → Option Slot
  | .request c => (required c.requestId).map c.slot
  | .running _ | .verifying _ | .terminal _ _ => none

abbrev RunState (ι : Type) := Database ι Runs Lock (Transaction Unit)

abbrev RunEvent (ι : Type) := Event ι Empty

/-- The calls, any statement of one after any of another. -/
def machine {ι : Type} [DecidableEq ι] [Fintype ι] (env : Env) (calls : ι → Call) :
    Machine (RunState ι) (RunEvent ι) Unit :=
  (Program.code fun i => (calls i).program env).within Empty.elim

/-- All calls about to start on an empty table. -/
def initial {ι : Type} (env : Env) (calls : ι → Call) : RunState ι :=
  (Program.code fun i => (calls i).program env).init Table.empty

end TraderBot.Commands.NodeRuns
