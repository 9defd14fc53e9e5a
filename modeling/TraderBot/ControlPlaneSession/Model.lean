import TraderBot.Lib.Machine

/-! # The control-plane session's lanes

`NodeControlPlaneSession` once it has started: a bounded queue and a delivery
worker for each lane, calls that submit items, and one call of `stop`. Threads
take turns at atomic steps: a reading or a write of a flag, an operation of a
queue, what is done under a lane's lock, a worker's exit.

An item is the number of the call that submits it. Readings of the clock are
natural numbers that never go back; how long a wait lasts is left open. What a
lane counts and reports is left out. -/
namespace TraderBot.ControlPlaneSession
open TraderBot.Lib

/-! ## Lanes -/

/-- The lanes with a delivery worker. -/
inductive LaneName where
  | commandDelivery
  | commandAck
  | intentDelivery
  | executionEvent
  deriving DecidableEq, Repr

inductive CircuitState where
  | closed
  | opened (retryAt : Nat)
  | halfOpen
  deriving DecidableEq, Repr

/-- Where `_wait_for_circuit` is called: before an attempt, or after a delivery failed. -/
inductive CircuitUse where
  | enter
  | again
  deriving DecidableEq, Repr

/-- What a wait is for. -/
inductive Waiting where
  | circuit (use : CircuitUse)
  | retry (attempt : Nat)
  deriving DecidableEq, Repr

/-- Where a delivery worker is: in `_run_delivery`, and with an item in
`_execute_with_retry`, `_wait_for_circuit` and `_wait`. -/
inductive WorkerPoint where
  /-- `_delivery_should_stop`: the stop flag -/
  | top
  /-- .. `lane.queue.empty()` -/
  | checkEmpty
  /-- .. `_stop_deadline_expired()` -/
  | checkDeadline
  /-- .. `_drain_failed.set()` -/
  | failDrain
  /-- `lane.queue.get` -/
  | getItem
  /-- `while not delivered` -/
  | holding (item : Nat)
  /-- `_drain_failed.set()` and `break` -/
  | giveUp (item : Nat)
  /-- `lane.seconds_until_attempt()` -/
  | circuit (item : Nat) (use : CircuitUse)
  /-- `_wait`: the stop flag -/
  | waiting (item : Nat) (what : Waiting)
  /-- .. `self._stop.wait(..)` -/
  | onFlag (item : Nat) (what : Waiting)
  /-- .. `time.sleep(..)` -/
  | asleep (item : Nat) (what : Waiting)
  /-- `lane.begin()` -/
  | starting (item attempt : Nat)
  /-- `action()` -/
  | running (item attempt : Nat) (halfOpen : Bool) (startedAt : Nat)
  | exited
  deriving DecidableEq, Repr

/-- The item a worker has taken from its queue. -/
def WorkerPoint.held : WorkerPoint → List Nat
  | holding i | giveUp i | circuit i _ | waiting i _ | onFlag i _ | asleep i _ | starting i _
  | running i _ _ _ => [i]
  | _ => []

/-- A lane. What was put into its queue, what its worker was done with, whose action
returned, once each, and what was delivered in time is kept as it happened. -/
structure Lane where
  queue : List Nat
  fatalFailure : Bool
  inFlightStartedAt : Option Nat
  deadlineReported : Bool
  circuitState : CircuitState
  worker : WorkerPoint
  enqueued : List Nat
  taken : List Nat
  received : List Nat
  delivered : List Nat
  deriving DecidableEq

def Lane.start : Lane := ⟨[], false, none, false, .closed, .top, [], [], [], []⟩

/-- The action of an item has returned. -/
def Lane.receive (lane : Lane) (item : Nat) : Lane :=
  { lane with received := if item ∈ lane.received then lane.received else lane.received ++ [item] }

/-- The worker is done with its item. -/
def Lane.finish (lane : Lane) (item : Nat) : Lane :=
  { lane with worker := .top, taken := lane.taken ++ [item] }

/-! ## The session -/

/-- The threads that deliver nothing. -/
inductive PeriodicThread where
  | watchdog
  | heartbeat
  | commandPoll
  | intentFetch
  deriving DecidableEq, Repr

inductive ThreadName where
  | periodic (name : PeriodicThread)
  | delivery (lane : LaneName)
  deriving DecidableEq, Repr

/-- `_threads`. -/
def threads : List ThreadName :=
  [.periodic .watchdog, .periodic .heartbeat, .periodic .commandPoll, .delivery .commandDelivery,
   .delivery .commandAck, .periodic .intentFetch, .delivery .intentDelivery, .delivery .executionEvent]

/-- Where a submission is: `submit_execution_event`, then `_submit_to_lane`. -/
inductive SubmissionPoint where
  | testStop
  | accepts
  | put
  | pressure
  | returned (accepted : Bool)
  deriving DecidableEq, Repr

structure Submission where
  lane : LaneName
  point : SubmissionPoint
  deriving DecidableEq, Repr

/-- Where the call of `stop` is. -/
inductive StopPoint where
  | notCalled
  | setFlag (cutoff : Nat)
  | testFatal (cutoff : Nat)
  | joining (cutoff : Nat) (rest : List ThreadName)
  | alive (rest : List ThreadName)
  | drain
  | queues (rest : List LaneName)
  | returned (stopped : Bool)
  deriving DecidableEq, Repr

/-- `_delivery_queues_are_empty` goes over them in this order. -/
def deliveryLanes : List LaneName := [.commandDelivery, .commandAck, .intentDelivery, .executionEvent]

structure Session where
  lanes : LaneName → Lane
  stop : Bool
  stopDeadline : Option Nat
  drainFailed : Bool
  fatalProcess : Bool
  fatalInvoked : Bool
  periodicAlive : PeriodicThread → Bool
  submissions : List Submission
  stopPoint : StopPoint
  now : Nat

def Session.start : Session where
  lanes _ := .start
  stop := false
  stopDeadline := none
  drainFailed := false
  fatalProcess := false
  fatalInvoked := false
  periodicAlive _ := true
  submissions := []
  stopPoint := .notCalled
  now := 0

structure Config where
  capacity : LaneName → Nat
  retryBudget : Nat
  circuitResetSeconds : Nat
  operationTimeoutSeconds : Nat

def Session.setLane (s : Session) (name : LaneName) (lane : Lane) : Session :=
  { s with lanes := fun l => if l = name then lane else s.lanes l }

def Session.setSubmission (s : Session) (i : Nat) (submission : Submission) : Session :=
  { s with submissions := s.submissions.set i submission }

/-- `_stop_deadline_expired`. -/
def Session.stopDeadlineExpired (s : Session) : Bool :=
  s.stop && s.stopDeadline.any fun deadline => decide (deadline ≤ s.now)

/-- `_trigger_fatal_termination`. -/
def Session.triggerFatalTermination (s : Session) (name : LaneName) : Session :=
  if s.fatalInvoked then s
  else { s.setLane name { s.lanes name with fatalFailure := true } with
         fatalInvoked := true, fatalProcess := true, stop := true }

/-! ## Workers -/

section
variable (cfg : Config) (s : Session) (name : LaneName)

/-- Where a worker goes from a wait. -/
def afterWait (item : Nat) : Waiting → Bool → WorkerPoint
  | .circuit use, true => .circuit item use
  | .circuit .enter, false => .circuit item .again
  | .circuit .again, false => .giveUp item
  | .retry attempt, true => .starting item attempt
  | .retry _, false => .circuit item .again

/-- Where a worker goes once the circuit lets it. -/
def afterCircuit (item : Nat) : CircuitUse → WorkerPoint
  | .enter => .starting item 0
  | .again => .holding item

/-- `lane.open_circuit()`. -/
def Lane.openCircuit (lane : Lane) (now : Nat) : Lane :=
  { lane with circuitState := .opened (now + cfg.circuitResetSeconds) }

/-- `action()` has raised. -/
def actionRaised (item attempt : Nat) (halfOpen : Bool) : Session :=
  let lane := { s.lanes name with inFlightStartedAt := none }
  if lane.deadlineReported then s.setLane name { lane with worker := .circuit item .again }
  else if halfOpen || decide (cfg.retryBudget ≤ attempt + 1) then
    s.setLane name { lane.openCircuit cfg s.now with worker := .circuit item .again }
  else s.setLane name { lane with worker := .waiting item (.retry (attempt + 1)) }

/-- `action()` has returned. -/
def actionReturned (item startedAt : Nat) : Session :=
  let lane := { (s.lanes name).receive item with inFlightStartedAt := none }
  if cfg.operationTimeoutSeconds < s.now - startedAt then
    -- the deadline is over: not delivered as far as the worker knows
    let lane := if lane.deadlineReported then lane
      else { lane.openCircuit cfg s.now with deadlineReported := true }
    (s.setLane name { lane with worker := .circuit item .again }).triggerFatalTermination name
  else
    s.setLane name ({ lane with
      circuitState := .closed, deadlineReported := false, delivered := lane.delivered ++ [item] }.finish item)

/-- One step of a delivery worker. What its surroundings decide is `ok`: whether the action
returns, and whether a wait for the flag lasts its time. -/
def workerStep (ok : Bool) : Option Session :=
  let lane := s.lanes name
  let goto (point : WorkerPoint) : Session := s.setLane name { lane with worker := point }
  match lane.worker with
  | .top => some (goto (if s.stop then .checkEmpty else .getItem))
  | .checkEmpty => some (goto (if lane.queue.isEmpty then .exited else .checkDeadline))
  | .checkDeadline => some (goto (if s.stopDeadlineExpired then .failDrain else .getItem))
  | .failDrain => some { goto .exited with drainFailed := true }
  | .getItem =>
    match lane.queue with
    | [] => some (goto .top)
    | item :: rest => some (s.setLane name { lane with queue := rest, worker := .holding item })
  | .holding item => some (goto (if s.stopDeadlineExpired then .giveUp item else .circuit item .enter))
  | .giveUp item => some { s.setLane name (lane.finish item) with drainFailed := true }
  | .circuit item use =>
    match lane.circuitState with
    | .opened retryAt =>
      if s.now < retryAt then some (goto (.waiting item (.circuit use)))
      else some (s.setLane name { lane with circuitState := .halfOpen, worker := afterCircuit item use })
    | _ => some (goto (afterCircuit item use))
  | .waiting item what =>
    if s.stop then
      -- without a deadline, or past it, there is no time left to wait
      if s.stopDeadline.any fun deadline => decide (s.now < deadline) then some (goto (.asleep item what))
      else some (goto (afterWait item what false))
    else some (goto (.onFlag item what))
  | .onFlag item what =>
    if ok then some (goto (afterWait item what true))
    else if s.stop then some (goto (afterWait item what false))
    else none
  | .asleep item what => some (goto (afterWait item what !s.stopDeadlineExpired))
  | .starting item attempt =>
    if attempt < cfg.retryBudget then
      some (s.setLane name
        { lane with inFlightStartedAt := some s.now, deadlineReported := false
                    worker := .running item attempt (lane.circuitState == .halfOpen) s.now })
    else some (goto (.circuit item .again))
  | .running item attempt halfOpen startedAt =>
    some (if ok then actionReturned cfg s name item startedAt
      else actionRaised cfg s name item attempt halfOpen)
  | .exited => none

/-- The watchdog finds an operation overdue. -/
def watchdogStep : Option Session :=
  let lane := s.lanes name
  match lane.inFlightStartedAt with
  | none => none
  | some startedAt =>
    if lane.deadlineReported || decide (s.now - startedAt ≤ cfg.operationTimeoutSeconds) then none
    else
      some ((s.setLane name { lane.openCircuit cfg s.now with deadlineReported := true }).triggerFatalTermination
        name)

end

/-! ## Submissions -/

/-- One step of a submission. -/
def submissionStep (cfg : Config) (s : Session) (i : Nat) : Option Session := do
  let submission ← s.submissions[i]?
  let lane := s.lanes submission.lane
  let goto (point : SubmissionPoint) (s : Session) : Session :=
    s.setSubmission i { submission with point }
  match submission.point with
  | .testStop => return goto (if s.stop then .returned false else .accepts) s
  | .accepts => return goto (if lane.fatalFailure then .returned false else .put) s
  | .put =>
    -- `put_nowait`, which is `Full` at the queue's size
    if cfg.capacity submission.lane ≤ lane.queue.length then
      return goto (.returned false) (s.setLane submission.lane { lane with fatalFailure := true })
    else
      return goto .pressure (s.setLane submission.lane
        { lane with queue := lane.queue ++ [i], enqueued := lane.enqueued ++ [i] })
  | .pressure =>
    let full := decide (cfg.capacity submission.lane ≤ lane.queue.length) && lane.inFlightStartedAt.isSome
    return goto (.returned true)
      (s.setLane submission.lane { lane with fatalFailure := lane.fatalFailure || full })
  | .returned _ => none

/-- Where a call that submits to a lane begins: only `submit_execution_event` reads the stop flag. -/
def firstPoint : LaneName → SubmissionPoint
  | .executionEvent => .testStop
  | _ => .accepts

/-! ## The stop -/

/-- Not `thread.is_alive()`. -/
def Session.exited (s : Session) : ThreadName → Bool
  | .periodic name => !s.periodicAlive name
  | .delivery name => (s.lanes name).worker == .exited

/-- `stop` is called. -/
def callStop (s : Session) (cutoff : Nat) : Option Session :=
  match s.stopPoint with
  | .notCalled =>
    some { s with
      stopDeadline := some (s.stopDeadline.elim cutoff (min · cutoff)), stopPoint := .setFlag cutoff }
  | _ => none

/-- One step of the call of `stop`. -/
def stopStep (s : Session) : Option Session :=
  let goto (point : StopPoint) : Session := { s with stopPoint := point }
  match s.stopPoint with
  | .notCalled => none
  | .setFlag cutoff => some { s with stop := true, stopPoint := .testFatal cutoff }
  | .testFatal cutoff => some (goto (if s.fatalProcess then .alive threads else .joining cutoff threads))
  | .joining _ [] => some (goto (.alive threads))
  | .joining cutoff (thread :: rest) =>
    if s.exited thread || decide (cutoff ≤ s.now) then some (goto (.joining cutoff rest)) else none
  | .alive [] => some (goto .drain)
  | .alive (thread :: rest) => some (goto (if s.exited thread then .alive rest else .returned false))
  | .drain => some (goto (if s.drainFailed then .returned false else .queues deliveryLanes))
  | .queues [] => some (goto (.returned true))
  | .queues (name :: rest) =>
    some (goto (if (s.lanes name).queue.isEmpty then .queues rest else .returned false))
  | .returned _ => none

/-! ## Turns -/

/-- Whose turn it is. -/
inductive Turn where
  | call (lane : LaneName)
  | submission (i : Nat)
  | worker (lane : LaneName) (ok : Bool)
  | callStop (cutoff : Nat)
  | stop
  | watchdog (lane : LaneName)
  | periodicExits (thread : PeriodicThread)
  | tick (later : Nat)
  deriving DecidableEq, Repr

/-- What a turn does; `none` where there is nothing to do. -/
def turn? (cfg : Config) (s : Session) : Turn → Option Session
  | .call name => some { s with submissions := s.submissions ++ [⟨name, firstPoint name⟩] }
  | .submission i => submissionStep cfg s i
  | .worker name ok => workerStep cfg s name ok
  | .callStop cutoff => callStop s cutoff
  | .stop => stopStep s
  | .watchdog name => if s.periodicAlive .watchdog then watchdogStep cfg s name else none
  | .periodicExits thread =>
    if s.stop then
      some { s with periodicAlive := fun t => if t = thread then false else s.periodicAlive t }
    else none
  | .tick later => some { s with now := s.now + later }

/-- The session, one turn after the other. -/
def machine (cfg : Config) : Machine Session Turn Unit where
  step s turn := ((), (turn? cfg s turn).getD s)

end TraderBot.ControlPlaneSession
