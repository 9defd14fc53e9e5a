import TraderBot.Lib.Json
import TraderBot.Lib.Routine
import TraderBot.NodeRuntime.Lifecycle

/-! # Operator commands at the node

`CommandProcessor.handle` acknowledges a command, records it as accepted, executes
it and records how that ended. Its records are durable. Each thing it does to the
store, the control plane, the lifecycle gate and the engine is an effect; a crash
may come between any two, and the command is delivered again. -/
namespace TraderBot.NodeCommands
open TraderBot.Lib TraderBot.Lib.Json
open TraderBot.NodeRuntime (TradingState)

/-! ## Data -/

inductive CommandType where
  | halt
  | resume
  | setReducing
  | cancelAll
  | closeAll
  | refreshEvidence
  deriving DecidableEq, Repr

def CommandType.value : CommandType → String
  | .halt => "halt"
  | .resume => "resume"
  | .setReducing => "set_reducing"
  | .cancelAll => "cancel_all"
  | .closeAll => "close_all"
  | .refreshEvidence => "refresh_evidence"

inductive CommandAckStatus where
  | accepted
  | completed
  | failed
  deriving DecidableEq, Repr

structure NodeCommand where
  commandId : String
  type : CommandType
  args : Dict Value := Dict.empty

structure PositionSnapshot where
  positionId : String
  instrumentId : String
  deriving DecidableEq, Repr

structure CommandStateRecord where
  commandId : String
  commandType : String
  status : CommandAckStatus
  result : Option (Dict Value) := none
  error : Option String := none

/-- `TradingState(...).value`. -/
def tradingStateValue : TradingState → String
  | .active => "ACTIVE"
  | .halted => "HALTED"
  | .reducing => "REDUCING"

/-! ## Effects -/

inductive Effect where
  | get (commandId : String)
  | save (record : CommandStateRecord)
  | ack (commandId : String) (status : CommandAckStatus) (result : Option (Dict Value))
      (error : Option String)
  | tradingState
  | applyOperatorState (state : TradingState) (reason : String)
  | cancelAll (instrumentIds : Option (List String))
  | waitForNoWorkingOrders
  | openPositions (instrumentIds : Option (List String))
  | closePositionReduceOnly (position : PositionSnapshot)
  | waitUntilFlat (positions : List PositionSnapshot)

/-- The effects that execute a command. -/
def Effect.executes : Effect → Bool
  | .get _ | .save _ | .ack _ _ _ _ => false
  | .tradingState | .applyOperatorState _ _ | .cancelAll _ | .waitForNoWorkingOrders
  | .openPositions _ | .closePositionReduceOnly _ | .waitUntilFlat _ => true

/-- What an effect answers. Where the gate or the engine raises, its text is caught. -/
def Effect.Answer : Effect → Type
  | .get _ => Option CommandStateRecord
  | .save _ | .ack _ _ _ _ => Unit
  | .tradingState => Except String TradingState
  | .applyOperatorState _ _ | .waitForNoWorkingOrders | .waitUntilFlat _ => Except String Unit
  | .cancelAll _ | .closePositionReduceOnly _ => Except String (Dict Value)
  | .openPositions _ => Except String (List PositionSnapshot)

/-- What the surroundings answer to an effect: what it raises, or what it gives. -/
structure Reading where
  raises : Option String := none
  tradingState : TradingState := .active
  result : Dict Value := Dict.empty
  positions : List PositionSnapshot := []

def Reading.answer {α : Type} (x : Reading) (a : α) : Except String α :=
  match x.raises with
  | some text => .error text
  | none => .ok a

/-- The file of `JsonCommandStateStore`. -/
abbrev Records := Dict CommandStateRecord

/-- What an effect answers and leaves; no answer where it raises what is not caught. -/
def perform : (e : Effect) → Reading → Records → Option e.Answer × Records
  | .get commandId, _, s => (some (s.get? commandId), s)
  | .save record, x, s =>
    match x.raises with
    | some _ => (none, s)
    | none => (some (), s.set record.commandId record)
  | .ack _ _ _ _, x, s => (if x.raises.isSome then none else some (), s)
  | .tradingState, x, s => (some (x.answer x.tradingState), s)
  | .applyOperatorState _ _, x, s | .waitForNoWorkingOrders, x, s | .waitUntilFlat _, x, s =>
    (some (x.answer ()), s)
  | .cancelAll _, x, s | .closePositionReduceOnly _, x, s => (some (x.answer x.result), s)
  | .openPositions _, x, s => (some (x.answer x.positions), s)

abbrev Code := Routine Effect Effect.Answer

/-- Code in a `try`. -/
abbrev Tried := ExceptT String Code

/-- An effect in a `try`. -/
def attempt {α : Type} (e : Effect) (h : e.Answer = Except String α) : Tried α :=
  ExceptT.mk (h ▸ Routine.perform e)

/-! ## Execution -/

/-- `_instrument_ids`. -/
def instrumentIds (args : Dict Value) : Except String (Option (List String)) :=
  match present (args.get? "instrument_ids") with
  | none => .ok none
  | some (.arr items) =>
    match items.mapM fun x => match x with
      | .str s => if s = "" then none else some s
      | _ => none with
    | some ids => .ok (some ids)
    | none => .error "instrument_ids must be a list of non-empty strings"
  | some _ => .error "instrument_ids must be a list of non-empty strings"

def applyOperatorState (state : TradingState) (reason : String) : Tried Unit :=
  attempt (.applyOperatorState state reason) rfl

/-- The result of a command that sets the state. -/
def stateResult (state : TradingState) : Dict Value :=
  Dict.empty.set "trading_state" (.str (tradingStateValue state))

/-- `_cancel_all`. -/
def cancelAll (command : NodeCommand) : Tried (Dict Value) := do
  let ids ← (instrumentIds command.args : Except String _)
  let cancelled ← attempt (.cancelAll ids) rfl
  attempt .waitForNoWorkingOrders rfl
  let state ← attempt .tradingState rfl
  pure ((stateResult state).set "cancel" (.obj cancelled.items))

/-- `[close_position_reduce_only(position) for position in positions]`. -/
def closeEach : List PositionSnapshot → Tried (List Value)
  | [] => pure []
  | position :: positions => do
    let closed ← attempt (.closePositionReduceOnly position) rfl
    let rest ← closeEach positions
    pure (.obj closed.items :: rest)

/-- `_close_all`. -/
def closeAll (command : NodeCommand) : Tried (Dict Value) := do
  let ids ← (instrumentIds command.args : Except String _)
  applyOperatorState .reducing ("command " ++ command.commandId ++ " close_all")
  let cancelled ← attempt (.cancelAll ids) rfl
  attempt .waitForNoWorkingOrders rfl
  let positions ← attempt (.openPositions ids) rfl
  let closed ← closeEach positions
  attempt (.waitUntilFlat positions) rfl
  pure (((stateResult .reducing).set "cancel" (.obj cancelled.items)).set "closed_positions" (.arr closed))

section
variable (str : Value → String)

/-- `_execute`; `str` is the interpreter's. -/
def execute (command : NodeCommand) : Tried (Dict Value) :=
  match command.type with
  | .halt => do
    let reason := match orElse (command.args.get? "reason") none with
      | some reason => str reason
      | none => "command " ++ command.commandId ++ " halt"
    applyOperatorState .halted reason
    pure (stateResult .halted)
  | .resume => do
    applyOperatorState .active ("command " ++ command.commandId ++ " resume")
    pure (stateResult .active)
  | .setReducing => do
    applyOperatorState .reducing ("command " ++ command.commandId ++ " set_reducing")
    pure (stateResult .reducing)
  | .cancelAll => cancelAll command
  | .closeAll => closeAll command
  | .refreshEvidence => pure (Dict.empty.set "evidence_refreshed" (.bool true))

def get (commandId : String) : Code (Option CommandStateRecord) := Routine.perform (Effect.get commandId)

def save (record : CommandStateRecord) : Code Unit := Routine.perform (Effect.save record)

def ack (commandId : String) (status : CommandAckStatus) (result : Option (Dict Value))
    (error : Option String) : Code Unit :=
  Routine.perform (Effect.ack commandId status result error)

/-- The record of how the execution of a command ended. -/
def outcome (command : NodeCommand) : Except String (Dict Value) → CommandStateRecord
  | .ok result => { commandId := command.commandId, commandType := command.type.value
                    status := .completed, result := some result }
  | .error text => { commandId := command.commandId, commandType := command.type.value
                     status := .failed, error := some text }

/-- What is done with a command that has no record. -/
def handleNew (command : NodeCommand) : Code CommandStateRecord := do
  ack command.commandId .accepted none none
  save { commandId := command.commandId, commandType := command.type.value, status := .accepted }
  let ended ← (execute str command).run
  let record := outcome command ended
  save record
  ack command.commandId record.status record.result record.error
  pure record

/-- `CommandProcessor.handle`. -/
def handle (command : NodeCommand) : Code CommandStateRecord := do
  let existing ← get command.commandId
  match existing with
  | some existing =>
    ack command.commandId existing.status existing.result existing.error
    pure existing
  | none => handleNew str command

/-- The processor; a restart keeps the file. -/
def processor : Component Records NodeCommand Effect Effect.Answer Reading Empty where
  routine command := handle str command >>= fun _ => pure ()
  perform := perform
  others := Empty.elim
  restart s := s

end

/-- A delivery of a command, with what the surroundings answer until the call ends or
the process crashes. -/
structure Delivery where
  command : NodeCommand
  readings : List Reading

/-- Deliveries, one after the other, any of them cut off by a crash. -/
def deliveries (str : Value → String) : Machine Records Delivery (Component.Ended CommandStateRecord) where
  step s d := (processor str).finish (handle str d.command) d.readings s

end TraderBot.NodeCommands
