import TraderBot.Lib.Routine
import TraderBot.NodeCommands.PositionIdentity

/-! # Closing all positions

`close_all` closes the positions of an account one by one and then asks the venue,
up to a number of times, whether any of them is left. It is completed when a
listing shows none. What the venue lists, what `close_one` does and whether a
pause raises is up to the surroundings; the world is what the venue has listed. -/
namespace TraderBot.NodeCommands.CloseAll
open TraderBot.Lib TraderBot.Lib.Text TraderBot.Lib.Json
open TraderBot.Lib.Component (Rules)
open TraderBot.Orders (Failure canonicalAccountId venueSymbol)

/-! ## Effects -/

structure CloseAllSettings where
  maxAttempts : Int := 3
  interPositionDelaySeconds : ℚ := 1 / 20
  retryDelaySeconds : ℚ := 1 / 20
  verifyAttempts : Int := 3
  verifyDelaySeconds : ℚ := 1 / 20

/-- An exception: whether it is a `TypeError`, and its text. -/
structure Raised where
  typeError : Bool := false
  text : String

/-- What `close_one` gives back: nothing, an object with fields, anything else. -/
inductive CloseAnswer where
  | nothing
  | fields (fields : Dict Value)
  | other (text : String)

inductive Effect where
  | listOpenPositions (accountId : Option String)
  | closeOne (positionKey : String) (position : Option MergedPosition)
  | sleep (seconds : ℚ)

/-- What an effect answers: a listing where no `TypeError` is raised, and what
`close_one` raises is caught. -/
def Effect.Answer : Effect → Type
  | .listOpenPositions _ => Option (List Snapshot)
  | .closeOne _ _ => Except Raised CloseAnswer
  | .sleep _ => Unit

structure Reading where
  raises : Option Raised := none
  positions : List Snapshot := []
  closed : CloseAnswer := .nothing

/-- The listings that came back, the last one first. -/
structure World where
  listings : List (List Snapshot)

def perform : (e : Effect) → Reading → World → Option e.Answer × World
  | .listOpenPositions _, x, w =>
    match x.raises with
    | none => (some (some x.positions), ⟨x.positions :: w.listings⟩)
    | some raised => (if raised.typeError then some none else none, w)
  | .closeOne _ _, x, w =>
    (some (match x.raises with
      | none => .ok x.closed
      | some raised => .error raised), w)
  | .sleep _, x, w => (if x.raises.isSome then none else some (), w)

abbrev Code := Routine Effect Effect.Answer

/-- What raises ends the call. -/
def orEnd {α : Type} : Except Failure α → Code α
  | .ok a => .done a
  | .error _ => .raised

/-! ## The code -/

/-- `_sleep`. -/
def pause (seconds : ℚ) : Code Unit :=
  if 0 < seconds then Routine.perform (Effect.sleep seconds) else pure ()

/-- A pause where there is more to do. -/
def pauseWhen (more : Bool) (seconds : ℚ) : Code Unit := if more then pause seconds else pure ()

/-- `_list_open_positions`. -/
def listOpenPositions (accountId : String) : Code (List Snapshot) := do
  let listing ← Routine.perform (Effect.listOpenPositions (some accountId))
  match listing with
  | some listing => pure listing
  | none =>
    let listing ← Routine.perform (Effect.listOpenPositions none)
    match listing with
    | some listing => pure listing
    | none => .raised

/-- `positions if positions is not None else _list_open_positions(...)`. -/
def positionsToClose (accountId : String) : Option (List Snapshot) → Code (List Snapshot)
  | some positions => pure positions
  | none => listOpenPositions accountId

/-- `_call_close_one`. -/
def callCloseOne (position : MergedPosition) : Code (Except Raised CloseAnswer) := do
  let raw ← Routine.perform (Effect.closeOne position.positionKey (some position))
  match raw with
  | .ok answer => pure (.ok answer)
  | .error raised =>
    if raised.typeError then Routine.perform (Effect.closeOne position.positionKey none)
    else pure (.error raised)

/-- `_result_dict`. -/
def resultDict : CloseAnswer → Dict Value
  | .nothing => Dict.empty.set "accepted" (.bool true)
  | .fields fields => fields
  | .other text => Dict.empty.set "result" (.str text)

inductive ClosedPosition where
  | closed (positionKey : String) (attempts : Nat) (result : Dict Value)
  | failed (positionKey : String) (attempts : Nat) (error : String)

def orText (text other : String) : String := if text = "" then other else text

section
variable (unicode : Unicode) (str : Value → String)

/-- What the `try` of an attempt comes to: the result, or the text of what it raises. -/
def attemptResult : Except Raised CloseAnswer → Except String (Dict Value)
  | .error raised => .error raised.text
  | .ok answer =>
    let result := resultDict answer
    let failure := match orElse (result.get? "error") (orElse (result.get? "reason") none) with
      | some text => str text
      | none => "close failed"
    if result.get? "success" = some (.bool false) then .error failure
    else
      match result.get? "status" with
      | some (.str status) => if status = "failed" ∨ status = "partial" then .error failure else .ok result
      | some (.arr _) => .error "unhashable type: 'list'"
      | some (.obj _) => .error "unhashable type: 'dict'"
      | _ => .ok result

/-- The attempts of `_close_position`, of which `left` are left. -/
def closeAttempts (settings : CloseAllSettings) (position : MergedPosition) (attempts : Nat) :
    (left : Nat) → (lastError : String) → Code ClosedPosition
  | 0, lastError => pure (.failed position.positionKey attempts (orText lastError "close failed"))
  | left + 1, _ => do
    let raw ← callCloseOne position
    match attemptResult str raw with
    | .ok result => pure (.closed position.positionKey (attempts - left) result)
    | .error text =>
      pauseWhen (left != 0) settings.retryDelaySeconds
      closeAttempts settings position attempts left text

/-- `_close_position`. -/
def closePosition (settings : CloseAllSettings) (position : MergedPosition) : Code ClosedPosition :=
  closeAttempts str settings position (max settings.maxAttempts 1).toNat (max settings.maxAttempts 1).toNat ""

/-- The positions closed one after the other. -/
def closeEach (settings : CloseAllSettings) : List MergedPosition → Code (List ClosedPosition)
  | [] => pure []
  | position :: positions => do
    let closed ← closePosition str settings position
    pauseWhen (!positions.isEmpty) settings.interPositionDelaySeconds
    let rest ← closeEach settings positions
    pure (closed :: rest)

/-- The attempts of `_verify_flat`, of which `left` are left. -/
def verifyAttempts (settings : CloseAllSettings) (accountId : String) (targetKeys : List String) :
    (left : Nat) → (residual : List MergedPosition) → Code (List MergedPosition)
  | 0, residual => pure residual
  | left + 1, _ => do
    let listing ← listOpenPositions accountId
    let residual ← orEnd (residualPositions unicode accountId targetKeys listing)
    if residual = [] then pure []
    else
      pauseWhen (left != 0) settings.verifyDelaySeconds
      verifyAttempts settings accountId targetKeys left residual

/-- `_verify_flat`. -/
def verifyFlat (settings : CloseAllSettings) (accountId : String) (targetKeys : List String) :
    Code (List MergedPosition) :=
  verifyAttempts unicode settings accountId targetKeys (max settings.verifyAttempts 1).toNat []

inductive Status where
  | completed
  | partly
  deriving DecidableEq, Repr

def Status.value : Status → String
  | .completed => "completed"
  | .partly => "partial"

structure CloseAllResult where
  status : Status
  positions : List ClosedPosition
  residualPositions : List MergedPosition
  flat : Bool
  targetPositionKeys : List String

/-- `close_all`. -/
def closeAll (settings : CloseAllSettings) (accountId : String) (positions : Option (List Snapshot)) :
    Code CloseAllResult := do
  let given ← positionsToClose accountId positions
  let openPositions ← orEnd (mergePositionSnapshots unicode accountId given)
  let targetKeys := openPositions.map MergedPosition.positionKey
  let results ← closeEach str settings openPositions
  let residual ← verifyFlat unicode settings accountId targetKeys
  let flat := decide (residual = [])
  pure {
    status := if flat then .completed else .partly
    positions := results, residualPositions := residual, flat, targetPositionKeys := targetKeys }

/-- The component, for which each call is one of `close_all`. -/
def component : Component World Unit Effect Effect.Answer Reading Empty where
  routine _ := pure ()
  perform := perform
  others := Empty.elim
  restart w := w

end
end TraderBot.NodeCommands.CloseAll
