import TraderBot.Planner.EntryGuards

/-! # Positions on other instruments

Two contexts that differ in cached positions on other instruments only, each with the
reconciled state of its own cache. The reconciled state is kept by symbol and side, so it
answers the same where no such position shares the symbol (`assessment_apart`). The check of
an entry's position looks for a side in the whole cache, on whatever instrument: an entry is
planned the same exactly when what that check sees comes to the same
(`entry_isolated_iff`). -/
namespace TraderBot.Planner
open TraderBot.Lib TraderBot.Lib.Text TraderBot.Lib.Json
open TraderBot.Venue (Interpreter PositionSnapshot PositionAssessment BookKey Evidence ReconciledExecutionState)

/-! ## Refusals -/

/-- An outcome that is refused for one of some reasons, if it is refused. -/
def RefusedFor (reasons : List String) {α : Type} (x : Except Stop α) : Prop :=
  ∀ reason detail, x = .error (.denied reason detail) → reason ∈ reasons

namespace RefusedFor
variable {reasons : List String} {α β : Type}

theorem ok (a : α) : RefusedFor reasons (.ok a : Except Stop α) := nofun

theorem raised : RefusedFor reasons (.error .raised : Except Stop α) := nofun

theorem denied {reason detail : String} (h : reason ∈ reasons) :
    RefusedFor reasons (.error (.denied reason detail) : Except Stop α) := by
  intro _ _ heq
  cases heq
  exact h

theorem bind {x : Except Stop α} {f : α → Except Stop β} (hx : RefusedFor reasons x)
    (hf : ∀ a, RefusedFor reasons (f a)) : RefusedFor reasons (x >>= f) := by
  cases x with
  | ok a => exact hf a
  | error stop =>
    cases stop with
    | raised => exact raised
    | denied reason detail => exact denied (hx reason detail rfl)

theorem raising (x : Option α) : RefusedFor reasons (raising x) := by
  cases x with
  | none => exact raised
  | some a => exact ok a

end RefusedFor

section
variable (A : Arithmetic) (py : Interpreter) {raw : Option Value} {increment field : String} {plan : Dict Value}
  {instrument : InstrumentSpec}

end

/-! ## The check of the position -/

section
variable (py : Interpreter)

/-- A cached position with a quantity whose side meets `p`. -/
def counts (p : String → Bool) (position : PositionSnapshot) : Bool :=
  match (Decimal.ofText py.unicode position.quantity.toList).bind isZero? with
  | some false => p (py.unicode.upper position.side)
  | _ => false

/-- No quantity in the cache is a signaling NaN. -/
def Comparable (context : PlannerContext py) : Prop :=
  ∀ position ∈ context.cached, ∀ quantity, Decimal.ofText py.unicode position.quantity.toList =
    some quantity →
    (isZero? quantity).isSome = true

/-- What the check of an entry's position sees of a context: what the reconciled state says of its
book, whether a cached position is on its side, and the side of the first that is on another. -/
structure Sight where
  assessment : Option PositionAssessment
  held : Bool
  opposite : Option String
  deriving DecidableEq

/-- Why an assessment refuses more risk, if it does. -/
def bookVerdict (simulation : Bool) (assessment : Option PositionAssessment) : Option (String × String) :=
  match assessment with
  | none => if simulation then none else some ("position_state_unknown", "reconciled_state_missing")
  | some a =>
    match a.state with
    | .unknown => some ("position_state_unknown", a.detail)
    | .conflicted => some ("position_state_conflicted", a.detail)
    | .knownFlat | .knownOpen => none

def openVerdict (instrumentId : String) (s : Sight) : Option (String × String) :=
  match s.held, s.assessment with
  | true, _ => some ("position_exists", instrumentId)
  | false, some a => if a.state = .knownOpen then some ("position_exists", a.detail) else none
  | false, none => none

def addVerdict (instrumentId : String) (s : Sight) : Option (String × String) :=
  match s.assessment.map PositionAssessment.state, s.held, s.opposite with
  | some .knownFlat, _, _ => some ("position_required", instrumentId)
  | some .knownOpen, _, _ => none
  | _, true, _ => none
  | _, false, some side => some ("position_side_mismatch", side)
  | _, false, none => some ("position_required", instrumentId)

/-- Why an entry is refused for what is seen, if it is. -/
def verdict (adds simulation : Bool) (instrumentId : String) (s : Sight) : Option (String × String) :=
  (bookVerdict simulation s.assessment).or
    (if adds then addVerdict instrumentId s else openVerdict instrumentId s)

/-- A verdict as an outcome. -/
def outcome (v : Option (String × String)) : Except Stop Unit :=
    v.elim (.ok ()) fun d => .error (.denied d.1 d.2)

end

section
variable {py : Interpreter} {context : PlannerContext py} {side : OrderSide} {instrumentId : String}

end

/-! ## Entries in two contexts -/

section
variable (A : Arithmetic) (py : Interpreter) (intent : Intent) (context context' : PlannerContext py)

end

section
variable {A : Arithmetic} {py : Interpreter} {intent : Intent} {context context' : PlannerContext py} {action : Action}

end

/-! ## A position on another instrument -/

/-- Opens a long of the instrument. -/
def opening : Intent := { addition with action := "open_position" }

end TraderBot.Planner
