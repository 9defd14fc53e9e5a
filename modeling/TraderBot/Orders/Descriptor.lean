import TraderBot.Lib.Postgres

/-! # The order state descriptor

The `order` domain of `order_state.v1.json` as data, and the functions of
`state_descriptor.py` that read it: the target of an event, the legality of a
transition, the target of a trigger and the rank of a state. -/
namespace TraderBot.Orders
open TraderBot.Lib TraderBot.Lib.Text TraderBot.Lib.Json

inductive OrderStatus where
  | planned
  | pendingSubmit
  | submitted
  | accepted
  | working
  | partiallyFilled
  | filled
  | rejected
  | denied
  | pendingCancel
  | cancelled
  | expired
  | failed
  | lost
  deriving DecidableEq, Repr

namespace OrderStatus

def all : List OrderStatus :=
  [.planned, .pendingSubmit, .submitted, .accepted, .working, .partiallyFilled, .filled, .rejected,
    .denied, .pendingCancel, .cancelled, .expired, .failed, .lost]

/-- The name of a state in the descriptor. -/
def text : OrderStatus → String
  | .planned => "planned"
  | .pendingSubmit => "pending_submit"
  | .submitted => "submitted"
  | .accepted => "accepted"
  | .working => "working"
  | .partiallyFilled => "partially_filled"
  | .filled => "filled"
  | .rejected => "rejected"
  | .denied => "denied"
  | .pendingCancel => "pending_cancel"
  | .cancelled => "cancelled"
  | .expired => "expired"
  | .failed => "failed"
  | .lost => "lost"

/-- `text in descriptor["states"]`, as the state. -/
def ofText? (text : String) : Option OrderStatus := all.find? fun s => s.text = text

/-- `_state_is_terminal`. -/
def isTerminal : OrderStatus → Bool
  | .filled | .rejected | .denied | .cancelled | .expired | .failed => true
  | .planned | .pendingSubmit | .submitted | .accepted | .working | .partiallyFilled
  | .pendingCancel | .lost => false

end OrderStatus

structure Edge where
  source : OrderStatus
  target : OrderStatus
  trigger : String
  deriving DecidableEq, Repr

def initial : OrderStatus := .planned

def transitions : List Edge := [
  ⟨.planned, .pendingSubmit, "plan_committed"⟩,
  ⟨.planned, .denied, "risk_denied_pre_submit"⟩,
  ⟨.planned, .denied, "OrderDenied"⟩,
  ⟨.pendingSubmit, .submitted, "OrderSubmitted"⟩,
  ⟨.pendingSubmit, .failed, "submit_failed_terminal"⟩,
  ⟨.pendingSubmit, .denied, "OrderDenied"⟩,
  ⟨.submitted, .accepted, "OrderAccepted"⟩,
  ⟨.submitted, .rejected, "OrderRejected"⟩,
  ⟨.submitted, .denied, "OrderDenied"⟩,
  ⟨.accepted, .working, "order_live_on_book"⟩,
  ⟨.accepted, .partiallyFilled, "OrderFilled_partial"⟩,
  ⟨.accepted, .filled, "OrderFilled_full"⟩,
  ⟨.working, .partiallyFilled, "OrderFilled_partial"⟩,
  ⟨.working, .filled, "OrderFilled_full"⟩,
  ⟨.partiallyFilled, .partiallyFilled, "OrderFilled_partial"⟩,
  ⟨.partiallyFilled, .filled, "OrderFilled_full"⟩,
  ⟨.accepted, .pendingCancel, "OrderPendingCancel"⟩,
  ⟨.working, .pendingCancel, "OrderPendingCancel"⟩,
  ⟨.partiallyFilled, .pendingCancel, "OrderPendingCancel"⟩,
  ⟨.pendingCancel, .cancelled, "OrderCanceled"⟩,
  ⟨.accepted, .cancelled, "OrderCanceled"⟩,
  ⟨.working, .cancelled, "OrderCanceled"⟩,
  ⟨.partiallyFilled, .cancelled, "OrderCanceled"⟩,
  ⟨.working, .expired, "OrderExpired"⟩,
  ⟨.accepted, .expired, "OrderExpired"⟩,
  ⟨.lost, .working, "reconciliation_resolved_live"⟩,
  ⟨.lost, .filled, "reconciliation_resolved_filled"⟩,
  ⟨.lost, .cancelled, "reconciliation_resolved_cancelled"⟩]

def anyStateTo : List OrderStatus := [.lost]

/-- What an event type maps to. -/
inductive Mapped where
  | self
  | derive
  | state (s : OrderStatus)
  deriving DecidableEq, Repr

def eventStateMap : List (String × Mapped) := [
  ("OrderSubmitted", .state .submitted),
  ("OrderAccepted", .state .accepted),
  ("OrderFilled", .derive),
  ("OrderCanceled", .state .cancelled),
  ("OrderRejected", .state .rejected),
  ("OrderDenied", .state .denied),
  ("OrderExpired", .state .expired),
  ("OrderUpdated", .self),
  ("OrderPendingUpdate", .self),
  ("OrderPendingCancel", .state .pendingCancel)]

/-- What the code raises: an error of its own with its text, a signal of the
decimal context, a text that is no time, or a statement the database refuses. -/
inductive Failure where
  | valueError (message : String)
  | decimalSignal
  | badTime
  | database
  deriving DecidableEq, Repr

/-- A result that is raised when it is missing. -/
def orRaise {α : Type} (failure : Failure) : Option α → Except Failure α
  | some x => .ok x
  | none => .error failure

theorem orRaise_ok {α : Type} {failure : Failure} {x : Option α} {a : α} (h : orRaise failure x = .ok a) :
    x = some a := by
  cases x with
  | none => cases h
  | some b =>
    cases h
    rfl

/-! ## Transitions -/

def legalTransition (current target : OrderStatus) : Bool :=
  if current = target then true
  else if current.isTerminal then false
  else (transitions.any fun e => e.source = current ∧ e.target = target) || anyStateTo.contains target

def transitionTarget (current : Option OrderStatus) (trigger : String) : Option OrderStatus :=
  let matches' := (transitions.filter fun e => e.trigger = trigger ∧ ∀ c ∈ current, e.source = c).map
    (·.target)
  if matches'.dedup.length = 1 then matches'.head?
  else if current = none ∧ matches' = [] then
    let all := (transitions.filter fun e => e.trigger = trigger).map (·.target)
    if all.dedup.length = 1 then all.head? else none
  else none

/-- One step of the breadth-first search: what is new after `node`. -/
def visit (rank : Nat) (state : List OrderStatus × List (OrderStatus × Nat)) (next : OrderStatus) :
    List OrderStatus × List (OrderStatus × Nat) :=
  if next ∈ state.2.map Prod.fst then state
  else (state.1 ++ [next], state.2 ++ [(next, rank + 1)])

/-- The search; each state enters the queue once, so the fuel is their number. -/
def search : Nat → List OrderStatus → List (OrderStatus × Nat) → List (OrderStatus × Nat)
  | 0, _, ranks => ranks
  | _ + 1, [], ranks => ranks
  | n + 1, node :: queue, ranks =>
    let successors := (transitions.filter fun e => e.source = node).map (·.target)
    let rank := ((ranks.find? fun p => p.1 = node).map Prod.snd).getD 0
    let state := successors.foldl (visit rank) (queue, ranks)
    search n state.1 state.2

def ranks : List (OrderStatus × Nat) := search OrderStatus.all.length [initial] [(initial, 0)]

/-- `state_rank`: interrupts and states the search does not reach come last. -/
def stateRank (s : OrderStatus) : Nat := ((ranks.find? fun p => p.1 = s).map Prod.snd).getD 10000

/-! ## Event targets -/

section
variable (unicode : Unicode)

/-- `_decimal`; a missing value and a null are `None`. -/
def decimal (v : Option Value) : Option Decimal := v.bind (Decimal.ofValue unicode)

/-- `decimal_or_none`. -/
def decimalOrNone (v : Option Value) : Option Decimal :=
  if v = some (.str "") then none else v.bind (Decimal.ofValue unicode)

theorem decimalOrNone_eq (v : Option Value) : decimalOrNone unicode v = decimal unicode v := by
  unfold decimalOrNone decimal
  split_ifs with h
  · rw [h]; rfl
  · rfl

/-- `payload.get("quantity") or payload.get("qty")`. -/
def quantityField (payload : Dict Value) : Option Value :=
  Json.orElse (payload.get? "quantity") (payload.get? "qty")

/-- `leaves is not None and leaves <= 0`. -/
def nothingLeft (leaves : Option Decimal) : Except Failure Bool :=
  match leaves with
  | some leaves => orRaise .decimalSignal (leaves.le? (.finite .zero))
  | none => .ok false

/-- `quantity is not None and filled is not None and filled >= quantity`. -/
def covers (quantity filled : Option Decimal) : Except Failure Bool :=
  match quantity, filled with
  | some quantity, some filled => orRaise .decimalSignal (quantity.le? filled)
  | _, _ => .ok false

def deriveOrderFillState (payload : Dict Value) : Except Failure OrderStatus := do
  let quantity := decimal unicode (quantityField payload)
  let filled := decimal unicode (payload.get? "filled_qty")
  let leaves := decimal unicode (payload.get? "leaves_qty")
  if ← nothingLeft leaves then return .filled
  else if ← covers quantity filled then return .filled
  else return .partiallyFilled

/-- `event_target`: the current state or another one. -/
inductive Target where
  | self
  | state (s : OrderStatus)
  deriving DecidableEq, Repr

def eventTarget (eventType : String) (payload : Dict Value) : Except Failure (Option Target) :=
  match Dict.lookup eventType eventStateMap with
  | none => return none
  | some .self => return some .self
  | some (.state s) => return some (.state s)
  | some .derive => return some (.state (← deriveOrderFillState unicode payload))

end
end TraderBot.Orders
