import Mathlib

/-! # The two tracks of an author's plan

An episode is replayed from its events: the root proposal, the messages linked to it,
  and the expiry that its
own deadline makes. Each event is looked up in a table of twelve states and nine columns; times are
microseconds. -/
namespace TraderBot.Lifecycle

/-! ## The table -/

inductive PlanState where
  | none
  | active
  | cancelled
  | expired
  deriving DecidableEq, Repr

inductive ClaimState where
  | unknown
  | claimedOpen
  | claimedClosed
  deriving DecidableEq, Repr

/-- `KINDS`. -/
inductive Kind where
  | entryProposal
  | amend
  | cancel
  | expire
  | entryClaimed
  | add
  | reduce
  | stopMove
  | tpLadder
  | closeClaimed
  | correction
  | deleteNotice
  | analysis
  | resultPost
  | chatter
  | undecidable
  deriving DecidableEq, Repr

/-- `COLS`. -/
inductive Column where
  | entryProposal
  | amend
  | cancel
  | expire
  | entryClaimed
  | mgmt
  | reduce
  | closeClaimed
  | correction

/-- A cell of `_TABLE`: `=`, `I`, `L`, `J`, `R`, or the next state. -/
inductive Cell where
  | same
  | ignored
  | recorded
  | reopens
  | corrects
  | moves (plan : PlanState) (claim : ClaimState)

/-- The cells of one row, in the order of `COLS`. -/
def row (proposal amend cancel expire claimed mgmt reduce closed correction : Cell) : Column → Cell
  | .entryProposal => proposal
  | .amend => amend
  | .cancel => cancel
  | .expire => expire
  | .entryClaimed => claimed
  | .mgmt => mgmt
  | .reduce => reduce
  | .closeClaimed => closed
  | .correction => correction

section
open Cell PlanState ClaimState

/-- `_TABLE`. -/
def table : PlanState → ClaimState → Column → Cell
  | .none, unknown => row (moves active unknown) recorded ignored ignored (moves .none claimedOpen) same same
      (moves .none claimedClosed) corrects
  | .none, claimedOpen => row reopens recorded ignored ignored ignored same same (moves .none claimedClosed) corrects
  | .none, claimedClosed => row reopens ignored ignored ignored reopens ignored ignored ignored corrects
  | active, unknown => row reopens same (moves cancelled unknown) (moves expired unknown) (moves active claimedOpen) same same
      (moves active claimedClosed) corrects
  | active, claimedOpen => row reopens same (moves cancelled claimedOpen) (moves expired claimedOpen) ignored same same
      (moves active claimedClosed) corrects
  | active, claimedClosed => row reopens ignored ignored ignored reopens ignored ignored ignored corrects
  | cancelled, unknown => row reopens ignored ignored ignored (moves cancelled claimedOpen) ignored ignored
      (moves cancelled claimedClosed) corrects
  | cancelled, claimedOpen => row reopens ignored ignored ignored ignored ignored ignored
      (moves cancelled claimedClosed) corrects
  | cancelled, claimedClosed => row reopens ignored ignored ignored reopens ignored ignored ignored corrects
  | expired, unknown => row reopens ignored ignored ignored (moves expired claimedOpen) ignored ignored
      (moves expired claimedClosed) corrects
  | expired, claimedOpen => row reopens ignored ignored ignored ignored ignored ignored
      (moves expired claimedClosed) corrects
  | expired, claimedClosed => row reopens ignored ignored ignored reopens ignored ignored ignored corrects

end

/-- The column of a kind; the descriptive kinds have none. -/
def Kind.column : Kind → Option Column
  | .entryProposal => some .entryProposal
  | .amend => some .amend
  | .cancel => some .cancel
  | .expire => some .expire
  | .entryClaimed => some .entryClaimed
  | .add | .stopMove | .tpLadder => some .mgmt
  | .reduce => some .reduce
  | .closeClaimed => some .closeClaimed
  | .correction => some .correction
  | .deleteNotice | .analysis | .resultPost | .chatter | .undecidable => none

/-- The actions that `transition` answers with. -/
inductive Action where
  | same
  | ignored
  | recorded
  | reopens
  | corrects
  | moves
  | described
  deriving DecidableEq, Repr

/-- `transition`. -/
def transition (plan : PlanState) (claim : ClaimState) (kind : Kind) : PlanState × ClaimState × Action :=
  match kind.column with
  | none => (plan, claim, .described)
  | some column =>
    match table plan claim column with
    | .same => (plan, claim, .same)
    | .ignored => (plan, claim, .ignored)
    | .recorded => (plan, claim, .recorded)
    | .reopens => (plan, claim, .reopens)
    | .corrects => (plan, claim, .corrects)
    | .moves plan' claim' => (plan', claim', .moves)

/-! ## Events -/

/-- The fields a correction may take back, with the assertion as a whole. -/
inductive Field where
  | entry
  | stop
  | tps
  | assertion
  deriving DecidableEq, Repr

/-- What the graph reads of a canonical plan; of entry, stop and take profits, whether it gives them. -/
structure Plan where
  planId : String
  sourceVersionId : String
  kind : Kind
  availableAt : Option Int
  eventTime : Option Int
  expiresAfterS : Option Int
  entry : Bool
  stop : Bool
  tps : Bool

/-- The fields that a plan gives, in the order in which they are asked for. -/
def Plan.fields (p : Plan) : List Field :=
  (if p.entry then [.entry] else []) ++ (if p.stop then [.stop] else []) ++ if p.tps then [.tps] else []

/-- What the graph reads of a message version; `retracts` says that its text takes the previous message back. -/
structure Version where
  sequence : Option Int
  messageId : Option Int
  replyTo : Option Int
  retracts : Bool

/-- A selected edge to the root, with the message that its evidence says it replies to. -/
structure Edge where
  sameSource : Bool
  edgeAvailableAt : Option Int
  replyTo : Option Int

/-- An event of an episode. -/
structure Event where
  plan : Plan
  kind : Kind
  root : Bool
  edgeAvailableAt : Option Int
  synth : Bool
  replyTo : Option Int

/-- What an episode is built from. -/
structure Source where
  versions : String → Option Version
  observationEnd : Int
  orphan : Bool
  root : Plan
  rootReplyTo : Option Int
  members : List (Plan × Edge)

namespace Source
variable (source : Source)

/-- The sequence of a source version, zero where it is not known. -/
def sequenceOf (id : String) : Int := ((source.versions id).bind Version.sequence).getD 0

/-- `key`, by which the members are looked at. -/
def memberKey (plan : Plan) : Int ×ₗ Int ×ₗ String :=
  toLex (plan.availableAt.getD source.observationEnd, toLex (source.sequenceOf plan.sourceVersionId, plan.planId))

/-- The members in their order. -/
def sortedMembers : List (Plan × Edge) :=
  source.members.insertionSort fun a b => source.memberKey a.1 ≤ source.memberKey b.1

/-- The event of a member, unless its edge is known only after the observation has ended. A proposal of the
same source amends the root. -/
def memberEvent (member : Plan × Edge) : Option Event :=
  let (plan, edge) := member
  let kind := if edge.sameSource ∧ plan.kind = .entryProposal then .amend else plan.kind
  if edge.edgeAvailableAt.any (source.observationEnd < ·) then none
  else some ⟨plan, kind, false, edge.edgeAvailableAt, false, edge.replyTo⟩

/-- `cand_exp`, for a proposal that carries a deadline. -/
def deadline : Option Int := do
  let seconds ← source.root.expiresAfterS
  let eventTime ← source.root.eventTime
  return eventTime + seconds * 1000000

/-- `expire_at`: a deadline of zero seconds counts as none, and so does one that the observation has not
reached. -/
def expireAt : Option Int :=
  if source.orphan ∨ source.root.expiresAfterS = some 0 then none
  else source.deadline.filter (· ≤ source.observationEnd)

def rootEvent : Event :=
  ⟨source.root, source.root.kind, true, source.root.availableAt, false, source.rootReplyTo⟩

def expiryEvent (at' : Int) : Event := ⟨source.root, .expire, false, some at', true, source.rootReplyTo⟩

/-- The events before they are sorted. -/
def unsorted : List Event :=
  source.rootEvent :: source.sortedMembers.filterMap source.memberEvent ++ (source.expireAt.map source.expiryEvent).toList

/-- The key of `evs.sort`. -/
def eventKey (e : Event) : Int ×ₗ Int ×ₗ Int :=
  toLex (e.edgeAvailableAt.getD source.observationEnd,
    toLex (if e.root then 0 else 1, source.sequenceOf e.plan.sourceVersionId))

/-- The events of the episode. -/
def events : List Event := source.unsorted.insertionSort fun a b => source.eventKey a ≤ source.eventKey b

/-- The kind that an event is looked up with: the root of an episode that is no orphan is a proposal. -/
def kindOf (e : Event) : Kind := if e.root ∧ ¬ source.orphan then .entryProposal else e.kind

end Source

/-! ## The replay -/

/-- What the payload of an event says of its step. -/
structure Payload where
  fromState : PlanState × ClaimState
  toState : PlanState × ClaimState
  action : Action
  invalidTransition : Bool
  synthesized : Bool
  unresolved : Bool
  reopen : Bool
  leftTruncatedAmend : Bool
  replayRequired : Bool
  correctedFields : List (Field × String)

/-- A row of the events, as far as later events read or change it. -/
structure Row where
  eventId : String
  sourceVersionId : String
  kind : Kind
  edgeAvailableAt : Option Int
  superseded : Bool
  supersededAt : Option Int
  payload : Payload

inductive OutcomeKind where
  | closeClaimed
  | cancel
  | expire
  deriving DecidableEq, Repr

structure Outcome where
  kind : OutcomeKind
  at' : Option Int
  sourceVersionId : String

/-- The variables of the loop. -/
structure Replay where
  plan : PlanState
  claim : ClaimState
  nInvalid : Nat
  replayRequired : Bool
  exitObserved : Bool
  claimedOutcome : Option Outcome
  fieldEvents : List (Field × String)
  rows : List Row

def Replay.start : Replay := ⟨.none, .unknown, 0, false, false, none, [], []⟩

section
variable (source : Source) (eventId : String → Kind → Nat → String)

/-- The last row that is not superseded of the message that a retraction replies to. -/
def assertionOf (e : Event) (rows : List Row) : Option String :=
  let target := ((source.versions e.plan.sourceVersionId).bind Version.replyTo).or e.replyTo
  let prior := rows.filter fun r =>
    !r.superseded && (source.versions r.sourceVersionId).bind Version.messageId == target
  prior.getLast?.map Row.eventId

/-- The fields that a correction names and what it corrects of them; a correction without fields may take back
the message that it replies to. -/
def corrections (e : Event) (s : Replay) : List Field × List (Field × String) :=
  let fields := e.plan.fields
  let targets := fields.filterMap fun f => (s.fieldEvents.lookup f).map fun id => (f, id)
  let retracts := ((source.versions e.plan.sourceVersionId).map Version.retracts).getD false
  if fields = [] ∧ retracts then
    match assertionOf source e s.rows with
    | some id => ([.assertion], [(.assertion, id)])
    | none => (fields, targets)
  else (fields, targets)

/-- The row of an event in the events that a correction supersedes. -/
def supersede (targets : List (Field × String)) (at' : Option Int) (r : Row) : Row :=
  if targets.any (·.2 == r.eventId) then { r with superseded := true, supersededAt := at' } else r

/-- The turn of the loop for one event. -/
def replayEvent (s : Replay) (e : Event) : Replay :=
  let (plan, claim, action) := transition s.plan s.claim (source.kindOf e)
  let (fields, targets) := if action = .corrects then corrections source e s else ([], [])
  -- a correction that finds nothing to correct is ignored
  let unresolved := action = .corrects ∧ (fields = [] ∨ targets.length ≠ fields.length)
  let action' := if unresolved then .ignored else action
  let corrects := action = .corrects ∧ ¬ unresolved
  let id := eventId e.plan.planId e.kind s.rows.length
  let closes := action' = .moves ∧ claim = .claimedClosed
  let ends := action' = .moves ∧ (plan = .cancelled ∨ plan = .expired) ∧ s.claimedOutcome.isNone
  let at' := if e.synth then source.expireAt else e.plan.eventTime
  { plan := if action' ∈ [.ignored, .described, .recorded, .corrects] then s.plan else plan
    claim := if action' ∈ [.ignored, .described, .recorded, .corrects] then s.claim else claim
    nInvalid := if action' = .ignored then s.nInvalid + 1 else s.nInvalid
    replayRequired := s.replayRequired || decide corrects
    exitObserved := s.exitObserved || decide closes
    claimedOutcome :=
      if closes then some ⟨.closeClaimed, e.plan.eventTime, e.plan.sourceVersionId⟩
      else if ends then some ⟨if plan = .cancelled then .cancel else .expire, at', e.plan.sourceVersionId⟩
      else s.claimedOutcome
    fieldEvents :=
      if action' ≠ .ignored ∧ action' ≠ .corrects then
        e.plan.fields.foldl (fun known f => (f, id) :: known.filter (·.1 ≠ f)) s.fieldEvents
      else s.fieldEvents
    rows := (if corrects then s.rows.map (supersede targets e.edgeAvailableAt) else s.rows) ++
      [{ eventId := id
         sourceVersionId := e.plan.sourceVersionId
         kind := e.kind
         edgeAvailableAt := e.edgeAvailableAt
         superseded := false
         supersededAt := none
         payload :=
          { fromState := (s.plan, s.claim)
            toState := (plan, claim)
            action := action'
            invalidTransition := decide (action' = .ignored)
            synthesized := e.synth
            unresolved := decide unresolved
            reopen := decide (action' = .reopens)
            leftTruncatedAmend := decide (action' = .recorded)
            replayRequired := decide corrects
            correctedFields := if corrects then targets else [] } }] }

/-- The loop over the events. -/
def replay (events : List Event) : Replay := events.foldl (replayEvent source eventId) .start

/-- What the episode says of its two tracks. -/
structure Episode where
  authorPlanState : PlanState
  authorClaimState : ClaimState
  entryObserved : Bool
  exitObserved : Bool
  rightCensored : Bool
  censorAt : Option Int
  claimedOutcome : Option Outcome
  replayRequired : Bool
  nEvents : Nat
  nInvalidTransitions : Nat
  rows : List Row

/-- The turn of `build_graph` for one root; a root that is known only after the observation has ended has no
episode. -/
def buildEpisode (horizonS : Int) : Option Episode :=
  if source.root.availableAt.any (source.observationEnd < ·) then none
  else
    let s := replay source eventId source.events
    let horizon := source.root.availableAt.map (· + horizonS * 1000000)
    let censored := (s.plan = .none ∨ s.plan = .active) ∧ s.claim ≠ .claimedClosed ∧ horizon.isSome
    some
      { authorPlanState := s.plan
        authorClaimState := s.claim
        entryObserved := !source.orphan
        exitObserved := s.exitObserved
        rightCensored := decide censored
        censorAt := if censored then horizon.map (min · source.observationEnd) else none
        claimedOutcome := s.claimedOutcome
        replayRequired := s.replayRequired
        nEvents := source.events.length
        nInvalidTransitions := s.nInvalid
        rows := s.rows }

end

end TraderBot.Lifecycle
