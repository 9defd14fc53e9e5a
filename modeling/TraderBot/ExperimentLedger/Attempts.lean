import TraderBot.Lib.Machine
import TraderBot.Lib.OrderedDict
import TraderBot.Lib.Text

/-! # The attempts of the experiment ledger

The ledger is a directory of event files, one for each change of an attempt, and a
projection that keeps the latest row of every attempt with the number of the last event.
Reservations, marks and invalidations run inside the lock: they read all events, decide,
rename an event file into the directory and write the projection. A process may crash
between any two of these, and readers do not take the lock. -/
namespace TraderBot.ExperimentLedger.Attempts
open TraderBot.Lib TraderBot.Lib.Text

inductive Status where
  | reserved
  | running
  | completed
  | rejected
  | duplicate
  | failed
  | timeout
  | budgetExhausted
  | interrupted
  | insufficient
  deriving DecidableEq, Repr

namespace Status

def text : Status → String
  | .reserved => "reserved"
  | .running => "running"
  | .completed => "completed"
  | .rejected => "rejected"
  | .duplicate => "duplicate"
  | .failed => "failed"
  | .timeout => "timeout"
  | .budgetExhausted => "budget_exhausted"
  | .interrupted => "interrupted"
  | .insufficient => "insufficient"

/-- In `LIVE`; the others are in `TERMINAL`. -/
def live (s : Status) : Bool := s = .reserved || s = .running

end Status

/-- `Ledger.lineage`. -/
structure Lineage where
  protocolHash : Option String
  opportunitySetHash : Option String
  policyVersion : Option String
  policyHash : Option String
  deriving DecidableEq, Repr

/-- The columns of an attempt; values that are written as JSON or by `isoformat` are texts. -/
structure Row where
  attemptId : String
  status : Status
  runId : String
  ownerPid : String
  ownerHost : String
  lineage : Lineage
  origin : String
  parentId : Option String
  canonicalHash : Option String
  params : String
  callerHorizonEnd : Option String
  foldId : String
  visibleCutoff : Option String
  codeVersion : String
  modelVersion : Option String
  dataManifest : String
  seed : Int
  cost : String
  objective : String
  stage : String
  rawInputHash : Option String
  ruleHash : Option String
  marketManifest : Option String
  graphVersion : Option String
  backendVersion : Option String
  scope : String
  configId : String
  createdAt : String
  finishedAt : Option String
  reasonCode : Option String
  duplicateOf : Option String
  invalidatedBy : Option String
  resultHash : Option String
  recomputeOf : Option String
  objectiveValue : Option String
  deriving DecidableEq, Repr

/-- An event; `invalidated` says that its `event_kind` is that. -/
structure Event where
  seq : Nat
  eventAt : String
  invalidated : Bool
  row : Row
  deriving DecidableEq, Repr

structure EventFile where
  name : String
  event : Event
  deriving DecidableEq, Repr

/-- `f"{seq:012d}"`. -/
def padded (seq : Nat) : List Char := if seq < 10 ^ 12 then decPad 12 seq else Nat.toDigits 10 seq

def fileName (e : Event) : String :=
  String.ofList (padded e.seq ++ ('-' :: e.row.attemptId.toList ++ '-' :: e.row.status.text.toList ++ ".json".toList))

/-! ## The events -/

/-- The latest event of each attempt, in the order of their first ones. -/
def latest (evs : List Event) : OrderedDict String Event :=
  evs.foldl (fun latest e => latest.set e.row.attemptId e) .empty

def sameOwner (prior e : Row) : Bool :=
  e.runId = prior.runId && e.ownerPid = prior.ownerPid && e.ownerHost = prior.ownerHost && e.configId = prior.configId

/-- Whether an event may follow the latest one of its attempt. -/
def valid (prior : Option Event) (e : Event) : Bool :=
  match prior with
  | none =>
    (e.row.status = .reserved || e.row.status = .duplicate || e.row.status = .budgetExhausted) && !e.invalidated
  | some prior =>
    (if e.invalidated then e.row.status = prior.row.status && e.row.invalidatedBy.getD "" ≠ ""
      else prior.row.status.live && e.row.status ≠ .reserved) && sameOwner prior.row e.row

/-- `[0-9a-f]{32}`. -/
def isAttemptId (id : String) : Bool := id.length = 32 && id.toList.all isLowerHex

/-- The loop of `_events`, with the numbers and the latest events it has seen. -/
def checkFrom (seqs : List Nat) (previous : OrderedDict String Event) : List EventFile → Option (List Event)
  | [] => some []
  | f :: rest =>
    let e := f.event
    if e.seq = 0 ∨ f.name ≠ fileName e ∨ e.seq ∈ seqs then none
    else if isAttemptId e.row.attemptId && valid (previous.get? e.row.attemptId) e then
      (checkFrom (e.seq :: seqs) (previous.set e.row.attemptId e) rest).map (e :: ·)
    else none

/-- `sorted(self.events_dir.glob("*.json"))`. -/
def listing (files : List EventFile) : List EventFile := files.insertionSort fun f g => f.name ≤ g.name

/-- `_events`; `none` is a `LedgerError`. -/
def events (files : List EventFile) : Option (List Event) := checkFrom [] .empty (listing files)

/-- `_max_seq`: the largest number that a file name starts with. -/
def maxSeq (files : List EventFile) : Nat := (files.map (·.event.seq)).foldl max 0

/-- `_row`. -/
def rowOf (evs : List Event) (attemptId : String) : Option Row :=
  ((evs.filter fun e => e.row.attemptId = attemptId).getLast?).map (·.row)

/-- The frame of `ledger.parquet`. -/
structure Projection where
  rows : List Event
  watermark : Nat
  deriving DecidableEq

/-- What `_rebuild_locked` writes. -/
def projectionOf (evs : List Event) : Projection := ⟨(latest evs).values, (evs.map (·.seq)).foldl max 0⟩

/-! ## The decisions -/

/-- The arguments of `reserve`. -/
structure Request where
  origin : String
  canonicalHash : Option String
  params : String
  foldId : String
  visibleCutoff : Option String
  objective : String
  dataManifest : String
  seed : Int
  stage : String
  parentId : Option String
  modelVersion : Option String
  rawInputHash : Option String
  ruleHash : Option String
  marketManifest : Option String
  graphVersion : Option String
  backendVersion : Option String
  cost : String
  recomputeOf : Option String
  budgetExempt : Bool
  callerHorizonEnd : Option String
  deriving DecidableEq, Repr

/-- A `Ledger` in a process. -/
structure Ledger where
  runId : String
  codeVersion : String
  budgetConfigs : Option Int
  scope : String
  lineage : Lineage
  ownerPid : String
  ownerHost : String
  deriving DecidableEq, Repr

/-- What is not in the repository: the texts of 32 hexadecimal digits that `uuid4().hex`
draws one after the other, and the SHA-256 digests of a configuration and of a result. -/
structure Runtime where
  uuid : Nat → String
  configId : Request → String
  resultHash : String → Option String → String
  uuid_hex : ∀ n, isAttemptId (uuid n) = true

def origins : List String := ["human", "llm", "enumeration", "gp"]

def stages : List String := ["search", "selection", "outer", "final", "null_validation"]

section
variable (rt : Runtime) (l : Ledger) (req : Request) (attemptId now : String) (evs : List Event)

/-- `base`, as reserved. -/
def base : Row where
  attemptId := attemptId
  status := .reserved
  runId := l.runId
  ownerPid := l.ownerPid
  ownerHost := l.ownerHost
  lineage := l.lineage
  origin := req.origin
  parentId := req.parentId
  canonicalHash := req.canonicalHash
  params := req.params
  callerHorizonEnd := req.callerHorizonEnd
  foldId := req.foldId
  visibleCutoff := req.visibleCutoff
  codeVersion := l.codeVersion
  modelVersion := req.modelVersion
  dataManifest := req.dataManifest
  seed := req.seed
  cost := req.cost
  objective := req.objective
  stage := req.stage
  rawInputHash := req.rawInputHash
  ruleHash := req.ruleHash
  marketManifest := req.marketManifest
  graphVersion := req.graphVersion
  backendVersion := req.backendVersion
  scope := l.scope
  configId := rt.configId req
  createdAt := now
  finishedAt := none
  reasonCode := none
  duplicateOf := none
  invalidatedBy := none
  resultHash := none
  recomputeOf := none
  objectiveValue := none

/-- The rows of the projection, those of a scope. -/
def inScope (scope : String) (evs : List Event) : List Row :=
  ((latest evs).values.map (·.row)).filter fun r => r.scope = scope

/-- A row that a reservation repeats: the same computation, completed. A missing cutoff equals none. -/
def repeats (b r : Row) : Bool :=
  r.configId = b.configId && r.foldId = b.foldId && r.stage = b.stage &&
    (r.visibleCutoff.isSome && r.visibleCutoff = b.visibleCutoff) && r.status = .completed &&
    r.codeVersion = b.codeVersion && r.backendVersion.getD "" = b.backendVersion.getD ""

/-- `same["attempt_id"][0]`. -/
def repeated : Option Row := (inScope l.scope evs).find? (repeats (base rt l req attemptId now))

/-- A row whose configuration counts against the budget. -/
def counts (r : Row) : Bool :=
  r.status ≠ .duplicate && r.status ≠ .budgetExhausted && r.stage ≠ "final" && r.objective ≠ "feature_snapshot"

/-- `used`. -/
def used (scope : String) (evs : List Event) : List String :=
  (((inScope scope evs).filter counts).map (·.configId)).dedup

/-- The row that a recomputation is of: the original of a duplicate. -/
def originalOf (recomputeOf : String) : Option Row :=
  match rowOf evs recomputeOf with
  | none => none
  | some r => if r.status = .duplicate then r.duplicateOf.bind (rowOf evs) else some r

/-- The base of an explicit recomputation; `none` is a `LedgerError`. -/
def recomputed (b : Row) : Option String → Option Row
  | none => some b
  | some recomputeOf =>
    match originalOf evs recomputeOf with
    | none => none
    | some o =>
      if o.configId = b.configId ∧ o.foldId = b.foldId ∧ o.stage = b.stage ∧ o.visibleCutoff = b.visibleCutoff ∧
          o.scope = b.scope then
        some
          { b with
            recomputeOf := some o.attemptId
            parentId := some o.attemptId
            reasonCode := some "RECOMPUTE_OF_DUPLICATE" }
      else none

/-- The budget of configurations is used up, and this would be another one. -/
def exhausts : Bool :=
  match l.budgetConfigs with
  | none => false
  | some budget =>
    !req.budgetExempt && !(used l.scope evs).contains (rt.configId req) &&
      decide (budget ≤ ((used l.scope evs).length : Int))

/-- The row that `reserve` writes; `none` is a `LedgerError` before it. -/
def reserveRow : Option Row :=
  let b := base rt l req attemptId now
  match repeated rt l req attemptId now evs, req.recomputeOf with
  | some dup, none =>
    some
      { b with
        status := .duplicate
        duplicateOf := some dup.attemptId
        finishedAt := some now
        reasonCode := some "DUPLICATE_CONFIG" }
  | _, recomputeOf =>
    (recomputed evs b recomputeOf).map fun b =>
      if exhausts rt l req evs then
        { b with status := .budgetExhausted, finishedAt := some now, reasonCode := some "BUDGET_CONFIGS" }
      else b

end

/-- The arguments of `mark`, with what it measures when the attempt ends. -/
structure Marking where
  attemptId : String
  status : Status
  reason : Option String
  objective : Option String
  cost : Option String
  resultHash : Option String
  canonicalHash : Option String
  measured : String
  deriving DecidableEq, Repr

/-- The row that `mark` writes; `none` is a `LedgerError`. -/
def markRow (rt : Runtime) (m : Marking) (now : String) (evs : List Event) : Option Row :=
  match rowOf evs m.attemptId with
  | none => none
  | some row =>
    if !row.status.live || m.status = .reserved then none
    else
      some
        { row with
          status := m.status
          reasonCode := m.reason.or row.reasonCode
          canonicalHash := m.canonicalHash.or row.canonicalHash
          objectiveValue := m.objective.or row.objectiveValue
          cost := if m.status.live then m.cost.getD row.cost else m.measured
          finishedAt := if m.status.live then row.finishedAt else some now
          resultHash := if m.status = .completed then
            some ((m.resultHash.filter (· ≠ "")).getD (rt.resultHash row.objective m.objective)) else row.resultHash }

/-- The row that `invalidate` writes. -/
def invalidateRow (evs : List Event) (attemptId cause : String) : Option Row :=
  (rowOf evs attemptId).map fun row => { row with invalidatedBy := some cause }

/-- Whether `recover` marks a row: one of a run that is named, or one whose owner at this
host is not alive. -/
def recoverable (runId : Option String) (host : String) (alive : Bool) (r : Row) : Bool :=
  r.status.live &&
    match runId with
    | some runId => decide (r.runId = runId)
    | none => r.ownerHost = host && r.ownerPid ≠ "" && r.runId ≠ "" && !alive

/-- How `recover` marks it. -/
def recovery (runId : Option String) (r : Row) (measured : String) : Marking where
  attemptId := r.attemptId
  status := .interrupted
  reason := some (if runId.isNone then "RECOVERED_STALE" else "RECOVERED_RUN")
  objective := none
  cost := none
  resultHash := none
  canonicalHash := none
  measured := measured

/-! ## The processes -/

/-- What has been read of the projection: nothing yet, or a frame, if it was there. -/
abbrev Loaded := Option (Option Projection)

structure State where
  files : List EventFile
  projection : Option Projection
  /-- `Ledger._seq` of each process. -/
  seq : Nat → Nat
  /-- How many ids were drawn. -/
  drawn : Nat
  /-- Who renamed an event file and has not written the projection. -/
  writing : Option Nat
  loaded : Nat → Loaded

/-- What happens next. A critical section decides and renames in one step; `project` and
`crash` end it. `load` and `compare` are the two halves of `read`, and `recover` marks one
row that a reader found. The projection may get lost. -/
inductive Label where
  | openLedger (pid : Nat)
  | reserve (pid : Nat) (l : Ledger) (req : Request) (now : String)
  | mark (pid : Nat) (m : Marking) (now : String)
  | invalidate (pid : Nat) (attemptId cause now : String)
  | recover (pid : Nat) (runId : Option String) (host : String) (alive : Bool) (row : Row) (measured now : String)
  | project (pid : Nat)
  | crash (pid : Nat)
  | rebuild (pid : Nat)
  | load (pid : Nat)
  | compare (pid : Nat)
  | lose

inductive Answer where
  | done
  | waits
  | refused
  | rows (rows : List Event)
  deriving DecidableEq

namespace State
variable (s : State)

/-- `os.replace` of an event file, and the projection still to write. -/
def commit (pid : Nat) (invalidated : Bool) (now : String) (row : Row) : State :=
  let seq := max (s.seq pid) (maxSeq s.files + 1)
  let event : Event := ⟨seq, now, invalidated, row⟩
  { s with
    files := s.files ++ [⟨fileName event, event⟩]
    seq := Function.update s.seq pid (seq + 1)
    writing := some pid }

/-- A critical section that writes a row, or raises. -/
def write (pid : Nat) (invalidated : Bool) (now : String) (row : List Event → Option Row) : Answer × State :=
  match s.writing with
  | some _ => (.waits, s)
  | none =>
    match (events s.files).bind row with
    | none => (.refused, s)
    | some row => (.done, s.commit pid invalidated now row)

/-- `_rebuild_locked`. -/
def rebuilt : Answer × State :=
  match events s.files with
  | none => (.refused, s)
  | some evs => (.rows (projectionOf evs).rows, { s with projection := some (projectionOf evs) })

/-- `rebuild_projection`. -/
def rebuildProjection : Answer × State :=
  match s.writing with
  | some _ => (.waits, s)
  | none => s.rebuilt

/-- `reserve`: it writes the projection first, and draws an id in any case. -/
def reserve (rt : Runtime) (pid : Nat) (l : Ledger) (req : Request) (now : String) : Answer × State :=
  if req.origin ∉ origins ∨ req.stage ∉ stages then (.refused, s)
  else
    match s.writing with
    | some _ => (.waits, s)
    | none =>
      let next := { s.rebuilt.2 with drawn := s.drawn + 1 }
      next.write pid false now (reserveRow rt l req (rt.uuid s.drawn) now)

/-- The second half of `read`: the frame, when no event came after it. -/
def compare (pid : Nat) : Answer × State :=
  match s.loaded pid with
  | none => (.done, s)
  | some none => s.rebuildProjection
  | some (some p) =>
    if maxSeq s.files ≠ (if p.rows = [] then 0 else p.watermark) then s.rebuildProjection
    else (.rows p.rows, s)

end State

/-- Any number of processes at one ledger. -/
def ledger (rt : Runtime) : Machine State Label Answer where
  step s
    | .openLedger pid => (.done, { s with seq := Function.update s.seq pid (maxSeq s.files + 1) })
    | .reserve pid l req now => s.reserve rt pid l req now
    | .mark pid m now => s.write pid false now (markRow rt m now)
    | .invalidate pid attemptId cause now => s.write pid true now fun evs => invalidateRow evs attemptId cause
    | .recover pid runId host alive row measured now =>
      if recoverable runId host alive row then
        s.write pid false now (markRow rt (recovery runId row measured) now)
      else (.done, s)
    | .project pid =>
      if s.writing = some pid then (.done, { s.rebuilt.2 with writing := none }) else (.done, s)
    | .crash pid =>
      (.done,
        { s with
          writing := if s.writing = some pid then none else s.writing
          loaded := Function.update s.loaded pid none })
    | .rebuild _ => s.rebuildProjection
    | .load pid =>
      match events s.files with
      | none => (.refused, s)
      | some _ => (.done, { s with loaded := Function.update s.loaded pid (some s.projection) })
    | .compare pid => s.compare pid
    | .lose => (.done, { s with projection := none })

/-- An empty directory. -/
def State.start : State := ⟨[], none, fun _ => 1, 0, none, fun _ => none⟩

end TraderBot.ExperimentLedger.Attempts
