import TraderBot.Lib.OrderedDict

/-! # Splits of the research protocol

`purge_train`, `walk_forward` and `PurgedKFold.split`. An anchor is an episode with the
interval its label spans; a fold has a window of tests, and trains on what the purge
leaves of the others. Times are microseconds since the start of year 1 in UTC, and
leaving the range of `datetime` raises. -/
namespace TraderBot.ResearchProtocol
open TraderBot.Lib

inductive Failure where
  | valueError
  | typeError
  | attributeError
  | overflowError
  | zeroDivisionError
  | indexError
  | keyError
  deriving DecidableEq, Repr

structure Anchor where
  episodeId : Option String
  clusterId : Option String
  duplicateGroupId : Option String
  tDec : Option Int
  t1 : Option Int
  deriving DecidableEq, Repr

/-- A frame of anchors: which columns there are, and whether the times are
`Datetime(_, "UTC")`; what a missing column would hold is not read. An index of rows
has 32 bits. -/
structure Anchors where
  hasEpisodeId : Bool
  hasClusterId : Bool
  hasTDec : Bool
  hasT1 : Bool
  hasDuplicateGroupId : Bool
  tDecUtc : Bool
  t1Utc : Bool
  rows : List Anchor
  indexed : rows.length < 2 ^ 32

inductive Reason where
  | unknownT1
  | invalidInterval
  | immature
  | sameCluster
  | intervalOverlap
  | embargo
  | outOfTrainSpan
  | clusterBoundary
  deriving DecidableEq, Repr

def Reason.text : Reason → String
  | .unknownT1 => "UNKNOWN_T1"
  | .invalidInterval => "INVALID_INTERVAL"
  | .immature => "IMMATURE"
  | .sameCluster => "SAME_CLUSTER"
  | .intervalOverlap => "INTERVAL_OVERLAP"
  | .embargo => "EMBARGO"
  | .outOfTrainSpan => "OUT_OF_TRAIN_SPAN"
  | .clusterBoundary => "CLUSTER_BOUNDARY"

abbrev Purged := OrderedDict (Option String) Reason

/-- `Fold.loss`. -/
structure Loss where
  candidates : Option Nat
  train : Option Nat
  test : Option Nat
  boundaryExcluded : Option Nat
  purgeReasons : List (String × Nat)
  emptyWindow : Bool
  deriving DecidableEq, Repr

structure Fold where
  foldId : String
  trainIds : List (Option String)
  testIds : List (Option String)
  trainStart : Option Int
  cutoff : Option Int
  testStart : Option Int
  testEnd : Option Int
  purged : Purged
  embargoInterval : Option (Int × Int)
  trainClusters : Nat
  testClusters : Nat
  insufficient : Bool
  loss : Loss
  deriving DecidableEq

/-! ## The frame -/

def nullFirst (a b : Option Int) : Ordering :=
  match a, b with
  | none, none => .eq
  | none, some _ => .lt
  | some _, none => .gt
  | some a, some b => compare a b

def nullFirstText (a b : Option String) : Ordering :=
  match a, b with
  | none, none => .eq
  | none, some _ => .lt
  | some _, none => .gt
  | some a, some b => compare a b

def anchorLe (a b : Anchor) : Bool :=
  ((nullFirst a.tDec b.tDec).then (nullFirstText a.episodeId b.episodeId)) ≠ .gt

/-- What missing columns default to. -/
def withDefaults (a : Anchors) (r : Anchor) : Anchor :=
  { r with
    t1 := if a.hasT1 then r.t1 else none
    duplicateGroupId := if a.hasDuplicateGroupId then r.duplicateGroupId else r.episodeId }

/-- `_check`: the rows in order. -/
def check (a : Anchors) : Except Failure (List Anchor) :=
  if !(a.hasEpisodeId && a.hasClusterId && a.hasTDec) then .error .valueError
  else if !(a.tDecUtc && (a.t1Utc || !a.hasT1)) then .error .valueError
  else if ¬ (a.rows.map (·.episodeId)).Nodup then .error .valueError
  else .ok ((a.rows.map (withDefaults a)).insertionSort fun r q => anchorLe r q = true)

/-- The first instant that is no `datetime` any more: the start of year 10000. -/
def endOfTime : Int := 3652059 * 86400000000

/-- A time and a `timedelta`. -/
def plus (t d : Int) : Except Failure Int :=
  if 0 ≤ t + d ∧ t + d < endOfTime then .ok (t + d) else .error .overflowError

/-- `min` or `max` of the times of rows: a missing one among several has no order. -/
def extreme (pick : List Int → Option Int) : List (Option Int) → Except Failure (Option Int)
  | [x] => .ok x
  | xs =>
    match xs.mapM id with
    | none => .error .typeError
    | some ts => .ok (pick ts)

def count (why : Purged) : List (String × Nat) :=
  ((why.values.map Reason.text).dedup.map fun text => (text, (why.values.map Reason.text).count text)).insertionSort
    fun a b => a.1 ≤ b.1

/-! ## The purge -/

/-- `max((t["t1"] for t in tests if t["t1"] is not None), default=None)`. -/
def maxT1 (tests : List Anchor) : Option Int := (tests.filterMap (·.t1)).max?

/-- `t["t_dec"] <= t1`, which raises without a time. -/
def startsBy (t : Anchor) (t1 : Int) : Except Failure Bool :=
  match t.tDec with
  | none => .error .typeError
  | some start => .ok (start ≤ t1)

/-- A test whose end is known: the closed intervals meet. -/
def meetsKnown (t0 t1 : Int) (t : Anchor) : Except Failure Bool :=
  match t.t1 with
  | none => .ok false
  | some e => if t0 ≤ e then startsBy t t1 else .ok false

/-- A test whose end is not known: its start lies in the interval. -/
def meetsUnknown (t0 t1 : Int) (t : Anchor) : Except Failure Bool :=
  match t.t1 with
  | some _ => .ok false
  | none =>
    match t.tDec with
    | none => .error .typeError
    | some start => .ok (start ≤ t1 && t0 ≤ start)

/-- `any`, up to the first that holds or raises. -/
def anyOf {α : Type} (p : α → Except Failure Bool) : List α → Except Failure Bool
  | [] => .ok false
  | x :: xs =>
    match p x with
    | .error e => .error e
    | .ok true => .ok true
    | .ok false => anyOf p xs

section
variable (tests : List Anchor) (embargo labelMaturity : Int) (fitTime : Option Int)

/-- The label ends after the time of the fit. -/
def isImmature (t1 : Int) : Except Failure Bool :=
  match fitTime with
  | none => .ok false
  | some fit => (plus t1 labelMaturity).map fun mature => decide (fit < mature)

def sharesCluster (c : Anchor) : Bool :=
  (tests.map (·.clusterId)).contains c.clusterId || (tests.map (·.duplicateGroupId)).contains c.duplicateGroupId

def overlaps (t0 t1 : Int) : Except Failure Bool :=
  match anyOf (meetsKnown t0 t1) tests with
  | .ok false => anyOf (meetsUnknown t0 t1) tests
  | found => found

def isEmbargoed (t0 : Int) : Except Failure Bool :=
  match maxT1 tests with
  | none => .ok false
  | some last =>
    if 0 < embargo ∧ last < t0 then (plus last embargo).map fun upTo => decide (t0 ≤ upTo) else .ok false

/-- A rule that purges, or else the rules after it. -/
def orElse (holds : Except Failure Bool) (reason : Reason) (rest : Except Failure (Option Reason)) :
    Except Failure (Option Reason) :=
  match holds with
  | .error e => .error e
  | .ok true => .ok (some reason)
  | .ok false => rest

/-- Why a candidate is purged, in the order of the rules. -/
def purgeReason (c : Anchor) : Except Failure (Option Reason) :=
  match c.t1, c.tDec with
  | none, _ => .ok (some .unknownT1)
  | some _, none => .ok (some .invalidInterval)
  | some t1, some t0 =>
    if t1 < t0 then .ok (some .invalidInterval)
    else orElse (isImmature labelMaturity fitTime t1) .immature
      (if sharesCluster tests c then .ok (some .sameCluster)
      else orElse (overlaps tests t0 t1) .intervalOverlap
        (orElse (isEmbargoed tests embargo t0) .embargo (.ok none)))

/-- `purge_train`: who is kept, and why the others are not. -/
def purgeTrain (cands : List Anchor) : Except Failure (List (Option String) × Purged) :=
  cands.foldlM (fun acc c =>
    (purgeReason tests embargo labelMaturity fitTime c).map fun reason =>
      match reason with
      | none => (acc.1 ++ [c.episodeId], acc.2)
      | some reason => (acc.1, acc.2.set c.episodeId reason)) ([], .empty)

end

/-- `why.update({r: reason})`. -/
def mark (why : Purged) (rows : List Anchor) (reason : Reason) : Purged :=
  rows.foldl (fun why r => why.set r.episodeId reason) why

def clusters (rows : List Anchor) : Nat := (rows.map (·.clusterId)).dedup.length

def embargoInterval (tests : List Anchor) (embargo : Int) : Except Failure (Option (Int × Int)) :=
  match maxT1 tests with
  | none => .ok none
  | some last => if 0 < embargo then (plus last embargo).map fun upTo => some (last, upTo) else .ok none

/-! ## Walking forward -/

structure WalkForward where
  scheme : String
  minTrainClusters : Int
  embargo : Int
  labelMaturity : Int
  testSpan : Int
  minTrainSpan : Int
  trainSpan : Option Int
  origin : Option Int
  maxFolds : Option Int

/-- `f"wf{k:03d}"`. -/
def foldId (k : Nat) : String :=
  String.ofList ('w' :: 'f' :: (List.replicate (3 - (Nat.toDigits 10 k).length) '0' ++ Nat.toDigits 10 k))

/-- `start <= r["t_dec"] < end`; every time is there when this is asked. -/
def inWindow (start stop : Int) (r : Anchor) : Bool := r.tDec.any fun t => start ≤ t && t < stop

def startsBefore (limit : Int) (r : Anchor) : Bool := r.tDec.any fun t => t < limit

/-- Whose cluster is first seen in which fold. -/
abbrev Assigned := OrderedDict (Option String) String

/-- A row of a window: a test, unless its cluster belongs to an earlier fold. -/
def assignRow (fid : String) (acc : Assigned × List Anchor × List Anchor) (r : Anchor) :
    Assigned × List Anchor × List Anchor :=
  let assigned := acc.1.setDefault r.clusterId fid
  if assigned.get? r.clusterId = some fid then (assigned, acc.2.1 ++ [r], acc.2.2)
  else (assigned, acc.2.1, acc.2.2 ++ [r])

/-- The tests of a window, and the others. -/
def assign (fid : String) (assigned : Assigned) (rows : List Anchor) : Assigned × List Anchor × List Anchor :=
  rows.foldl (assignRow fid) (assigned, [], [])

/-- Between two windows; the boundary that is carried over is always empty. -/
structure Progress where
  testStart : Int
  k : Nat
  assigned : Assigned
  folds : List Fold

section
variable (p : WalkForward) (rows : List Anchor)

def emptyFold (fid : String) (testStart testEnd : Int) (boundary : List Anchor) : Fold :=
  let why := mark .empty boundary .clusterBoundary
  { foldId := fid
    trainIds := []
    testIds := []
    trainStart := none
    cutoff := some testStart
    testStart := some testStart
    testEnd := some testEnd
    purged := why
    embargoInterval := none
    trainClusters := 0
    testClusters := 0
    insufficient := true
    loss := ⟨some 0, some 0, some 0, some boundary.length, count why, true⟩ }

/-- The candidates, and those that a rolling scheme leaves out: before `lo`. -/
def trainSpanOf (testStart : Int) : Except Failure (List Anchor × List Anchor) :=
  let cands := rows.filter (startsBefore testStart)
  if p.scheme = "rolling" then
    (plus testStart (-(p.trainSpan.getD p.minTrainSpan))).map fun lo =>
      (cands.filter fun r => !startsBefore lo r, cands.filter (startsBefore lo))
  else .ok (cands, [])

def testFold (fid : String) (testStart testEnd : Int) (tests boundary : List Anchor) : Except Failure Fold := do
  let (cands, excluded) ← trainSpanOf p rows testStart
  let (keep, why) ← purgeTrain tests p.embargo p.labelMaturity (some testStart) cands
  let why := mark (mark why excluded .outOfTrainSpan) boundary .clusterBoundary
  let kept := cands.filter fun r => keep.contains r.episodeId
  let interval ← embargoInterval tests p.embargo
  return {
    foldId := fid
    trainIds := kept.map (·.episodeId)
    testIds := tests.map (·.episodeId)
    trainStart := (kept.filterMap (·.tDec)).min?
    cutoff := some testStart
    testStart := some testStart
    testEnd := some testEnd
    purged := why
    embargoInterval := interval
    trainClusters := clusters kept
    testClusters := clusters tests
    insufficient := decide ((clusters kept : Int) < p.minTrainClusters)
    loss := ⟨some (cands.length + excluded.length), some kept.length, some tests.length, some boundary.length,
      count why, false⟩ }

/-- The fold of a window; one without tests stays a fold. -/
def windowFold (fid : String) (testStart testEnd : Int) (tests boundary : List Anchor) : Except Failure Fold :=
  if tests = [] then .ok (emptyFold fid testStart testEnd boundary)
  else testFold p rows fid testStart testEnd tests boundary

/-- One window. -/
def turn (s : Progress) : Except Failure Progress := do
  let testEnd ← plus s.testStart p.testSpan
  let fid := foldId s.k
  let (assigned, tests, boundary) := assign fid s.assigned (rows.filter (inWindow s.testStart testEnd))
  let fold ← windowFold p rows fid s.testStart testEnd tests boundary
  return ⟨testEnd, s.k + 1, assigned, s.folds ++ [fold]⟩

/-- `while test_start <= last and (max_folds is None or k < max_folds)`, for a number of
turns; `none` is a loop that is not over by then. -/
def loop (last : Int) : Nat → Progress → Option (Except Failure (List Fold))
  | 0, _ => none
  | turns + 1, s =>
    if s.testStart ≤ last ∧ p.maxFolds.all (fun limit => (s.k : Int) < limit) then
      match turn p rows s with
      | .error e => some (.error e)
      | .ok s => loop last turns s
    else some (.ok s.folds)

end

/-- The time of day taken off: `replace(hour=0, minute=0, second=0, microsecond=0)`. -/
def midnight (t : Int) : Int := t / 86400000000 * 86400000000

def originOf (p : WalkForward) (first : Option Int) : Except Failure Int :=
  match p.origin, first with
  | some origin, _ => .ok origin
  | none, some first => .ok (midnight first)
  | none, none => .error .attributeError

/-- What the loop starts from: the last of the times and the first window. -/
def beginning (p : WalkForward) (rows : List Anchor) : Except Failure (Int × Int) := do
  let first ← extreme List.min? (rows.map (·.tDec))
  let origin ← originOf p first
  let last ← extreme List.max? (rows.map (·.tDec))
  let testStart ← plus origin p.minTrainSpan
  match last with
  | none => .error .typeError
  | some last => .ok (last, testStart)

/-- `walk_forward`, for a number of turns of its loop. -/
def walkForward (p : WalkForward) (anchors : Anchors) (turns : Nat) : Option (Except Failure (List Fold)) :=
  if p.scheme ≠ "expanding" ∧ p.scheme ≠ "rolling" then some (.error .valueError)
  else
    match check anchors with
    | .error e => some (.error e)
    | .ok rows =>
      if rows = [] then some (.ok [])
      else
        match beginning p rows with
        | .error e => some (.error e)
        | .ok (last, testStart) => loop p rows last turns ⟨testStart, 0, .empty, []⟩

/-! ## Folds over all -/

/-- `int / int`: the nearest float, as a number. It keeps the order of what is divided,
and a quotient that is a row count is exact. -/
structure TrueDivision where
  div : Int → Int → ℚ
  mono : ∀ {a b n : Int}, 0 < n → a ≤ b → div a n ≤ div b n
  exact : ∀ {m n : Int}, 0 < n → |m| < 2 ^ 53 → div (n * m) n = m

/-- `round`, to the even one of two. -/
def roundEven (q : ℚ) : Int :=
  if q - ⌊q⌋ < 1 / 2 then ⌊q⌋
  else if 1 / 2 < q - ⌊q⌋ then ⌊q⌋ + 1
  else if ⌊q⌋ % 2 = 0 then ⌊q⌋ else ⌊q⌋ + 1

structure PurgedKFold where
  t1 : Anchors
  nSplits : Int
  embargo : Int
  labelMaturity : Int

/-- `[round(i * n / n_splits) for i in range(n_splits + 1)]`. -/
def bounds (d : TrueDivision) (n : Nat) (nSplits : Int) : Except Failure (List Int) :=
  if nSplits = 0 then .error .zeroDivisionError
  else .ok ((List.range (nSplits + 1).toNat).map fun (i : Nat) => roundEven (d.div ((i : Int) * n) nSplits))

/-- `rows[a:b]`, for bounds that are not negative. -/
def slice (rows : List Anchor) (a b : Int) : List Anchor := (rows.take b.toNat).drop a.toNat

/-- `f"pk{k:02d}"`. -/
def kFoldId (k : Nat) : String :=
  String.ofList ('p' :: 'k' :: (List.replicate (2 - (Nat.toDigits 10 k).length) '0' ++ Nat.toDigits 10 k))

/-- The fold of one block of tests; a block that is empty has none. -/
def block (s : PurgedKFold) (rows : List Anchor) (k : Nat) (a b : Int) : Except Failure (Option Fold) :=
  let tests := slice rows a b
  if tests = [] then .ok none
  else do
    let cands := rows.take a.toNat ++ rows.drop b.toNat
    let (keep, why) ← purgeTrain tests s.embargo s.labelMaturity none cands
    let kept := cands.filter fun r => keep.contains r.episodeId
    let start ← extreme List.min? (kept.map (·.tDec))
    let interval ← embargoInterval tests s.embargo
    return some
      { foldId := kFoldId k
        trainIds := kept.map (·.episodeId)
        testIds := tests.map (·.episodeId)
        trainStart := start
        cutoff := tests.head?.bind (·.tDec)
        testStart := tests.head?.bind (·.tDec)
        testEnd := tests.getLast?.bind (·.tDec)
        purged := why
        embargoInterval := interval
        trainClusters := clusters kept
        testClusters := clusters tests
        insufficient := false
        loss := ⟨none, none, none, none, count why, false⟩ }

/-- The folds of consecutive bounds. -/
def blocks (s : PurgedKFold) (rows : List Anchor) : Nat → List Int → Except Failure (List Fold)
  | k, a :: b :: rest => do
    let fold ← block s rows k a b
    let folds ← blocks s rows (k + 1) (b :: rest)
    return fold.toList ++ folds
  | _, _ => .ok []

/-- `PurgedKFold(t1, ...).split()`. -/
def split (d : TrueDivision) (s : PurgedKFold) : Except Failure (List Fold) := do
  let rows ← check s.t1
  let bounds ← bounds d rows.length s.nSplits
  blocks s rows 0 bounds

end TraderBot.ResearchProtocol
