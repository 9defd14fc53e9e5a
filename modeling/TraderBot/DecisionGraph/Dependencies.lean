import TraderBot.Lib.DateTime
import TraderBot.Lib.Json
import TraderBot.Lib.OrderedDict

/-! # The dependencies of a plan

`graph.py` of the research data. A plan is decided at `t_dec`, a frozen delay after
the time from which everything it depends on was available. What it depends on is
read off the message versions: the version it was extracted from, the album and the
replies around it, the rules, its own fields and the checks that name their own
references. A white/grey/black traversal collects the closure. -/
namespace TraderBot.DecisionGraph
open TraderBot.Lib

inductive Failure where
  | typeError
  | attributeError
  | keyError
  | valueError
  | jsonDecodeError
  | overflowError
  | recursionError
  deriving DecidableEq, Repr

/-- Microseconds since the start of year 1, in UTC: a value of a `Datetime("us", "UTC")` column. -/
abbrev Instant := Nat

/-- A `datetime`: its own reading in microseconds since the start of year 1, and its
UTC offset where it has one. -/
structure Stamp where
  reading : Nat
  offset : Option Int
  deriving DecidableEq, Repr

namespace Stamp

def utc (t : Instant) : Stamp := ⟨t, some 0⟩

def instant (s : Stamp) : Int := s.reading - s.offset.getD 0

/-- `a < b`: a naive and an aware time have no order. -/
def before (a b : Stamp) : Except Failure Bool :=
  if a.offset.isSome = b.offset.isSome then .ok (a.instant < b.instant) else .error .typeError

def ofText (text : String) : Except Failure Stamp :=
  match DateTime.fromisoformat text with
  | some (x, offset) => .ok ⟨x.toMicros, offset⟩
  | none => .error .valueError

/-- `datetime(1970, 1, 1, tzinfo=UTC)`. -/
def epoch : Stamp := utc (719162 * 86400000000)

/-- The first instant that is no `datetime` any more: the start of year 10000. -/
def overflow : Nat := 3652059 * 86400000000

/-- `max(times)`: the first of the latest. -/
def latest (first : Stamp) (rest : List Stamp) : Except Failure Stamp :=
  rest.foldlM (fun best t => do return if ← best.before t then t else best) first

end Stamp

/-! ## The traversal -/

/-- A node; a dependency that is `none` is one the loop over them cannot take. -/
structure Node where
  availableAt : Option Stamp
  dependencies : List (Option String)
  deriving DecidableEq, Repr

abbrev Nodes := OrderedDict String Node

inductive Colour where
  | grey
  | black
  deriving DecidableEq, Repr

/-- What the traversal has collected; a reference without a colour is white. -/
structure Walk where
  colour : OrderedDict String Colour
  visited : List String
  times : List Stamp
  valid : Bool

namespace Walk

def start : Walk := ⟨.empty, [], [], true⟩

def enter (walk : Walk) (ref : String) : Walk :=
  { walk with colour := walk.colour.set ref .grey, visited := walk.visited ++ [ref] }

def leave (walk : Walk) (ref : String) : Walk := { walk with colour := walk.colour.set ref .black }

def reject (walk : Walk) : Walk := { walk with valid := false }

def clock (walk : Walk) (availableAt : Option Stamp) : Walk :=
  match availableAt with
  | none => walk.reject
  | some t => { walk with times := walk.times ++ [t] }

end Walk

/-- `visit(ref)`, with the depth of recursion that the interpreter still allows. -/
def visit (nodes : Nodes) : Nat → Option String → Walk → Except Failure Walk
  | 0, _, _ => .error .recursionError
  | _ + 1, none, _ => .error .typeError
  | depth + 1, some ref, walk =>
    match walk.colour.get? ref with
    | some .grey => .ok walk.reject
    | some .black => .ok walk
    | none =>
      match nodes.get? ref with
      | none => .ok ((walk.enter ref).reject.leave ref)
      | some node =>
        match node.dependencies.foldlM (fun walk child => visit nodes depth child walk)
            ((walk.enter ref).clock node.availableAt) with
        | .ok walk => .ok (walk.leave ref)
        | .error e => .error e

/-- `sorted(set(visited))`. -/
def sortedSet (refs : List String) : List String := refs.dedup.insertionSort (· ≤ ·)

def dependencyClosure (depth : Nat) (root : String) (nodes : Nodes) :
    Except Failure (Option Stamp × List String) :=
  match visit nodes depth (some root) .start with
  | .error e => .error e
  | .ok walk =>
    match walk.valid, walk.times with
    | true, first :: rest => (Stamp.latest first rest).map fun a => (some a, sortedSet walk.visited)
    | _, _ => .ok (none, sortedSet walk.visited)

/-! ## The message versions -/

structure SourceId where
  peerId : Option Int
  messageId : Option Int
  deriving DecidableEq, Repr

/-- A row of `message_version`. -/
structure MessageVersion where
  sourceId : Option SourceId
  channelId : Option Int
  groupedId : Option Int
  replyToMessageId : Option Int
  mediaHashes : Option (List String)
  availableAt : Option Instant
  deriving DecidableEq, Repr

/-- The versions by their `source_version_id`. -/
abbrev Versions := OrderedDict String MessageVersion

/-- An integer or `None` as an f-string writes it. -/
def numberText : Option Int → String
  | none => "None"
  | some n => toString n

def mediaRef (ref media : String) : String := "media:" ++ ref ++ ":" ++ media

def missingParentRef (channel : Option Int) (parent : Int) : String :=
  "missing-parent:" ++ numberText channel ++ ":" ++ toString parent

namespace MessageVersion

def messageId (row : MessageVersion) : Option Int := row.sourceId.bind (·.messageId)

def clock (row : MessageVersion) : Option Stamp := row.availableAt.map .utc

/-- The references of a version's own media. -/
def mediaRefs (ref : String) (row : MessageVersion) : List String :=
  (row.mediaHashes.getD []).map (mediaRef ref)

/-- Whether a member is of the album `group` in the channel of `row`. -/
def sharesAlbum (row : MessageVersion) (group : Int) (member : MessageVersion) : Bool :=
  member.channelId = row.channelId && member.groupedId = some group

/-- Whether a version was available when `row` was. -/
def knownTo (row candidate : MessageVersion) : Bool :=
  match candidate.availableAt, row.availableAt with
  | some a, some b => a ≤ b
  | _, _ => false

end MessageVersion

namespace Versions

/-- The versions of a message, in the order of `versions`: `by_message.get((channel, message), [])`. -/
def ofMessage (versions : Versions) (channel : Option Int) (message : Int) : List (String × MessageVersion) :=
  versions.items.filter fun p => p.2.channelId = channel && p.2.messageId = some message

/-- The members of the album `group` in the channel of `row`. -/
def album (versions : Versions) (row : MessageVersion) (group : Int) : List (String × MessageVersion) :=
  versions.items.filter fun p => row.sharesAlbum group p.2

/-- `max(known, key=...)`: the first of those that came last. -/
def newest : List (String × MessageVersion) → Option (String × MessageVersion)
  | [] => none
  | p :: known => some (known.foldl (fun best q =>
      if best.2.availableAt.getD 0 < q.2.availableAt.getD 0 then q else best) p)

/-- The media of the album a version is in. -/
def albumRefs (versions : Versions) (row : MessageVersion) : List String :=
  match row.groupedId with
  | none => []
  | some group => (versions.album row group).flatMap fun p => p.2.mediaRefs p.1

/-- The evidence of a reply: the version of the parent that was known, else all of them. -/
def replyRefs (versions : Versions) (row : MessageVersion) : List String :=
  match row.replyToMessageId with
  | none => []
  | some parent =>
    match versions.ofMessage row.channelId parent with
    | [] => [missingParentRef row.channelId parent]
    | p :: rest =>
      match newest ((p :: rest).filter fun q => row.knownTo q.2) with
      | some q => [q.1]
      | none => (p :: rest).map Prod.fst

end Versions

namespace Nodes

/-- The nodes of a version and of its media. -/
def addVersion (nodes : Nodes) (p : String × MessageVersion) : Nodes :=
  let media := p.2.mediaRefs p.1
  (media.foldl (fun nodes ref => nodes.set ref ⟨p.2.clock, []⟩) nodes).set p.1 ⟨p.2.clock, media.map some⟩

/-- `nodes[ref]["dependencies"].extend(refs)`; every version has its node. -/
def extend (nodes : Nodes) (ref : String) (refs : List String) : Nodes :=
  match nodes.get? ref with
  | none => nodes
  | some node => nodes.set ref { node with dependencies := node.dependencies ++ refs.map some }

/-- The nodes of all versions: their media, the media of their albums, their reply evidence. -/
def ofVersions (versions : Versions) : Nodes :=
  let own := versions.items.foldl addVersion .empty
  let albums := versions.items.foldl (fun nodes p => extend nodes p.1 (versions.albumRefs p.2)) own
  versions.items.foldl (fun nodes p => extend nodes p.1 (versions.replyRefs p.2)) albums

def setAll (nodes : Nodes) (more : List (String × Node)) : Nodes :=
  more.foldl (fun nodes p => nodes.set p.1 p.2) nodes

end Nodes

/-! ## The plan -/

/-- Units of 10⁻¹²: a value of a `Decimal(38, 12)` column. -/
abbrev D12 := Int

structure Entry where
  lo : Option D12
  hi : Option D12
  kind : Option String
  deriving DecidableEq, Repr

structure TakeProfit where
  level : Option D12
  fraction : Option D12
  deriving DecidableEq, Repr

structure SizeHint where
  fraction : Option D12
  deriving DecidableEq, Repr

/-- A row of `canonical_plan`. -/
structure Plan where
  planId : String
  extractId : String
  sourceVersionId : String
  availableAt : Option Instant
  entry : Option Entry
  stop : Option D12
  tps : Option (List TakeProfit)
  sizeHint : Option SizeHint
  checks : Option String
  deriving DecidableEq, Repr

/-- The references of the fields a plan gives. -/
def Plan.fieldRefs (root : Plan) : List String :=
  [("entry", root.entry.isSome), ("stop", root.stop.isSome), ("tps", root.tps.isSome),
    ("size_hint", root.sizeHint.isSome)].filterMap fun p =>
      if p.2 then some ("field:" ++ root.extractId ++ ":" ++ p.1) else none

/-- The references of the rules, by name; a rule without a version has no clock. -/
def ruleNodes (ruleVersions : OrderedDict String String) : List (String × Node) :=
  (ruleVersions.items.insertionSort fun a b => a.1 ≤ b.1).map fun p =>
    ("rule:" ++ p.1 ++ ":" ++ p.2, ⟨if p.2 = "" then none else some .epoch, []⟩)

/-- A name in the JSON of the checks; `none` is a value that is no text. -/
def nameOf : Json.Value → Option String
  | .str s => some s
  | _ => none

/-- What `for child in dep.get("dependencies", [])` takes. -/
def childNames : Option Json.Value → List (Option String)
  | none => []
  | some (.arr items) => items.map nameOf
  | some (.str s) => s.toList.map fun c => some (String.singleton c)
  | some (.obj members) => members.map fun p => some p.1
  | some _ => [none]

/-- What a check names: the reference and its node. -/
structure Check where
  ref : Option String
  node : Node

/-- One turn of the loop over the checks; `none` where the check is of another purpose. -/
def readCheck (purpose : String) (dep : Json.Value) : Except Failure (Option Check) :=
  match dep with
  | .obj _ =>
    let named := (dep.get? "purpose").getD (.str "entry_decision")
    if named = .str "all" ∨ named = .str purpose then do
      let ref ← match dep.get? "ref" with
        | none => .error .keyError
        | some ref => .ok ref
      let clock ← match dep.get? "available_at" with
        | some (.str text) => (Stamp.ofText text).map some
        | _ => .ok none
      match ref with
      | .arr _ | .obj _ => .error .typeError
      | ref => .ok (some ⟨nameOf ref, ⟨clock, childNames (dep.get? "dependencies")⟩⟩)
    else .ok none
  | _ => .error .attributeError

/-- The items of `checks.get("dependencies", [])`. -/
def checkItems (checks : Json.Value) : Except Failure (List Json.Value) :=
  match checks with
  | .obj _ =>
    match checks.get? "dependencies" with
    | none => .ok []
    | some (.arr items) => .ok items
    | some (.str text) => .ok (text.toList.map fun c => .str (String.singleton c))
    | some (.obj members) => .ok (members.map fun p => .str p.1)
    | some _ => .error .typeError
  | _ => .error .attributeError

/-- `json.loads(root.get("checks") or "{}")` and the checks of the purpose in it. -/
def readChecks (checks : Option String) (purpose : String) : Except Failure (List Check) := do
  let text := match checks with
    | none | some "" => "{}"
    | some text => text
  let value ← match Json.loads text.toList with
    | none => .error .jsonDecodeError
    | some value => .ok value
  let found ← (← checkItems value).mapM (readCheck purpose)
  return found.reduceOption

/-- The dependencies of the extract, before the checks: its version, the album of it, rules and fields. -/
def extractRefs (root : Plan) (versions : Versions) (ruleVersions : OrderedDict String String) :
    List String :=
  let album := match versions.get? root.sourceVersionId with
    | none => []
    | some row => match row.groupedId with
      | none => []
      | some group => (versions.album row group).map Prod.fst
  root.sourceVersionId :: album ++ (ruleNodes ruleVersions).map Prod.fst ++ root.fieldRefs

/-- All nodes of a plan's closure. -/
def planNodes (root : Plan) (versions : Versions) (ruleVersions : OrderedDict String String)
    (checks : List Check) : Nodes :=
  let clock := root.availableAt.map .utc
  let fields := root.fieldRefs.map fun ref => (ref, (⟨clock, [some root.sourceVersionId]⟩ : Node))
  let named := checks.filterMap fun check => check.ref.map fun ref => (ref, check.node)
  let nodes := (((Nodes.ofVersions versions).setAll (ruleNodes ruleVersions)).setAll fields).setAll named
  let refs := (extractRefs root versions ruleVersions).map some ++ checks.map (·.ref)
  (nodes.set root.extractId ⟨clock, refs⟩).set root.planId ⟨clock, [some root.extractId]⟩

def planDependencies (depth : Nat) (root : Plan) (versions : Versions)
    (ruleVersions : OrderedDict String String) (purpose : String) :
    Except Failure (Option Stamp × List String) := do
  let checks ← readChecks root.checks purpose
  dependencyClosure depth root.planId (planNodes root versions ruleVersions checks)

/-- `t_dec_of(a_star, delay_s)`: the frozen processing delay has to be positive. -/
def tDecOf (aStar : Option Stamp) (delay : Int) : Except Failure (Option Stamp) :=
  match aStar with
  | none => .ok none
  | some a =>
    if delay ≤ 0 then .error .valueError
    else if Stamp.overflow ≤ a.reading + delay.toNat * 1000000 then .error .overflowError
    else .ok (some { a with reading := a.reading + delay.toNat * 1000000 })

end TraderBot.DecisionGraph
