import TraderBot.Lib.Text
import TraderBot.Lib.UnionFind

/-! # Duplicate groups

`dedup_frame`: which message versions are copies of one another. Texts that are equal
and forwards that resolve link two versions; so does similarity, whose thresholds are
not calibrated. All links go into one union-find, and a version is marked with the kind
of link that it came by. -/
namespace TraderBot.DuplicateGroups
open TraderBot.Lib TraderBot.Lib.Text

/-- `forward_from`. -/
structure Forward where
  name : Option String
  peerId : Option Int
  messageId : Option Int
  date : Option Int
  deriving DecidableEq, Repr

/-- A row of `message_version`; times are microseconds in UTC. -/
structure MessageVersion where
  sourceVersionId : String
  channelId : Int
  messageId : Int
  messageType : String
  contentHash : Option String
  mediaHashes : Option (List String)
  text : String
  forwardFrom : Option Forward
  eventTime : Option Int
  availableAt : Option Int
  sequence : Option Int
  deriving DecidableEq, Repr

/-- The table: one row for each version. -/
structure MessageVersions where
  rows : List MessageVersion
  distinct : (rows.map (·.sourceVersionId)).Nodup

inductive DupKind where
  | none
  | repostSameChannel
  | exactCrossChannel
  | forward
  | near
  deriving DecidableEq, Repr

/-- What is not in the repository: the Unicode tables, the 8-byte BLAKE2b digest of a text
read as a number, `fuzz.ratio`, the division of a ratio by 100, and `stable_id("dg", ·)`
by way of SHA-256. -/
structure Runtime where
  unicode : Unicode
  blake2b : String → Nat
  ratio : String → String → ℚ
  percent : ℚ → ℚ
  stableId : String → String

/-! ## Texts -/

section
variable (rt : Runtime)

def isDigit (c : Char) : Bool := c.isDigit || (rt.unicode.decimal c).isSome

/-- Where a search for numbers stands. -/
inductive Scan where
  | outside
  | whole (digits : List Char)
  | dot (digits : List Char)
  | fraction (digits : List Char)

/-- `_NUM.findall`, from a place in a number on; the digits read so far come last first. -/
def scan : Scan → List Char → List String
  | .outside, [] => []
  | .whole ds, [] | .dot ds, [] | .fraction ds, [] => [String.ofList ds.reverse]
  | .outside, c :: cs => if isDigit rt c then scan (.whole [c]) cs else scan .outside cs
  | .whole ds, c :: cs =>
    if isDigit rt c then scan (.whole (c :: ds)) cs
    else if c = '.' then scan (.dot ds) cs
    else String.ofList ds.reverse :: scan .outside cs
  | .dot ds, c :: cs =>
    if isDigit rt c then scan (.fraction (c :: '.' :: ds)) cs
    else String.ofList ds.reverse :: scan .outside cs
  | .fraction ds, c :: cs =>
    if isDigit rt c then scan (.fraction (c :: ds)) cs
    else String.ofList ds.reverse :: scan .outside cs

def numberTokens (t : String) : List String := scan rt .outside t.toList

def punctuation : List Char :=
  ['，', '。', '！', '？', '、', '：', '；', '“', '”', '‘', '’', '（', '）', '(', ')', '[', ']', '【', '】', ',', '.',
    '!', '?', ':', ';', '\x22', '\x27', '-', '—', '–', '…', '·', '～', '~', '_', '*', '#', '@', '>']

def textKey (t : String) : String :=
  rt.unicode.lower (String.ofList ((t.toList.filter fun c => !isSpace c).filter fun c => !punctuation.contains c))

/-- `t[i : i + 3]` for each place. -/
def grams (t : String) : List String :=
  (List.range (max 1 (t.length - 2))).map fun i => String.ofList ((t.toList.drop i).take 3)

def simhash64 (t : String) : Nat :=
  if t = "" then 0
  else
    let hashes := (grams t).map rt.blake2b
    let vote (b : Nat) : Int := (hashes.map fun h => if h.testBit b then (1 : Int) else -1).sum
    ((List.range 64).map fun b => if 0 < vote b then 1 <<< b else 0).sum

end

/-- The bits in which two 64-bit hashes differ. -/
def hamming (a b : Nat) : Nat := (List.range 64).countP fun i => (a ^^^ b).testBit i

/-! ## The rows in their order -/

/-- Ascending, with the missing ones last. -/
def nullsLast (a b : Option Int) : Ordering :=
  match a, b with
  | some a, some b => compare a b
  | some _, none => .lt
  | none, some _ => .gt
  | none, none => .eq

/-- The order by `available_at`, `sequence` and `source_version_id`. -/
def rowLe (a b : MessageVersion) : Bool :=
  ((nullsLast a.availableAt b.availableAt).then ((nullsLast a.sequence b.sequence).then
    (compare a.sourceVersionId b.sourceVersionId))) ≠ .gt

/-- `base`: the messages, in order. -/
def base (mv : MessageVersions) : List MessageVersion :=
  (mv.rows.filter fun r => r.messageType = "message").insertionSort fun a b => rowLe a b = true

def MessageVersion.sameSource (a b : MessageVersion) : Bool :=
  a.channelId = b.channelId && a.messageId = b.messageId

/-! ## Links by content -/

/-- `REPOST_WINDOW_S`, in microseconds. -/
def repostWindow : Nat := 72 * 3600 * 1000000

/-- The versions by content and media, those without text apart. -/
def buckets (rows : List MessageVersion) : OrderedDict (String × List String) (List MessageVersion) :=
  rows.foldl (fun buckets r =>
    match r.contentHash with
    | none => buckets
    | some hash =>
      if r.text = "" then buckets
      else
        let key := (hash, r.mediaHashes.getD [])
        buckets.set key ((buckets.get? key).getD [] ++ [r])) .empty

/-- How the first of a bucket and another one of it are linked. -/
def exactKind (head r : MessageVersion) : Option DupKind :=
  if r.sameSource head then none
  else if r.channelId = head.channelId then
    match head.availableAt, r.availableAt with
    | some ha, some ra => if (ra - ha).natAbs ≤ repostWindow then some .repostSameChannel else none
    | _, _ => none
  else some .exactCrossChannel

/-- The first of each bucket with each of the others. -/
def bucketPairs (rows : List MessageVersion) : List (MessageVersion × MessageVersion) :=
  (buckets rows).values.flatMap fun members =>
    match members with
    | [] => []
    | head :: rest => rest.map fun r => (head, r)

/-! ## What is known of a version -/

structure Mark where
  dupKind : DupKind
  originVersionId : Option String
  originRef : Option Forward
  directionKnown : Bool
  similarity : ℚ
  copyLinkAmbiguous : Bool
  deriving DecidableEq

def Mark.start : Mark := ⟨.none, none, none, false, 1, false⟩

structure Pass where
  dsu : UnionFind String
  marks : String → Mark

def Pass.start : Pass := ⟨.empty, fun _ => .start⟩

def Pass.mark (pass : Pass) (s : String) (f : Mark → Mark) : Pass :=
  { pass with marks := Function.update pass.marks s (f (pass.marks s)) }

def Pass.union (pass : Pass) (a b : String) : Pass := { pass with dsu := pass.dsu.union a b }

def linkExact (pass : Pass) (pair : MessageVersion × MessageVersion) : Pass :=
  match exactKind pair.1 pair.2 with
  | none => pass
  | some kind => (pass.union pair.1.sourceVersionId pair.2.sourceVersionId).mark pair.2.sourceVersionId
      fun m => { m with dupKind := kind, copyLinkAmbiguous := true }

/-! ## Links by forward -/

/-- The first version of the message that a forward points to. -/
def resolve (rows : List MessageVersion) (f : Forward) : Option String :=
  match f.peerId, f.messageId with
  | some pid, some mid =>
    (rows.find? fun r => r.channelId = pid && r.messageId = mid).map (·.sourceVersionId)
  | _, _ => none

def linkForward (rows : List MessageVersion) (pass : Pass) (r : MessageVersion) : Pass :=
  match r.forwardFrom with
  | none => pass
  | some f =>
    match resolve rows f with
    | some o => (pass.union o r.sourceVersionId).mark r.sourceVersionId fun m =>
        { m with
          originRef := some f
          originVersionId := some o
          directionKnown := true
          dupKind := .forward
          copyLinkAmbiguous := false }
    | none => pass.mark r.sourceVersionId fun m =>
        { m with
          originRef := some f
          copyLinkAmbiguous := m.copyLinkAmbiguous || m.dupKind = .none && f.name.getD "" ≠ "" }

/-! ## Links by similarity -/

def hammingMax : Nat := 12
def nearRatio : ℚ := 80
def nearRatioNonum : ℚ := 90
def minNearChars : Nat := 20

section
variable (rt : Runtime)

/-- Two texts that are not equal, but near enough. -/
def nearAlike (a b : MessageVersion) : Bool :=
  !a.sameSource b && textKey rt a.text ≠ textKey rt b.text &&
    hamming (simhash64 rt (textKey rt a.text)) (simhash64 rt (textKey rt b.text)) ≤ hammingMax &&
    numberTokens rt a.text = numberTokens rt b.text &&
    (if numberTokens rt a.text ≠ [] then nearRatio else nearRatioNonum) ≤
      rt.ratio (textKey rt a.text) (textKey rt b.text)

/-- Every two of a list, in its order. -/
def pairs {α : Type} : List α → List (α × α)
  | [] => []
  | a :: rest => rest.map (fun b => (a, b)) ++ pairs rest

/-- `cand`, and every two of them. -/
def nearPairs (rows : List MessageVersion) : List (MessageVersion × MessageVersion) :=
  pairs (rows.filter fun r => minNearChars ≤ (textKey rt r.text).length)

/-- Whether the second of two became available no earlier than the first. -/
def inOrder (ingestedAt : Int) (pair : MessageVersion × MessageVersion) : Bool :=
  pair.1.availableAt.getD ingestedAt ≤ pair.2.availableAt.getD ingestedAt

def later (ingestedAt : Int) (pair : MessageVersion × MessageVersion) : MessageVersion :=
  if inOrder ingestedAt pair then pair.2 else pair.1

def linkNear (ingestedAt : Int) (pass : Pass) (pair : MessageVersion × MessageVersion) : Pass :=
  if nearAlike rt pair.1 pair.2 then
    (pass.union pair.1.sourceVersionId pair.2.sourceVersionId).mark (later ingestedAt pair).sourceVersionId
      fun m =>
        if m.dupKind = .none then
          { m with
            dupKind := .near
            similarity := rt.percent (rt.ratio (textKey rt pair.1.text) (textKey rt pair.2.text))
            copyLinkAmbiguous := true }
        else m
  else pass

/-! ## The table of the groups -/

/-- A row of `duplicate_group`. -/
structure DuplicateGroup where
  sourceVersionId : String
  channelId : Int
  messageId : Int
  messageType : String
  contentHash : Option String
  mediaHashes : Option (List String)
  simhash : Nat
  duplicateGroupId : String
  canonicalVersionId : String
  isCanonical : Bool
  mark : Mark
  usableForCluster : Bool
  eventTime : Option Int
  availableAt : Option Int
  ingestedAt : Int
  deriving DecidableEq

/-- The first version of each class, under the root of the class. -/
def rootFirst (rows : List MessageVersion) (dsu : UnionFind String) :
    UnionFind String × OrderedDict String String :=
  rows.foldl (fun acc r =>
    let (dsu, root) := acc.1.find r.sourceVersionId
    (dsu, acc.2.setDefault root r.sourceVersionId)) (dsu, .empty)

def groupId (first : String) : String := "dg-" ++ String.ofList ((rt.stableId first).toList.take 16)

def usable (kind : DupKind) : Bool :=
  kind = .none || kind = .forward || kind = .exactCrossChannel || kind = .repostSameChannel

def outRow (ingestedAt : Int) (first : String) (mark : Mark) (r : MessageVersion) : DuplicateGroup where
  sourceVersionId := r.sourceVersionId
  channelId := r.channelId
  messageId := r.messageId
  messageType := r.messageType
  contentHash := r.contentHash
  mediaHashes := r.mediaHashes
  simhash := simhash64 rt (textKey rt r.text)
  duplicateGroupId := groupId rt first
  canonicalVersionId := r.sourceVersionId
  isCanonical := true
  mark := mark
  usableForCluster := usable mark.dupKind
  eventTime := r.eventTime
  availableAt := r.availableAt
  ingestedAt := ingestedAt

/-- `out_rows`; a root without a first version is a `KeyError`. -/
def outRows (ingestedAt : Int) (marks : String → Mark) (firsts : OrderedDict String String) :
    UnionFind String → List MessageVersion → Option (List DuplicateGroup)
  | _, [] => some []
  | dsu, r :: rest =>
    let (dsu, root) := dsu.find r.sourceVersionId
    match firsts.get? root with
    | none => none
    | some first =>
      (outRows ingestedAt marks firsts dsu rest).map
        (outRow rt ingestedAt first (marks r.sourceVersionId) r :: ·)

/-- All links, in the order of the three loops. -/
def linked (ingestedAt : Int) (rows : List MessageVersion) : Pass :=
  (nearPairs rt rows).foldl (linkNear rt ingestedAt)
    (rows.foldl (linkForward rows) ((bucketPairs rows).foldl linkExact .start))

def dedupFrame (ingestedAt : Int) (mv : MessageVersions) : Option (List DuplicateGroup) :=
  let rows := base mv
  let pass := linked rt ingestedAt rows
  let (dsu, firsts) := rootFirst rows pass.dsu
  outRows rt ingestedAt pass.marks firsts dsu rows

end
end TraderBot.DuplicateGroups
