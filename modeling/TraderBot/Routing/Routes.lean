import TraderBot.Lib.Returns
import TraderBot.Planner.ClientOrderIds

/-! # Account routes

The names under which one account and its node keep their keys, streams and files. Each is
built from parts that a sanitiser has cleared of separators, and joined. -/
namespace TraderBot.Routing
open TraderBot.Lib TraderBot.Lib.Text

/-! ## Parts -/

/-- `.replace(":", "_").replace("/", "_")` of one character. -/
def unseparated (c : Char) : Char := if c = ':' ∨ c = '/' then '_' else c

/-- `_namespace_part`; `none` raises. -/
def namespacePart (value : String) : Option String :=
  let stripped := strip value
  if stripped = "" then none else some (String.ofList (stripped.toList.map unseparated))

/-- `":".join(parts)`. -/
def joined (parts : List String) : String := String.ofList ([':'].intercalate (parts.map String.toList))

/-- `text.rstrip(":")`. -/
def rstripColons (text : String) : String := String.ofList (text.toList.reverse.dropWhile (· = ':')).reverse

/-! ## Paths -/

/-- A path of the platform: its leading slashes, and its parts without empty ones and dots. -/
structure Path where
  root : Nat
  parts : List (List Char)
  deriving DecidableEq, Repr

/-- `Path(text)`: two leading slashes are kept, more are one. -/
def Path.parse (text : String) : Path where
  root :=
    let slashes := (text.toList.takeWhile (· = '/')).length
    if slashes = 2 then 2 else min slashes 1
  parts := (text.toList.splitOn '/').filter fun part => part ≠ [] ∧ part ≠ ['.']

/-- `path / text`. -/
def Path.join (path : Path) (text : String) : Path :=
  let other := Path.parse text
  if other.root = 0 then ⟨path.root, path.parts ++ other.parts⟩ else other

/-- `str(path)`. -/
def Path.str (path : Path) : String :=
  let text := String.ofList (List.replicate path.root '/' ++ ['/'].intercalate path.parts)
  if text = "" then "." else text

/-! ## Routes -/

structure RouteFields where
  accountId : String
  nodeId : String
  redisKeyPrefix : String
  controlPlaneBaseUrl : String
  spoolRoot : String
  environment : String := "testnet"
  initialTradingState : String := "HALTED"
  spoolFileName : String := "execution-events.json"
  deriving DecidableEq, Repr

inductive RoutingError where
  | blank (name : String)
  | foreignPrefix (expected : String)
  deriving DecidableEq, Repr

/-- The text of an error; `repr` is that of the interpreter. -/
def RoutingError.message (repr : String → String) : RoutingError → String
  | .blank name => name ++ " must be a non-empty string"
  | .foreignPrefix expected => "redis_key_prefix must start with " ++ repr expected ++ " for account isolation"

namespace RouteFields
variable (r : RouteFields)

def named : List (String × String) :=
  [("account_id", r.accountId), ("node_id", r.nodeId), ("redis_key_prefix", r.redisKeyPrefix),
    ("control_plane_base_url", r.controlPlaneBaseUrl), ("environment", r.environment),
    ("initial_trading_state", r.initialTradingState), ("spool_file_name", r.spoolFileName)]

def expectedPrefix : String := "nautilus:" ++ r.accountId ++ ":"

/-- What `__post_init__` raises. -/
def refusal : Option RoutingError :=
  match r.named.find? fun field => strip field.2 = "" with
  | some field => some (.blank field.1)
  | none =>
    if r.expectedPrefix.toList.isPrefixOf r.redisKeyPrefix.toList then none
    else some (.foreignPrefix r.expectedPrefix)

end RouteFields

/-- A route that the constructor has taken. -/
structure AccountRoute extends RouteFields where
  taken : toRouteFields.refusal = none
  deriving DecidableEq

structure ClientOrderRef where
  accountId : String
  nodeId : String
  clientOrderId : String
  namespaceKey : String
  tags : List String
  deriving DecidableEq, Repr

theorem namespacePart_isSome {value : String} : (namespacePart value).isSome = true ↔ strip value ≠ "" := by
  unfold namespacePart
  dsimp only
  split_ifs with h
  · simp [h]
  · simp [h]

namespace AccountRoute
variable (r : AccountRoute)

/-- The constructor has taken no route with a blank field. -/
theorem filled {name value : String} (h : (name, value) ∈ r.named) :
    strip value ≠ "" := by
  have htaken := r.taken
  unfold RouteFields.refusal at htaken
  cases hfind : r.named.find? fun field => strip field.2 = "" with
  | some found =>
    rw [hfind] at htaken
    cases htaken
  | none =>
    have hnot := List.find?_eq_none.mp hfind (name, value) h
    simpa using hnot

theorem accountId_filled : (namespacePart r.accountId).isSome = true := by
  have hmem : ("account_id", r.accountId) ∈ r.named := by simp [RouteFields.named]
  exact namespacePart_isSome.mpr (r.filled hmem)

theorem nodeId_filled : (namespacePart r.nodeId).isSome = true := by
  have hmem : ("node_id", r.nodeId) ∈ r.named := by simp [RouteFields.named]
  exact namespacePart_isSome.mpr (r.filled hmem)

theorem prefixed : r.expectedPrefix.toList <+: r.redisKeyPrefix.toList := by
  have htaken := r.taken
  unfold RouteFields.refusal at htaken
  split at htaken
  · cases htaken
  · split_ifs at htaken with hprefix
    exact List.isPrefixOf_iff_prefix.mp hprefix

/-- `_namespace_part(self.account_id)`. -/
def account : String := (namespacePart r.accountId).get r.accountId_filled

/-- `_namespace_part(self.node_id)`. -/
def node : String := (namespacePart r.nodeId).get r.nodeId_filled

/-- `self.redis_key_prefix.rstrip(":")`. -/
def redisRoot : String := rstripColons r.redisKeyPrefix

/-- `redis_key`, of the texts of its parts. -/
def redisKey (parts : List String) : Option String :=
  if parts = [] then none else (parts.mapM namespacePart).map fun parts => joined (r.redisRoot :: parts)

def spoolPath : Path := (((Path.parse r.spoolRoot).join r.account).join r.node).join r.spoolFileName

def clientOrderRef (intentId : Uuid) (sequence : Int) : Option ClientOrderRef :=
  (Planner.encodeClientOrderId intentId sequence).map fun clientOrderId =>
    { accountId := r.accountId, nodeId := r.nodeId, clientOrderId,
      namespaceKey := joined ["client-order-id", r.account, clientOrderId],
      tags := ["account_id=" ++ r.accountId, "node_id=" ++ r.nodeId, "client_order_id=" ++ clientOrderId] }

def eventStream (eventType : String) : Option String :=
  (namespacePart eventType).map fun part => joined ["execution-events", r.account, r.node, part]

def eventRouteKey (eventId : String) : Option String :=
  (namespacePart eventId).map fun part => joined ["execution-event", r.account, r.node, part]

end AccountRoute

/-- The names of a route that are texts. -/
inductive Name where
  | redisKey (parts : List String)
  | eventStream (eventType : String)
  | eventRouteKey (eventId : String)
  | namespaceKey (intentId : Uuid) (sequence : Int)

def AccountRoute.name (r : AccountRoute) : Name → Option String
  | .redisKey parts => r.redisKey parts
  | .eventStream eventType => r.eventStream eventType
  | .eventRouteKey eventId => r.eventRouteKey eventId
  | .namespaceKey intentId sequence => (r.clientOrderRef intentId sequence).map (·.namespaceKey)

/-! ## Parts and joins -/

/-- A part that the sanitiser leaves as it is. -/
def IsPart (part : String) : Prop := namespacePart part = some part

instance (part : String) : Decidable (IsPart part) := inferInstanceAs (Decidable (_ = _))

theorem stripWhere_map {p : Char → Bool} {f : Char → Char} (h : ∀ c, p (f c) = p c) (cs : List Char) :
    stripWhere p (cs.map f) = (stripWhere p cs).map f := by
  have hf : p ∘ f = p := funext h
  simp only [stripWhere, List.dropWhile_map, ← List.map_reverse, hf]

variable (c : Char) {parts ps qs : List String} (first : String)

theorem isSpace_unseparated : isSpace (unseparated c) = isSpace c := by
  unfold unseparated
  split_ifs with h
  · rcases h with rfl | rfl
    · rfl
    · rfl
  · rfl

theorem unseparated_unseparated : unseparated (unseparated c) = unseparated c := by
  unfold unseparated
  split_ifs with h h'
  · rfl
  · rfl
  · rfl

theorem colon_ne_unseparated : ':' ≠ unseparated c := by
  unfold unseparated
  split_ifs with h
  · decide
  · exact fun heq => h (.inl heq.symm)

/-- The sanitiser gives parts. -/
theorem isPart_of_namespacePart {value part : String} (h : namespacePart value = some part) : IsPart part := by
  unfold namespacePart at h
  dsimp only at h
  split_ifs at h with hblank
  have hpart := Option.some.inj h
  have hstrip : strip part = part := by
    rw [← hpart]
    simp only [strip, String.toList_ofList, stripWhere_map isSpace_unseparated, stripWhere_idem]
  have hne : part ≠ "" := by
    intro hempty
    refine hblank ?_
    rw [hempty] at hpart
    simpa using congrArg String.toList hpart
  have hclear : part.toList.map unseparated = part.toList := by
    rw [← hpart]
    simp only [String.toList_ofList, List.map_map]
    exact List.map_congr_left fun c _ => unseparated_unseparated c
  unfold IsPart namespacePart
  simp only [hstrip, if_neg hne, hclear, String.ofList_toList]

theorem IsPart.no_colon {part : String} (h : IsPart part) : ':' ∉ part.toList := by
  unfold IsPart namespacePart at h
  dsimp only at h
  split_ifs at h
  have hpart := Option.some.inj h
  intro hmem
  rw [← hpart, String.toList_ofList] at hmem
  obtain ⟨c, -, hc⟩ := List.mem_map.mp hmem
  exact colon_ne_unseparated c hc.symm

/-- What the sanitiser makes of several texts. -/
theorem mapM_parts {values : List String} (h : values.mapM namespacePart = some parts) :
    ∀ p ∈ parts, IsPart p := by
  intro p hp
  have hmem := List.mem_map_of_mem (f := some) hp
  rw [← mapM_eq_some_iff.mp h] at hmem
  obtain ⟨value, -, hvalue⟩ := List.mem_map.mp hmem
  exact isPart_of_namespacePart hvalue

/-- Parts are left as they are. -/
theorem mapM_of_parts (h : ∀ p ∈ parts, IsPart p) : parts.mapM namespacePart = some parts :=
  mapM_eq_some_iff.mpr (List.map_congr_left h)

theorem joined_cons (parts : List String) :
    (joined (first :: parts)).toList = first.toList ++ parts.flatMap fun p => ':' :: p.toList := by
  rw [joined, String.toList_ofList, List.map_cons]
  induction parts generalizing first with
  | nil => simp
  | cons p parts ih =>
    rw [List.map_cons, List.intercalate_cons_cons, ih p, List.flatMap_cons, List.append_assoc]
    rfl

theorem joined_joined (parts others : List String) :
    joined (joined (first :: parts) :: others) = joined (first :: (parts ++ others)) := by
  refine String.toList_inj.mp ?_
  rw [joined_cons, joined_cons, joined_cons, List.flatMap_append, List.append_assoc]

/-- The pieces of a join are those of its first part and then the others. -/
theorem splitOn_joined (hparts : ∀ p ∈ parts, ':' ∉ p.toList) :
    (joined (first :: parts)).toList.splitOn ':' = first.toList.splitOn ':' ++ parts.map String.toList := by
  induction parts generalizing first with
  | nil => rw [joined_cons, List.flatMap_nil, List.append_nil, List.map_nil, List.append_nil]
  | cons p parts ih =>
    have hp : p.toList.splitOn ':' = [p.toList] := List.splitOn_eq_singleton (hparts p List.mem_cons_self)
    have hone : (joined [first, p]).toList.splitOn ':' = first.toList.splitOn ':' ++ [p.toList] := by
      rw [joined_cons, List.flatMap_singleton, List.splitOn_append_cons_self, hp]
    have hall := joined_joined first [p] parts
    rw [List.singleton_append] at hall
    rw [← hall, ih _ fun q hq => hparts q (List.mem_cons_of_mem _ hq), hone, List.append_assoc]
    rfl

theorem splitOn_colon_injective {s t : String} (h : s.toList.splitOn ':' = t.toList.splitOn ':') : s = t := by
  have hlists := congrArg (List.intercalate [':']) h
  rw [List.intercalate_splitOn, List.intercalate_splitOn] at hlists
  exact String.toList_inj.mp hlists

/-! ## Where names meet -/

/-- One text is another one with further parts joined to it. -/
def Extends (longer shorter : String) : Prop :=
  ∃ parts, parts ≠ [] ∧ (∀ p ∈ parts, IsPart p) ∧ longer = joined (shorter :: parts)

theorem extends_of_pieces {s t : String} {more : List (List Char)} (hqs : ∀ q ∈ qs, IsPart q)
    (htext : s.toList.splitOn ':' = t.toList.splitOn ':' ++ more)
    (hparts : qs.map String.toList = more ++ ps.map String.toList) :
    s = t ∧ ps = qs ∨ Extends s t := by
  obtain ⟨front, back, rfl, hfront, hback⟩ := List.map_eq_append_iff.mp hparts
  have hback' : back = ps := List.map_injective_iff.mpr (fun a b => String.toList_inj.mp) hback
  cases front with
  | nil =>
    rw [← hfront, List.map_nil, List.append_nil] at htext
    exact .inl ⟨splitOn_colon_injective htext, hback'.symm⟩
  | cons p front =>
    have hfront' : ∀ q ∈ p :: front, IsPart q := fun q hq => hqs q (List.mem_append_left _ hq)
    refine .inr ⟨p :: front, List.cons_ne_nil _ _, hfront', splitOn_colon_injective ?_⟩
    rw [htext, splitOn_joined _ fun q hq => (hfront' q hq).no_colon, hfront]

/-- Joins of two texts with parts are one only if one of the texts extends the other. -/
theorem extends_of_joined {s t : String} (hps : ∀ p ∈ ps, IsPart p) (hqs : ∀ q ∈ qs, IsPart q)
    (h : joined (s :: ps) = joined (t :: qs)) : s = t ∧ ps = qs ∨ Extends s t ∨ Extends t s := by
  have hsplit : (joined (s :: ps)).toList.splitOn ':' = (joined (t :: qs)).toList.splitOn ':' := by rw [h]
  rw [splitOn_joined _ fun p hp => (hps p hp).no_colon, splitOn_joined _ fun q hq => (hqs q hq).no_colon] at hsplit
  rcases List.append_eq_append_iff.mp hsplit with ⟨more, htext, hparts⟩ | ⟨more, htext, hparts⟩
  · refine (extends_of_pieces hps htext hparts).imp ?_ .inr
    exact fun hsame => ⟨hsame.1.symm, hsame.2.symm⟩
  · exact (extends_of_pieces hqs htext hparts).imp_right .inl

/-- Joins with one text have their parts in common. -/
theorem joined_parts {s : String} (hps : ∀ p ∈ ps, IsPart p) (hqs : ∀ q ∈ qs, IsPart q)
    (h : joined (s :: ps) = joined (s :: qs)) : ps = qs := by
  have hsplit : (joined (s :: ps)).toList.splitOn ':' = (joined (s :: qs)).toList.splitOn ':' := by rw [h]
  rw [splitOn_joined _ fun p hp => (hps p hp).no_colon, splitOn_joined _ fun q hq => (hqs q hq).no_colon] at hsplit
  exact List.map_injective_iff.mpr (fun a b => String.toList_inj.mp) (List.append_cancel_left hsplit)

/-- Joins of kinds without a colon have the kind and the parts in common. -/
theorem joined_kinds {kind kind' : String} (hkind : ':' ∉ kind.toList) (hkind' : ':' ∉ kind'.toList)
    (hps : ∀ p ∈ ps, IsPart p) (hqs : ∀ q ∈ qs, IsPart q)
    (h : joined (kind :: ps) = joined (kind' :: qs)) : kind = kind' ∧ ps = qs := by
  have hsplit : (joined (kind :: ps)).toList.splitOn ':' = (joined (kind' :: qs)).toList.splitOn ':' := by rw [h]
  rw [splitOn_joined _ fun p hp => (hps p hp).no_colon, splitOn_joined _ fun q hq => (hqs q hq).no_colon,
    List.splitOn_eq_singleton hkind, List.splitOn_eq_singleton hkind'] at hsplit
  obtain ⟨hhead, hrest⟩ := List.cons.inj hsplit
  exact ⟨String.toList_inj.mp hhead, List.map_injective_iff.mpr (fun a b => String.toList_inj.mp) hrest⟩

section
variable {r r' : AccountRoute}

variable {text : String} {parts : List String} {sequence : Int}

theorem rstripColons_head {c : Char} (h : text.toList.head? = some c) (hc : c ≠ ':') :
    (rstripColons text).toList.head? = some c := by
  obtain ⟨rest, htext⟩ := List.head?_eq_some_iff.mp h
  rw [rstripColons, String.toList_ofList, htext, List.reverse_cons, List.dropWhile_append]
  split_ifs
  · rw [List.dropWhile_cons_of_neg (by simpa using hc)]
    rfl
  · simp

theorem redisRoot_head (r : AccountRoute) : r.redisRoot.toList.head? = some 'n' := by
  obtain ⟨rest, hrest⟩ := r.prefixed
  refine rstripColons_head ?_ (by decide)
  rw [← hrest, RouteFields.expectedPrefix, String.toList_append, String.toList_append]
  rfl

theorem redisKey_some {key : String} :
    r.redisKey parts = some key ↔
      ∃ ps, parts ≠ [] ∧ parts.mapM namespacePart = some ps ∧ key = joined (r.redisRoot :: ps) := by
  unfold AccountRoute.redisKey
  split_ifs with h
  · simp [h]
  · rw [Option.map_eq_some_iff]
    exact exists_congr fun ps => ⟨fun hps => ⟨h, hps.1, hps.2.symm⟩, fun hps => ⟨hps.2.1, hps.2.2.symm⟩⟩

/-- A text without spaces and separators is a part. -/
theorem isPart_of_chars (hne : text ≠ "")
    (h : ∀ c ∈ text.toList, isSpace c = false ∧ c ≠ ':' ∧ c ≠ '/') : IsPart text := by
  have hstrip : strip text = text := by
    rw [strip, stripWhere_eq_self fun c hc => (h c hc).1, String.ofList_toList]
  have hclear : text.toList.map unseparated = text.toList := by
    refine (List.map_congr_left fun c hc => ?_).trans (List.map_id _)
    exact if_neg (not_or.mpr (h c hc).2)
  unfold IsPart namespacePart
  simp only [hstrip, if_neg hne, hclear, String.ofList_toList]

theorem isPart_encodeClientOrderId {id : Uuid}
    (h : Planner.encodeClientOrderId id sequence = some text) : IsPart text := by
  unfold Planner.encodeClientOrderId at h
  split_ifs at h
  have htext := Option.some.inj h
  refine isPart_of_chars ?_ fun c hc => ?_
  · intro hempty
    rw [hempty] at htext
    simpa using congrArg String.toList htext
  · rw [← htext, String.toList_ofList] at hc
    have hdigit : ∀ d < 16, isSpace (digitChar d) = false ∧ digitChar d ≠ ':' ∧ digitChar d ≠ '/' := by decide
    rcases List.mem_cons.mp hc with rfl | hc
    · decide
    rcases List.mem_append.mp hc with hc | hc
    · obtain ⟨d, hd, rfl⟩ := mem_hexPad hc
      exact hdigit d hd
    · obtain ⟨d, hd, rfl⟩ := mem_decPad hc
      exact hdigit d (by omega)

theorem AccountRoute.account_isPart (r : AccountRoute) : IsPart r.account :=
  isPart_of_namespacePart (Option.some_get r.accountId_filled).symm

theorem AccountRoute.node_isPart (r : AccountRoute) : IsPart r.node :=
  isPart_of_namespacePart (Option.some_get r.nodeId_filled).symm

/-- A name that is no key of Redis: a kind, the part of the account, and further parts. -/
def Plain (r : AccountRoute) (text : String) : Prop :=
  ∃ kind parts, text = joined (kind :: r.account :: parts) ∧ ':' ∉ kind.toList ∧ kind ≠ "" ∧
    kind.toList.head? ≠ some 'n' ∧ ∀ p ∈ parts, IsPart p

theorem name_cases {x : Name} (h : r.name x = some text) :
    (∃ parts, x = .redisKey parts) ∨ Plain r text := by
  cases x with
  | redisKey parts => exact .inl ⟨parts, rfl⟩
  | eventStream value | eventRouteKey value =>
    obtain ⟨part, hpart, rfl⟩ := Option.map_eq_some_iff.mp h
    refine .inr ⟨_, [r.node, part], rfl, by decide, by decide, by decide, ?_⟩
    simpa using ⟨r.node_isPart, isPart_of_namespacePart hpart⟩
  | namespaceKey intentId sequence =>
    obtain ⟨ref, href, rfl⟩ := Option.map_eq_some_iff.mp h
    obtain ⟨clientOrderId, hid, rfl⟩ := Option.map_eq_some_iff.mp href
    refine .inr ⟨_, [clientOrderId], rfl, by decide, by decide, by decide, ?_⟩
    simpa using isPart_encodeClientOrderId hid

/-- Plain names that are one are names of one account part. -/
theorem Plain.account (h : Plain r text) (h' : Plain r' text) : r.account = r'.account := by
  obtain ⟨kind, parts, htext, hcolon, -, -, hparts⟩ := h
  obtain ⟨kind', parts', htext', hcolon', -, -, hparts'⟩ := h'
  have hall : ∀ p ∈ r.account :: parts, IsPart p := List.forall_mem_cons.mpr ⟨r.account_isPart, hparts⟩
  have hall' : ∀ p ∈ r'.account :: parts', IsPart p := List.forall_mem_cons.mpr ⟨r'.account_isPart, hparts'⟩
  obtain ⟨-, hrest⟩ := joined_kinds hcolon hcolon' hall hall' (htext.symm.trans htext')
  exact (List.cons.inj hrest).1

theorem Plain.not_redisKey (h : Plain r text) : r'.redisKey parts ≠ some text := by
  intro hkey
  obtain ⟨kind, rest, htext, -, hne, hhead, -⟩ := h
  obtain ⟨ps, -, -, htext'⟩ := redisKey_some.mp hkey
  have hheads := congrArg (fun t => t.toList.head?) (htext.symm.trans htext')
  simp only [joined_cons, List.head?_append, redisRoot_head, Option.some_or] at hheads
  cases hkind : kind.toList with
  | nil => exact hne (String.toList_inj.mp hkind)
  | cons c cs =>
    rw [hkind, List.head?_cons] at hheads hhead
    exact hhead hheads

theorem redisKey_of_parts (hne : parts ≠ []) (h : ∀ p ∈ parts, IsPart p) :
    r.redisKey parts = some (joined (r.redisRoot :: parts)) := redisKey_some.mpr ⟨parts, hne, mapM_of_parts h, rfl⟩

theorem redisKey_of_extends (h : Extends r'.redisRoot r.redisRoot) :
    ∃ parts parts' text, r.redisKey parts = some text ∧ r'.redisKey parts' = some text := by
  obtain ⟨parts, -, hparts, hroot⟩ := h
  have hone : IsPart "state" := by decide
  refine ⟨parts ++ ["state"], ["state"], joined (r.redisRoot :: (parts ++ ["state"])), ?_, ?_⟩
  · refine redisKey_of_parts (by simp) fun p hp => ?_
    rcases List.mem_append.mp hp with hp | hp
    · exact hparts p hp
    · rw [List.mem_singleton.mp hp]
      exact hone
  · rw [redisKey_of_parts (by simp) fun p hp => List.mem_singleton.mp hp ▸ hone, hroot, joined_joined]

theorem namespaceKey_eq {clientOrderId : String} {id : Uuid}
    (hid : Planner.encodeClientOrderId id sequence = some clientOrderId) :
    r.name (.namespaceKey id sequence) = some (joined ["client-order-id", r.account, clientOrderId]) := by
  simp only [AccountRoute.name, AccountRoute.clientOrderRef, hid, Option.map_some]

/-- Two routes of different roots have a name in common exactly when their accounts have one
part, or one root extends the other. -/
theorem names_meet_iff (hroot : r.redisRoot ≠ r'.redisRoot) :
    (∃ x y text, r.name x = some text ∧ r'.name y = some text) ↔
      r.account = r'.account ∨ Extends r.redisRoot r'.redisRoot ∨ Extends r'.redisRoot r.redisRoot := by
  constructor
  · intro h
    obtain ⟨x, y, text, hx, hy⟩ := h
    rcases name_cases hx with ⟨parts, rfl⟩ | hplain
    · rcases name_cases hy with ⟨parts', rfl⟩ | hplain'
      · obtain ⟨ps, -, hps, htext⟩ := redisKey_some.mp hx
        obtain ⟨qs, -, hqs, htext'⟩ := redisKey_some.mp hy
        exact .inr ((extends_of_joined (mapM_parts hps) (mapM_parts hqs) (htext.symm.trans htext')).resolve_left
          fun hsame => hroot hsame.1)
      · exact absurd hx hplain'.not_redisKey
    · rcases name_cases hy with ⟨parts', rfl⟩ | hplain'
      · exact absurd hy hplain.not_redisKey
      · exact .inl (hplain.account hplain')
  · intro h
    rcases h with haccount | hextends | hextends
    · -- the orders of one intent have one namespace
      obtain ⟨clientOrderId, hid⟩ : ∃ c, Planner.encodeClientOrderId ⟨0, by decide⟩ 1 = some c :=
        ⟨_, Planner.encode_some (n := 1) (by decide) (by decide)⟩
      refine ⟨_, .namespaceKey ⟨0, by decide⟩ 1, _, namespaceKey_eq hid, ?_⟩
      rw [haccount]
      exact namespaceKey_eq hid
    · obtain ⟨parts, parts', text, hkey, hkey'⟩ := redisKey_of_extends hextends
      exact ⟨.redisKey parts', .redisKey parts, text, hkey', hkey⟩
    · obtain ⟨parts, parts', text, hkey, hkey'⟩ := redisKey_of_extends hextends
      exact ⟨.redisKey parts, .redisKey parts', text, hkey, hkey'⟩

/-- Keys of one route are one exactly when the sanitiser makes the same of their parts. -/
theorem redisKey_parts {parts' : List String} (h : r.redisKey parts = some text)
    (h' : r.redisKey parts' = some text) : parts.map namespacePart = parts'.map namespacePart := by
  obtain ⟨ps, -, hps, htext⟩ := redisKey_some.mp h
  obtain ⟨qs, -, hqs, htext'⟩ := redisKey_some.mp h'
  rw [mapM_eq_some_iff.mp hps, mapM_eq_some_iff.mp hqs,
    joined_parts (mapM_parts hps) (mapM_parts hqs) (htext.symm.trans htext')]

theorem eventRouteKey_part {eventId eventId' : String} (h : r.eventRouteKey eventId = some text)
    (h' : r.eventRouteKey eventId' = some text) :
    namespacePart eventId = namespacePart eventId' := by
  obtain ⟨part, hpart, htext⟩ := Option.map_eq_some_iff.mp h
  obtain ⟨part', hpart', htext'⟩ := Option.map_eq_some_iff.mp h'
  have hparts : ∀ p, IsPart p → ∀ q ∈ [r.account, r.node, p], IsPart q := by
    intro p hp
    simpa using ⟨r.account_isPart, r.node_isPart, hp⟩
  have hsame := joined_parts (hparts part (isPart_of_namespacePart hpart))
    (hparts part' (isPart_of_namespacePart hpart')) (htext.trans htext'.symm)
  rw [hpart, hpart', (List.cons.inj (List.cons.inj (List.cons.inj hsame).2).2).1]

end

end TraderBot.Routing
