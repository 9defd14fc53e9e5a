import TraderBot.Lib.OrderedDict
import TraderBot.Routing.Routes

/-! # The route table

Accounts and nodes find each other through two dicts, each the inverse of the other. A route
that would share a node, a root of keys or a spool file with another account is refused. -/
namespace TraderBot.Routing
open TraderBot.Lib

/-! ## Conflicts -/

inductive RouteConflictError where
  | duplicateAccountId (accountId : String)
  | duplicateNodeId (nodeId : String)
  | sharedRedisKeyPrefix (root : String)
  | sharedSpoolPath (path : Path)
  deriving DecidableEq, Repr

/-- The text of an error; `repr` is that of the interpreter. -/
def RouteConflictError.message (repr : String → String) : RouteConflictError → String
  | .duplicateAccountId accountId => "duplicate account_id " ++ repr accountId
  | .duplicateNodeId nodeId => "duplicate node_id " ++ repr nodeId
  | .sharedRedisKeyPrefix root => "shared redis_key_prefix " ++ repr root
  | .sharedSpoolPath path => "shared spool_path " ++ repr path.str

/-- What a route shares with one of those before it. -/
def conflict (before : List AccountRoute) (r : AccountRoute) : Option RouteConflictError :=
  if r.accountId ∈ before.map (·.accountId) then some (.duplicateAccountId r.accountId)
  else if r.nodeId ∈ before.map (·.nodeId) then some (.duplicateNodeId r.nodeId)
  else if r.redisRoot ∈ before.map (·.redisRoot) then some (.sharedRedisKeyPrefix r.redisRoot)
  else if r.spoolPath ∈ before.map (·.spoolPath) then some (.sharedSpoolPath r.spoolPath)
  else none

/-- `_assert_no_conflicts`. -/
def assertNoConflicts : List AccountRoute → List AccountRoute → Option RouteConflictError
  | _, [] => none
  | before, r :: rest =>
    match conflict before r with
    | some e => some e
    | none => assertNoConflicts (before ++ [r]) rest

/-! ## The table -/

structure RouteTable where
  routesByAccount : OrderedDict String AccountRoute
  accountByNode : OrderedDict String String
  nodeStatus : OrderedDict String String

namespace RouteTable

def empty : RouteTable := ⟨.empty, .empty, .empty⟩

/-- A node that an account leaves is forgotten. -/
def forget (t : RouteTable) (nodeId : String) : RouteTable :=
  { t with accountByNode := t.accountByNode.erase nodeId, nodeStatus := t.nodeStatus.erase nodeId }

/-- The table without the node that the account of a route leaves. -/
def vacate (t : RouteTable) (r : AccountRoute) : RouteTable :=
  match t.routesByAccount.get? r.accountId with
  | some old => if old.nodeId = r.nodeId then t else t.forget old.nodeId
  | none => t

def upsertRoute (t : RouteTable) (r : AccountRoute) : Option RouteConflictError × RouteTable :=
  let candidates := t.routesByAccount.items.filterMap fun item => if item.1 = r.accountId then none else some item.2
  match assertNoConflicts [] (candidates ++ [r]) with
  | some e => (some e, t)
  | none =>
    let t := t.vacate r
    (none,
      { routesByAccount := t.routesByAccount.set r.accountId r
        accountByNode := t.accountByNode.set r.nodeId r.accountId
        nodeStatus := t.nodeStatus.setDefault r.nodeId "running" })

end RouteTable

/-- Calls of `upsert_route`. -/
def upserts : Machine RouteTable AccountRoute (Option RouteConflictError) where
  step t r := t.upsertRoute r

/-! ## What a call checks and does -/

/-- Two routes share nothing that is checked. -/
structure Apart (r r' : AccountRoute) : Prop where
  account : r.accountId ≠ r'.accountId
  node : r.nodeId ≠ r'.nodeId
  root : r.redisRoot ≠ r'.redisRoot
  spool : r.spoolPath ≠ r'.spoolPath

variable {before : List AccountRoute} (t : RouteTable) (r : AccountRoute)

theorem conflict_none {r : AccountRoute} (h : conflict before r = none) :
    ∀ r' ∈ before, Apart r r' := by
  unfold conflict at h
  split_ifs at h with haccount hnode hroot hspool
  intro r' hr'
  have hnot : ∀ {α : Type} (f : AccountRoute → α), f r ∉ before.map f → f r ≠ f r' :=
    fun f hmem heq => hmem (heq ▸ List.mem_map_of_mem hr')
  exact ⟨hnot _ haccount, hnot _ hnode, hnot _ hroot, hnot _ hspool⟩

/-- No route that comes last in a list without conflicts shares anything with the others. -/
theorem assertNoConflicts_last {rest : List AccountRoute} {r : AccountRoute}
    (h : assertNoConflicts before (rest ++ [r]) = none) : ∀ r' ∈ before ++ rest, Apart r r' := by
  induction rest generalizing before with
  | nil =>
    rw [List.append_nil]
    refine conflict_none ?_
    rw [List.nil_append, assertNoConflicts] at h
    cases hr : conflict before r with
    | none => rfl
    | some e =>
      rw [hr] at h
      cases h
  | cons r' rest ih =>
    rw [List.cons_append, assertNoConflicts] at h
    cases hr : conflict before r' with
    | some e =>
      rw [hr] at h
      cases h
    | none =>
      rw [hr] at h
      have hall := ih h
      rwa [List.append_assoc] at hall

/-- Both dicts are each other's inverse, and no two routes share anything. -/
structure Kept (t : RouteTable) : Prop where
  named : ∀ account r, t.routesByAccount.get? account = some r → r.accountId = account
  inverse : ∀ node account, t.accountByNode.get? node = some account ↔
    ∃ r, t.routesByAccount.get? account = some r ∧ r.nodeId = node
  apart : ∀ account account' r r', t.routesByAccount.get? account = some r →
    t.routesByAccount.get? account' = some r' → account ≠ account' → Apart r r'

theorem vacate_routes : (t.vacate r).routesByAccount = t.routesByAccount := by
  unfold RouteTable.vacate
  cases t.routesByAccount.get? r.accountId with
  | none => rfl
  | some old =>
    dsimp only
    split_ifs
    · rfl
    · rfl

theorem vacate_nodes {node : String} (hnode : node ≠ r.nodeId) :
    (t.vacate r).accountByNode.get? node =
      if ∃ old, t.routesByAccount.get? r.accountId = some old ∧ old.nodeId = node then none
      else t.accountByNode.get? node := by
  unfold RouteTable.vacate
  cases hget : t.routesByAccount.get? r.accountId with
  | none => exact (if_neg fun hold => nomatch hold.choose_spec.1).symm
  | some old =>
    have hone : (∃ old', some old = some old' ∧ old'.nodeId = node) ↔ old.nodeId = node :=
      ⟨fun h => h.elim fun _ h => (Option.some.inj h.1) ▸ h.2, fun h => ⟨old, rfl, h⟩⟩
    dsimp only
    simp only [hone]
    split_ifs with hsame hold hold
    · exact absurd (hold.symm.trans hsame) hnode
    · rfl
    · exact OrderedDict.get?_erase.trans (if_pos hold.symm)
    · exact OrderedDict.get?_erase.trans (if_neg fun heq => hold heq.symm)

/-- A call is refused and changes nothing, or its route shares nothing with those of other accounts. -/
theorem upsertRoute_cases :
    (∃ e, t.upsertRoute r = (some e, t)) ∨
      (∀ account r', t.routesByAccount.get? account = some r' → account ≠ r.accountId → Apart r r') ∧
        (t.upsertRoute r).1 = none ∧ (t.upsertRoute r).2.routesByAccount = t.routesByAccount.set r.accountId r ∧
        ∀ node, (t.upsertRoute r).2.accountByNode.get? node =
          if node = r.nodeId then some r.accountId
          else if ∃ old, t.routesByAccount.get? r.accountId = some old ∧ old.nodeId = node then none
          else t.accountByNode.get? node := by
  unfold RouteTable.upsertRoute
  dsimp only
  cases hcheck : assertNoConflicts [] ((t.routesByAccount.items.filterMap fun item =>
      if item.1 = r.accountId then none else some item.2) ++ [r]) with
  | some e => exact .inl ⟨e, rfl⟩
  | none =>
    refine .inr ⟨fun account r' hr' hne => ?_, rfl, ?_, fun node => ?_⟩
    · refine assertNoConflicts_last hcheck r' ?_
      rw [List.nil_append]
      exact List.mem_filterMap.mpr ⟨(account, r'), OrderedDict.mem_items.mpr hr', if_neg hne⟩
    · show (t.vacate r).routesByAccount.set r.accountId r = _
      rw [vacate_routes]
    · show ((t.vacate r).accountByNode.set r.nodeId r.accountId).get? node = _
      rw [OrderedDict.get?_set]
      by_cases hnode : node = r.nodeId
      · rw [if_pos hnode, if_pos hnode]
      · rw [if_neg hnode, if_neg hnode]
        exact vacate_nodes t r hnode

theorem Kept.upsertRoute {t : RouteTable} (h : Kept t) (r : AccountRoute) : Kept (t.upsertRoute r).2 := by
  rcases upsertRoute_cases t r with ⟨e, heq⟩ | ⟨hapart, -, hroutes, hnodes⟩
  · rw [heq]
    exact h
  have hget : ∀ account, (t.upsertRoute r).2.routesByAccount.get? account =
      if account = r.accountId then some r else t.routesByAccount.get? account := by
    intro account
    rw [hroutes, OrderedDict.get?_set]
  refine ⟨fun account r' hr' => ?_, fun node account => ?_, fun account account' r₁ r₂ h₁ h₂ hne => ?_⟩
  · rw [hget] at hr'
    split_ifs at hr' with heq
    · exact heq ▸ (Option.some.inj hr') ▸ rfl
    · exact h.named account r' hr'
  · rw [hnodes]
    simp only [hget]
    by_cases haccount : account = r.accountId
    · simp only [if_pos haccount, Option.some.injEq, exists_eq_left']
      split_ifs with hnode hold
      · exact ⟨fun _ => hnode.symm, fun _ => congrArg some haccount.symm⟩
      · exact ⟨fun hsome => (by cases hsome), fun heq => absurd heq.symm hnode⟩
      · refine ⟨fun hsome => absurd ?_ hold, fun heq => absurd heq.symm hnode⟩
        exact (h.inverse node r.accountId).mp (haccount ▸ hsome)
    · simp only [if_neg haccount, ← h.inverse node account]
      split_ifs with hnode hold
      · refine ⟨fun heq => absurd (Option.some.inj heq).symm haccount, fun hsome => ?_⟩
        obtain ⟨r', hr', hnode'⟩ := (h.inverse node account).mp hsome
        exact absurd (hnode'.trans hnode).symm (hapart _ _ hr' haccount).node
      · refine ⟨fun hsome => (by cases hsome), fun hsome => ?_⟩
        obtain ⟨r', hr', hnode'⟩ := (h.inverse node account).mp hsome
        obtain ⟨old, hget', hnode''⟩ := hold
        exact absurd (hnode'.trans hnode''.symm) (h.apart _ _ _ _ hr' hget' haccount).node
      · exact Iff.rfl
  · rw [hget] at h₁ h₂
    split_ifs at h₁ h₂ with heq₁ heq₂ heq₂
    · exact absurd (heq₁.trans heq₂.symm) hne
    · exact Option.some.inj h₁ ▸ hapart _ _ h₂ heq₂
    · have hother := hapart _ _ h₁ heq₁
      rw [← Option.some.inj h₂]
      exact ⟨hother.account.symm, hother.node.symm, hother.root.symm, hother.spool.symm⟩
    · exact h.apart _ _ _ _ h₁ h₂ hne

theorem kept_after (routes : List AccountRoute) : Kept (upserts.after .empty routes) :=
  Machine.invariant (m := upserts) (fun _ r h => h.upsertRoute r)
    ⟨nofun, fun _ _ => ⟨nofun, fun h => nomatch h.choose_spec.1⟩, nofun⟩ routes

/-! ## Isolation -/

/-- No name and no spool file of an account is one of another account. -/
def Separate (t : RouteTable) : Prop :=
  ∀ account account' r r', t.routesByAccount.get? account = some r → t.routesByAccount.get? account' = some r' →
    account ≠ account' →
      r.spoolPath ≠ r'.spoolPath ∧ ∀ x y text, r.name x = some text → r'.name y ≠ some text

/-- Keys of one account say what they are made of. -/
def Faithful (t : RouteTable) : Prop :=
  ∀ account r, t.routesByAccount.get? account = some r →
    (∀ parts parts' text, r.redisKey parts = some text → r.redisKey parts' = some text → parts = parts') ∧
    ∀ eventId eventId' text, r.eventRouteKey eventId = some text → r.eventRouteKey eventId' = some text →
      eventId = eventId'

/-- After any calls the two dicts are inverse and a call that is refused changes nothing. Spool files of two accounts
differ, and so do all their names where the accounts have different parts and neither root of keys extends the other;
keys of one account are one only where the sanitiser makes the same of their parts. -/
theorem routes_isolated (routes : List AccountRoute) :
    let t := upserts.after .empty routes
    (∀ node account, t.accountByNode.get? node = some account ↔
      ∃ r, t.routesByAccount.get? account = some r ∧ r.nodeId = node) ∧
    (∀ r e, (t.upsertRoute r).1 = some e → (t.upsertRoute r).2 = t) ∧
    (∀ account account' r r', t.routesByAccount.get? account = some r →
      t.routesByAccount.get? account' = some r' → account ≠ account' → r.spoolPath ≠ r'.spoolPath ∧
        (r.account ≠ r'.account → ¬ Extends r.redisRoot r'.redisRoot → ¬ Extends r'.redisRoot r.redisRoot →
          ∀ x y text, r.name x = some text → r'.name y ≠ some text)) ∧
    ∀ account r, t.routesByAccount.get? account = some r →
      (∀ parts parts' text, r.redisKey parts = some text → r.redisKey parts' = some text →
        parts.map namespacePart = parts'.map namespacePart) ∧
      ∀ eventId eventId' text, r.eventRouteKey eventId = some text → r.eventRouteKey eventId' = some text →
        namespacePart eventId = namespacePart eventId' := by
  intro t
  have hkept : Kept t := kept_after routes
  refine ⟨hkept.inverse, fun r e he => ?_, fun account account' r r' hr hr' hne => ?_,
    fun account r _ => ⟨?_, ?_⟩⟩
  · rcases upsertRoute_cases t r with ⟨e', heq⟩ | ⟨-, hnone, -⟩
    · rw [heq]
    · rw [hnone] at he
      cases he
  · have hapart := hkept.apart _ _ _ _ hr hr' hne
    refine ⟨hapart.spool, fun haccount hextends hextends' x y text hx hy => ?_⟩
    rcases (names_meet_iff hapart.root).mp ⟨x, y, text, hx, hy⟩ with hmeet | hmeet | hmeet
    · exact haccount hmeet
    · exact hextends hmeet
    · exact hextends' hmeet
  · exact fun parts parts' text h h' => redisKey_parts h h'
  · exact fun eventId eventId' text h h' => eventRouteKey_part h h'

/-- The usual route of an account and a node. -/
def usualRoute (accountId nodeId : String) : RouteFields where
  accountId := accountId
  nodeId := nodeId
  redisKeyPrefix := "nautilus:" ++ accountId ++ ":" ++ nodeId
  controlPlaneBaseUrl := "http://control-plane:8080"
  spoolRoot := "/var/lib/nautilus-node/spool"

def colonRoute : AccountRoute := ⟨usualRoute "binance:1" "node-1", by decide⟩

def underscoreRoute : AccountRoute := ⟨usualRoute "binance_1" "node-2", by decide⟩

/-- Both routes are taken, and the orders of one intent have one namespace in both accounts. -/
theorem namespaces_shared :
    let t := upserts.after .empty [colonRoute, underscoreRoute]
    ¬ Separate t ∧ ¬ Faithful t := by
  intro t
  have hcolon : t.routesByAccount.get? "binance:1" = some colonRoute := by decide +kernel
  have hunderscore : t.routesByAccount.get? "binance_1" = some underscoreRoute := by decide +kernel
  constructor
  · intro h
    obtain ⟨clientOrderId, hid⟩ : ∃ c, Planner.encodeClientOrderId ⟨0, by decide⟩ 1 = some c :=
      ⟨_, Planner.encode_some (n := 1) (by decide) (by decide)⟩
    have haccount : colonRoute.account = underscoreRoute.account := by decide +kernel
    have hnames := (h _ _ _ _ hcolon hunderscore (by decide)).2
    refine hnames _ (.namespaceKey ⟨0, by decide⟩ 1) _ (namespaceKey_eq hid) ?_
    rw [haccount]
    exact namespaceKey_eq hid
  · intro h
    have hone : ["fills:1"].mapM namespacePart = some ["fills_1"] := by decide
    have hother : ["fills_1"].mapM namespacePart = some ["fills_1"] := by decide
    have hparts := (h _ _ hcolon).1 _ _ _ (redisKey_some.mpr ⟨_, List.cons_ne_nil _ _, hone, rfl⟩)
      (redisKey_some.mpr ⟨_, List.cons_ne_nil _ _, hother, rfl⟩)
    exact absurd hparts (by decide)

end TraderBot.Routing
