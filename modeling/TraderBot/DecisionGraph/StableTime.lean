import TraderBot.DecisionGraph.Traversal

/-! # Later arrivals and the decision time

What the nodes of the versions are, reference by reference, and from that when a
closure survives the versions that arrive at or after `t_dec`: as long as none of them
joins an album of the closure, or is the parent that a reply in it still waited for. -/
namespace TraderBot.DecisionGraph
open TraderBot.Lib

/-! ## The nodes of the versions -/

/-- A version's id is a digest: it has none of the colons of the other references. -/
def Named (versions : Versions) : Prop := ∀ ref ∈ versions.keys, ':' ∉ ref.toList

instance (versions : Versions) : Decidable (Named versions) :=
  inferInstanceAs (Decidable (∀ ref ∈ versions.keys, ':' ∉ ref.toList))

theorem mediaRef_inj {r s m n : String} (hr : ':' ∉ r.toList) (hs : ':' ∉ s.toList)
    (h : mediaRef r m = mediaRef s n) : r = s := by
  have htext := congrArg String.toList h
  simp only [mediaRef, String.toList_append, List.append_assoc] at htext
  have hsplit := congrArg (DateTime.splitAt? ':') (List.append_cancel_left htext)
  have colon : ":".toList = [':'] := rfl
  rw [colon, List.singleton_append, List.singleton_append, DateTime.splitAt?_append hr,
    DateTime.splitAt?_append hs] at hsplit
  exact String.toList_injective (Prod.mk.inj (Option.some.inj hsplit)).1

theorem colon_mem_mediaRef (r m : String) : ':' ∈ (mediaRef r m).toList := by
  simp [mediaRef]

namespace Nodes

/-- What a version brings: a node for each of its media, and its own. -/
def entries (p : String × MessageVersion) : List (String × Node) :=
  (p.2.mediaRefs p.1).map (fun ref => (ref, ⟨p.2.clock, []⟩)) ++
    [(p.1, ⟨p.2.clock, (p.2.mediaRefs p.1).map some⟩)]

theorem mem_entries {p : String × MessageVersion} {ref : String} {node : Node} :
    (ref, node) ∈ entries p ↔ (ref ∈ p.2.mediaRefs p.1 ∧ node = ⟨p.2.clock, []⟩) ∨
      (ref = p.1 ∧ node = ⟨p.2.clock, (p.2.mediaRefs p.1).map some⟩) := by
  simp [entries, eq_comm]

theorem own_eq (versions : Versions) :
    versions.items.foldl addVersion .empty = OrderedDict.ofList (versions.items.flatMap entries) := by
  rw [OrderedDict.ofList, List.foldl_flatMap]
  refine congrFun (congrFun (congrArg _ (funext fun nodes => funext fun p => ?_)) _) _
  rw [entries, List.foldl_append, List.foldl_map]
  rfl

section
variable {versions : Versions} {ref : String} {row : MessageVersion} {node node' : Node}

theorem entries_unique (hn : Named versions) (h : (ref, node) ∈ versions.items.flatMap entries)
    (h' : (ref, node') ∈ versions.items.flatMap entries) : node = node' := by
  obtain ⟨⟨r, row⟩, hp, hin⟩ := List.mem_flatMap.mp h
  obtain ⟨⟨s, row'⟩, hq, hin'⟩ := List.mem_flatMap.mp h'
  have plain : ∀ {k v}, (k, v) ∈ versions.items → ':' ∉ k.toList := fun hk =>
    hn _ (List.mem_map_of_mem (f := Prod.fst) hk)
  have same : r = s → row = row' := by
    rintro rfl
    rw [OrderedDict.mem_items] at hp hq
    exact Option.some.inj (hp.symm.trans hq)
  rcases mem_entries.mp hin with ⟨hm, rfl⟩ | ⟨rfl, rfl⟩ <;>
    rcases mem_entries.mp hin' with ⟨hm', rfl⟩ | ⟨hs, rfl⟩
  · obtain ⟨m, -, rfl⟩ := List.mem_map.mp hm
    obtain ⟨n, -, hmn⟩ := List.mem_map.mp hm'
    rw [same (mediaRef_inj (plain hp) (plain hq) hmn.symm)]
  · obtain ⟨m, -, rfl⟩ := List.mem_map.mp hm
    have hs : mediaRef r m = s := hs
    exact absurd (hs ▸ colon_mem_mediaRef r m) (plain hq)
  · obtain ⟨n, -, rfl⟩ := List.mem_map.mp hm'
    exact absurd (colon_mem_mediaRef s n) (plain hp)
  · cases hs
    rw [same rfl]

theorem own_get? (hn : Named versions) (h : (ref, node) ∈ versions.items.flatMap entries) :
    (versions.items.foldl addVersion .empty).get? ref = some node := by
  have hcases := OrderedDict.ofList_cases (versions.items.flatMap entries) ref
  rw [own_eq]
  obtain ⟨found, hfound⟩ := Option.isSome_iff_exists.mp (hcases.2 node h)
  rw [hfound, entries_unique hn (hcases.1 found hfound) h]

theorem get?_extend (nodes : Nodes) (k : String) (refs : List String) :
    (extend nodes k refs).get? ref = if ref = k then
      (nodes.get? k).map fun node => { node with dependencies := node.dependencies ++ refs.map some }
      else nodes.get? ref := by
  unfold extend
  cases hk : nodes.get? k with
  | none =>
    split_ifs with href
    · rw [href, hk]
      rfl
    · rfl
  | some node =>
    dsimp only
    rw [OrderedDict.get?_set]
    rfl

/-- The loop that extends the node of each version extends each once. -/
theorem get?_extendAll (f : MessageVersion → List String) (items : List (String × MessageVersion))
    (hd : (items.map Prod.fst).Nodup) (nodes : Nodes) :
    (ref ∉ items.map Prod.fst →
      (items.foldl (fun nodes p => extend nodes p.1 (f p.2)) nodes).get? ref = nodes.get? ref) ∧
    (∀ row, (ref, row) ∈ items → (items.foldl (fun nodes p => extend nodes p.1 (f p.2)) nodes).get? ref =
      (nodes.get? ref).map fun node => { node with dependencies := node.dependencies ++ (f row).map some }) := by
  induction items generalizing nodes with
  | nil => exact ⟨fun _ => rfl, fun _ h => absurd h List.not_mem_nil⟩
  | cons p items ih =>
    rw [List.map_cons, List.nodup_cons] at hd
    obtain ⟨hout, hin⟩ := ih hd.2 (extend nodes p.1 (f p.2))
    rw [List.foldl_cons]
    constructor
    · intro h
      rw [List.map_cons, List.mem_cons, not_or] at h
      rw [hout h.2, get?_extend, if_neg h.1]
    · intro row h
      rcases List.mem_cons.mp h with rfl | h
      · rw [hout hd.1, get?_extend, if_pos rfl]
      · rw [hin row h, get?_extend, if_neg]
        intro hkey
        exact hd.1 (hkey ▸ List.mem_map_of_mem (f := Prod.fst) h)

theorem ofVersions_version (hn : Named versions) (h : (ref, row) ∈ versions.items) :
    (ofVersions versions).get? ref = some ⟨row.clock,
      (row.mediaRefs ref ++ versions.albumRefs row ++ versions.replyRefs row).map some⟩ := by
  have hown := own_get? hn (List.mem_flatMap.mpr ⟨_, h, mem_entries.mpr (.inr ⟨rfl, rfl⟩)⟩)
  rw [ofVersions, (get?_extendAll _ _ versions.distinct _).2 _ h, (get?_extendAll _ _ versions.distinct _).2 _ h, hown]
  simp

theorem ofVersions_media {r : String} (hn : Named versions) (h : (r, row) ∈ versions.items)
    (hm : ref ∈ row.mediaRefs r) : (ofVersions versions).get? ref = some ⟨row.clock, []⟩ := by
  have hout : ref ∉ versions.items.map Prod.fst := by
    obtain ⟨m, -, rfl⟩ := List.mem_map.mp hm
    exact fun hmem => hn _ hmem (colon_mem_mediaRef r m)
  rw [ofVersions, (get?_extendAll _ _ versions.distinct _).1 hout,
    (get?_extendAll _ _ versions.distinct _).1 hout]
  exact own_get? hn (List.mem_flatMap.mpr ⟨_, h, mem_entries.mpr (.inl ⟨hm, rfl⟩)⟩)

/-- A node is that of a version or that of a version's media. -/
theorem ofVersions_cases (h : (ofVersions versions).get? ref = some node) :
    (∃ row, (ref, row) ∈ versions.items) ∨
      ∃ r row, (r, row) ∈ versions.items ∧ ref ∈ row.mediaRefs r := by
  by_cases hkey : ref ∈ versions.items.map Prod.fst
  · obtain ⟨⟨r, row⟩, hp, rfl⟩ := List.mem_map.mp hkey
    exact .inl ⟨row, hp⟩
  · have skip := fun f nodes => (get?_extendAll f versions.items versions.distinct nodes).1 hkey
    rw [ofVersions, skip, skip, own_eq] at h
    obtain ⟨⟨r, row⟩, hp, hin⟩ := List.mem_flatMap.mp ((OrderedDict.ofList_cases _ _).1 node h)
    rcases mem_entries.mp hin with ⟨hm, -⟩ | ⟨rfl, -⟩
    · exact .inr ⟨r, row, hp, hm⟩
    · exact .inl ⟨row, hp⟩

end
end Nodes

/-! ## Versions that arrive later -/

/-- How a version that is added can enter the closure of a plan: under an id that is
already in it or is the source's, as a member of the source's album, with media in the
album of one of its versions, or as the parent of a reply that knew no version of it. -/
inductive Joins (root : Plan) (versions : Versions) (refs : List String) :
    String × MessageVersion → Prop
  | named {p} (h : p.1 ∈ refs ∨ p.1 = root.sourceVersionId) : Joins root versions refs p
  | sourceAlbum {p row group} (hrow : versions.get? root.sourceVersionId = some row)
      (hgroup : row.groupedId = some group) (h : row.sharesAlbum group p.2 = true) :
      Joins root versions refs p
  | albumMedia {p ref row group} (href : ref ∈ refs) (hrow : versions.get? ref = some row)
      (hgroup : row.groupedId = some group) (h : row.sharesAlbum group p.2 = true)
      (hmedia : p.2.mediaRefs p.1 ≠ []) : Joins root versions refs p
  | parent {p ref row parent} (href : ref ∈ refs) (hrow : versions.get? ref = some row)
      (hparent : row.replyToMessageId = some parent) (hchannel : p.2.channelId = row.channelId)
      (hmessage : p.2.messageId = some parent)
      (hwaits : ∀ q ∈ versions.ofMessage row.channelId parent, row.knownTo q.2 = false) :
      Joins root versions refs p

/-- A filter that takes none of the items that were added finds what it found before. -/
theorem filter_sublist {α : Type} {l l' : List α} (h : l.Sublist l') (hd : l'.Nodup) {f : α → Bool}
    (hadded : ∀ x ∈ l', x ∉ l → f x = false) : l'.filter f = l.filter f := by
  induction h with
  | slnil => rfl
  | @cons l l' a hsub ih =>
    rw [List.nodup_cons] at hd
    have ha : f a = false := hadded a List.mem_cons_self fun hmem => hd.1 (hsub.subset hmem)
    rw [List.filter_cons_of_neg (by simp [ha])]
    exact ih hd.2 fun x hx => hadded x (List.mem_cons_of_mem _ hx)
  | @cons_cons l l' a hsub ih =>
    rw [List.nodup_cons] at hd
    have hrest := ih hd.2 fun x hx hnot => hadded x (List.mem_cons_of_mem _ hx) fun hmem => by
      rcases List.mem_cons.mp hmem with rfl | hmem
      · exact hd.1 hx
      · exact hnot hmem
    rw [List.filter_cons, List.filter_cons, hrest]

/-- Items that bring nothing can be left out. -/
theorem flatMap_filter_nonempty {α β : Type} (l : List α) (f : α → Bool) (g : α → List β) :
    (l.filter f).flatMap g = (l.filter fun x => f x && !(g x).isEmpty).flatMap g := by
  induction l with
  | nil => rfl
  | cons x l ih =>
    by_cases hf : f x = true
    · by_cases hg : g x = []
      · simp [hf, hg, ih]
      · simp [hf, hg, ih]
    · simp [hf, ih]

theorem setAll_decides (more : List (String × Node)) (ref : String) :
    (∃ node, ∀ nodes : Nodes, (nodes.setAll more).get? ref = some node) ∨
      ∀ nodes : Nodes, (nodes.setAll more).get? ref = nodes.get? ref := by
  induction more using List.reverseRecOn with
  | nil => exact .inr fun _ => rfl
  | append_singleton more p ih =>
    have hset : ∀ nodes : Nodes, (nodes.setAll (more ++ [p])).get? ref =
        if ref = p.1 then some p.2 else (nodes.setAll more).get? ref := by
      intro nodes
      rw [Nodes.setAll, List.foldl_append]
      exact OrderedDict.get?_set
    by_cases href : ref = p.1
    · exact .inl ⟨p.2, fun nodes => by rw [hset, if_pos href]⟩
    · simpa only [hset, if_neg href] using ih

section
variable {root : Plan} {versions more : Versions} {rules : OrderedDict String String}
  {checks : List Check} {depth : Nat} {a t : Stamp} {refs : List String} {delay : Int}

/-- What the added versions leave as it was, given that they come at `t_dec` or later. -/
structure Later (root : Plan) (versions more : Versions) (refs : List String) (a : Stamp) : Prop where
  named : Named more
  sub : versions.items.Sublist more.items
  late : ∀ p ∈ more.items, p ∉ versions.items → ∃ at', p.2.availableAt = some at' ∧ a.instant < at'
  apart : ∀ p ∈ more.items, p ∉ versions.items → ¬ Joins root versions refs p

theorem nodup_items (versions : Versions) : versions.items.Nodup :=
  List.Nodup.of_map _ versions.distinct

theorem Later.get? (hl : Later root versions more refs a) {ref : String}
    (href : ref ∈ refs ∨ ref = root.sourceVersionId) : more.get? ref = versions.get? ref := by
  cases hrow : more.get? ref with
  | none =>
    cases hold : versions.get? ref with
    | none => rfl
    | some row =>
      rw [← OrderedDict.mem_items] at hold
      have := OrderedDict.mem_items.mp (hl.sub.subset hold)
      rw [hrow] at this
      cases this
  | some row =>
    by_cases hmem : (ref, row) ∈ versions.items
    · exact (OrderedDict.mem_items.mp hmem).symm
    · exact absurd (Joins.named href) (hl.apart _ (OrderedDict.mem_items.mpr hrow) hmem)

theorem Later.filter (hl : Later root versions more refs a) {f : String × MessageVersion → Bool}
    (h : ∀ p, f p = true → p ∉ versions.items → Joins root versions refs p) :
    more.items.filter f = versions.items.filter f := by
  refine filter_sublist hl.sub (nodup_items more) fun p hp hnot => ?_
  by_contra hf
  exact hl.apart p hp hnot (h p (by simpa using hf) hnot)

theorem Later.extractRefs (hl : Later root versions more refs a) :
    extractRefs root more rules = extractRefs root versions rules := by
  unfold DecisionGraph.extractRefs
  rw [hl.get? (.inr rfl)]
  cases hrow : versions.get? root.sourceVersionId with
  | none => rfl
  | some row =>
    dsimp only
    cases hgroup : row.groupedId with
    | none => rfl
    | some group =>
      have halbum : more.album row group = versions.album row group :=
        hl.filter fun p hp _ => .sourceAlbum hrow hgroup hp
      dsimp only
      rw [halbum]

section
variable {ref : String} {row : MessageVersion}

theorem Later.albumRefs (hl : Later root versions more refs a) (href : ref ∈ refs)
    (hrow : versions.get? ref = some row) : more.albumRefs row = versions.albumRefs row := by
  unfold Versions.albumRefs
  cases hgroup : row.groupedId with
  | none => rfl
  | some group =>
    dsimp only [Versions.album]
    rw [flatMap_filter_nonempty, flatMap_filter_nonempty versions.items, hl.filter]
    intro p hp _
    obtain ⟨hshares, hmedia⟩ := Bool.and_eq_true_iff.mp hp
    exact .albumMedia href hrow hgroup hshares (by simpa using hmedia)

/-- A version that comes after the closure's time is not known to a version within it. -/
theorem Later.not_known (hl : Later root versions more refs a)
    (hclock : ∀ at', row.availableAt = some at' → (at' : Int) ≤ a.instant)
    {p : String × MessageVersion} (hp : p ∈ more.items) (hnot : p ∉ versions.items) :
    row.knownTo p.2 = false := by
  obtain ⟨at', hat, hlate⟩ := hl.late p hp hnot
  unfold MessageVersion.knownTo
  rw [hat]
  cases hrow : row.availableAt with
  | none => rfl
  | some b =>
    have hlt : (b : Int) < at' := (hclock b hrow).trans_lt hlate
    exact decide_eq_false (not_le.mpr (Int.ofNat_lt.mp hlt))

theorem Later.replyRefs (hl : Later root versions more refs a) (href : ref ∈ refs)
    (hrow : versions.get? ref = some row)
    (hclock : ∀ at', row.availableAt = some at' → (at' : Int) ≤ a.instant) :
    more.replyRefs row = versions.replyRefs row := by
  unfold Versions.replyRefs
  cases hparent : row.replyToMessageId with
  | none => rfl
  | some parent =>
    dsimp only
    -- the versions of the parent that the reply knew are the same ones
    have hknown : (more.ofMessage row.channelId parent).filter (fun q => row.knownTo q.2) =
        (versions.ofMessage row.channelId parent).filter fun q => row.knownTo q.2 := by
      unfold Versions.ofMessage
      rw [List.filter_filter, List.filter_filter]
      refine filter_sublist hl.sub (nodup_items more) fun p hp hnot => ?_
      rw [hl.not_known hclock hp hnot, Bool.false_and]
    by_cases hwaits : ∀ q ∈ versions.ofMessage row.channelId parent, row.knownTo q.2 = false
    · have hsame : more.ofMessage row.channelId parent = versions.ofMessage row.channelId parent := by
        refine hl.filter fun p hp _ => ?_
        obtain ⟨hchannel, hmessage⟩ := Bool.and_eq_true_iff.mp hp
        exact .parent href hrow hparent (of_decide_eq_true hchannel) (of_decide_eq_true hmessage) hwaits
      rw [hsame]
    · push Not at hwaits
      obtain ⟨q, hq, hqknown⟩ := hwaits
      have hq' : q ∈ (versions.ofMessage row.channelId parent).filter fun q => row.knownTo q.2 :=
        List.mem_filter.mpr ⟨hq, by simpa using hqknown⟩
      cases hold : versions.ofMessage row.channelId parent with
      | nil =>
        rw [hold] at hq
        cases hq
      | cons p rest =>
        cases hnew : more.ofMessage row.channelId parent with
        | nil =>
          rw [← hknown, hnew] at hq'
          cases hq'
        | cons p' rest' =>
          rw [hold, hnew] at hknown
          rw [hold] at hq'
          dsimp only
          rw [hknown]
          cases hfilter : (p :: rest).filter (fun q => row.knownTo q.2) with
          | nil =>
            rw [hfilter] at hq'
            cases hq'
          | cons _ _ => rfl

end

/-- The nodes of the closure are the same with the versions that were added. -/
theorem Later.ofVersions (hl : Later root versions more refs a) {ref : String} {node : Node} {t : Stamp}
    (href : ref ∈ refs) (hnode : (Nodes.ofVersions versions).get? ref = some node)
    (hclock : node.availableAt = some t) (hle : t.instant ≤ a.instant) :
    (Nodes.ofVersions more).get? ref = some node := by
  have hn : Named versions := fun r hr => hl.named r ((hl.sub.map Prod.fst).subset hr)
  rcases Nodes.ofVersions_cases hnode with ⟨row, hrow⟩ | ⟨r, row, hrow, hm⟩
  · have hold := Nodes.ofVersions_version hn hrow
    rw [hnode] at hold
    cases hold
    have hin : ∀ at', row.availableAt = some at' → (at' : Int) ≤ a.instant := by
      intro at' hat
      rw [MessageVersion.clock, hat] at hclock
      cases hclock
      simpa [Stamp.utc, Stamp.instant] using hle
    have hget := OrderedDict.mem_items.mp hrow
    rw [Nodes.ofVersions_version hl.named (hl.sub.subset hrow), hl.albumRefs href hget,
      hl.replyRefs href hget hin]
  · rw [← hnode, Nodes.ofVersions_media hl.named (hl.sub.subset hrow) hm, Nodes.ofVersions_media hn hrow hm]

theorem Later.planNodes (hl : Later root versions more refs a)
    (hclosure : dependencyClosure depth root.planId (planNodes root versions rules checks) = .ok (some a, refs)) :
    ∀ ref ∈ refs, (planNodes root more rules checks).get? ref = (planNodes root versions rules checks).get? ref := by
  intro ref href
  obtain ⟨node, t, hnode, hclock, hle⟩ := dependencyClosure_clock hclosure ref href
  unfold DecisionGraph.planNodes at hnode ⊢
  rw [hl.extractRefs]
  rw [OrderedDict.get?_set, OrderedDict.get?_set] at hnode ⊢
  rw [OrderedDict.get?_set, OrderedDict.get?_set]
  split_ifs at hnode ⊢
  · rfl
  · rfl
  -- the checks, the fields and the rules are the same; below them are the versions
  · rcases setAll_decides (checks.filterMap fun check => check.ref.map fun ref => (ref, check.node)) ref with
      ⟨found, hfound⟩ | hchecks
    · rw [hfound, hfound]
    rw [hchecks] at hnode
    rw [hchecks, hchecks]
    rcases setAll_decides (root.fieldRefs.map fun ref =>
      (ref, (⟨root.availableAt.map .utc, [some root.sourceVersionId]⟩ : Node))) ref with ⟨found, hfound⟩ | hfields
    · rw [hfound, hfound]
    rw [hfields] at hnode
    rw [hfields, hfields]
    rcases setAll_decides (ruleNodes rules) ref with ⟨found, hfound⟩ | hrules
    · rw [hfound, hfound]
    rw [hrules] at hnode
    rw [hrules, hrules, hl.ofVersions href hnode hclock hle, hnode]

end

/-- `t_dec` comes after the time the closure was available. -/
theorem tDecOf_after {a t : Stamp} {delay : Int} (h : tDecOf (some a) delay = .ok (some t)) :
    a.instant < t.instant := by
  unfold tDecOf at h
  dsimp only at h
  split at h
  · cases h
  · split at h
    · cases h
    · cases h
      simp only [Stamp.instant]
      omega

/-- Versions that arrive at or after `t_dec` and join no part of a plan's closure leave its
time and its dependencies as they were. -/
theorem planDependencies_stable {depth : Nat} {root : Plan} {versions more : Versions}
    {ruleVersions : OrderedDict String String} {purpose : String} {delay : Int} {a t : Stamp}
    {refs : List String} (hnamed : Named more) (hsub : versions.items.Sublist more.items)
    (h : planDependencies depth root versions ruleVersions purpose = .ok (some a, refs))
    (ht : tDecOf (some a) delay = .ok (some t))
    (hlate : ∀ p ∈ more.items, p ∉ versions.items → ∃ at', p.2.availableAt = some at' ∧ t.instant ≤ at')
    (hapart : ∀ p ∈ more.items, p ∉ versions.items → ¬ Joins root versions refs p) :
    planDependencies depth root more ruleVersions purpose = .ok (some a, refs) := by
  obtain ⟨checks, hchecks, hclosure⟩ := bind_ok h
  have hl : Later root versions more refs a := by
    refine ⟨hnamed, hsub, fun p hp hnot => ?_, hapart⟩
    obtain ⟨at', hat, hle⟩ := hlate p hp hnot
    exact ⟨at', hat, (tDecOf_after ht).trans_le hle⟩
  rw [planDependencies, hchecks, ok_bind]
  exact dependencyClosure_agree hclosure (hl.planNodes hclosure)

/-! ## A proposal that answers a question

The proposal carries a chart and is in an album; a day later the question and another
chart of the album come. -/

/-- 2024-03-04 08:31 UTC. -/
def morning : Instant := 63845137860000000

def day : Nat := 86400 * 1000000

def frozenRules : OrderedDict String String := .ofList [("lifecycle", "v1")]

def proposal : Plan :=
  ⟨"plan", "extract", "proposal", some morning, some ⟨some 60000, some 60000, some "price"⟩, some 59000,
    none, none, none⟩

def question : MessageVersion := ⟨some ⟨some 7, some 1⟩, some 7, none, none, none, some (morning - day)⟩

def answer : MessageVersion := ⟨some ⟨some 7, some 2⟩, some 7, some 77, some 1, some ["chart"], some morning⟩

def received : Versions := .ofList [("question", question), ("proposal", answer)]

def receivedRefs : List String :=
  ["extract", "field:extract:entry", "field:extract:stop", "media:proposal:chart", "plan", "proposal",
    "question", "rule:lifecycle:v1"]

/-- An edit of the question and an answer to the proposal, both a day late. -/
def laterMessages : Versions := .ofList [("question", question),
  ("question-edited", { question with availableAt := some (morning + day) }), ("proposal", answer),
  ("reply", ⟨some ⟨some 7, some 4⟩, some 7, none, some 2, none, some (morning + day)⟩)]

theorem received_known :
    planDependencies 10 proposal received frozenRules "entry_decision" = .ok (some (.utc morning), receivedRefs) := by
  decide +kernel

/-- The frozen delay of a second after the morning. -/
def decided : Stamp := .utc (morning + 1000000)

theorem laterMessages_added {p : String × MessageVersion} (hp : p ∈ laterMessages.items)
    (hnot : p ∉ received.items) :
    p.2.availableAt = some (morning + day) ∧ p.2.groupedId = none ∧ p.1 ∉ receivedRefs ∧
      p.1 ≠ proposal.sourceVersionId := by
  have all : ∀ p ∈ laterMessages.items, p ∈ received.items ∨
      p.2.availableAt = some (morning + day) ∧ p.2.groupedId = none ∧ p.1 ∉ receivedRefs ∧
        p.1 ≠ proposal.sourceVersionId := by decide +kernel
  exact (all p hp).resolve_left hnot

theorem planDependencies_stable_laterMessages :
    planDependencies 10 proposal laterMessages frozenRules "entry_decision" =
      .ok (some (.utc morning), receivedRefs) := by
  have ht : tDecOf (some (.utc morning)) 1 = .ok (some decided) := by decide +kernel
  refine planDependencies_stable (by decide +kernel) (by decide +kernel) received_known ht ?_ ?_
  · intro p hp hnot
    exact ⟨morning + day, (laterMessages_added hp hnot).1, by decide +kernel⟩
  · intro p hp hnot hjoins
    obtain ⟨-, hgroup, hnamed, hsource⟩ := laterMessages_added hp hnot
    have hshares : ∀ (row : MessageVersion) (group : Int), row.sharesAlbum group p.2 = false := by
      intro row group
      simp [MessageVersion.sharesAlbum, hgroup]
    cases hjoins with
    | named h => exact h.elim hnamed hsource
    | sourceAlbum _ _ h => exact absurd h (by simp [hshares])
    | albumMedia _ _ _ h _ => exact absurd h (by simp [hshares])
    | @parent ref row parent href hrow hparent _ _ hwaits =>
      -- the only reply knew the question it answers
      have hanswer : ∀ q ∈ received.items, q.2.replyToMessageId = none ∨ q.2 = answer := by decide +kernel
      rcases hanswer (ref, row) (OrderedDict.mem_items.mpr hrow) with hnone | heq
      · exact absurd (hparent.symm.trans hnone) nofun
      · have hrow : row = answer := heq
        subst hrow
        have hparent : parent = 1 := (Option.some.inj hparent).symm
        subst hparent
        exact absurd (hwaits ("question", question) (by decide +kernel)) (by decide +kernel)

/-- A chart of the album that comes a day late. -/
def lateChart : MessageVersion :=
  ⟨some ⟨some 7, some 3⟩, some 7, some 77, none, some ["late"], some (morning + day)⟩

def withLateChart : Versions := received.set "late-chart" lateChart

/-- The album is waited for: the chart moves the decision by a day. -/
theorem late_chart_moves_decision :
    Named withLateChart ∧ received.items.Sublist withLateChart.items ∧
      planDependencies 10 proposal received frozenRules "entry_decision" =
        .ok (some (.utc morning), receivedRefs) ∧
      tDecOf (some (.utc morning)) 1 = .ok (some decided) ∧
      (∀ p ∈ withLateChart.items, p ∉ received.items → p.2 = lateChart) ∧
      lateChart.availableAt = some (morning + day) ∧ decided.instant ≤ (morning + day : Nat) ∧
      (planDependencies 10 proposal withLateChart frozenRules "entry_decision").map (·.1) =
        .ok (some (.utc (morning + day))) := by
  refine ⟨?_, ?_, received_known, ?_⟩ <;> decide +kernel

end TraderBot.DecisionGraph
