import TraderBot.DuplicateGroups.Uncalibrated

/-! # Groups as components

Copies are declared between any two versions of one content,
  but tested with the first version of each content
only. The groups are the components of the declared relation exactly as long as the versions that are not linked
with the first one are connected otherwise. Versions that are appended only add links. -/
namespace TraderBot.DuplicateGroups
open TraderBot.Lib TraderBot.Lib.Text

/-! ## The declared relation -/

/-- Different messages of one channel at most the window apart. -/
def Repost (a b : MessageVersion) : Prop :=
  a.channelId = b.channelId ∧ a.messageId ≠ b.messageId ∧
    ∃ ta tb, a.availableAt = some ta ∧ b.availableAt = some tb ∧ (tb - ta).natAbs ≤ repostWindow

/-- Two versions of one content and media, in different channels or reposted. -/
def ExactCopy (a b : MessageVersion) : Prop :=
  (∃ key, contentKey a = some key ∧ contentKey b = some key) ∧ (a.channelId ≠ b.channelId ∨ Repost a b)

/-- The four kinds of links between versions. -/
def Declared (rt : Runtime) (rows : List MessageVersion) (x y : String) : Prop :=
  (∃ a ∈ rows, ∃ b ∈ rows, ExactCopy a b ∧ a.sourceVersionId = x ∧ b.sourceVersionId = y) ∨
    (∃ r ∈ rows, forwardLink rows r = some (x, y)) ∨ Near rt rows x y

/-- A version that is not linked with the first one of its content. -/
def Skipped (rows : List MessageVersion) (r : MessageVersion) : Prop :=
  ∃ key head rest, rows.filter (contentKey · = some key) = head :: rest ∧ r ∈ rest ∧ ¬ ExactCopy head r

/-- Where one of two copies was not linked with the first one, links that were tested connect them. -/
def HeadsSuffice (rt : Runtime) (rows : List MessageVersion) : Prop :=
  ∀ a ∈ rows, ∀ b ∈ rows, ExactCopy a b → (Skipped rows a ∨ Skipped rows b) →
    Relation.EqvGen (Linked rt rows) a.sourceVersionId b.sourceVersionId

section
variable {rt : Runtime} {rows more : List MessageVersion} {a b : MessageVersion} {x y : String}

/-- What the code tests of two versions of one content. -/
theorem exactKind_isSome_iff {head r : MessageVersion} :
    (exactKind head r).isSome ↔ head.channelId ≠ r.channelId ∨ Repost head r := by
  unfold exactKind MessageVersion.sameSource Repost
  by_cases hchannel : r.channelId = head.channelId
  · by_cases hmessage : r.messageId = head.messageId
    · simp [hchannel, hmessage]
    · simp only [hchannel, hmessage, decide_true, decide_false, Bool.and_false, Bool.false_eq_true, if_false, if_true]
      cases hh : head.availableAt with
      | none => simp
      | some ha =>
        cases hr : r.availableAt with
        | none => simp
        | some ra =>
          dsimp only
          split_ifs with hwindow
          · simpa [Ne.symm hmessage] using hwindow
          · simpa [Ne.symm hmessage] using hwindow
  · simp [hchannel, Ne.symm hchannel]

/-- The tested links of a content are the declared ones with its first version. -/
theorem exactLinked_iff : (∃ pair ∈ bucketPairs rows, exactLink pair = some (x, y)) ↔
    ∃ key head rest, rows.filter (contentKey · = some key) = head :: rest ∧ ∃ r ∈ rest, ExactCopy head r ∧
      head.sourceVersionId = x ∧ r.sourceVersionId = y := by
  have hcopy : ∀ {key head rest}, rows.filter (contentKey · = some key) = head :: rest → ∀ r ∈ rest,
      (ExactCopy head r ↔ (exactKind head r).isSome) := by
    intro key head rest hrows r hr
    have hkey : ∀ q ∈ head :: rest, contentKey q = some key := by
      intro q hq
      rw [← hrows] at hq
      exact of_decide_eq_true (List.mem_filter.mp hq).2
    rw [exactKind_isSome_iff]
    exact and_iff_right ⟨key, hkey head List.mem_cons_self, hkey r (List.mem_cons_of_mem _ hr)⟩
  constructor
  · rintro ⟨⟨head, r⟩, hpair, hlink⟩
    obtain ⟨key, rest, hrows, hr⟩ := mem_bucketPairs.mp hpair
    obtain ⟨kind, hkind, heq⟩ := Option.map_eq_some_iff.mp hlink
    cases heq
    exact ⟨key, head, rest, hrows, r, hr, (hcopy hrows r hr).mpr (Option.isSome_iff_exists.mpr ⟨kind, hkind⟩), rfl, rfl⟩
  · rintro ⟨key, head, rest, hrows, r, hr, hlinked, rfl, rfl⟩
    obtain ⟨kind, hkind⟩ := Option.isSome_iff_exists.mp ((hcopy hrows r hr).mp hlinked)
    exact ⟨(head, r), mem_bucketPairs.mpr ⟨key, rest, hrows, hr⟩, Option.map_eq_some_iff.mpr ⟨kind, hkind, rfl⟩⟩

theorem linked_declared (h : Linked rt rows x y) : Declared rt rows x y := by
  rcases h with (hexact | hforward) | hnear
  · obtain ⟨key, head, rest, hrows, r, hr, hcopy, rfl, rfl⟩ := exactLinked_iff.mp hexact
    have hmem : ∀ q ∈ head :: rest, q ∈ rows := fun q hq => List.mem_of_mem_filter (hrows ▸ hq)
    exact .inl ⟨head, hmem _ List.mem_cons_self, r, hmem _ (List.mem_cons_of_mem _ hr), hcopy, rfl, rfl⟩
  · exact .inr (.inl hforward)
  · exact .inr (.inr hnear)

/-- A version of a content is the first one, linked with it, or skipped. -/
theorem head_cases {key : String × List String} (ha : a ∈ rows) (hkey : contentKey a = some key) :
    ∃ head rest, rows.filter (contentKey · = some key) = head :: rest ∧
      (Relation.EqvGen (Linked rt rows) head.sourceVersionId a.sourceVersionId ∨ Skipped rows a) := by
  have hmem : a ∈ rows.filter (contentKey · = some key) := List.mem_filter.mpr ⟨ha, decide_eq_true hkey⟩
  cases hrows : rows.filter (contentKey · = some key) with
  | nil =>
    rw [hrows] at hmem
    cases hmem
  | cons head rest =>
    refine ⟨head, rest, rfl, ?_⟩
    rw [hrows] at hmem
    rcases List.mem_cons.mp hmem with rfl | hmem
    · exact .inl (.refl _)
    · by_cases hcopy : ExactCopy head a
      · exact .inl (.rel _ _ (.inl (.inl (exactLinked_iff.mpr ⟨key, head, rest, hrows, a, hmem, hcopy, rfl, rfl⟩))))
      · exact .inr ⟨key, head, rest, hrows, hmem, hcopy⟩

/-- Copies that are both linked with the first one are connected. -/
theorem connected_of_heads (ha : a ∈ rows) (hb : b ∈ rows) (hcopy : ExactCopy a b)
    (hskipped : ¬ (Skipped rows a ∨ Skipped rows b)) :
    Relation.EqvGen (Linked rt rows) a.sourceVersionId b.sourceVersionId := by
  obtain ⟨⟨key, hka, hkb⟩, -⟩ := hcopy
  obtain ⟨head, rest, hrows, hlinked | hskip⟩ := @head_cases rt _ _ _ ha hka
  · obtain ⟨head', rest', hrows', hlinked' | hskip'⟩ := @head_cases rt _ _ _ hb hkb
    · rw [hrows] at hrows'
      cases hrows'
      exact (hlinked.symm _ _).trans _ _ _ hlinked'
    · exact absurd (.inr hskip') hskipped
  · exact absurd (.inl hskip) hskipped

/-- **The tested links have the components of the declared ones iff the first versions suffice.** -/
theorem components_iff_headsSuffice : (∀ r ∈ rows, ∀ q ∈ rows,
    Relation.EqvGen (Linked rt rows) r.sourceVersionId q.sourceVersionId ↔
      Relation.EqvGen (Declared rt rows) r.sourceVersionId q.sourceVersionId) ↔ HeadsSuffice rt rows := by
  constructor
  · intro h a ha b hb hcopy _
    exact (h a ha b hb).mpr (.rel _ _ (.inl ⟨a, ha, b, hb, hcopy, rfl, rfl⟩))
  · intro h r _ q _
    refine ⟨fun hlinked => hlinked.mono fun _ _ => linked_declared, ?_⟩
    generalize r.sourceVersionId = x, q.sourceVersionId = y
    intro hdeclared
    induction hdeclared with
    | rel x y hxy =>
      rcases hxy with ⟨a, ha, b, hb, hcopy, rfl, rfl⟩ | hforward | hnear
      · by_cases hskipped : Skipped rows a ∨ Skipped rows b
        · exact h a ha b hb hcopy hskipped
        · exact connected_of_heads ha hb hcopy hskipped
      · exact .rel _ _ (.inl (.inr hforward))
      · exact .rel _ _ (.inr hnear)
    | refl x => exact .refl x
    | symm _ _ _ ih => exact ih.symm
    | trans _ _ _ _ _ ih ih' => exact ih.trans _ _ _ ih'

/-! ## Appended versions -/

variable {α : Type} (r : α → α → Prop) {xs ys : List α}

theorem orderedInsert_append [DecidableRel r] {z : α} (h : ∀ b ∈ ys, r z b) :
    (xs ++ ys).orderedInsert r z = xs.orderedInsert r z ++ ys := by
  induction xs with
  | nil =>
    cases ys with
    | nil => rfl
    | cons b ys => exact if_pos (h b List.mem_cons_self)
  | cons a xs ih =>
    rw [List.cons_append, List.orderedInsert_cons, List.orderedInsert_cons, ih]
    split_ifs <;> rfl

theorem insertionSort_append [DecidableRel r] (h : ∀ a ∈ xs, ∀ b ∈ ys, r a b) :
      (xs ++ ys).insertionSort r = xs.insertionSort r ++ ys.insertionSort r := by
  induction xs with
  | nil => rfl
  | cons a xs ih =>
    rw [List.cons_append, List.insertionSort_cons, List.insertionSort_cons,
      ih fun a' ha' => h a' (List.mem_cons_of_mem _ ha')]
    exact orderedInsert_append r fun b hb => h a List.mem_cons_self b ((List.mem_insertionSort r).mp hb)

/-- A table with versions appended, whose messages sort after all there were. -/
def Appends (mv mv' : MessageVersions) : Prop :=
  ∃ more, mv'.rows = mv.rows ++ more ∧
    ∀ a ∈ mv.rows, ∀ b ∈ more, a.messageType = "message" → b.messageType = "message" →
    rowLe a b = true

theorem Appends.base_eq {mv mv' : MessageVersions} (h : Appends mv mv') :
    ∃ more, base mv' = base mv ++ more := by
  obtain ⟨more, hrows, hafter⟩ := h
  unfold base
  rw [hrows, List.filter_append]
  refine ⟨_, insertionSort_append _ fun a ha b hb => ?_⟩
  obtain ⟨ha, hatype⟩ := List.mem_filter.mp ha
  obtain ⟨hb, hbtype⟩ := List.mem_filter.mp hb
  exact hafter a ha b hb (of_decide_eq_true hatype) (of_decide_eq_true hbtype)

theorem mem_pairs_append {pair : α × α} (h : pair ∈ pairs xs) : pair ∈ pairs (xs ++ ys) := by
  induction xs with
  | nil => cases h
  | cons a xs ih =>
    refine List.mem_append.mpr ((List.mem_append.mp h).imp (fun hhead => ?_) ih)
    show pair ∈ (xs ++ ys).map _
    rw [List.map_append]
    exact List.mem_append_left _ hhead

/-- A link stays when versions are appended. -/
theorem Linked.append (h : Linked rt rows x y) : Linked rt (rows ++ more) x y := by
  rcases h with (⟨pair, hpair, hlink⟩ | ⟨r, hr, hlink⟩) | ⟨pair, hpair, hlink⟩
  · obtain ⟨key, rest, hrows, hr⟩ := mem_bucketPairs.mp hpair
    refine .inl (.inl ⟨pair, mem_bucketPairs.mpr ⟨key, rest ++ more.filter (contentKey · = some key), ?_, ?_⟩, hlink⟩)
    · rw [List.filter_append, hrows, List.cons_append]
    · exact List.mem_append_left _ hr
  · refine .inl (.inr ⟨r, List.mem_append_left _ hr, ?_⟩)
    obtain ⟨f, hf, hlink⟩ := Option.bind_eq_some_iff.mp hlink
    obtain ⟨o, ho, heq⟩ := Option.map_eq_some_iff.mp hlink
    refine Option.bind_eq_some_iff.mpr ⟨f, hf, Option.map_eq_some_iff.mpr ⟨o, ?_, heq⟩⟩
    -- the first version of a message stays the first
    unfold resolve at ho ⊢
    split at ho
    · obtain ⟨q, hq, rfl⟩ := Option.map_eq_some_iff.mp ho
      rw [List.find?_append, hq]
      rfl
    · cases ho
  · refine .inr ⟨pair, ?_, hlink⟩
    unfold nearPairs at hpair ⊢
    rw [List.filter_append]
    exact mem_pairs_append hpair

end

/-! ## The groups of a table -/

/-- No two versions give their groups one name. -/
def NamesApart (rt : Runtime) (mv : MessageVersions) : Prop :=
  ∀ a ∈ base mv, ∀ b ∈ base mv, groupId rt a.sourceVersionId = groupId rt b.sourceVersionId →
    a.sourceVersionId = b.sourceVersionId

/-- One group for each component. -/
def Components (rt : Runtime) (rows : List MessageVersion) (groups : List DuplicateGroup) : Prop :=
  ∀ a ∈ groups, ∀ b ∈ groups, a.duplicateGroupId = b.duplicateGroupId ↔
    Relation.EqvGen (Declared rt rows) a.sourceVersionId b.sourceVersionId

/-- Versions that are appended separate none of one group, and the group of the earliest one keeps its name. -/
def OnlyCoarsens (rt : Runtime) (mv : MessageVersions) (groups : List DuplicateGroup) : Prop :=
  ∀ ingestedAt mv', Appends mv mv' → NamesApart rt mv' → ∃ groups', dedupFrame rt ingestedAt mv' =
    some groups' ∧
    (∀ a ∈ groups, ∀ b ∈ groups, a.duplicateGroupId = b.duplicateGroupId →
      ∀ a' ∈ groups', ∀ b' ∈ groups', a'.sourceVersionId = a.sourceVersionId → b'.sourceVersionId =
        b.sourceVersionId →
        a'.duplicateGroupId = b'.duplicateGroupId) ∧
    ∀ e ∈ groups.head?, ∀ a ∈ groups, a.duplicateGroupId = e.duplicateGroupId →
      ∀ a' ∈ groups', a'.sourceVersionId = a.sourceVersionId → a'.duplicateGroupId = e.duplicateGroupId

section
variable {rt : Runtime} {ingestedAt : Int} {mv : MessageVersions}

/-- Two versions have one group name iff tested links connect them; the earliest one names its group. -/
theorem dedupFrame_ids (hnames : NamesApart rt mv) : ∃ groups, dedupFrame rt ingestedAt mv = some groups ∧
    groups.map (·.sourceVersionId) = (base mv).map (·.sourceVersionId) ∧
    (∀ a ∈ groups, ∀ b ∈ groups, a.duplicateGroupId = b.duplicateGroupId ↔
      Relation.EqvGen (Linked rt (base mv)) a.sourceVersionId b.sourceVersionId) ∧
    ∀ e ∈ groups.head?, e.duplicateGroupId = groupId rt e.sourceVersionId := by
  obtain ⟨first, hrun, hmem, hclass, hhead⟩ := dedupFrame_groups rt ingestedAt mv
  refine ⟨_, hrun, ?_, ?_, fun e he => ?_⟩
  · rw [List.map_map]
    rfl
  · intro a ha b hb
    obtain ⟨r, hr, rfl⟩ := List.mem_map.mp ha
    obtain ⟨q, hq, rfl⟩ := List.mem_map.mp hb
    obtain ⟨r', hr', hfr⟩ := List.mem_map.mp (hmem r hr)
    obtain ⟨q', hq', hfq⟩ := List.mem_map.mp (hmem q hq)
    refine Iff.trans ⟨fun hids => ?_, fun hfirst => congrArg (groupId rt) hfirst⟩ (hclass r hr q hq)
    have hids : groupId rt (first r) = groupId rt (first q) := hids
    rw [← hfr, ← hfq] at hids ⊢
    exact hnames r' hr' q' hq' hids
  · rw [List.head?_map] at he
    obtain ⟨r, hr, rfl⟩ := Option.map_eq_some_iff.mp he
    exact congrArg (groupId rt) (hhead r hr)

/-- The groups of a table only coarsen, whatever was tested. -/
theorem onlyCoarsens {groups : List DuplicateGroup}
    (hids : groups.map (·.sourceVersionId) = (base mv).map (·.sourceVersionId))
    (hclass : ∀ a ∈ groups, ∀ b ∈ groups, a.duplicateGroupId = b.duplicateGroupId ↔
      Relation.EqvGen (Linked rt (base mv)) a.sourceVersionId b.sourceVersionId)
    (hhead : ∀ e ∈ groups.head?, e.duplicateGroupId = groupId rt e.sourceVersionId) :
      OnlyCoarsens rt mv groups := by
  intro ingestedAt mv' happends hnames
  obtain ⟨groups', hrun, hids', hclass', hhead'⟩ := @dedupFrame_ids rt ingestedAt _ hnames
  obtain ⟨more, hbase⟩ := happends.base_eq
  rw [hbase] at hids' hclass'
  have hstays : ∀ a ∈ groups, ∀ b ∈ groups, a.duplicateGroupId = b.duplicateGroupId →
      ∀ a' ∈ groups', ∀ b' ∈ groups', a'.sourceVersionId = a.sourceVersionId → b'.sourceVersionId =
        b.sourceVersionId →
        a'.duplicateGroupId = b'.duplicateGroupId := by
    intro a ha b hb hsame a' ha' b' hb' heqa heqb
    rw [hclass' a' ha' b' hb', heqa, heqb]
    exact ((hclass a ha b hb).mp hsame).mono fun _ _ => Linked.append
  refine ⟨groups', hrun, hstays, fun e he a ha hsame a' ha' heq => ?_⟩
  obtain ⟨rest, rfl⟩ := List.head?_eq_some_iff.mp he
  -- the earliest version is the earliest still
  cases hgroups' : groups' with
  | nil =>
    rw [hgroups'] at ha'
    cases ha'
  | cons e' rest' =>
    have hfirst : e'.sourceVersionId = e.sourceVersionId := by
      rw [hgroups', List.map_append, ← hids] at hids'
      exact (List.cons.inj hids').1
    have he' : e'.duplicateGroupId = groupId rt e'.sourceVersionId := hhead' e' (by rw [hgroups']; rfl)
    have hmem' : e' ∈ groups' := hgroups' ▸ List.mem_cons_self
    rw [hstays a ha e List.mem_cons_self hsame a' ha' e' hmem' heq hfirst, he', hfirst, hhead e rfl]

/-- **The groups are the components and only coarsen iff the first versions suffice.** -/
theorem copyGroups_iff (rt : Runtime) (ingestedAt : Int) (mv : MessageVersions)
    (hnames : NamesApart rt mv) :
    ∃ groups, dedupFrame rt ingestedAt mv = some groups ∧
      (Components rt (base mv) groups ∧ OnlyCoarsens rt mv groups ↔ HeadsSuffice rt (base mv)) := by
  obtain ⟨groups, hrun, hids, hclass, hhead⟩ := @dedupFrame_ids rt ingestedAt _ hnames
  refine ⟨groups, hrun, ?_⟩
  rw [and_iff_left (onlyCoarsens hids hclass hhead), ← components_iff_headsSuffice]
  constructor
  · intro h r hr q hq
    have hrow : ∀ p ∈ base mv, ∃ g ∈ groups, g.sourceVersionId = p.sourceVersionId := fun p hp =>
      List.mem_map.mp (hids ▸ List.mem_map_of_mem hp)
    obtain ⟨a, ha, heqa⟩ := hrow r hr
    obtain ⟨b, hb, heqb⟩ := hrow q hq
    rw [← heqa, ← heqb, ← hclass a ha b hb]
    exact h a ha b hb
  · intro h a ha b hb
    have hrow : ∀ g ∈ groups, ∃ p ∈ base mv, p.sourceVersionId = g.sourceVersionId := fun g hg =>
      List.mem_map.mp (hids ▸ List.mem_map_of_mem hg)
    obtain ⟨r, hr, heqr⟩ := hrow a ha
    obtain ⟨q, hq, heqq⟩ := hrow b hb
    rw [hclass a ha b hb, ← heqr, ← heqq]
    exact h r hr q hq

end

/-! ## Three reposts -/

/-- One text three times in a channel, each 60 hours after the one before. -/
def repostAt (version : String) (messageId : Int) (hours : Int) : MessageVersion :=
  { plainText version 1 "long BTC" (hours * 3600 * 1000000) with messageId := messageId }

def threeReposts : MessageVersions where
  rows := [repostAt "v1" 1 0, repostAt "v2" 2 60, repostAt "v3" 3 120]
  distinct := by decide

theorem copyGroups_iff_threeReposts : ∃ groups, dedupFrame threeTexts 0 threeReposts = some groups ∧
    (Components threeTexts (base threeReposts) groups ∧ OnlyCoarsens threeTexts threeReposts groups ↔
      HeadsSuffice threeTexts (base threeReposts)) :=
  copyGroups_iff threeTexts 0 threeReposts (by unfold NamesApart; decide +kernel)

def repostGroups : Option (List (String × String)) :=
  (dedupFrame threeTexts 0 threeReposts).map fun groups => groups.map fun g => (g.sourceVersionId, g.duplicateGroupId)

/-- The third is 60 hours after the second, but only the first was asked, 120 hours before. -/
theorem repost_of_repost_apart :
    repostGroups = some [("v1", "dg-68f37ced3814244e"), ("v2", "dg-68f37ced3814244e"),
      ("v3", "dg-bee136952d0f2e47")] ∧
    ∃ groups, dedupFrame threeTexts 0 threeReposts = some groups ∧
      ¬ Components threeTexts (base threeReposts) groups := by
  have hrun : repostGroups = some [("v1", "dg-68f37ced3814244e"), ("v2", "dg-68f37ced3814244e"),
      ("v3", "dg-bee136952d0f2e47")] := by decide +kernel
  refine ⟨hrun, ?_⟩
  obtain ⟨groups, hgroups, heq⟩ := Option.map_eq_some_iff.mp hrun
  refine ⟨groups, hgroups, fun h => ?_⟩
  obtain ⟨a, rest, rfl, ha, hrest⟩ := List.map_eq_cons_iff.mp heq
  obtain ⟨b, rest, rfl, hb, hrest⟩ := List.map_eq_cons_iff.mp hrest
  obtain ⟨c, rest, rfl, hc, -⟩ := List.map_eq_cons_iff.mp hrest
  simp only [Prod.mk.injEq] at hb hc
  have hbase : base threeReposts = threeReposts.rows := by decide +kernel
  have hcopy : ExactCopy (repostAt "v2" 2 60) (repostAt "v3" 3 120) := by
    refine ⟨⟨_, rfl, by decide⟩, .inr ⟨rfl, by decide, _, _, rfl, rfl, by decide⟩⟩
  have hlink : Declared threeTexts (base threeReposts) b.sourceVersionId c.sourceVersionId := by
    rw [hb.1, hc.1, hbase]
    exact .inl ⟨_, by simp [threeReposts], _, by simp [threeReposts], hcopy, rfl, rfl⟩
  have hsame := (h b (by simp) c (by simp)).mpr (.rel _ _ hlink)
  rw [hb.2, hc.2] at hsame
  exact absurd hsame (by decide)

end TraderBot.DuplicateGroups
