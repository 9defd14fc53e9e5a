import TraderBot.DuplicateGroups.Model

/-! # Groups and uncalibrated links

One union-find holds the links of every kind, and a version is unusable only where its
own mark came from similarity. Two usable versions of one group are then joined without
similarity exactly as long as each similar pair goes back to one exact group: from a
version that is no copy, back to the earlier ones it resembles. -/
namespace TraderBot.DuplicateGroups
open TraderBot.Lib TraderBot.Lib.Text

/-! ## Going back -/

section
variable {α : Type} {link sourced follows : α → α → Prop} {x y : α}

/-- Nothing that it goes back to. -/
def Anchor (follows : α → α → Prop) (x : α) : Prop := ∀ y, ¬ follows x y

/-- The last of a way back. -/
def GoesBack (follows : α → α → Prop) (x y : α) : Prop :=
  Relation.ReflTransGen follows x y ∧ Anchor follows y

theorem GoesBack.self (h : Anchor follows x) : GoesBack follows x x := ⟨.refl, h⟩

theorem GoesBack.of_anchor (hx : Anchor follows x) (h : GoesBack follows x y) : y = x := by
  rcases h.1.cases_head with h | ⟨z, hz, -⟩
  · exact h.symm
  · exact absurd hz (hx z)

/-- Both ends of every link go back to one class of the sourced links. -/
def OneSource (link sourced follows : α → α → Prop) : Prop :=
  ∀ a b, link a b → ∀ x y, GoesBack follows a x → GoesBack follows b y → Relation.EqvGen sourced x y

theorem eqvGen_of_oneSource (hfollows : ∀ x y, follows x y → link x y ∨ link y x)
    (hback : ∀ x, ∃ y, GoesBack follows x y) (h : OneSource link sourced follows)
    (hlinked : Relation.EqvGen link x y) :
    ∀ x' y', GoesBack follows x x' → GoesBack follows y y' → Relation.EqvGen sourced x' y' := by
  induction hlinked with
  | rel a b hab => exact h a b hab
  | refl a =>
    intro x' y' hx hy
    rcases hx.1.cases_head with rfl | ⟨z, haz, -⟩
    · rw [hy.of_anchor hx.2]
      exact .refl _
    · -- both ways go on from a link of `a`
      obtain ⟨t, ht⟩ := hback z
      rcases hfollows a z haz with hlink | hlink
      · exact (h a z hlink x' t hx ht).trans _ _ _ ((h a z hlink y' t hy ht).symm _ _)
      · exact ((h z a hlink t x' ht hx).symm _ _).trans _ _ _ (h z a hlink t y' ht hy)
  | symm a b _ ih => exact fun x' y' hx hy => (ih y' x' hy hx).symm _ _
  | trans a b c _ _ ih ih' =>
    intro x' y' hx hy
    obtain ⟨t, ht⟩ := hback b
    exact (ih x' t hx ht).trans _ _ _ (ih' t y' ht hy)

theorem eqvGen_of_reflTransGen (hfollows : ∀ x y, follows x y → link x y ∨ link y x)
    (h : Relation.ReflTransGen follows x y) : Relation.EqvGen link x y := by
  induction h with
  | refl => exact .refl x
  | tail _ hyz ih =>
    rcases hfollows _ _ hyz with hlink | hlink
    · exact ih.trans _ _ _ (.rel _ _ hlink)
    · exact ih.trans _ _ _ (.symm _ _ (.rel _ _ hlink))

/-- Anchors of one class of all links are in one class of the sourced ones iff each link
goes back to one source. -/
theorem anchors_iff_oneSource (hfollows : ∀ x y, follows x y → link x y ∨ link y x)
    (hback : ∀ x, ∃ y, GoesBack follows x y) :
    (∀ x y, Anchor follows x → Anchor follows y → Relation.EqvGen link x y → Relation.EqvGen sourced x y) ↔
      OneSource link sourced follows := by
  refine ⟨fun h a b hab x y hx hy => ?_, fun h x y hx hy hxy => ?_⟩
  · refine h x y hx.2 hy.2 ?_
    have hax := eqvGen_of_reflTransGen hfollows hx.1
    have hby := eqvGen_of_reflTransGen hfollows hy.1
    exact ((hax.symm _ _).trans _ _ _ (.rel _ _ hab)).trans _ _ _ hby
  · exact eqvGen_of_oneSource hfollows hback h hxy x y (.self hx) (.self hy)

/-- A way back that gets earlier among finitely many ends. -/
theorem goesBack_of_earlier {β L : Type} [LinearOrder L] (xs : List β) (id : β → α) (key : β → L)
    (h : ∀ x y, follows x y → ∃ a ∈ xs, ∃ b ∈ xs, id a = x ∧ id b = y ∧ key b < key a)
    (hid : ∀ a ∈ xs, ∀ b ∈ xs, id a = id b → a = b) (x : α) : ∃ y, GoesBack follows x y := by
  have below : ∀ n, ∀ a ∈ xs, xs.countP (fun b => key b < key a) = n → ∃ y, GoesBack follows (id a) y := by
    intro n
    induction n using Nat.strongRecOn with
    | ind n ih =>
      intro a ha hn
      by_cases hanchor : Anchor follows (id a)
      · exact ⟨_, .self hanchor⟩
      · unfold Anchor at hanchor
        push Not at hanchor
        obtain ⟨z, hz⟩ := hanchor
        obtain ⟨a', ha', b, hb, haa, rfl, hlt⟩ := h _ z hz
        rw [hid a' ha' a ha haa] at hlt
        have hfewer : xs.countP (fun c => key c < key b) < n := by
          rw [← hn, List.countP_eq_length_filter, List.countP_eq_length_filter]
          have hsub : (xs.filter fun c => key c < key b) =
              (xs.filter fun c => key c < key a).filter fun c => key c < key b := by
            rw [List.filter_filter]
            refine List.filter_congr fun c _ => ?_
            rw [← Bool.decide_and]
            exact decide_eq_decide.mpr ⟨fun hc => ⟨hc, hc.trans hlt⟩, fun hc => hc.1⟩
          have hmem : b ∈ xs.filter fun c => key c < key a := List.mem_filter.mpr ⟨hb, decide_eq_true hlt⟩
          rw [hsub]
          exact List.length_filter_lt_length_iff_exists.mpr ⟨b, hmem, by simp⟩
        obtain ⟨y, hy⟩ := ih _ hfewer b hb rfl
        exact ⟨y, .head hz hy.1, hy.2⟩
  by_cases hanchor : Anchor follows x
  · exact ⟨x, .self hanchor⟩
  · unfold Anchor at hanchor
    push Not at hanchor
    obtain ⟨z, hz⟩ := hanchor
    obtain ⟨a, ha, -, -, rfl, -, -⟩ := h x z hz
    exact below _ a ha rfl

end

/-! ## The links -/

def ids (pair : MessageVersion × MessageVersion) : String × String :=
  (pair.1.sourceVersionId, pair.2.sourceVersionId)

def exactLink (pair : MessageVersion × MessageVersion) : Option (String × String) :=
  (exactKind pair.1 pair.2).map fun _ => ids pair

def forwardLink (rows : List MessageVersion) (r : MessageVersion) : Option (String × String) :=
  r.forwardFrom.bind fun f => (resolve rows f).map fun o => (o, r.sourceVersionId)

def nearLink (rt : Runtime) (pair : MessageVersion × MessageVersion) : Option (String × String) :=
  if nearAlike rt pair.1 pair.2 then some (ids pair) else none

/-- An exact content or a resolved forward: the second is a copy of the first. -/
def Sourced (rows : List MessageVersion) (o s : String) : Prop :=
  (∃ pair ∈ bucketPairs rows, exactLink pair = some (o, s)) ∨ ∃ r ∈ rows, forwardLink rows r = some (o, s)

def Near (rt : Runtime) (rows : List MessageVersion) (a b : String) : Prop :=
  ∃ pair ∈ nearPairs rt rows, nearLink rt pair = some (a, b)

def Linked (rt : Runtime) (rows : List MessageVersion) (a b : String) : Prop :=
    Sourced rows a b ∨ Near rt rows a b

def Copy (rows : List MessageVersion) (s : String) : Prop := ∃ o, Sourced rows o s

def earlier (ingestedAt : Int) (pair : MessageVersion × MessageVersion) : MessageVersion :=
  if inOrder ingestedAt pair then pair.1 else pair.2

/-- The first is no copy, and the later one of a pair that is near. -/
def Follows (rt : Runtime) (ingestedAt : Int) (rows : List MessageVersion) (x y : String) : Prop :=
  ¬ Copy rows x ∧ ∃ pair ∈ nearPairs rt rows, nearAlike rt pair.1 pair.2 = true ∧
    (later ingestedAt pair).sourceVersionId = x ∧ (earlier ingestedAt pair).sourceVersionId = y

section
variable {rt : Runtime} {ingestedAt : Int} {rows : List MessageVersion} {x y : String}

theorem linked_of_follows (h : Follows rt ingestedAt rows x y) :
    Linked rt rows x y ∨ Linked rt rows y x := by
  obtain ⟨-, pair, hpair, halike, rfl, rfl⟩ := h
  have hlink : nearLink rt pair = some (ids pair) := if_pos halike
  unfold later earlier
  split_ifs
  · exact .inr (.inr ⟨pair, hpair, hlink⟩)
  · exact .inl (.inr ⟨pair, hpair, hlink⟩)

theorem pairs_idxOf {α : Type} [DecidableEq α] {xs : List α} (h : xs.Nodup) {pair : α × α}
    (hpair : pair ∈ pairs xs) :
    pair.1 ∈ xs ∧ pair.2 ∈ xs ∧ xs.idxOf pair.1 < xs.idxOf pair.2 := by
  induction xs with
  | nil => cases hpair
  | cons a rest ih =>
    rw [List.nodup_cons] at h
    rcases List.mem_append.mp hpair with hhead | htail
    · obtain ⟨b, hb, rfl⟩ := List.mem_map.mp hhead
      have hba : b ≠ a := fun hba => h.1 (hba ▸ hb)
      refine ⟨List.mem_cons_self, List.mem_cons_of_mem a hb, ?_⟩
      rw [List.idxOf_cons_self, List.idxOf_cons_ne _ hba.symm]
      exact Nat.succ_pos _
    · obtain ⟨h1, h2, hlt⟩ := ih h.2 htail
      have hne : ∀ {b}, b ∈ rest → b ≠ a := fun hb hba => h.1 (hba ▸ hb)
      refine ⟨List.mem_cons_of_mem a h1, List.mem_cons_of_mem a h2, ?_⟩
      rw [List.idxOf_cons_ne _ (hne h1).symm, List.idxOf_cons_ne _ (hne h2).symm]
      exact Nat.succ_lt_succ hlt

theorem exists_goesBack (hrows : (rows.map (·.sourceVersionId)).Nodup) (x : String) :
    ∃ y, GoesBack (Follows rt ingestedAt rows) x y := by
  have hcand : (rows.filter fun r => minNearChars ≤ (textKey rt r.text).length).Nodup :=
    hrows.of_map.filter _
  refine goesBack_of_earlier rows (·.sourceVersionId)
    (fun r => toLex (r.availableAt.getD ingestedAt,
      (rows.filter fun r => minNearChars ≤ (textKey rt r.text).length).idxOf r)) ?_
    (fun a ha b hb => List.inj_on_of_nodup_map hrows ha hb) x
  intro x y hxy
  obtain ⟨-, pair, hpair, -, rfl, rfl⟩ := hxy
  obtain ⟨h1, h2, hlt⟩ := pairs_idxOf hcand hpair
  have h1 := List.mem_of_mem_filter h1
  have h2 := List.mem_of_mem_filter h2
  unfold later earlier
  split_ifs with horder
  · refine ⟨_, h2, _, h1, rfl, rfl, ?_⟩
    have hle : pair.1.availableAt.getD ingestedAt ≤ pair.2.availableAt.getD ingestedAt :=
      of_decide_eq_true horder
    rw [Prod.Lex.toLex_lt_toLex]
    exact hle.lt_or_eq.imp id fun heq => ⟨heq, hlt⟩
  · refine ⟨_, h1, _, h2, rfl, rfl, ?_⟩
    have hgt : ¬ pair.1.availableAt.getD ingestedAt ≤ pair.2.availableAt.getD ingestedAt := fun hle =>
      horder (decide_eq_true hle)
    rw [Prod.Lex.toLex_lt_toLex]
    exact .inl (not_le.mp hgt)

/-! ## The ends of links are rows -/

/-- What the buckets go by; none without a text or a hash. -/
def contentKey (r : MessageVersion) : Option (String × List String) :=
  r.contentHash.bind fun hash => if r.text = "" then none else some (hash, r.mediaHashes.getD [])

/-- A bucket has the rows of its content, in their order. -/
theorem buckets_get? (rows : List MessageVersion) (key : String × List String) :
    (buckets rows).get? key =
      if rows.filter (contentKey · = some key) =
        [] then none else some (rows.filter (contentKey · = some key)) := by
  induction rows using List.reverseRecOn with
  | nil => rfl
  | append_singleton rows r ih =>
    have hstep : (buckets (rows ++ [r])).get? key =
        if contentKey r = some key then some (((buckets rows).get? key).getD [] ++ [r]) else (buckets rows).get? key := by
      unfold buckets contentKey
      rw [List.foldl_append]
      simp only [List.foldl_cons, List.foldl_nil]
      cases r.contentHash with
      | none => simp
      | some hash =>
        simp only [Option.bind_some]
        split_ifs with htext hkey hkey
        · cases hkey
        · rfl
        · cases hkey
          rw [OrderedDict.get?_set_self]
        · rw [OrderedDict.get?_set_ne fun heq => hkey (congrArg some heq.symm)]
    rw [hstep, ih, List.filter_append, List.filter_singleton]
    by_cases hr : contentKey r = some key
    · simp only [hr, if_true, decide_true, Bool.cond_true]
      rw [if_neg (List.append_ne_nil_of_right_ne_nil _ (List.cons_ne_nil _ _))]
      split_ifs with hnone
      · rw [hnone]
        rfl
      · rfl
    · simp [hr]

/-- A pair is the first row of a content with another one of it. -/
theorem mem_bucketPairs {pair : MessageVersion × MessageVersion} : pair ∈ bucketPairs rows ↔
    ∃ key rest, rows.filter (contentKey · = some key) = pair.1 :: rest ∧ pair.2 ∈ rest := by
  unfold bucketPairs
  rw [List.mem_flatMap]
  constructor
  · rintro ⟨members, hmembers, hpair⟩
    obtain ⟨key, hkey⟩ := OrderedDict.mem_values.mp hmembers
    rw [buckets_get?] at hkey
    split_ifs at hkey
    cases hkey
    cases hrows : rows.filter (contentKey · = some key) with
    | nil =>
      rw [hrows] at hpair
      cases hpair
    | cons head rest =>
      rw [hrows] at hpair
      obtain ⟨r, hr, rfl⟩ := List.mem_map.mp hpair
      exact ⟨key, rest, hrows, hr⟩
  · rintro ⟨key, rest, hrows, hr⟩
    refine ⟨pair.1 :: rest, OrderedDict.mem_values.mpr ⟨key, ?_⟩, List.mem_map.mpr ⟨pair.2, hr, rfl⟩⟩
    rw [buckets_get?, hrows, if_neg (List.cons_ne_nil _ _)]

theorem mem_of_bucketPairs {pair : MessageVersion × MessageVersion} (h : pair ∈ bucketPairs rows) :
    pair.1 ∈ rows ∧ pair.2 ∈ rows := by
  obtain ⟨key, rest, hrows, hr⟩ := mem_bucketPairs.mp h
  have hmem : ∀ r ∈ pair.1 :: rest, r ∈ rows := fun r hr => List.mem_of_mem_filter (hrows ▸ hr)
  exact ⟨hmem _ List.mem_cons_self, hmem _ (List.mem_cons_of_mem _ hr)⟩

theorem mem_of_pairs {α : Type} {xs : List α} {pair : α × α} (h : pair ∈ pairs xs) :
    pair.1 ∈ xs ∧ pair.2 ∈ xs := by
  induction xs with
  | nil => cases h
  | cons a rest ih =>
    rcases List.mem_append.mp h with hhead | htail
    · obtain ⟨b, hb, rfl⟩ := List.mem_map.mp hhead
      exact ⟨List.mem_cons_self, List.mem_cons_of_mem a hb⟩
    · exact (ih htail).imp (List.mem_cons_of_mem a) (List.mem_cons_of_mem a)

theorem mem_of_linked (h : Linked rt rows x y) :
    x ∈ rows.map (·.sourceVersionId) ∧ y ∈ rows.map (·.sourceVersionId) := by
  rcases h with (⟨pair, hpair, hlink⟩ | ⟨r, hr, hlink⟩) | ⟨pair, hpair, hlink⟩
  · obtain ⟨-, -, heq⟩ := Option.map_eq_some_iff.mp hlink
    cases heq
    exact (mem_of_bucketPairs hpair).imp (List.mem_map_of_mem ·) (List.mem_map_of_mem ·)
  · obtain ⟨f, -, hlink⟩ := Option.bind_eq_some_iff.mp hlink
    obtain ⟨o, ho, heq⟩ := Option.map_eq_some_iff.mp hlink
    cases heq
    refine ⟨?_, List.mem_map_of_mem hr⟩
    unfold resolve at ho
    split at ho
    · obtain ⟨q, hq, rfl⟩ := Option.map_eq_some_iff.mp ho
      exact List.mem_map_of_mem (List.mem_of_find?_eq_some hq)
    · cases ho
  · unfold nearLink at hlink
    split_ifs at hlink
    cases hlink
    have hcand := mem_of_pairs hpair
    exact ⟨List.mem_map_of_mem (List.mem_of_mem_filter hcand.1), List.mem_map_of_mem (List.mem_of_mem_filter hcand.2)⟩

theorem mem_of_eqvGen (h : Relation.EqvGen (Linked rt rows) x y) :
    x = y ∨ x ∈ rows.map (·.sourceVersionId) ∧ y ∈ rows.map (·.sourceVersionId) := by
  induction h with
  | rel _ _ h => exact .inr (mem_of_linked h)
  | refl => exact .inl rfl
  | symm _ _ _ ih => exact ih.imp Eq.symm And.symm
  | trans _ _ _ _ _ ih ih' =>
    rcases ih with rfl | ⟨hx, hy⟩
    · exact ih'
    · rcases ih' with rfl | ⟨-, hz⟩
      · exact .inr ⟨hx, hy⟩
      · exact .inr ⟨hx, hz⟩

/-! ## The marks -/

/-- Who came by a link with a source is marked so, and nobody as near. -/
def Marked (done : String → Prop) (pass : Pass) : Prop :=
  ∀ s, ((pass.marks s).dupKind = .none ↔ ¬ done s) ∧ (pass.marks s).dupKind ≠ .near

theorem Marked.foldl {β : Type} (step : Pass → β → Pass) (link : β → Option (String × String))
    (hother : ∀ pass item s, (∀ o, link item ≠ some (o, s)) →
      ((step pass item).marks s).dupKind = (pass.marks s).dupKind)
    (hcopy : ∀ pass item o s, link item = some (o, s) →
      ((step pass item).marks s).dupKind ≠ .none ∧ ((step pass item).marks s).dupKind ≠ .near)
    {done : String → Prop} {pass : Pass} (h : Marked done pass) (items : List β) :
    Marked (fun s => done s ∨ ∃ item ∈ items, ∃ o, link item = some (o, s)) (items.foldl step pass) := by
  induction items generalizing pass done with
  | nil =>
    intro s
    simpa using h s
  | cons item items ih =>
    have hnext : Marked (fun s => done s ∨ ∃ o, link item = some (o, s)) (step pass item) := by
      intro s
      by_cases hlink : ∃ o, link item = some (o, s)
      · obtain ⟨o, ho⟩ := hlink
        obtain ⟨hnone, hnear⟩ := hcopy pass item o s ho
        exact ⟨iff_of_false hnone fun hnot => hnot (.inr ⟨o, ho⟩), hnear⟩
      · rw [hother pass item s (not_exists.mp hlink)]
        exact ⟨(h s).1.trans (not_congr (or_iff_left hlink).symm), (h s).2⟩
    intro s
    have hs := ih hnext s
    simpa [or_assoc] using hs

theorem exactKind_ne {a b : MessageVersion} {kind : DupKind} (h : exactKind a b = some kind) :
    kind ≠ .none ∧ kind ≠ .near := by
  unfold exactKind at h
  split_ifs at h
  · split at h
    · split_ifs at h
      cases h
      decide
    · cases h
  · cases h
    decide

variable (pass : Pass) (pair : MessageVersion × MessageVersion) (s : String)
  {dsu : UnionFind String} {root : String → String}

theorem linkExact_dsu :
    (linkExact pass pair).dsu = (exactLink pair).elim pass.dsu fun l => pass.dsu.union l.1 l.2 := by
  unfold linkExact exactLink
  cases exactKind pair.1 pair.2 with
  | none => rfl
  | some kind => simp only [Pass.mark, Pass.union, ids, Option.map_some, Option.elim_some]

theorem linkForward_dsu (r : MessageVersion) :
    (linkForward rows pass r).dsu = (forwardLink rows r).elim pass.dsu fun l => pass.dsu.union l.1 l.2 := by
  unfold linkForward forwardLink
  cases r.forwardFrom with
  | none => rfl
  | some f =>
    dsimp only [Option.bind_some]
    cases resolve rows f with
    | none => rfl
    | some o => simp only [Pass.mark, Pass.union, Option.map_some, Option.elim_some]

theorem linkNear_dsu :
    (linkNear rt ingestedAt pass pair).dsu =
      (nearLink rt pair).elim pass.dsu fun l => pass.dsu.union l.1 l.2 := by
  unfold linkNear nearLink
  split_ifs
  · simp only [Pass.mark, Pass.union, ids, Option.elim_some]
  · rfl

/-- What the two loops over exact links and forwards leave. -/
def sourcedPass (rows : List MessageVersion) : Pass :=
  rows.foldl (linkForward rows) ((bucketPairs rows).foldl linkExact .start)

theorem linked_joins : (linked rt ingestedAt rows).dsu.Joins (Linked rt rows) := by
  have hstart : Pass.start.dsu.Joins fun _ _ => False := UnionFind.Joins.empty
  have hexact := UnionFind.Joins.foldl Pass.dsu linkExact exactLink linkExact_dsu hstart (bucketPairs rows)
  have hforward := UnionFind.Joins.foldl Pass.dsu (linkForward rows) (forwardLink rows) linkForward_dsu hexact rows
  have hnear := UnionFind.Joins.foldl Pass.dsu (linkNear rt ingestedAt) (nearLink rt) linkNear_dsu hforward
    (nearPairs rt rows)
  exact hnear.congr fun x y => by simp [Linked, Sourced, Near]

theorem sourcedPass_marked : Marked (Copy rows) (sourcedPass rows) := by
  have hstart : Marked (fun _ => False) .start := fun s => ⟨by simp [Pass.start, Mark.start], nofun⟩
  have hexact := Marked.foldl linkExact exactLink ?_ ?_ hstart (bucketPairs rows)
  have hforward := Marked.foldl (linkForward rows) (forwardLink rows) ?_ ?_ hexact rows
  · intro s
    have hs := hforward s
    have hcopy : Copy rows s ↔ (False ∨ ∃ pair ∈ bucketPairs rows, ∃ o, exactLink pair = some (o, s)) ∨
        ∃ r ∈ rows, ∃ o, forwardLink rows r = some (o, s) := by
      unfold Copy Sourced
      rw [exists_or, false_or]
      refine or_congr ⟨?_, ?_⟩ ⟨?_, ?_⟩
      all_goals
        rintro ⟨a, b, c, d⟩
        first | exact ⟨b, c, a, d⟩ | exact ⟨c, a, b, d⟩
    rw [hcopy]
    exact hs
  · intro pass r s hne
    unfold linkForward
    unfold forwardLink at hne
    cases hf : r.forwardFrom with
    | none => rfl
    | some f =>
      rw [hf, Option.bind_some] at hne
      dsimp only
      cases ho : resolve rows f with
      | none =>
        by_cases hs : s = r.sourceVersionId
        · simp [Pass.mark, hs]
        · simp [Pass.mark, Function.update_of_ne hs]
      | some o =>
        have hs : s ≠ r.sourceVersionId := by
          rintro rfl
          exact hne o (by rw [ho]; rfl)
        simp [Pass.mark, Pass.union, Function.update_of_ne hs]
  · intro pass r o s hlink
    unfold linkForward
    obtain ⟨f, hf, hlink⟩ := Option.bind_eq_some_iff.mp hlink
    obtain ⟨o', ho, heq⟩ := Option.map_eq_some_iff.mp hlink
    cases heq
    simp [hf, ho, Pass.mark, Pass.union]
  · intro pass pair s hne
    unfold linkExact
    unfold exactLink at hne
    cases hkind : exactKind pair.1 pair.2 with
    | none => rfl
    | some kind =>
      have hs : s ≠ pair.2.sourceVersionId := by
        rintro rfl
        exact hne pair.1.sourceVersionId (by rw [hkind]; rfl)
      simp [Pass.mark, Pass.union, Function.update_of_ne hs]
  · intro pass pair o s hlink
    unfold linkExact
    obtain ⟨kind, hkind, heq⟩ := Option.map_eq_some_iff.mp hlink
    cases heq
    simpa [hkind, Pass.mark, Pass.union] using exactKind_ne hkind

theorem linkNear_dupKind :
    ((linkNear rt ingestedAt pass pair).marks s).dupKind =
      if (pass.marks s).dupKind = .none ∧ nearAlike rt pair.1 pair.2 = true ∧
        (later ingestedAt pair).sourceVersionId = s then .near else (pass.marks s).dupKind := by
  unfold linkNear
  by_cases halike : nearAlike rt pair.1 pair.2 = true
  · rw [if_pos halike]
    by_cases hs : (later ingestedAt pair).sourceVersionId = s
    · subst hs
      by_cases hkind : (pass.marks (later ingestedAt pair).sourceVersionId).dupKind = .none
      · simp [Pass.mark, Pass.union, halike, hkind]
      · simp [Pass.mark, Pass.union, hkind]
    · simp [Pass.mark, Pass.union, Function.update_of_ne (Ne.symm hs), hs]
  · rw [if_neg halike, if_neg fun h => halike h.2.1]

/-- A version is near if it is no copy and the later one of some near pair. -/
theorem linked_near (done : String → Prop) {pass : Pass}
    (h : ∀ s, ((pass.marks s).dupKind = .near ↔ ¬ Copy rows s ∧ done s) ∧
      ((pass.marks s).dupKind = .none ↔ ¬ Copy rows s ∧ ¬ done s))
    (items : List (MessageVersion × MessageVersion)) (s : String) :
    ((items.foldl (linkNear rt ingestedAt) pass).marks s).dupKind = .near ↔
      ¬ Copy rows s ∧ (done s ∨ ∃ pair ∈ items, nearAlike rt pair.1 pair.2 = true ∧
        (later ingestedAt pair).sourceVersionId = s) := by
  induction items generalizing pass done with
  | nil => simpa using (h s).1
  | cons pair items ih =>
    have hnext : ∀ s, (((linkNear rt ingestedAt pass pair).marks s).dupKind = .near ↔ ¬ Copy rows s ∧
          (done s ∨ nearAlike rt pair.1 pair.2 = true ∧ (later ingestedAt pair).sourceVersionId = s)) ∧
        (((linkNear rt ingestedAt pass pair).marks s).dupKind = .none ↔ ¬ Copy rows s ∧
          ¬ (done s ∨ nearAlike rt pair.1 pair.2 = true ∧ (later ingestedAt pair).sourceVersionId = s)) := by
      intro s
      obtain ⟨hnear, hnone⟩ := h s
      rw [linkNear_dupKind]
      split_ifs with hnew
      · obtain ⟨hcopy, -⟩ := hnone.mp hnew.1
        simp [hcopy, hnew.2]
      · rw [hnear, hnone]
        rw [hnone] at hnew
        tauto
    rw [List.foldl_cons, ih _ hnext]
    simp [or_assoc]

theorem linked_usable : usable ((linked rt ingestedAt rows).marks s).dupKind = true ↔
    Anchor (Follows rt ingestedAt rows) s := by
  have hmarked : Marked (Copy rows) (sourcedPass rows) := sourcedPass_marked
  have hstart : ∀ s, (((sourcedPass rows).marks s).dupKind = .near ↔ ¬ Copy rows s ∧ False) ∧
      (((sourcedPass rows).marks s).dupKind = .none ↔ ¬ Copy rows s ∧ ¬ False) := by
    intro s
    simpa using ⟨(hmarked s).2, (hmarked s).1⟩
  have hnear : ((linked rt ingestedAt rows).marks s).dupKind = .near ↔ _ :=
    linked_near (fun _ => False) hstart (nearPairs rt rows) s
  have husable : ∀ kind, usable kind = true ↔ kind ≠ .near := by
    intro kind
    cases kind <;> decide
  rw [husable]
  refine (not_congr hnear).trans ⟨fun h y => ?_, fun h => ?_⟩
  · rintro ⟨hcopy, pair, hpair, halike, hlater, -⟩
    exact h ⟨hcopy, .inr ⟨pair, hpair, halike, hlater⟩⟩
  · rintro ⟨hcopy, hfalse | ⟨pair, hpair, halike, hlater⟩⟩
    · exact hfalse
    · exact h _ ⟨hcopy, pair, hpair, halike, hlater, rfl⟩

/-! ## The groups -/

theorem rootFirst_spec (rows : List MessageVersion) (h : UnionFind.Roots dsu.parent root) :
    UnionFind.Roots (rootFirst rows dsu).1.parent root ∧ ∀ k, (rootFirst rows dsu).2.get? k =
      (rows.find? fun r => root r.sourceVersionId = k).map (·.sourceVersionId) := by
  unfold rootFirst
  induction rows using List.reverseRecOn with
  | nil => exact ⟨h, fun k => rfl⟩
  | append_singleton rows r ih =>
    obtain ⟨hroots, hfirst⟩ := ih
    rw [List.foldl_append]
    obtain ⟨hroot, hnext⟩ := UnionFind.find_spec (x := r.sourceVersionId) hroots
    refine ⟨hnext, fun k => ?_⟩
    simp only [List.foldl_cons, List.foldl_nil]
    rw [OrderedDict.get?_setDefault, hroot, hfirst, hfirst, List.find?_append]
    split_ifs with hk
    · subst hk
      cases rows.find? fun q => root q.sourceVersionId = root r.sourceVersionId with
      | none => simp
      | some q => rfl
    · simp [Ne.symm hk]

theorem outRows_spec {marks : String → Mark} {firsts : OrderedDict String String}
    {first : MessageVersion → String} (h : UnionFind.Roots dsu.parent root)
    (hfirst : ∀ r ∈ rows, firsts.get? (root r.sourceVersionId) = some (first r)) :
    outRows rt ingestedAt marks firsts dsu rows =
      some (rows.map fun r => outRow rt ingestedAt (first r) (marks r.sourceVersionId) r) := by
  induction rows generalizing dsu with
  | nil => rfl
  | cons r rest ih =>
    obtain ⟨hroot, hnext⟩ := UnionFind.find_spec (x := r.sourceVersionId) h
    unfold outRows
    dsimp only
    rw [hroot, hfirst r List.mem_cons_self]
    dsimp only
    rw [ih hnext fun q hq => hfirst q (List.mem_cons_of_mem _ hq)]
    rfl

end

/-- The rows of the table: a version of each class gives its group the name. -/
theorem dedupFrame_groups (rt : Runtime) (ingestedAt : Int) (mv : MessageVersions) :
    ∃ first : MessageVersion → String,
      dedupFrame rt ingestedAt mv = some ((base mv).map fun r => outRow rt ingestedAt (first r)
        ((linked rt ingestedAt (base mv)).marks r.sourceVersionId) r) ∧
      (∀ r ∈ base mv, first r ∈ (base mv).map (·.sourceVersionId)) ∧
      (∀ r ∈ base mv, ∀ q ∈ base mv, first r = first q ↔
        Relation.EqvGen (Linked rt (base mv)) r.sourceVersionId q.sourceVersionId) ∧
      ∀ r ∈ (base mv).head?, first r = r.sourceVersionId := by
  have hjoins : (linked rt ingestedAt (base mv)).dsu.Joins (Linked rt (base mv)) := linked_joins
  obtain ⟨root, hroots, hclass⟩ := hjoins
  obtain ⟨hroots', hget⟩ := rootFirst_spec (base mv) hroots
  have hfirst : ∀ r ∈ base mv, ∃ q ∈ base mv, root q.sourceVersionId = root r.sourceVersionId ∧
      (rootFirst (base mv) (linked rt ingestedAt (base mv)).dsu).2.get? (root r.sourceVersionId) =
        some q.sourceVersionId := by
    intro r hr
    rw [hget]
    cases hfind : (base mv).find? fun q => root q.sourceVersionId = root r.sourceVersionId with
    | none => exact absurd (List.find?_eq_none.mp hfind r hr) (by simp)
    | some q => exact ⟨q, List.mem_of_find?_eq_some hfind, by simpa using List.find?_some hfind, rfl⟩
  refine ⟨fun r => ((rootFirst (base mv) (linked rt ingestedAt (base mv)).dsu).2.get?
    (root r.sourceVersionId)).getD "", ?_, fun r hr => ?_, fun r hr q hq => ?_, fun r hr => ?_⟩
  · have hall : ∀ r ∈ base mv, (rootFirst (base mv) (linked rt ingestedAt (base mv)).dsu).2.get?
        (root r.sourceVersionId) = some (((rootFirst (base mv) (linked rt ingestedAt (base mv)).dsu).2.get?
          (root r.sourceVersionId)).getD "") := by
      intro r hr
      obtain ⟨q, -, -, hq⟩ := hfirst r hr
      rw [hq, Option.getD_some]
    exact outRows_spec hroots' hall
  · obtain ⟨q, hq, -, hqget⟩ := hfirst r hr
    dsimp only
    rw [hqget]
    exact List.mem_map_of_mem hq
  · rw [← hclass]
    obtain ⟨r', -, hr', hrget⟩ := hfirst r hr
    obtain ⟨q', -, hq', hqget⟩ := hfirst q hq
    dsimp only
    constructor
    · intro heq
      rw [hrget, hqget, Option.getD_some, Option.getD_some] at heq
      rw [← hr', ← hq', heq]
    · intro heq
      rw [heq]
  · -- the first row of all is the first of its class
    obtain ⟨rest, hrest⟩ := List.head?_eq_some_iff.mp hr
    dsimp only
    rw [hget, hrest, List.find?_cons_of_pos (by simp)]
    rfl

/-- Two usable versions of one group are joined without a near link. -/
def KeptApart (rows : List MessageVersion) (groups : List DuplicateGroup) : Prop :=
  ∀ a ∈ groups, ∀ b ∈ groups, a.usableForCluster = true → b.usableForCluster = true →
    a.duplicateGroupId = b.duplicateGroupId → a.sourceVersionId ≠ b.sourceVersionId →
    Relation.EqvGen (Sourced rows) a.sourceVersionId b.sourceVersionId

/-- **Similarity merges no two usable versions iff every link goes back to one source.** -/
theorem keptApart_iff (rt : Runtime) (ingestedAt : Int) (mv : MessageVersions)
    (hgroup : ∀ a ∈ base mv, ∀ b ∈ base mv, groupId rt a.sourceVersionId = groupId rt b.sourceVersionId →
      a.sourceVersionId = b.sourceVersionId) :
    ∃ groups, dedupFrame rt ingestedAt mv = some groups ∧ (KeptApart (base mv) groups ↔
      OneSource (Linked rt (base mv)) (Sourced (base mv)) (Follows rt ingestedAt (base mv))) := by
  obtain ⟨first, hrun, hmem, hclass, -⟩ := dedupFrame_groups rt ingestedAt mv
  have hnodup : ((base mv).map (·.sourceVersionId)).Nodup :=
    ((mv.distinct.sublist (List.filter_sublist.map _)).perm ((List.perm_insertionSort _ _).map _).symm)
  refine ⟨_, hrun, Iff.trans ?_ (anchors_iff_oneSource (fun x y => linked_of_follows) (exists_goesBack hnodup))⟩
  constructor
  · intro h x y hx hy hxy
    rcases mem_of_eqvGen hxy with rfl | ⟨hxm, hym⟩
    · exact .refl x
    · obtain ⟨r, hr, rfl⟩ := List.mem_map.mp hxm
      obtain ⟨q, hq, rfl⟩ := List.mem_map.mp hym
      by_cases hne : r.sourceVersionId = q.sourceVersionId
      · rw [hne]
        exact .refl _
      · refine h _ (List.mem_map_of_mem hr) _ (List.mem_map_of_mem hq) ((linked_usable _).mpr hx)
          ((linked_usable _).mpr hy) ?_ hne
        exact congrArg (groupId rt) ((hclass r hr q hq).mpr hxy)
  · intro h a ha b hb hausable hbusable hsame _
    obtain ⟨r, hr, rfl⟩ := List.mem_map.mp ha
    obtain ⟨q, hq, rfl⟩ := List.mem_map.mp hb
    refine h _ _ ((linked_usable _).mp hausable) ((linked_usable _).mp hbusable) ((hclass r hr q hq).mp ?_)
    obtain ⟨r', hr', hfr⟩ := List.mem_map.mp (hmem r hr)
    obtain ⟨q', hq', hfq⟩ := List.mem_map.mp (hmem q hq)
    have hids : groupId rt (first r) = groupId rt (first q) := hsame
    rw [← hfr, ← hfq] at hids ⊢
    exact hgroup r' hr' q' hq' hids

/-! ## Three messages -/

/-- The digests and ratios of the texts below. -/
def threeTexts : Runtime where
  unicode := .ascii
  blake2b gram := match gram with
    | "aaa" => 788888220212982440
    | "aab" => 12431512523931871033
    | "abb" => 11740648402290243151
    | "bbb" => 8244403540460667423
    | "aac" => 15998229030359621281
    | "acc" => 2143541659386552004
    | "ccc" => 14518716979629024639
    | _ => 0
  ratio a b :=
    if a = b then 100
    else if a.length = 23 ∧ b.length = 23 then 1529755308210087 / 17592186044416
    else 409120605684093 / 4398046511104
  percent r := r / 100
  stableId id := match id with
    | "v1" => "68f37ced3814244edd15deeb6cb83ae8fe77180d5166777d724731f3e940804f"
    | "v2" => "070e9bd60a66fa0d895c6ae4897f172ef8e90087741ed8958bc238a4f905d3b7"
    | _ => "bee136952d0f2e476e7227ec3a36f66d2e1cd099af3a84afc842b59d457bf2c6"

def plainText (version : String) (channelId : Int) (text : String) (availableAt : Int) :
    MessageVersion where
  sourceVersionId := version
  channelId := channelId
  messageId := 1
  messageType := "message"
  contentHash := some text
  mediaHashes := some []
  text := text
  forwardFrom := none
  eventTime := some availableAt
  availableAt := some availableAt
  sequence := none

/-- The third resembles the two before it, which do not resemble each other. -/
def threeMessages : MessageVersions where
  rows :=
    [plainText "v1" 1 "aaaaaaaaaaaaaaaaaaaabbb" 0,
      plainText "v2" 2 "aaaaaaaaaaaaaaaaaaaaccc" 1,
      plainText "v3" 3 "aaaaaaaaaaaaaaaaaaaa" 2]
  distinct := by decide

theorem keptApart_iff_threeMessages : ∃ groups, dedupFrame threeTexts 3 threeMessages = some groups ∧
    (KeptApart (base threeMessages) groups ↔
      OneSource (Linked threeTexts (base threeMessages)) (Sourced (base threeMessages))
        (Follows threeTexts 3 (base threeMessages))) :=
  keptApart_iff threeTexts 3 threeMessages (by decide +kernel)

def usableGroups : Option (List (String × String × Bool)) :=
  (dedupFrame threeTexts 3 threeMessages).map fun groups =>
    groups.map fun g => (g.sourceVersionId, g.duplicateGroupId, g.usableForCluster)

/-- The first two are usable and in one group, by way of the third alone. -/
theorem merged_by_resemblance :
    usableGroups = some [("v1", "dg-68f37ced3814244e", true), ("v2", "dg-68f37ced3814244e", true),
      ("v3", "dg-68f37ced3814244e", false)] ∧
      ∃ groups, dedupFrame threeTexts 3 threeMessages = some groups ∧
        ¬ KeptApart (base threeMessages) groups := by
  have hrun : usableGroups = some [("v1", "dg-68f37ced3814244e", true), ("v2", "dg-68f37ced3814244e", true),
      ("v3", "dg-68f37ced3814244e", false)] := by decide +kernel
  refine ⟨hrun, ?_⟩
  obtain ⟨groups, hgroups, heq⟩ := Option.map_eq_some_iff.mp hrun
  refine ⟨groups, hgroups, fun h => ?_⟩
  obtain ⟨a, rest, rfl, hav, hrest⟩ := List.map_eq_cons_iff.mp heq
  obtain ⟨b, rest, rfl, hbv, -⟩ := List.map_eq_cons_iff.mp hrest
  have ha : a ∈ a :: b :: rest := List.mem_cons_self
  have hb : b ∈ a :: b :: rest := List.mem_cons_of_mem a List.mem_cons_self
  simp only [Prod.mk.injEq] at hav hbv
  have hjoined := h a ha b hb hav.2.2 hbv.2.2 (hav.2.1.trans hbv.2.1.symm) (by rw [hav.1, hbv.1]; decide)
  -- no content is the same and nothing is forwarded
  have hnone : ∀ x y, ¬ Sourced (base threeMessages) x y := by
    intro x y hxy
    rcases hxy with ⟨pair, hpair, -⟩ | ⟨r, hr, hlink⟩
    · have hempty : bucketPairs (base threeMessages) = [] := by decide +kernel
      rw [hempty] at hpair
      cases hpair
    · have hforward : ∀ r ∈ base threeMessages, forwardLink (base threeMessages) r = none :=
      by decide +kernel
      rw [hforward r hr] at hlink
      cases hlink
  have heq : ∀ {x y}, Relation.EqvGen (Sourced (base threeMessages)) x y → x = y := by
    intro x y hxy
    induction hxy with
    | rel x y h => exact absurd h (hnone x y)
    | refl => rfl
    | symm _ _ _ ih => exact ih.symm
    | trans _ _ _ _ _ ih ih' => exact ih.trans ih'
  have hsame := heq hjoined
  rw [hav.1, hbv.1] at hsame
  exact absurd hsame (by decide)

end TraderBot.DuplicateGroups
