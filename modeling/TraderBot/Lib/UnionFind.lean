import TraderBot.Lib.OrderedDict

/-! # Union-find in a dict

Parent pointers kept in a dict, with path halving and no ranks. An element that
the dict does not know is its own root. What the pointers mean is a root for each
element; halving keeps all of them, and a union joins two classes, so after any
sequence of unions two elements have one root iff a chain of links connects them. -/
namespace TraderBot.Lib

/-- The pointers of the elements that were asked for. -/
structure UnionFind (α : Type) where
  p : OrderedDict α α

namespace UnionFind
variable {α : Type} [DecidableEq α]

def empty : UnionFind α := ⟨.empty⟩

def parent (d : UnionFind α) (x : α) : α := (d.p.get? x).getD x

/-- `self.p[x] = y`. -/
def point (d : UnionFind α) (x y : α) : UnionFind α := ⟨d.p.set x y⟩

/-- `while p[x] != x: p[x] = p[p[x]]; x = p[x]`, for a number of turns. -/
def climb : Nat → UnionFind α → α → UnionFind α × α
  | 0, d, x => (d, x)
  | turns + 1, d, x =>
    if d.parent x = x then (d, x)
    else climb turns (d.point x (d.parent (d.parent x))) (d.parent (d.parent x))

/-- `p.setdefault(x, x)`. -/
def know (d : UnionFind α) (x : α) : UnionFind α := ⟨d.p.setDefault x x⟩

/-- `find(x)`: as many turns as there are elements, which is enough. -/
def find (d : UnionFind α) (x : α) : UnionFind α × α := climb (d.know x).p.keys.length (d.know x) x

/-- `union(a, b)`. -/
def union (d : UnionFind α) (a b : α) : UnionFind α :=
  let (d, ra) := d.find a
  let (d, rb) := d.find b
  if ra ≠ rb then d.point rb ra else d

/-! ## Roots -/

/-- `root` is where the pointers `up` lead, which turn in no circle. -/
structure Roots (up root : α → α) : Prop where
  step : ∀ x, root (up x) = root x
  top : ∀ x, up x = x → root x = x
  acyclic : ∃ rank : α → Nat, ∀ x, up x ≠ x → rank (up x) < rank x

section
variable {up root : α → α} {a b x : α}

omit [DecidableEq α] in
theorem Roots.root_root (h : Roots up root) : root (root x) = root x := by
  obtain ⟨rank, hrank⟩ := h.acyclic
  induction hn : rank x using Nat.strongRecOn generalizing x with
  | ind n ih =>
    by_cases hx : up x = x
    · rw [h.top x hx, h.top x hx]
    · rw [← h.step x]
      exact ih _ (hn ▸ hrank x hx) rfl

/-- An element that points to its grandparent has the same root. -/
theorem Roots.halve (h : Roots up root) (hx : up x ≠ x) : Roots (Function.update up x (up (up x))) root where
  step y := by
    by_cases hy : y = x
    · rw [hy, Function.update_self, h.step, h.step]
    · rw [Function.update_of_ne hy, h.step]
  top y hup := by
    by_cases hy : y = x
    · obtain ⟨rank, hrank⟩ := h.acyclic
      rw [hy, Function.update_self] at hup
      have hlt := hrank x hx
      by_cases hxx : up (up x) = up x
      · exact absurd (hxx.symm.trans hup) hx
      · have hlt' := hrank (up x) hxx
        rw [hup] at hlt'
        omega
    · rw [Function.update_of_ne hy] at hup
      exact h.top y hup
  acyclic := by
    obtain ⟨rank, hrank⟩ := h.acyclic
    refine ⟨rank, fun y hup => ?_⟩
    by_cases hy : y = x
    · rw [hy, Function.update_self]
      have hlt := hrank x hx
      by_cases hxx : up (up x) = up x
      · rwa [hxx]
      · exact Nat.lt_trans (hrank (up x) hxx) hlt
    · rw [Function.update_of_ne hy] at hup ⊢
      exact hrank y hup

/-- A root that points to another root hands its class over to that one. -/
theorem Roots.link (h : Roots up root) (ha : root a = a) (hb : root b = b) (hab : a ≠ b) :
    Roots (Function.update up b a) fun x => if root x = b then a else root x where
  step y := by
    by_cases hy : y = b
    · simp only [hy, Function.update_self, ha, hb, if_neg hab, if_true]
    · simp only [Function.update_of_ne hy, h.step]
  top y hup := by
    have hy : y ≠ b := by
      intro hy
      rw [hy, Function.update_self] at hup
      exact hab hup
    rw [Function.update_of_ne hy] at hup
    simp only [h.top y hup, if_neg hy]
  acyclic := by
    obtain ⟨rank, hrank⟩ := h.acyclic
    refine ⟨fun y => if root y = b then rank y + rank a + 1 else rank y, fun y hup => ?_⟩
    by_cases hy : y = b
    · simp only [hy, Function.update_self, ha, hb, if_neg hab, if_true]
      omega
    · rw [Function.update_of_ne hy] at hup ⊢
      have hlt := hrank y hup
      simp only [h.step]
      split_ifs <;> omega

end

/-! ## The dict -/

section
variable {d : UnionFind α} {root : α → α} {x y a b : α}

theorem parent_point : (d.point x y).parent = Function.update d.parent x y := by
  funext z
  by_cases hz : z = x
  · simp [point, parent, hz]
  · simp [point, parent, OrderedDict.get?_set, hz]

theorem parent_know : (d.know x).parent = d.parent := by
  funext z
  unfold know parent
  rw [OrderedDict.get?_setDefault]
  split_ifs with hz
  · rw [hz]
    rfl
  · rfl

theorem mem_keys_of_parent (h : d.parent x ≠ x) : x ∈ d.p.keys := by
  rw [OrderedDict.mem_keys]
  unfold parent at h
  cases hx : d.p.get? x with
  | none => simp [hx] at h
  | some y => rfl

theorem keys_point (h : x ∈ d.p.keys) : (d.point x y).p.keys = d.p.keys :=
  (OrderedDict.setItem_keys x y d.p.items).trans (if_pos h)

/-- A climb that may take as many turns as there are keys below its start ends at the root. -/
theorem climb_spec {rank : α → Nat} (h : Roots d.parent root)
    (hrank : ∀ x, d.parent x ≠ x → rank (d.parent x) < rank x) {turns : Nat}
    (hturns : (d.p.keys.filter fun k => rank k ≤ rank x).length ≤ turns) :
    (climb turns d x).2 = root x ∧ Roots (climb turns d x).1.parent root := by
  induction turns generalizing d x with
  | zero =>
    refine ⟨(h.top x ?_).symm, h⟩
    by_contra hx
    have hmem : x ∈ d.p.keys.filter fun k => rank k ≤ rank x := by
      simpa using mem_keys_of_parent hx
    exact absurd (List.length_pos_of_mem hmem) (by omega)
  | succ turns ih =>
    unfold climb
    split_ifs with hx
    · exact ⟨(h.top x hx).symm, h⟩
    · have hlt := hrank x hx
      have hgrand : rank (d.parent (d.parent x)) < rank x := by
        by_cases hxx : d.parent (d.parent x) = d.parent x
        · rwa [hxx]
        · exact Nat.lt_trans (hrank _ hxx) hlt
      have hparent : (d.point x (d.parent (d.parent x))).parent =
          Function.update d.parent x (d.parent (d.parent x)) := parent_point
      have hfewer : ((d.point x (d.parent (d.parent x))).p.keys.filter
          fun k => rank k ≤ rank (d.parent (d.parent x))).length ≤ turns := by
        rw [keys_point (mem_keys_of_parent hx)]
        -- the start is a key that is not counted any more
        have hsub : (d.p.keys.filter fun k => rank k ≤ rank (d.parent (d.parent x))) =
            (d.p.keys.filter fun k => rank k ≤ rank x).filter fun k => rank k ≤ rank (d.parent (d.parent x)) := by
          rw [List.filter_filter]
          refine List.filter_congr fun k _ => ?_
          rw [← Bool.decide_and]
          exact decide_eq_decide.mpr ⟨fun hk => ⟨hk, by omega⟩, fun hk => hk.1⟩
        have hmem : x ∈ d.p.keys.filter fun k => rank k ≤ rank x := by
          simpa using mem_keys_of_parent hx
        have hshort : ((d.p.keys.filter fun k => rank k ≤ rank x).filter
            fun k => rank k ≤ rank (d.parent (d.parent x))).length < _ :=
          List.length_filter_lt_length_iff_exists.mpr ⟨x, hmem, by simpa using hgrand⟩
        rw [hsub]
        omega
      have hroot : root (d.parent (d.parent x)) = root x := by rw [h.step, h.step]
      rw [← hroot]
      refine ih (hparent ▸ h.halve hx) (fun y hy => ?_) hfewer
      rw [hparent] at hy ⊢
      by_cases hyx : y = x
      · rw [hyx, Function.update_self]
        exact hgrand
      · rw [Function.update_of_ne hyx] at hy ⊢
        exact hrank y hy

theorem find_spec (h : Roots d.parent root) : (d.find x).2 = root x ∧ Roots (d.find x).1.parent root := by
  obtain ⟨rank, hrank⟩ := h.acyclic
  have hsame : (d.know x).parent = d.parent := parent_know
  have hknow : ∀ y, (d.know x).parent y ≠ y → rank ((d.know x).parent y) < rank y := by
    rw [hsame]
    exact hrank
  exact climb_spec (hsame ▸ h) hknow (List.length_filter_le _ _)

theorem union_spec (h : Roots d.parent root) :
    Roots (d.union a b).parent fun x => if root x = root b then root a else root x := by
  obtain ⟨hra, ha⟩ := find_spec (x := a) h
  obtain ⟨hrb, hb⟩ := find_spec (x := b) ha
  unfold union
  dsimp only
  rw [hra, hrb]
  split_ifs with hab
  · rw [parent_point]
    exact hb.link hb.root_root hb.root_root hab
  · rw [not_not] at hab
    have hsame : (fun x => if root x = root b then root a else root x) = root := by
      funext x
      split_ifs with hx
      · rw [hab, hx]
      · rfl
    rw [hsame]
    exact hb

end

/-! ## The classes -/

/-- Two elements have one root iff a chain of links connects them. -/
def Joins (d : UnionFind α) (links : α → α → Prop) : Prop :=
  ∃ root, Roots d.parent root ∧ ∀ x y, root x = root y ↔ Relation.EqvGen links x y

section
variable {d : UnionFind α} {links : α → α → Prop} {a b x y : α}

theorem Joins.empty : (empty : UnionFind α).Joins fun _ _ => False := by
  refine ⟨id, ⟨fun x => rfl, fun x _ => rfl, fun _ => 0, fun x hx => absurd rfl hx⟩, fun x y => ⟨?_, ?_⟩⟩
  · rintro rfl
    exact .refl x
  · intro h
    induction h with
    | rel _ _ h => exact h.elim
    | refl => rfl
    | symm _ _ _ ih => exact ih.symm
    | trans _ _ _ _ _ ih ih' => exact ih.trans ih'

theorem Joins.congr {links' : α → α → Prop} (h : d.Joins links) (hlinks : ∀ x y, links x y ↔ links' x y) :
    d.Joins links' := by
  have hsame : links = links' := by
    funext x y
    exact propext (hlinks x y)
  exact hsame ▸ h

theorem Joins.union (h : d.Joins links) :
    (d.union a b).Joins fun x y => links x y ∨ x = a ∧ y = b := by
  obtain ⟨root, hroots, hclass⟩ := h
  refine ⟨_, union_spec hroots, fun x y => ⟨fun hxy => ?_, fun hxy => ?_⟩⟩
  · have old : ∀ {x y}, root x = root y → Relation.EqvGen (fun x y => links x y ∨ x = a ∧ y = b) x y :=
      fun heq => ((hclass _ _).mp heq).mono fun _ _ => .inl
    have new : Relation.EqvGen (fun x y => links x y ∨ x = a ∧ y = b) a b := .rel _ _ (.inr ⟨rfl, rfl⟩)
    split_ifs at hxy with hx hy hy
    · exact old (hx.trans hy.symm)
    · exact ((old hx).trans _ _ _ (new.symm _ _)).trans _ _ _ (old hxy)
    · exact ((old hxy).trans _ _ _ new).trans _ _ _ (old hy.symm)
    · exact old hxy
  · induction hxy with
    | rel x y h =>
      rcases h with h | ⟨rfl, rfl⟩
      · rw [(hclass x y).mpr (.rel _ _ h)]
      · simp
    | refl => rfl
    | symm _ _ _ ih => exact ih.symm
    | trans _ _ _ _ _ ih ih' => exact ih.trans ih'

/-- A loop that links some pairs. -/
theorem Joins.foldl {σ β : Type} (parents : σ → UnionFind α) (step : σ → β → σ) (link : β → Option (α × α))
    (hstep : ∀ s item, parents (step s item) = (link item).elim (parents s) fun l => (parents s).union l.1 l.2)
    {s : σ} (h : (parents s).Joins links) (items : List β) :
    (parents (items.foldl step s)).Joins fun x y => links x y ∨ ∃ item ∈ items, link item = some (x, y) := by
  induction items generalizing s links with
  | nil => exact h.congr fun x y => by simp
  | cons item items ih =>
    have hnext : (parents (step s item)).Joins fun x y => links x y ∨ link item = some (x, y) := by
      rw [hstep]
      cases hl : link item with
      | none => exact h.congr fun x y => by simp
      | some l => exact h.union.congr fun x y => by simp [Prod.ext_iff, eq_comm]
    exact (ih hnext).congr fun x y => by simp [or_assoc]

end

end UnionFind
end TraderBot.Lib
