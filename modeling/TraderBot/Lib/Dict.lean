import Mathlib

/-! # Dicts with text keys

A Python dict that is written with `sort_keys=True` and read back comes in key
order, so a dict is a member list in strictly increasing key order. `insertKey`
and `lookup` work on the bare list (a JSON object has no other); `Dict` carries
the order as a field, and two dicts with the same answers are equal. -/
namespace TraderBot.Lib

/-! ## Member lists -/

namespace Dict

/-- Put `v` under `k` in a member list kept in key order: `d[k] = v`. -/
def insertKey {α : Type} (k : String) (v : α) : List (String × α) → List (String × α)
  | [] => [(k, v)]
  | (k', v') :: rest =>
    if k < k' then (k, v) :: (k', v') :: rest
    else if k = k' then (k, v) :: rest
    else (k', v') :: insertKey k v rest

/-- The dict of a pair list: of equal keys the last value stays. -/
def dictOf {α : Type} (pairs : List (String × α)) : List (String × α) :=
  pairs.foldl (fun d kv => insertKey kv.1 kv.2 d) []

/-- Members in strictly increasing key order. -/
def sortedKeys {α : Type} (members : List (String × α)) : Bool :=
  decide ((members.map Prod.fst).Pairwise (· < ·))

/-- `d.get(k)` on a member list. -/
def lookup {α : Type} (k : String) (members : List (String × α)) : Option α :=
  (members.find? (·.1 == k)).map Prod.snd

section Members
variable {α : Type} {k : String} {v : α} {d : List (String × α)}

theorem lookup_cons (k' : String) (v' : α) (d : List (String × α)) :
    lookup k ((k', v') :: d) = if k' = k then some v' else lookup k d := by
  unfold lookup
  by_cases h : k' = k
  · simp [h]
  · simp [h]

@[simp] theorem lookup_insertKey_self : lookup k (insertKey k v d) = some v := by
  induction d with
  | nil => simp [insertKey, lookup_cons]
  | cons p d ih =>
    obtain ⟨k', v'⟩ := p
    rw [insertKey]
    split_ifs with h1 h2
    · simp [lookup_cons]
    · simp [lookup_cons]
    · rw [lookup_cons, if_neg (Ne.symm h2), ih]

theorem lookup_insertKey_ne {l : String} (h : l ≠ k) :
    lookup l (insertKey k v d) = lookup l d := by
  induction d with
  | nil => simp [insertKey, lookup_cons, h.symm]
  | cons p d ih =>
    obtain ⟨k', v'⟩ := p
    rw [insertKey]
    split_ifs with h1 h2
    · rw [lookup_cons, if_neg h.symm]
    · subst h2
      rw [lookup_cons, if_neg h.symm, lookup_cons, if_neg h.symm]
    · rw [lookup_cons, ih, lookup_cons]

theorem mem_insertKey {p : String × α} (h : p ∈ insertKey k v d) : p = (k, v) ∨ p ∈ d := by
  induction d with
  | nil => exact .inl (List.mem_singleton.mp h)
  | cons q d ih =>
    obtain ⟨k', v'⟩ := q
    rw [insertKey] at h
    split_ifs at h with h1 h2
    · exact List.mem_cons.mp h
    · rcases List.mem_cons.mp h with h | h
      · exact .inl h
      · exact .inr (List.mem_cons_of_mem _ h)
    · rcases List.mem_cons.mp h with h | h
      · exact .inr (by rw [h]; simp)
      · rcases ih h with h | h
        · exact .inl h
        · exact .inr (List.mem_cons_of_mem _ h)

theorem sorted_insertKey (h : (d.map Prod.fst).Pairwise (· < ·)) :
    ((insertKey k v d).map Prod.fst).Pairwise (· < ·) := by
  induction d with
  | nil => simp [insertKey]
  | cons q d ih =>
    obtain ⟨k', v'⟩ := q
    rw [List.map_cons, List.pairwise_cons] at h
    rw [insertKey]
    split_ifs with h1 h2
    · simp only [List.map_cons, List.pairwise_cons]
      refine ⟨fun x hx => ?_, h⟩
      rcases List.mem_cons.mp hx with rfl | hx
      · exact h1
      · exact h1.trans (h.1 x hx)
    · subst h2
      simpa using h
    · simp only [List.map_cons, List.pairwise_cons]
      refine ⟨fun x hx => ?_, ih h.2⟩
      obtain ⟨p, hp, rfl⟩ := List.mem_map.mp hx
      rcases mem_insertKey hp with rfl | hp
      · exact lt_of_le_of_ne (not_lt.mp h1) (Ne.symm h2)
      · exact h.1 _ (List.mem_map_of_mem hp)

theorem mem_of_lookup (h : lookup k d = some v) : (k, v) ∈ d := by
  obtain ⟨p, hp, rfl⟩ := Option.map_eq_some_iff.mp h
  have hk : p.1 = k := by simpa using List.find?_some hp
  exact hk ▸ List.mem_of_find?_eq_some hp

theorem lookup_of_mem (hd : (d.map Prod.fst).Pairwise (· < ·)) (h : (k, v) ∈ d) :
    lookup k d = some v := by
  induction d with
  | nil => cases h
  | cons q d ih =>
    obtain ⟨k', v'⟩ := q
    rw [List.map_cons, List.pairwise_cons] at hd
    rw [lookup_cons]
    rcases List.mem_cons.mp h with h | h
    · cases h; rw [if_pos rfl]
    · rw [if_neg (hd.1 k (List.mem_map_of_mem h)).ne, ih hd.2 h]

theorem lookup_map {β : Type} (f : String → α → β) :
    lookup k (d.map fun p => (p.1, f p.1 p.2)) = (lookup k d).map (f k) := by
  induction d with
  | nil => rfl
  | cons q d ih =>
    obtain ⟨k', v'⟩ := q
    rw [List.map_cons, lookup_cons, lookup_cons, ih]
    split_ifs with h
    · rw [h]; rfl
    · rfl

theorem insertKey_last (h : ∀ p ∈ d, p.1 < k) : insertKey k v d = d ++ [(k, v)] := by
  induction d with
  | nil => rfl
  | cons p d ih =>
    obtain ⟨k', v'⟩ := p
    have hp : k' < k := h (k', v') (by simp)
    have hrest := ih (fun q hq => h q (List.mem_cons_of_mem _ hq))
    simp only [insertKey, if_neg (lt_asymm hp), if_neg hp.ne', hrest]
    rfl

theorem foldl_insertKey_sorted (kvs d : List (String × α))
    (h : ((d ++ kvs).map Prod.fst).Pairwise (· < ·)) :
    kvs.foldl (fun d kv => insertKey kv.1 kv.2 d) d = d ++ kvs := by
  induction kvs generalizing d with
  | nil => simp
  | cons p kvs ih =>
    have hlast : ∀ q ∈ d, q.1 < p.1 := by
      intro q hq
      rw [List.map_append, List.pairwise_append] at h
      exact h.2.2 q.1 (List.mem_map_of_mem hq) p.1 (by simp)
    rw [List.foldl_cons, insertKey_last hlast, ih _ (by simpa using h)]
    simp

theorem dictOf_sorted {kvs : List (String × α)} (h : sortedKeys kvs = true) :
    dictOf kvs = kvs := by
  unfold dictOf
  rw [foldl_insertKey_sorted kvs [] (by simpa [sortedKeys] using h)]
  rfl

end Members
end Dict

/-! ## Dicts -/

/-- A dict with text keys, in key order. -/
structure Dict (α : Type) where
  items : List (String × α)
  sorted : (items.map Prod.fst).Pairwise (· < ·)
  deriving DecidableEq, Repr

namespace Dict
variable {α : Type}

def empty : Dict α := ⟨[], List.Pairwise.nil⟩

instance : Inhabited (Dict α) := ⟨empty⟩

/-- `d.get(k)`. -/
def get? (d : Dict α) (k : String) : Option α := lookup k d.items

/-- `d[k] = v`. -/
def set (d : Dict α) (k : String) (v : α) : Dict α := ⟨insertKey k v d.items, sorted_insertKey d.sorted⟩

/-- `d.pop(k, None)`. -/
def erase (d : Dict α) (k : String) : Dict α :=
  ⟨d.items.filter (·.1 ≠ k), d.sorted.sublist (List.filter_sublist.map Prod.fst)⟩

/-- `{k: f(k, v) for k, v in d.items()}`. -/
def mapItems (d : Dict α) (f : String → α → α) : Dict α :=
  ⟨d.items.map fun p => (p.1, f p.1 p.2), by
    have h : ((d.items.map fun p => (p.1, f p.1 p.2)).map Prod.fst) = d.items.map Prod.fst := by
      rw [List.map_map]; rfl
    rw [h]; exact d.sorted⟩

variable {d : Dict α} {k l : String} {v : α}

@[simp] theorem get?_empty : (empty : Dict α).get? k = none := rfl

@[simp] theorem get?_set_self : (d.set k v).get? k = some v := lookup_insertKey_self

theorem get?_set_ne (h : l ≠ k) : (d.set k v).get? l = d.get? l := lookup_insertKey_ne h

theorem get?_set : (d.set k v).get? l = if l = k then some v else d.get? l := by
  by_cases h : l = k
  · rw [if_pos h, h, get?_set_self]
  · rw [if_neg h, get?_set_ne h]

theorem mem_items : (k, v) ∈ d.items ↔ d.get? k = some v :=
  ⟨lookup_of_mem d.sorted, mem_of_lookup⟩

theorem get?_erase : (d.erase k).get? l = if l = k then none else d.get? l := by
  refine Option.ext fun v => ?_
  rw [← mem_items]
  show (l, v) ∈ d.items.filter _ ↔ _
  rw [List.mem_filter, mem_items]
  by_cases hk : l = k
  · simp [hk]
  · simp [hk]

theorem get?_mapItems (f : String → α → α) : (d.mapItems f).get? k = (d.get? k).map (f k) :=
  lookup_map f

/-- `{k: f(v) for k, v in d.items()}`. -/
def map {β : Type} (d : Dict α) (f : α → β) : Dict β :=
  ⟨d.items.map fun p => (p.1, f p.2), by
    have h : ((d.items.map fun p => (p.1, f p.2)).map Prod.fst) = d.items.map Prod.fst := by
      rw [List.map_map]; rfl
    rw [h]; exact d.sorted⟩

theorem get?_map {β : Type} (f : α → β) : (d.map f).get? k = (d.get? k).map f := by
  show ((d.items.map fun p => (p.1, f p.2)).find? (·.1 == k)).map Prod.snd =
    ((d.items.find? (·.1 == k)).map Prod.snd).map f
  rw [List.find?_map, Option.map_map, Option.map_map]
  rfl

/-- `{k: w for k, v in d.items() if (w := f(k, v)) is not None}`. -/
def filterMap {β : Type} (d : Dict α) (f : String → α → Option β) : Dict β :=
  ⟨d.items.filterMap fun p => (f p.1 p.2).map fun w => (p.1, w), by
    refine List.pairwise_map.mpr ((List.pairwise_map.mp d.sorted).filterMap _ ?_)
    intro p q hlt x hx y hy
    obtain ⟨v, -, rfl⟩ := Option.map_eq_some_iff.mp hx
    obtain ⟨w, -, rfl⟩ := Option.map_eq_some_iff.mp hy
    exact hlt⟩

theorem get?_filterMap {β : Type} (f : String → α → Option β) :
    (d.filterMap f).get? k = (d.get? k).bind (f k) := by
  refine Option.ext fun w => ?_
  rw [← mem_items, Option.bind_eq_some_iff]
  show (k, w) ∈ d.items.filterMap _ ↔ _
  rw [List.mem_filterMap]
  constructor
  · intro ⟨p, hp, hw⟩
    obtain ⟨x, hx, hkw⟩ := Option.map_eq_some_iff.mp hw
    cases hkw
    exact ⟨p.2, mem_items.mp hp, hx⟩
  · intro ⟨v, hv, hw⟩
    exact ⟨(k, v), mem_items.mpr hv, by rw [hw]; rfl⟩

/-- Dicts with the same values are the same. -/
theorem ext_get? {e : Dict α} (h : ∀ k, d.get? k = e.get? k) : d = e := by
  have hnodup (x : Dict α) : x.items.Nodup :=
    (List.pairwise_map.mp x.sorted).imp fun hlt heq => absurd (congrArg Prod.fst heq) hlt.ne
  have hperm : d.items.Perm e.items := by
    rw [List.perm_ext_iff_of_nodup (hnodup d) (hnodup e)]
    intro p
    rw [mem_items, mem_items, h]
  have hitems : d.items = e.items := by
    have hasymm : ∀ a b : String × α, a ∈ d.items → b ∈ e.items → a.1 < b.1 → b.1 < a.1 → a = b :=
      fun a b _ _ hab hba => absurd hba (not_lt_of_gt hab)
    exact List.Perm.eq_of_pairwise hasymm (List.pairwise_map.mp d.sorted) (List.pairwise_map.mp e.sorted) hperm
  cases d
  cases e
  cases hitems
  rfl

/-- `{**d, **e}`, and `d || e` of two `jsonb` objects: of equal keys `e` stays. -/
def merge (d e : Dict α) : Dict α := e.items.foldl (fun d p => d.set p.1 p.2) d

/-- The dict of a pair list: of equal keys the last value stays. -/
def ofPairs (pairs : List (String × α)) : Dict α := pairs.foldl (fun d p => d.set p.1 p.2) empty

/-- `d.setdefault(k, v)`. -/
def setDefault (d : Dict α) (k : String) (v : α) : Dict α := if (d.get? k).isSome then d else d.set k v

theorem get?_foldl_set {pairs : List (String × α)} (h : (pairs.map Prod.fst).Nodup) :
    (pairs.foldl (fun d p => d.set p.1 p.2) d).get? k = (lookup k pairs).or (d.get? k) := by
  induction pairs generalizing d with
  | nil => rfl
  | cons p pairs ih =>
    obtain ⟨k', v'⟩ := p
    obtain ⟨hnew, hrest⟩ := List.nodup_cons.mp h
    rw [List.foldl_cons, ih hrest, lookup_cons]
    by_cases hk : k' = k
    · subst hk
      have hnone : lookup k' pairs = none := by
        refine Option.eq_none_iff_forall_ne_some.mpr fun w hw => hnew ?_
        exact List.mem_map.mpr ⟨_, mem_of_lookup hw, rfl⟩
      rw [hnone, if_pos rfl, get?_set_self]
      rfl
    · rw [if_neg hk, get?_set_ne (Ne.symm hk)]

theorem get?_merge {e : Dict α} : (d.merge e).get? k = (e.get? k).or (d.get? k) :=
  get?_foldl_set (e.sorted.imp fun h => h.ne)

theorem ofPairs_items (d : Dict α) : ofPairs d.items = d := by
  refine ext_get? fun k => ?_
  rw [ofPairs, get?_foldl_set (d.sorted.imp fun h => h.ne), get?_empty, Option.or_none]
  rfl

theorem get?_setDefault_ne (h : l ≠ k) : (d.setDefault k v).get? l = d.get? l := by
  unfold setDefault
  split_ifs
  · rfl
  · exact get?_set_ne h

end Dict
end TraderBot.Lib
