import Mathlib

/-! # Dicts in insertion order

A Python dict keeps the order in which its keys came; a key that is set again
keeps its place. What a loop over the values adds up can depend on that order, so
it is kept here, with distinct keys as a field. -/
namespace TraderBot.Lib

/-- Entries in the order their keys came, each key once. -/
structure OrderedDict (κ α : Type) where
  items : List (κ × α)
  distinct : (items.map Prod.fst).Nodup
  deriving DecidableEq

namespace OrderedDict
variable {κ α : Type}

def empty : OrderedDict κ α := ⟨[], List.nodup_nil⟩

def keys (d : OrderedDict κ α) : List κ := d.items.map Prod.fst

def values (d : OrderedDict κ α) : List α := d.items.map Prod.snd

variable [DecidableEq κ]

/-- `d.get(k)`. -/
def get? (d : OrderedDict κ α) (k : κ) : Option α := (d.items.find? fun p => p.1 = k).map Prod.snd

/-- The items with `v` under `k`, at its place or at the end. -/
def setItem (k : κ) (v : α) (items : List (κ × α)) : List (κ × α) :=
  if k ∈ items.map Prod.fst then items.map fun p => if p.1 = k then (k, v) else p
  else items ++ [(k, v)]

theorem setItem_keys (k : κ) (v : α) (items : List (κ × α)) :
    (setItem k v items).map Prod.fst =
      if k ∈ items.map Prod.fst then items.map Prod.fst else items.map Prod.fst ++ [k] := by
  unfold setItem
  split_ifs with h
  · rw [List.map_map]
    refine List.map_congr_left fun p _ => ?_
    show (if p.1 = k then (k, v) else p).1 = p.1
    split_ifs with hp
    · exact hp.symm
    · rfl
  · simp

/-- `d[k] = v`. -/
def set (d : OrderedDict κ α) (k : κ) (v : α) : OrderedDict κ α where
  items := setItem k v d.items
  distinct := by
    rw [setItem_keys]
    split_ifs with h
    · exact d.distinct
    · rw [← List.concat_eq_append]
      exact d.distinct.concat h

/-- `d.pop(k, None)`. -/
def erase (d : OrderedDict κ α) (k : κ) : OrderedDict κ α where
  items := d.items.filter fun p => p.1 ≠ k
  distinct := (List.filter_sublist.map _).nodup d.distinct

/-- `d.setdefault(k, v)`. -/
def setDefault (d : OrderedDict κ α) (k : κ) (v : α) : OrderedDict κ α :=
  if (d.get? k).isSome then d else d.set k v

/-- `{k: v for k, v in pairs}`: of equal keys the last value stays. -/
def ofList (pairs : List (κ × α)) : OrderedDict κ α := pairs.foldl (fun d p => d.set p.1 p.2) empty

section
variable {d : OrderedDict κ α} {k l : κ} {v : α}

@[simp] theorem get?_empty : (empty : OrderedDict κ α).get? k = none := rfl

theorem mem_items : (k, v) ∈ d.items ↔ d.get? k = some v := by
  obtain ⟨items, hd⟩ := d
  show (k, v) ∈ items ↔ (items.find? fun p => p.1 = k).map Prod.snd = some v
  induction items with
  | nil => simp
  | cons p items ih =>
    rw [List.map_cons, List.nodup_cons] at hd
    rw [List.mem_cons, List.find?_cons]
    by_cases hp : p.1 = k
    · rw [decide_eq_true hp]
      constructor
      · rintro (rfl | hmem)
        · rfl
        · exact absurd (List.mem_map_of_mem (f := Prod.fst) hmem) (hp ▸ hd.1)
      · intro h
        exact .inl (Prod.ext hp.symm (Option.some.inj h).symm)
    · rw [decide_eq_false hp]
      refine Iff.trans ⟨fun h => ?_, .inr⟩ (ih hd.2)
      rcases h with rfl | h
      · exact absurd rfl hp
      · exact h

theorem mem_keys : k ∈ d.keys ↔ (d.get? k).isSome := by
  rw [Option.isSome_iff_exists, keys]
  simp only [List.mem_map, Prod.exists, exists_and_right, exists_eq_right]
  exact exists_congr fun v => mem_items

theorem mem_values : v ∈ d.values ↔ ∃ k, d.get? k = some v := by
  rw [values, List.mem_map]
  constructor
  · rintro ⟨⟨k, w⟩, hmem, rfl⟩
    exact ⟨k, mem_items.mp hmem⟩
  · rintro ⟨k, hk⟩
    exact ⟨(k, v), mem_items.mpr hk, rfl⟩

theorem get?_set : (d.set k v).get? l = if l = k then some v else d.get? l := by
  have hmem : ∀ w, (l, w) ∈ setItem k v d.items ↔ if l = k then w = v else (l, w) ∈ d.items := by
    intro w
    unfold setItem
    split_ifs with hk hl hl
    · subst hl
      obtain ⟨p, hp, hpl⟩ := List.mem_map.mp hk
      rw [List.mem_map]
      constructor
      · rintro ⟨q, -, hq⟩
        split_ifs at hq with hql
        · exact (Prod.mk.inj hq).2.symm
        · exact absurd (congrArg Prod.fst hq) hql
      · rintro rfl
        exact ⟨p, hp, if_pos hpl⟩
    · rw [List.mem_map]
      constructor
      · rintro ⟨q, hq, heq⟩
        split_ifs at heq
        · exact absurd (Prod.mk.inj heq).1.symm hl
        · exact heq ▸ hq
      · intro h
        exact ⟨(l, w), h, if_neg hl⟩
    · subst hl
      simp only [List.mem_append, List.mem_singleton, Prod.mk.injEq, true_and, or_iff_right_iff_imp]
      intro h
      exact absurd (List.mem_map_of_mem (f := Prod.fst) h) hk
    · simp [hl]
  apply Option.ext
  intro w
  show (d.set k v).get? l = some w ↔ (if l = k then some v else d.get? l) = some w
  rw [← mem_items, show (d.set k v).items = setItem k v d.items from rfl, hmem]
  split_ifs with hl
  · rw [Option.some_inj, eq_comm]
  · exact mem_items

@[simp] theorem get?_set_self : (d.set k v).get? k = some v := by rw [get?_set, if_pos rfl]

theorem get?_set_ne (h : l ≠ k) : (d.set k v).get? l = d.get? l := by rw [get?_set, if_neg h]

/-- A loop that looks up the key of each item and sets it: a key has what its own items made of it. -/
theorem get?_foldl_set {β : Type} (key : β → κ) (f : Option α → β → α) (xs : List β) (d : OrderedDict κ α) (k : κ) :
    (xs.foldl (fun d x => d.set (key x) (f (d.get? (key x)) x)) d).get? k =
      (xs.filter fun x => key x = k).foldl (fun o x => some (f o x)) (d.get? k) := by
  induction xs generalizing d with
  | nil => rfl
  | cons x rest ih =>
    rw [List.foldl_cons, ih, get?_set, List.filter_cons]
    by_cases hk : key x = k
    · subst hk
      simp
    · simp [hk, Ne.symm hk]

/-- What is set to the value it has is left as it is, and only that. -/
theorem set_eq_self_iff : d.set k v = d ↔ d.get? k = some v := by
  constructor
  · intro h
    rw [← h]
    exact get?_set_self
  · intro h
    have hmem : k ∈ d.items.map Prod.fst := List.mem_map.mpr ⟨_, mem_items.mpr h, rfl⟩
    have hitems : (d.set k v).items = d.items := by
      show setItem k v d.items = d.items
      rw [setItem, if_pos hmem]
      refine (List.map_congr_left fun p hp => ?_).trans (List.map_id _)
      by_cases hkey : p.1 = k
      · have hvalue : d.get? k = some p.2 := mem_items.mp (hkey ▸ hp)
        rw [h] at hvalue
        rw [if_pos hkey, Option.some.inj hvalue, ← hkey]
        rfl
      · rw [if_neg hkey]
        rfl
    obtain ⟨items, distinct⟩ := d
    exact OrderedDict.mk.injEq .. ▸ hitems

theorem get?_erase : (d.erase k).get? l = if l = k then none else d.get? l := by
  apply Option.ext
  intro w
  rw [← mem_items, show (d.erase k).items = d.items.filter fun p => p.1 ≠ k from rfl, List.mem_filter, decide_eq_true_eq]
  split_ifs with h
  · simp [h]
  · simp [h, mem_items]

theorem get?_setDefault :
    (d.setDefault k v).get? l = if l = k then some ((d.get? k).getD v) else d.get? l := by
  unfold setDefault
  split_ifs with hk hl hl
  · obtain ⟨w, hw⟩ := Option.isSome_iff_exists.mp hk
    rw [hl, hw]
    rfl
  · rfl
  · rw [hl, get?_set_self, Option.not_isSome_iff_eq_none.mp hk]
    rfl
  · exact get?_set_ne hl

/-- A value of a dict that was built comes from its pairs, and every key does. -/
theorem ofList_cases (pairs : List (κ × α)) (k : κ) :
    (∀ v, (ofList pairs).get? k = some v → (k, v) ∈ pairs) ∧
      (∀ v, (k, v) ∈ pairs → ((ofList pairs).get? k).isSome) := by
  unfold ofList
  induction pairs using List.reverseRecOn with
  | nil => simp
  | append_singleton pairs p ih =>
    rw [List.foldl_append]
    show (∀ v, ((pairs.foldl (fun d p => d.set p.1 p.2) empty).set p.1 p.2).get? k = some v → _) ∧ _
    rw [get?_set]
    constructor
    · intro v hv
      split_ifs at hv with hk
      · rw [hk, ← Option.some.inj hv]
        exact List.mem_append_right _ List.mem_cons_self
      · exact List.mem_append_left _ (ih.1 v hv)
    · intro v hv
      show (((pairs.foldl (fun d p => d.set p.1 p.2) empty).set p.1 p.2).get? k).isSome
      rw [get?_set]
      split_ifs with hk
      · rfl
      · rcases List.mem_append.mp hv with hv | hv
        · exact ih.2 v hv
        · exact absurd (congrArg Prod.fst (List.mem_singleton.mp hv)) hk

end

end OrderedDict
end TraderBot.Lib
