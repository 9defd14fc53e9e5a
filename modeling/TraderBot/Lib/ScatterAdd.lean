import Mathlib

/-! # Arrays that are added to by index

`numpy.add.at(zeros(n), index, values)`, with the indices of Python: a negative one counts
from the end, and one that is out of range raises. -/
namespace TraderBot.Lib

/-- Where an index stands in an array of this length. -/
def place (length : Nat) (index : Int) : Option Nat :=
  if 0 ≤ index then
    if index.toNat < length then some index.toNat else none
  else if 0 ≤ index + length then some (index + length).toNat else none

theorem place_natCast {length k : Nat} (h : k < length) : place length k = some k := by
  unfold place
  rw [if_pos (Int.natCast_nonneg k), Int.toNat_natCast, if_pos h]

/-- `a[index]`. -/
def index? {α : Type} (a : List α) (index : Int) : Option α := (place a.length index).bind (a[·]?)

section
variable {α : Type} [AddCommMonoid α]

/-- `numpy.add.at(zeros(n), index, values)`. -/
def addAt (n : Nat) (pairs : List (Int × α)) : Option (List α) :=
  pairs.foldlM (fun a p => (place n p.1).map fun k => a.modify k (· + p.2)) (List.replicate n 0)

/-- **With indices in range each cell has the sum of its values.** -/
theorem addAt_eq {n : Nat} {pairs : List (Nat × α)} (h : ∀ p ∈ pairs, p.1 < n) :
    addAt n (pairs.map fun p => ((p.1 : Int), p.2)) =
      some ((List.range n).map fun k => ((pairs.filter fun p => p.1 = k).map Prod.snd).sum) := by
  have hrun : ∀ a : List α, a.length = n →
      (pairs.map fun p => ((p.1 : Int), p.2)).foldlM
        (fun a p => (place n p.1).map fun k => a.modify k (· + p.2)) a =
      some ((List.range n).map fun k => (a[k]?.getD 0) + ((pairs.filter fun p => p.1 = k).map Prod.snd).sum) := by
    induction pairs with
    | nil =>
      intro a ha
      refine congrArg some (List.ext_getElem (by simp [ha]) fun k hk _ => ?_)
      simp [hk]
    | cons p rest ih =>
      intro a ha
      have hp := h p List.mem_cons_self
      have hrest : ∀ p ∈ rest, p.1 < n := fun p hp => h p (List.mem_cons_of_mem _ hp)
      have hlength : (a.modify p.1 (· + p.2)).length = n := by rw [List.length_modify, ha]
      simp only [List.map_cons, List.foldlM_cons, place_natCast hp, Option.map_some, Option.bind_eq_bind,
        Option.bind_some]
      rw [ih hrest _ hlength]
      refine congrArg some (List.map_congr_left fun k hk => ?_)
      have hka : k < a.length := ha ▸ List.mem_range.mp hk
      rw [List.getElem?_modify, List.filter_cons]
      by_cases hpk : p.1 = k
      · simp [hpk, hka, add_assoc]
      · simp [hpk]
  have hzero := hrun (List.replicate n 0) (List.length_replicate)
  rw [addAt, hzero]
  refine congrArg some (List.map_congr_left fun k hk => ?_)
  rw [List.getElem?_replicate, if_pos (List.mem_range.mp hk), Option.getD_some, zero_add]

end

theorem index?_map_range {α : Type} {n k : Nat} (f : Nat → α) (h : k < n) :
    index? ((List.range n).map f) (k : Int) = some (f k) := by
  have hlength : ((List.range n).map f).length = n := by simp
  rw [index?, hlength, place_natCast h]
  simp [h]

end TraderBot.Lib
