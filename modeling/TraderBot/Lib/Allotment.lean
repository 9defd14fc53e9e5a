import Mathlib

/-! # Serving demands in turn

Each demand is served in full while there is room, and the last one that fits in part gets
what is left. Serving what was served once more is the same as serving with the
smaller room. -/
namespace TraderBot.Lib
variable {α κ : Type} [AddCommGroup α] [LinearOrder α] [IsOrderedAddMonoid α]

def allot : α → List α → List α
  | _, [] => []
  | room, q :: rest => min q room :: allot (room - min q room) rest

variable {room r₁ r₂ : α} {qs : List α}

theorem room_left (q room : α) : 0 ≤ room - min q room := sub_nonneg.mpr (min_le_right q room)

theorem allot_nonneg (hroom : 0 ≤ room) (h : ∀ q ∈ qs, 0 ≤ q) : ∀ x ∈ allot room qs, 0 ≤ x := by
  induction qs generalizing room with
  | nil => exact fun x hx => nomatch hx
  | cons q rest ih =>
    intro x hx
    rcases List.mem_cons.mp hx with rfl | hx
    · exact le_min (h q List.mem_cons_self) hroom
    · exact ih (room_left q room) (fun q hq => h q (List.mem_cons_of_mem _ hq)) x hx

theorem allot_le_room (hroom : 0 ≤ room) (h : ∀ q ∈ qs, 0 ≤ q) : ∀ x ∈ allot room qs, x ≤ room := by
  induction qs generalizing room with
  | nil => exact fun x hx => nomatch hx
  | cons q rest ih =>
    intro x hx
    rcases List.mem_cons.mp hx with rfl | hx
    · exact min_le_right q room
    · have hle := ih (room_left q room) (fun q hq => h q (List.mem_cons_of_mem _ hq)) x hx
      exact hle.trans (sub_le_self _ (le_min (h q List.mem_cons_self) hroom))

/-- **No demand is served beyond itself.** -/
theorem allot_le (room : α) (qs : List α) : List.Forall₂ (· ≤ ·) (allot room qs) qs := by
  induction qs generalizing room with
  | nil => exact .nil
  | cons q rest ih => exact .cons (min_le_left q room) (ih _)

/-- **What is served is all there is room for.** -/
theorem allot_sum (hroom : 0 ≤ room) (h : ∀ q ∈ qs, 0 ≤ q) : (allot room qs).sum = min room qs.sum := by
  induction qs generalizing room with
  | nil => simp [allot, hroom]
  | cons q rest ih =>
    have hrest : ∀ q ∈ rest, 0 ≤ q := fun q hq => h q (List.mem_cons_of_mem _ hq)
    have hsum : 0 ≤ rest.sum := List.sum_nonneg hrest
    rw [allot, List.sum_cons, List.sum_cons, ih (room_left q room) hrest]
    rcases le_total q room with hq | hq
    · rw [min_eq_left hq, ← min_add_add_left, add_sub_cancel]
    · have hle : room ≤ q + rest.sum := hq.trans (le_add_of_nonneg_right hsum)
      rw [min_eq_right hq, sub_self, min_eq_left hsum, add_zero, min_eq_left hle]

/-- The room that is left after a demand was served twice. -/
theorem room_left_twice (q : α) (h₁ : 0 ≤ r₁) (h₂ : 0 ≤ r₂) :
    min (r₁ - min q r₁) (r₂ - min (min q r₁) r₂) = min r₁ r₂ - min q (min r₁ r₂) := by
  rw [min_assoc]
  rcases le_total q r₁ with hq | hq
  · rcases le_total q r₂ with hq' | hq'
    · rw [min_eq_left hq, min_eq_left (le_min hq hq'), min_sub_sub_right]
    · rw [min_eq_left hq, min_eq_right (hq'.trans hq), min_eq_right hq', sub_self]
      exact min_eq_right (sub_nonneg.mpr hq)
  · rw [min_eq_right hq, min_eq_right (inf_le_left.trans hq : min r₁ r₂ ≤ q), sub_self, sub_self]
    exact min_eq_left (sub_nonneg.mpr inf_le_right)

/-- **Serving twice is serving with the smaller room.** -/
theorem allot_allot (h₁ : 0 ≤ r₁) (h₂ : 0 ≤ r₂) (qs : List α) :
    allot r₂ (allot r₁ qs) = allot (min r₁ r₂) qs := by
  induction qs generalizing r₁ r₂ with
  | nil => rfl
  | cons q rest ih =>
    have hhead : min (min q r₁) r₂ = min q (min r₁ r₂) := min_assoc _ _ _
    simp only [allot]
    rw [ih (room_left q r₁) (room_left _ r₂), room_left_twice q h₁ h₂, hhead]

/-- A demand of nothing takes no room: what the others get is the same without it. -/
theorem mem_zip_allot {ps : List (κ × α)} {k : κ} {x : α} (hroom : 0 ≤ room) (h : ∀ p ∈ ps, 0 ≤ p.2) :
    (k, x) ∈ (ps.map Prod.fst).zip (allot room (ps.map Prod.snd)) ↔
      (k, x) ∈ ((ps.filter (0 < ·.2)).map Prod.fst).zip (allot room ((ps.filter (0 < ·.2)).map Prod.snd)) ∨
        (x = 0 ∧ (k, (0 : α)) ∈ ps) := by
  induction ps generalizing room with
  | nil => simp [allot]
  | cons p rest ih =>
    obtain ⟨k', q⟩ := p
    have hrest : ∀ p ∈ rest, 0 ≤ p.2 := fun p hp => h p (List.mem_cons_of_mem _ hp)
    have hq : 0 ≤ q := h (k', q) List.mem_cons_self
    rcases hq.eq_or_lt with rfl | hpos
    · have hmin : min 0 room = 0 := min_eq_left hroom
      simp only [List.map_cons, allot, List.zip_cons_cons, List.mem_cons, Prod.mk.injEq, hmin, sub_zero,
        ih hroom hrest, List.filter_cons, lt_self_iff_false, decide_false, Bool.false_eq_true, if_false]
      tauto
    · have hne : ¬ ((k, (0 : α)) = (k', q)) := fun heq => hpos.ne (congrArg Prod.snd heq)
      simp only [List.map_cons, allot, List.zip_cons_cons, List.mem_cons, ih (room_left q room) hrest,
        List.filter_cons, hpos, decide_true, if_true, hne, false_or]
      tauto

end TraderBot.Lib
