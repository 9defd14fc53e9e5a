import Mathlib

/-! # Running totals by key

A loop over entries that keeps one value for each key and may fail. It comes back
with what the loops over each key's own entries come back with
(`foldlM_accumulate_iff`), so the order in which keys take turns does not
matter. -/
namespace TraderBot.Lib.Keyed
variable {κ α β : Type} [DecidableEq κ]

/-- The values of a key, in order. -/
def under (key : κ) (l : List (κ × β)) : List β := (l.filter fun e => e.1 = key).map Prod.snd

/-- One entry put into the value of its key. -/
def accumulate (f : α → β → Option α) (m : κ → α) (e : κ × β) : Option (κ → α) :=
  (f (m e.1) e.2).map (Function.update m e.1)

theorem under_cons_self (key : κ) (b : β) (l : List (κ × β)) :
    under key ((key, b) :: l) = b :: under key l := by simp [under]

theorem under_cons_ne {key key' : κ} (b : β) (l : List (κ × β)) (h : key' ≠ key) :
    under key ((key', b) :: l) = under key l := by simp [under, h]

theorem under_append (key : κ) (l l' : List (κ × β)) :
    under key (l ++ l') = under key l ++ under key l' := by simp [under]

theorem mem_under {key : κ} {b : β} {l : List (κ × β)} : b ∈ under key l ↔ (key, b) ∈ l := by
  simp [under]

theorem under_perm {key : κ} {l l' : List (κ × β)} (h : l.Perm l') : (under key l).Perm (under key l') :=
  (h.filter _).map _

theorem foldlM_accumulate_iff {f : α → β → Option α} {l : List (κ × β)} {m m' : κ → α} :
    l.foldlM (accumulate f) m = some m' ↔ ∀ key, (under key l).foldlM f (m key) = some (m' key) := by
  induction l generalizing m with
  | nil =>
    show some m = some m' ↔ ∀ key, some (m key) = some (m' key)
    simp only [Option.some.injEq]
    exact ⟨fun h key => congrFun h key, funext⟩
  | cons e l ih =>
    obtain ⟨k, b⟩ := e
    rw [List.foldlM_cons]
    cases hf : f (m k) b with
    | none =>
      refine iff_of_false (by simp [accumulate, hf]) fun h => ?_
      have hk := h k
      rw [under_cons_self, List.foldlM_cons, hf] at hk
      cases hk
    | some a =>
      have hstep : accumulate f m (k, b) = some (Function.update m k a) := by simp [accumulate, hf]
      rw [hstep]
      show l.foldlM (accumulate f) (Function.update m k a) = some m' ↔ _
      rw [ih]
      refine forall_congr' fun key => ?_
      by_cases hkey : k = key
      · subst hkey
        rw [Function.update_self, under_cons_self, List.foldlM_cons, hf]
        rfl
      · rw [Function.update_of_ne (Ne.symm hkey), under_cons_ne b l hkey]

end TraderBot.Lib.Keyed
