import Mathlib

/-! # Code that may raise

A function that may raise returns `Except ε α`. What a result that came back
says about the parts it was made of: the bind, the map and the loop. -/
namespace TraderBot.Lib
variable {ε α β σ : Type}

variable {x : Except ε α} {f : α → Except ε β} {l xs : List α} {ys : List β}

/-- A sequence that came back ran its first part and then the rest. -/
theorem bind_ok {r : β} (h : (x >>= f) = .ok r) : ∃ a, x = .ok a ∧ f a = .ok r := by
  cases x with
  | error e => cases h
  | ok a => exact ⟨a, rfl, h⟩

theorem map_ok {f : α → β} {r : β} (h : x.map f = .ok r) : ∃ a, x = .ok a ∧ f a = r := by
  cases x with
  | error e => cases h
  | ok a => exact ⟨a, rfl, by cases h; rfl⟩

theorem pure_ok {a r : α} (h : (pure a : Except ε α) = .ok r) : a = r := by
  cases h
  rfl

theorem ok_bind (a : α) (f : α → Except ε β) : (Except.ok a >>= f) = f a := rfl

theorem toOption_some {a : α} (h : x.toOption = some a) : x = .ok a := by
  cases x with
  | error e => cases h
  | ok b =>
    cases h
    rfl

/-- A result that is computed to come back. -/
theorem ok_of_toBool (h : x.toBool = true) : ∃ a, x = .ok a := by
  cases x with
  | error e => cases h
  | ok a => exact ⟨a, rfl⟩

/-- What every turn of a loop keeps, a loop that came back kept. -/
theorem foldlM_invariant {f : σ → α → Except ε σ} {I : σ → Prop}
    (hstep : ∀ s a s', I s → f s a = .ok s' → I s') {s s' : σ} (h : l.foldlM f s = .ok s')
    (hs : I s) : I s' := by
  induction l generalizing s with
  | nil => exact pure_ok h ▸ hs
  | cons a l ih =>
    obtain ⟨s₁, h1, h2⟩ := bind_ok (by simpa only [List.foldlM_cons] using h)
    exact ih h2 (hstep s a s₁ hs h1)

/-- A loop that came back had a turn for every item. -/
theorem foldlM_turn {f : σ → α → Except ε σ} {s s' : σ} (h : l.foldlM f s = .ok s') :
    ∀ a ∈ l, ∃ t t', f t a = .ok t' := by
  induction l generalizing s with
  | nil => exact nofun
  | cons a l ih =>
    obtain ⟨s₁, h1, h2⟩ := bind_ok (by simpa only [List.foldlM_cons] using h)
    intro b hb
    rcases List.mem_cons.mp hb with rfl | hb
    · exact ⟨s, s₁, h1⟩
    · exact ih h2 b hb

/-- A map that came back has the result of every item, and nothing else. -/
theorem mapM_ok (h : xs.mapM f = .ok ys) :
    (∀ y ∈ ys, ∃ x ∈ xs, f x = .ok y) ∧ ∀ x ∈ xs, ∃ y ∈ ys, f x = .ok y := by
  induction xs generalizing ys with
  | nil =>
    cases pure_ok h
    simp
  | cons x xs ih =>
    rw [List.mapM_cons] at h
    obtain ⟨y, hy, h⟩ := bind_ok h
    obtain ⟨rest, hrest, h⟩ := bind_ok h
    cases pure_ok h
    obtain ⟨h1, h2⟩ := ih hrest
    constructor
    · intro z hz
      rcases List.mem_cons.mp hz with rfl | hz
      · exact ⟨x, by simp, hy⟩
      · obtain ⟨w, hw, hwz⟩ := h1 z hz
        exact ⟨w, List.mem_cons_of_mem _ hw, hwz⟩
    · intro w hw
      rcases List.mem_cons.mp hw with rfl | hw
      · exact ⟨y, by simp, hy⟩
      · obtain ⟨z, hz, hwz⟩ := h2 w hw
        exact ⟨z, List.mem_cons_of_mem _ hz, hwz⟩

/-- A map whose every call returns returns. -/
theorem mapM_total (h : ∀ x ∈ xs, ∃ y, f x = .ok y) : ∃ ys, xs.mapM f = .ok ys := by
  induction xs with
  | nil => exact ⟨[], rfl⟩
  | cons x xs ih =>
    obtain ⟨y, hy⟩ := h x List.mem_cons_self
    obtain ⟨ys, hys⟩ := ih fun x' hx' => h x' (List.mem_cons_of_mem _ hx')
    exact ⟨y :: ys, by rw [List.mapM_cons, hy, ok_bind, hys]; rfl⟩

/-- A map that came back keeps what each item keeps, in order. -/
theorem mapM_map {γ : Type} {g : α → γ} {g' : β → γ} (h : xs.mapM f = .ok ys)
    (hf : ∀ x y, f x = .ok y → g' y = g x) : ys.map g' = xs.map g := by
  induction xs generalizing ys with
  | nil =>
    cases pure_ok h
    rfl
  | cons x xs ih =>
    rw [List.mapM_cons] at h
    obtain ⟨y, hy, h⟩ := bind_ok h
    obtain ⟨rest, hrest, h⟩ := bind_ok h
    cases pure_ok h
    rw [List.map_cons, List.map_cons, hf x y hy, ih hrest]

/-- The same of a map where `none` raises. -/
theorem mapM_some {f : α → Option β} (h : xs.mapM f = some ys) :
    ∀ x ∈ xs, ∃ y ∈ ys, f x = some y := by
  induction xs generalizing ys with
  | nil => simp
  | cons x xs ih =>
    rw [List.mapM_cons] at h
    obtain ⟨y, hy, h⟩ := Option.bind_eq_some_iff.mp h
    obtain ⟨rest, hrest, h⟩ := Option.bind_eq_some_iff.mp h
    cases h
    intro z hz
    rcases List.mem_cons.mp hz with rfl | hz
    · exact ⟨y, List.mem_cons_self, hy⟩
    · obtain ⟨w, hw, hfw⟩ := ih hrest z hz
      exact ⟨w, List.mem_cons_of_mem _ hw, hfw⟩

/-- A map where `none` raises came back with the values of its items, in order. -/
theorem mapM_eq_some_iff {f : α → Option β} : xs.mapM f = some ys ↔ xs.map f = ys.map some := by
  induction xs generalizing ys with
  | nil => cases ys <;> simp
  | cons x xs ih =>
    rw [List.mapM_cons]
    cases ys with
    | nil => cases hx : f x <;> cases hxs : xs.mapM f <;> simp
    | cons y ys =>
      rw [List.map_cons, List.map_cons, List.cons.injEq, ← ih]
      cases hx : f x <;> cases hxs : xs.mapM f <;> simp

theorem mapM_length {f : α → Option β} (h : xs.mapM f = some ys) : ys.length = xs.length := by
  have hlength := congrArg List.length (mapM_eq_some_iff.mp h)
  rw [List.length_map, List.length_map] at hlength
  exact hlength.symm

end TraderBot.Lib
