import Mathlib

/-! # Machines and their runs

A machine takes one input at a time, answers it and moves on. A run is a list
of inputs; what holds of every run is proved from what one step does, by one of
the rules here: an invariant kept by steps, a relation between the state before
and after a step, and both under a condition that each step meets on the state
before it. -/
namespace TraderBot.Lib

/-- A state machine with inputs `ι` and answers `ο`. -/
structure Machine (σ ι ο : Type) where
  step : σ → ι → ο × σ

namespace Machine
variable {σ ι ο : Type} (m : Machine σ ι ο)

/-- The state after one input. -/
def next (s : σ) (i : ι) : σ := (m.step s i).2

/-- The answer to one input. -/
def answer (s : σ) (i : ι) : ο := (m.step s i).1

/-- The state after a run. -/
def after (s : σ) (is : List ι) : σ := is.foldl m.next s

/-- What an observer of a run keeps who sees each input and its answer. -/
def observe {τ : Type} (f : τ → ι → ο → τ) : σ → τ → List ι → τ
  | _, t, [] => t
  | s, t, i :: is => observe f (m.next s i) (f t i (m.answer s i)) is

/-- Every step of a run meets `P` on the state before it. -/
def Meets (P : σ → ι → Prop) : σ → List ι → Prop
  | _, [] => True
  | s, i :: is => P s i ∧ Meets P (m.next s i) is

instance decidableMeets {P : σ → ι → Prop} [∀ s i, Decidable (P s i)] :
    (s : σ) → (is : List ι) → Decidable (m.Meets P s is)
  | _, [] => isTrue trivial
  | s, i :: is => @instDecidableAnd _ _ _ (decidableMeets (m.next s i) is)

@[simp] theorem after_nil (s : σ) : m.after s [] = s := rfl

@[simp] theorem after_cons (s : σ) (i : ι) (is : List ι) :
    m.after s (i :: is) = m.after (m.next s i) is := rfl

@[simp] theorem after_append (s : σ) (is js : List ι) :
    m.after s (is ++ js) = m.after (m.after s is) js := List.foldl_append

variable {m}

variable {P Q : σ → ι → Prop} {s : σ} {is : List ι} {R : σ → σ → Prop} {I : σ → Prop}

theorem meets_append {js : List ι} :
    m.Meets P s (is ++ js) ↔ m.Meets P s is ∧ m.Meets P (m.after s is) js := by
  induction is generalizing s with
  | nil => simp [Meets]
  | cons i is ih => simp [Meets, ih, and_assoc]

theorem meets_and : m.Meets (fun s i => P s i ∧ Q s i) s is ↔ m.Meets P s is ∧ m.Meets Q s is := by
  induction is generalizing s with
  | nil => simp [Meets]
  | cons i is ih =>
    simp only [Meets, ih]
    tauto

/-- Conditions that agree at every step agree over every run. -/
theorem meets_congr (h : ∀ s i, P s i ↔ Q s i) : m.Meets P s is ↔ m.Meets Q s is := by
  induction is generalizing s with
  | nil => exact Iff.rfl
  | cons i is ih => exact and_congr (h s i) ih

/-- Every step meets `P` when each prefix that can be extended is left by a step
that does. -/
theorem meets_iff_forall_start :
    m.Meets P s is ↔ ∀ js i, js ++ [i] <+: is → P (m.after s js) i := by
  induction is generalizing s with
  | nil => simp [Meets]
  | cons i is ih =>
    rw [Meets, ih]
    constructor
    · rintro ⟨hfirst, hrest⟩ js j hjs
      cases js with
      | nil =>
        obtain ⟨rfl, -⟩ := List.cons_prefix_cons.mp hjs
        exact hfirst
      | cons k js =>
        obtain ⟨rfl, htail⟩ := List.cons_prefix_cons.mp hjs
        exact hrest js j htail
    · intro h
      refine ⟨h [] i ⟨is, rfl⟩, fun js j hjs => ?_⟩
      exact h (i :: js) j (List.cons_prefix_cons.mpr ⟨rfl, hjs⟩)

/-- Each two consecutive states of a run are related when each step relates the
state before it to the one after. -/
theorem consecutive_iff :
    (∀ js i, js ++ [i] <+: is → R (m.after s js) (m.after s (js ++ [i]))) ↔
      m.Meets (fun s i => R s (m.next s i)) s is := by
  rw [meets_iff_forall_start]
  simp only [after_append, after_cons, after_nil]

/-- Conditions that agree at every step from a state of the invariant agree over
every run from one. -/
theorem meets_congr_of_invariant (hinv : ∀ s i, I s → I (m.next s i))
    (h : ∀ s i, I s → (P s i ↔ Q s i)) (hs : I s) : m.Meets P s is ↔ m.Meets Q s is := by
  induction is generalizing s with
  | nil => exact Iff.rfl
  | cons i is ih => exact and_congr (h s i hs) (ih (hinv s i hs))

/-- A condition that no step can fail is met by every run. -/
theorem meets_of_forall (h : ∀ s i, P s i) (s : σ) (is : List ι) : m.Meets P s is := by
  induction is generalizing s with
  | nil => trivial
  | cons i is ih => exact ⟨h s i, ih _⟩

/-- A condition that each step under another one meets, in the invariant it
keeps, is met by every run under that other one. -/
theorem meets_of_meets (hstep : ∀ s i, I s → P s i → Q s i ∧ I (m.next s i)) (hs : I s)
    (hmeets : m.Meets P s is) : m.Meets Q s is := by
  induction is generalizing s with
  | nil => trivial
  | cons i is ih =>
    obtain ⟨hQ, hnext⟩ := hstep s i hs hmeets.1
    exact ⟨hQ, ih hnext hmeets.2⟩

/-- What every conditioned step keeps, every conditioned run keeps. -/
theorem invariant_of_meets (hstep : ∀ s i, I s → P s i → I (m.next s i)) (hs : I s)
    (hmeets : m.Meets P s is) : I (m.after s is) := by
  induction is generalizing s with
  | nil => exact hs
  | cons i is ih => exact ih (hstep s i hs hmeets.1) hmeets.2

/-- What every step keeps, every run keeps. -/
theorem invariant (hstep : ∀ s i, I s → I (m.next s i)) (hs : I s) (is : List ι) :
    I (m.after s is) :=
  invariant_of_meets (P := fun _ _ => True) (fun s i h _ => hstep s i h) hs
    (meets_of_forall (fun _ _ => trivial) s is)

/-- Where a step keeps `C` exactly when it meets `P`, `C` holds throughout a run
exactly when all its steps meet `P`. -/
theorem throughout_iff {P : σ → ι → Prop} {I C : σ → Prop} {is : List ι}
    (hinv : ∀ s, ∀ i ∈ is, I s → C s → I (m.next s i))
    (hstep : ∀ s, ∀ i ∈ is, I s → C s → (C (m.next s i) ↔ P s i)) {s : σ} (hI : I s) (hC : C s) :
    (∀ js, js <+: is → C (m.after s js)) ↔ m.Meets P s is := by
  induction is generalizing s with
  | nil => simp [Meets, hC]
  | cons i is ih =>
    have hrest := @ih (fun s j hj => hinv s j (List.mem_cons_of_mem _ hj))
      fun s j hj => hstep s j (List.mem_cons_of_mem _ hj)
    have hfirst := hstep s i List.mem_cons_self hI hC
    have hnextI := hinv s i List.mem_cons_self hI hC
    constructor
    · intro h
      have hnext : C (m.next s i) := h [i] ⟨is, rfl⟩
      refine ⟨hfirst.mp hnext, (hrest hnextI hnext).mp fun js hjs => ?_⟩
      exact h (i :: js) (List.cons_prefix_cons.mpr ⟨rfl, hjs⟩)
    · rintro ⟨hP, hmeets⟩ js hjs
      cases js with
      | nil => exact hC
      | cons j js =>
        obtain ⟨rfl, hrest'⟩ := List.cons_prefix_cons.mp hjs
        exact (hrest hnextI (hfirst.mpr hP)).mpr hmeets js hrest'

/-- What every conditioned step keeps between the state and the observer's
account of the run, every conditioned run keeps. -/
theorem observe_of_meets {τ : Type} {f : τ → ι → ο → τ} {R : σ → τ → Prop}
    (hstep : ∀ s t i, R s t → P s i → R (m.next s i) (f t i (m.answer s i))) {t : τ} (hs : R s t)
    (hmeets : m.Meets P s is) : R (m.after s is) (m.observe f s t is) := by
  induction is generalizing s t with
  | nil => exact hs
  | cons i is ih => exact ih (hstep s t i hs hmeets.1) hmeets.2

/-- What every step keeps between the state and the observer's account, every
run keeps. -/
theorem observe_invariant {τ : Type} {f : τ → ι → ο → τ} {R : σ → τ → Prop}
    (hstep : ∀ s t i, R s t → R (m.next s i) (f t i (m.answer s i))) {t : τ} (hs : R s t)
    (is : List ι) : R (m.after s is) (m.observe f s t is) :=
  observe_of_meets (P := fun _ _ => True) (fun s t i h _ => hstep s t i h) hs
    (meets_of_forall (fun _ _ => trivial) s is)

/-- A reflexive and transitive relation that each step respects relates the
ends of every run. -/
theorem related (hrefl : ∀ s, R s s) (htrans : ∀ {a b c}, R a b → R b c → R a c)
    (hinv : ∀ s i, I s → I (m.next s i)) (hstep : ∀ s i, I s → R s (m.next s i)) (hs : I s)
    (is : List ι) : R s (m.after s is) := by
  induction is generalizing s with
  | nil => exact hrefl s
  | cons i is ih => exact htrans (hstep s i hs) (ih (hinv s i hs))

end Machine
end TraderBot.Lib
