import TraderBot.Lib.Machine

/-! # Transactions in two phases

A transaction first reads the committed store and later writes what it made of
it, and between the two others may commit. A run interleaves the phases of a
family of transactions in any order; a phase that has to wait for a lock does
nothing. When each write finds a store on which reading again would write the
same (`Fresh`), the run is the serial one in the order of the commits. -/
namespace TraderBot.Lib

inductive Progress (ρ : Type) where
  | waiting
  | reading (r : ρ)
  | finished

def Progress.isFinished {ρ : Type} : Progress ρ → Bool
  | .finished => true
  | .waiting | .reading _ => false

theorem Progress.eq_finished {ρ : Type} {p : Progress ρ} (h : p.isFinished = true) :
    p = .finished := by
  cases p with
  | finished => rfl
  | waiting => cases h
  | reading r => cases h

/-- A family of transactions over a store: what each makes of a store it reads,
`none` where it ends there without a write, and the store after it writes. -/
structure Transactions (ι τ ρ : Type) where
  start : ι → τ → Option ρ
  finish : ι → ρ → τ → τ
  blocked : τ → (ι → Progress ρ) → ι → Bool

namespace Transactions
variable {ι τ ρ : Type} (x : Transactions ι τ ρ)

/-- A store, where each transaction is, and the commits so far. -/
structure State (ι τ ρ : Type) where
  store : τ
  progress : ι → Progress ρ
  commits : List ι

def init (t : τ) : State ι τ ρ := ⟨t, fun _ => .waiting, []⟩

/-- A transaction on its own. -/
def serial (t : τ) (i : ι) : τ :=
  match x.start i t with
  | none => t
  | some r => x.finish i r t

/-- The next phase of one transaction. -/
def step [DecidableEq ι] (s : State ι τ ρ) (i : ι) : State ι τ ρ :=
  if x.blocked s.store s.progress i then s
  else
    match s.progress i with
    | .waiting =>
      match x.start i s.store with
      | none => ⟨s.store, Function.update s.progress i .finished, s.commits ++ [i]⟩
      | some r => { s with progress := Function.update s.progress i (.reading r) }
    | .reading r =>
      ⟨x.finish i r s.store, Function.update s.progress i .finished, s.commits ++ [i]⟩
    | .finished => s

def machine [DecidableEq ι] : Machine (State ι τ ρ) ι Unit where
  step s i := ((), x.step s i)

/-- Writing now is as good as reading again. -/
def Fresh (s : State ι τ ρ) (i : ι) : Prop :=
  ∀ r, s.progress i = .reading r → x.finish i r s.store = x.serial s.store i

/-- The run so far is the serial one in the order of its commits, and what a
transaction has read it read after some of them. -/
structure IsSerial (t : τ) (s : State ι τ ρ) : Prop where
  store : s.store = s.commits.foldl x.serial t
  nodup : s.commits.Nodup
  committed : ∀ i, i ∈ s.commits ↔ s.progress i = .finished
  read : ∀ i r, s.progress i = .reading r →
    ∃ before, before <+: s.commits ∧ x.start i (before.foldl x.serial t) = some r

variable {x} {t : τ} {s : State ι τ ρ} {i : ι}

theorem isSerial_init : x.IsSerial t (init t) where
  store := rfl
  nodup := List.nodup_nil
  committed i := by simp [init]
  read i r h := by cases h

/-- A commit of what the transaction would do on its own. -/
theorem isSerial_commit [DecidableEq ι] (h : x.IsSerial t s) (hi : s.progress i ≠ .finished)
    {store : τ} (hstore : store = x.serial s.store i) :
    x.IsSerial t ⟨store, Function.update s.progress i .finished, s.commits ++ [i]⟩ where
  store := by
    rw [hstore, List.foldl_append, ← h.store]
    rfl
  nodup := by
    have hnot : i ∉ s.commits := fun hmem => hi ((h.committed i).mp hmem)
    exact List.Nodup.append h.nodup (List.nodup_singleton i) (by simpa using hnot)
  committed j := by
    by_cases hj : j = i
    · subst hj
      simp
    · simp [h.committed j, hj]
  read j r hr := by
    by_cases hj : j = i
    · subst hj
      simp at hr
    · obtain ⟨before, hb, hr⟩ := h.read j r (by simpa [Function.update_of_ne hj] using hr)
      exact ⟨before, hb.trans (List.prefix_append _ _), hr⟩

theorem isSerial_step [DecidableEq ι] (h : x.IsSerial t s) (hfresh : x.Fresh s i) :
    x.IsSerial t (x.step s i) := by
  unfold step
  split_ifs with hblocked
  · exact h
  · cases hi : s.progress i with
    | waiting =>
      have hne : s.progress i ≠ .finished := by
        rw [hi]
        nofun
      cases hstart : x.start i s.store with
      | none => exact isSerial_commit h hne (by simp only [serial, hstart])
      | some r =>
        refine ⟨h.store, h.nodup, ?_, ?_⟩
        · intro j
          by_cases hj : j = i
          · subst hj
            simp [h.committed j, hi]
          · simp [Function.update_of_ne hj, h.committed j]
        · intro j r' hr
          by_cases hj : j = i
          · subst hj
            have hr' : Progress.reading r = .reading r' := by simpa using hr
            cases hr'
            exact ⟨s.commits, List.prefix_refl _, by rw [← h.store]; exact hstart⟩
          · exact h.read j r' (by simpa [Function.update_of_ne hj] using hr)
    | reading r =>
      have hne : s.progress i ≠ .finished := by
        rw [hi]
        nofun
      exact isSerial_commit h hne (hfresh r hi)
    | finished => exact h

/-- **A run of fresh writes is serial.** The condition on its steps may use that
it has been so far. -/
theorem isSerial_of_meets [DecidableEq ι] {P : State ι τ ρ → ι → Prop}
    (hfresh : ∀ s i, x.IsSerial t s → P s i → x.Fresh s i) {schedule : List ι}
    (hmeets : x.machine.Meets P (init t) schedule) :
    x.IsSerial t (x.machine.after (init t) schedule) :=
  Machine.invariant_of_meets (m := x.machine) (I := x.IsSerial t)
    (fun s i hs hp => isSerial_step hs (hfresh s i hs hp)) isSerial_init hmeets

end Transactions
end TraderBot.Lib
