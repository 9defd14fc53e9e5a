import TraderBot.Lib.Machine

/-! # Transactions under READ COMMITTED

A family of transactions, each a sequence of statements. A statement sees what is
committed by then under the transaction's own writes, waits while another one
holds a lock it needs, and keeps its locks until the transaction is over. A
commit puts the writes into the store; a rollback, also one from outside (a
deadlock, a lost connection), drops them. A run interleaves all of it in any
order.

A statement that has to wait for several rows runs when it has them all: rows it
would hold meanwhile are free for others here, so no run is lost. -/
namespace TraderBot.Lib

/-- What a transaction does at a point of its code. A statement names its locks,
its writes and the next point, from what it sees. -/
inductive Action (τ κ δ : Type) where
  | statement (locks : τ → List κ) (write : τ → τ → τ) (next : τ → δ)
  | commit
  | rollback

/-- A query that locks nothing. -/
def Action.read {τ κ δ : Type} (next : τ → δ) : Action τ κ δ := .statement (fun _ => []) (fun _ => id) next

/-- Code of a family of transactions over a store. -/
structure Code (ι τ κ δ : Type) where
  start : ι → δ
  action : ι → δ → Action τ κ δ

/-- A transaction: where it is, what it has written, the locks it holds. -/
structure Txn (τ κ δ : Type) where
  point : Option δ
  writes : τ → τ := id
  held : List κ := []

def Txn.over {τ κ δ : Type} : Txn τ κ δ := { point := none }

/-- The committed store and the transactions. -/
structure Database (ι τ κ δ : Type) where
  store : τ
  txns : ι → Txn τ κ δ

/-- What happens next: a transaction goes on, or is rolled back from outside. -/
inductive Move (ι : Type) where
  | run (i : ι)
  | abort (i : ι)
  deriving DecidableEq, Repr

namespace Database
variable {ι τ κ δ : Type} [DecidableEq ι] (s : Database ι τ κ δ) (i : ι)

/-- What a transaction sees. -/
def view : τ := (s.txns i).writes s.store

/-- The end of a transaction. -/
def finish (store : τ) : Database ι τ κ δ := ⟨store, Function.update s.txns i Txn.over⟩

/-- Another transaction holds one of these locks. -/
def blocked [Fintype ι] [DecidableEq κ] (locks : List κ) : Bool :=
  decide (∃ j, j ≠ i ∧ ∃ k ∈ locks, k ∈ (s.txns j).held)

/-- A statement that has its locks. -/
def execute (locks : τ → List κ) (write : τ → τ → τ) (next : τ → δ) : Database ι τ κ δ :=
  ⟨s.store, Function.update s.txns i
    { point := some (next (s.view i))
      writes := write (s.view i) ∘ (s.txns i).writes
      held := (s.txns i).held ++ locks (s.view i) }⟩

/-- No lock is held twice. -/
def Exclusive : Prop := ∀ i j, i ≠ j → ∀ k ∈ (s.txns i).held, k ∉ (s.txns j).held

end Database

namespace Code
variable {ι τ κ δ : Type} [DecidableEq ι] [Fintype ι] [DecidableEq κ] (c : Code ι τ κ δ)

def init (t : τ) : Database ι τ κ δ := ⟨t, fun i => { point := some (c.start i) }⟩

/-- The next step of a transaction. -/
def step (s : Database ι τ κ δ) (i : ι) : Database ι τ κ δ :=
  match (s.txns i).point with
  | none => s
  | some p =>
    match c.action i p with
    | .statement locks write next =>
      if s.blocked i (locks (s.view i)) then s else s.execute i locks write next
    | .commit => s.finish i (s.view i)
    | .rollback => s.finish i s.store

def move (s : Database ι τ κ δ) : Move ι → Database ι τ κ δ
  | .run i => c.step s i
  | .abort i => s.finish i s.store

def machine : Machine (Database ι τ κ δ) (Move ι) Unit where
  step s m := ((), c.move s m)

variable {c} {s : Database ι τ κ δ} {i : ι}

/-- Everything a step can do. -/
theorem step_cases (s : Database ι τ κ δ) (i : ι) :
    c.step s i = s ∨ ∃ p, (s.txns i).point = some p ∧
      ((∃ locks write next, c.action i p = .statement locks write next ∧
          s.blocked i (locks (s.view i)) = false ∧ c.step s i = s.execute i locks write next) ∨
        (c.action i p = .commit ∧ c.step s i = s.finish i (s.view i)) ∨
        (c.action i p = .rollback ∧ c.step s i = s.finish i s.store)) := by
  unfold step
  cases hp : (s.txns i).point with
  | none => exact .inl rfl
  | some p =>
    cases ha : c.action i p with
    | statement locks write next =>
      cases hb : s.blocked i (locks (s.view i)) with
      | true => exact .inl (by simp [ha, hb])
      | false => exact .inr ⟨p, rfl, .inl ⟨locks, write, next, ha, hb, by simp [ha, hb]⟩⟩
    | commit => exact .inr ⟨p, rfl, .inr (.inl ⟨ha, by simp [ha]⟩)⟩
    | rollback => exact .inr ⟨p, rfl, .inr (.inr ⟨ha, by simp [ha]⟩)⟩

/-- What holds of every transaction by its own code: after each of its statements,
on whatever it may see, and when it is over. -/
theorem forall_txn {L : ι → Txn τ κ δ → Prop} {S : τ → Prop} (hover : ∀ i, L i Txn.over)
    (hstatement : ∀ i x p locks write next, L i x → x.point = some p →
      c.action i p = .statement locks write next → ∀ v, S v →
      L i { point := some (next v), writes := write v ∘ x.writes, held := x.held ++ locks v })
    (h : ∀ i, L i (s.txns i)) (hview : ∀ i, S (s.view i)) (m : Move ι) :
    ∀ i, L i ((c.move s m).txns i) := by
  have hfinish : ∀ i t j, L j ((s.finish i t).txns j) := by
    intro i t j
    by_cases hj : j = i
    · subst hj
      simpa [Database.finish] using hover j
    · simpa [Database.finish, Function.update_of_ne hj] using h j
  cases m with
  | abort i => exact hfinish i s.store
  | run i =>
    intro j
    show L j ((c.step s i).txns j)
    rcases step_cases (c := c) s i with hs | ⟨p, hp, ⟨locks, write, next, ha, -, hs⟩ | ⟨-, hs⟩ | ⟨-, hs⟩⟩
    · rw [hs]
      exact h j
    · rw [hs]
      by_cases hj : j = i
      · subst hj
        simpa [Database.execute] using hstatement j _ p locks write next (h j) hp ha (s.view j)
          (hview j)
      · simpa [Database.execute, Function.update_of_ne hj] using h j
    · rw [hs]
      exact hfinish i _ j
    · rw [hs]
      exact hfinish i _ j

/-- A move leaves the store, or commits what a transaction sees. -/
theorem move_store (s : Database ι τ κ δ) (m : Move ι) :
    (c.move s m).store = s.store ∨ ∃ i p, m = .run i ∧ (s.txns i).point = some p ∧
      c.action i p = .commit ∧ (c.move s m).store = s.view i := by
  cases m with
  | abort i => exact .inl rfl
  | run i =>
    rcases step_cases (c := c) s i with hs | ⟨p, hp, ⟨locks, write, next, -, -, hs⟩ | ⟨ha, hs⟩ | ⟨-, hs⟩⟩
    · exact .inl (congrArg Database.store hs)
    · exact .inl ((congrArg Database.store hs).trans rfl)
    · exact .inr ⟨i, p, rfl, hp, ha, congrArg Database.store hs⟩
    · exact .inl ((congrArg Database.store hs).trans rfl)

omit [DecidableEq ι] [Fintype ι] [DecidableEq κ] in
theorem exclusive_init (c : Code ι τ κ δ) (t : τ) : (c.init t).Exclusive := by
  intro i j _ k hk
  cases hk

theorem exclusive_move (h : s.Exclusive) (m : Move ι) : (c.move s m).Exclusive := by
  have hfinish : ∀ i t, (s.finish i t).Exclusive := by
    intro i t j l hjl k hk hk'
    by_cases hj : j = i
    · subst hj
      simp [Database.finish, Txn.over] at hk
    · by_cases hl : l = i
      · subst hl
        simp [Database.finish, Txn.over] at hk'
      · simp only [Database.finish, Function.update_of_ne hj] at hk
        simp only [Database.finish, Function.update_of_ne hl] at hk'
        exact h j l hjl k hk hk'
  cases m with
  | abort i => exact hfinish i s.store
  | run i =>
    show (c.step s i).Exclusive
    rcases step_cases (c := c) s i with hs | ⟨p, -, ⟨locks, write, next, -, hfree, hs⟩ | ⟨-, hs⟩ | ⟨-, hs⟩⟩
    · rw [hs]
      exact h
    · rw [hs]
      -- a new lock is one that nobody else holds
      have hnew : ∀ j, j ≠ i → ∀ k ∈ locks (s.view i), k ∉ (s.txns j).held := by
        intro j hj k hk hk'
        have : s.blocked i (locks (s.view i)) = true := decide_eq_true ⟨j, hj, k, hk, hk'⟩
        rw [hfree] at this
        cases this
      intro j l hjl k hk hk'
      by_cases hj : j = i
      · subst hj
        simp only [Database.execute, Function.update_self, List.mem_append] at hk
        simp only [Database.execute, Function.update_of_ne (Ne.symm hjl)] at hk'
        rcases hk with hk | hk
        · exact h j l hjl k hk hk'
        · exact hnew l (Ne.symm hjl) k hk hk'
      · by_cases hl : l = i
        · subst hl
          simp only [Database.execute, Function.update_of_ne hj] at hk
          simp only [Database.execute, Function.update_self, List.mem_append] at hk'
          rcases hk' with hk' | hk'
          · exact h j l hjl k hk hk'
          · exact hnew j hj k hk' hk
        · simp only [Database.execute, Function.update_of_ne hj] at hk
          simp only [Database.execute, Function.update_of_ne hl] at hk'
          exact h j l hjl k hk hk'
    · rw [hs]
      exact hfinish i _
    · rw [hs]
      exact hfinish i _

end Code
end TraderBot.Lib
