import TraderBot.Lib.ReadCommitted

/-! # Programs of statements

A transaction as its code has it: it comes back, raises, or makes a statement
and goes on from what the statement saw. A family of programs runs under READ
COMMITTED while the surroundings change the store as well.

What holds of every run follows from `Safe`: each statement does to what its
transaction sees only what `does` allows of it, whatever others committed before,
as long as they left what the transaction holds locks on. -/
namespace TraderBot.Lib

inductive Program (τ κ α : Type) where
  | done (a : α)
  | raised
  | statement (locks : τ → List κ) (write : τ → τ → τ) (next : τ → Program τ κ α)

namespace Program
variable {τ κ α β : Type}

def bind (f : α → Program τ κ β) : Program τ κ α → Program τ κ β
  | .done a => f a
  | .raised => .raised
  | .statement locks write next => .statement locks write fun v => bind f (next v)

instance : Monad (Program τ κ) where
  pure := .done
  bind x f := x.bind f

/-- What comes after a statement; `none` where the database refuses it. -/
def answered : Option α → Program τ κ α
  | some a => .done a
  | none => .raised

/-- One statement and its answer. -/
def perform (locks : τ → List κ) (write : τ → τ → τ) (answer : τ → Option α) : Program τ κ α :=
  .statement locks write fun v => answered (answer v)

/-- A statement that writes nothing. -/
def read (locks : τ → List κ) (answer : τ → α) : Program τ κ α :=
  perform locks (fun _ => id) fun v => some (answer v)

/-- The program alone with a store: its answer and what it leaves, or nothing
when it raises. -/
def alone : Program τ κ α → τ → Option (α × τ)
  | .done a, s => some (a, s)
  | .raised, _ => none
  | .statement _ write next, s => alone (next s) (write s s)

theorem alone_bind (p : Program τ κ α) (f : α → Program τ κ β) (s : τ) :
    (p >>= f).alone s = (p.alone s).bind fun out => (f out.1).alone out.2 := by
  induction p generalizing s with
  | done a => rfl
  | raised => rfl
  | statement locks write next ih => exact ih s (write s s)

variable (locks : τ → List κ)

theorem alone_perform (write : τ → τ → τ) (answer : τ → Option α) (s : τ) :
    (perform locks write answer).alone s = (answer s).map fun a => (a, write s s) := by
  show (answered (answer s)).alone (write s s) = _
  cases answer s <;> rfl

@[simp] theorem alone_read (answer : τ → α) (s : τ) :
    (read locks answer).alone s = some (answer s, s) := alone_perform _ _ _ s

@[simp] theorem alone_pure (a : α) (s : τ) :
    (pure a : Program τ κ α).alone s = some (a, s) := rfl

/-- The transactions of a family of programs. -/
def code {ι : Type} (program : ι → Program τ κ Unit) : Code ι τ κ (Program τ κ Unit) where
  start := program
  action _
    | .done _ => .commit
    | .raised => .rollback
    | .statement locks write next => .statement locks write next

end Program

/-- What happens next: a transaction moves, or the surroundings do. -/
inductive Event (ι ω : Type) where
  | move (m : Move ι)
  | others (o : ω)
  deriving DecidableEq, Repr

section Machine
variable {ι τ κ δ ω : Type} [DecidableEq ι] [Fintype ι] [DecidableEq κ]

/-- The transactions, and surroundings that change the store. -/
def Code.within (c : Code ι τ κ δ) (others : ω → τ → τ) :
    Machine (Database ι τ κ δ) (Event ι ω) Unit where
  step s
    | .move m => ((), c.move s m)
    | .others o => ((), { s with store := others o s.store })

end Machine

/-! ## Rules -/

/-- A store of rows under keys, which are also what locks are taken on: what it
means that a row is the same in two stores, how a row may evolve, when it is
good, that a store is a later one, and that it is one of the same instant. Row by
row, transaction `i` only does what `does i` allows. -/
structure Rules (ι τ κ : Type) where
  same : κ → τ → τ → Prop
  evolves : κ → τ → τ → Prop
  does : ι → κ → τ → τ → Prop
  good : κ → τ → Prop
  later : τ → τ → Prop
  instant : τ → τ → Prop
  equivalence : ∀ k, Equivalence (same k)
  evolves_of_same : ∀ {k s t}, same k s t → evolves k s t
  evolves_trans : ∀ {k s t u}, evolves k s t → evolves k t u → evolves k s u
  does_of_same : ∀ {i k s t}, same k s t → does i k s t
  does_trans : ∀ {i k s t u}, does i k s t → does i k t u → does i k s u
  evolves_of_does : ∀ {i k s t}, does i k s t → evolves k s t
  later_refl : ∀ s, later s s
  later_trans : ∀ {s t u}, later s t → later t u → later s u
  instant_refl : ∀ s, instant s s
  instant_trans : ∀ {s t u}, instant s t → instant t u → instant s u
  later_of_instant : ∀ {s t}, instant s t → later s t
  /-- A row that stays good rows stays good while the others evolve. -/
  good_of_evolves : ∀ {k s t}, good k s → (∀ j, evolves j s t) → same k s t → good k t

namespace Rules
variable {ι τ κ δ α β : Type} (r : Rules ι τ κ)

def Good (s : τ) : Prop := ∀ k, r.good k s

def Evolves (s t : τ) : Prop := ∀ k, r.evolves k s t

/-- What others leave of a store to one who holds locks. -/
structure Rely (held : List κ) (s t : τ) : Prop where
  evolves : r.Evolves s t
  kept : ∀ k ∈ held, r.same k s t
  good : r.Good t
  later : r.later s t

/-- A write that looks at no other row and takes no time. -/
structure Local (f : τ → τ) : Prop where
  same : ∀ {k s t}, r.same k s t → r.same k (f s) (f t)
  later : ∀ {s t}, r.later s t → r.later (f s) (f t)
  now : ∀ s, r.instant s (f s)

variable {r}

theorem same_refl (k : κ) (s : τ) : r.same k s s := (r.equivalence k).refl s

theorem same_symm {k : κ} {s t : τ} (h : r.same k s t) : r.same k t s := (r.equivalence k).symm h

theorem same_trans {k : κ} {s t u : τ} (h : r.same k s t) (h' : r.same k t u) : r.same k s u :=
  (r.equivalence k).trans h h'

theorem Evolves.refl (s : τ) : r.Evolves s s := fun k => r.evolves_of_same (same_refl k s)

theorem Evolves.trans {s t u : τ} (h : r.Evolves s t) (h' : r.Evolves t u) : r.Evolves s u :=
  fun k => r.evolves_trans (h k) (h' k)

theorem Rely.refl {held : List κ} {s : τ} (hs : r.Good s) : r.Rely held s s :=
  ⟨.refl s, fun k _ => same_refl k s, hs, r.later_refl s⟩

theorem Rely.trans {held : List κ} {s t u : τ} (h : r.Rely held s t) (h' : r.Rely held t u) :
    r.Rely held s u :=
  ⟨h.evolves.trans h'.evolves, fun k hk => same_trans (h.kept k hk) (h'.kept k hk), h'.good,
    r.later_trans h.later h'.later⟩

theorem Local.id : r.Local (fun s : τ => s) := ⟨fun h => h, fun h => h, r.instant_refl⟩

theorem Local.comp {f g : τ → τ} (hf : r.Local f) (hg : r.Local g) : r.Local (f ∘ g) :=
  ⟨fun h => hf.same (hg.same h), fun h => hf.later (hg.later h),
    fun s => r.instant_trans (hg.now s) (hf.now (g s))⟩

/-! ### One transaction -/

variable (r) in
/-- What is to show of a statement of transaction `i` that sees `v` and then holds
these locks: its write `f` changes only rows it holds, each as `i` may. -/
structure Fits (i : ι) (held : List κ) (v : τ) (f : τ → τ) : Prop where
  local_ : r.Local f
  does : ∀ k, r.does i k v (f v)
  good : r.Good (f v)
  frame : ∀ t, (∀ k ∈ held, r.same k v t) → ∀ k, k ∉ held → r.same k t (f t)

/-- A statement that writes nothing. -/
theorem Fits.id {i : ι} {held : List κ} {v : τ} (hv : r.Good v) : r.Fits i held v (fun s => s) :=
  ⟨.id, fun k => r.does_of_same (same_refl k v), hv, fun t _ k _ => same_refl k t⟩

/-- Two writes of one statement. -/
theorem Fits.comp {i : ι} {held : List κ} {v : τ} {f g : τ → τ} (hg : r.Fits i held (f v) g)
    (hf : r.Fits i held v f) : r.Fits i held v (g ∘ f) where
  local_ := hg.local_.comp hf.local_
  does k := r.does_trans (hf.does k) (hg.does k)
  good := hg.good
  frame t ht k hk := same_trans (hf.frame t ht k hk)
    (hg.frame (f t) (fun j hj => hf.local_.same (ht j hj)) k hk)

/-- What is shown of each statement beside: from the locks held before and after
it, what it sees and what it leaves. -/
abbrev Assertion (κ τ : Type) := List κ → List κ → τ → τ → Prop

section Safe
variable (r) (i : ι) (A : Assertion κ τ)

/-- With these locks and this view, the program keeps to the rules at each of its
statements and comes back in `Q`. -/
def Safe (Q : α → List κ → τ → Prop) : Program τ κ α → List κ → τ → Prop
  | .done a, held, v => Q a held v
  | .raised, _, _ => True
  | .statement locks write next, held, v => ∀ w, r.Rely held v w →
      r.Fits i (held ++ locks w) w (write w) ∧ A held (held ++ locks w) w (write w w) ∧
        Safe Q (next w) (held ++ locks w) (write w w)

/-- From every good view in which `K` holds. -/
def Triple (K : List κ → τ → Prop) (p : Program τ κ α) (Q : α → List κ → τ → Prop) : Prop :=
  ∀ held v, r.Good v → K held v → r.Safe i A Q p held v

/-- An assertion that others do not break. -/
def Stable (K : List κ → τ → Prop) : Prop := ∀ held v w, r.Rely held v w → K held v → K held w

end Safe

section Triple
variable {i : ι} {A : Assertion κ τ} {K : List κ → τ → Prop} {Q : α → List κ → τ → Prop}

theorem triple_raised : r.Triple i A K .raised Q := fun _ _ _ _ => trivial

/-- One statement: what it does, and what its answer says of what it leaves. -/
theorem triple_perform {locks : τ → List κ} {write : τ → τ → τ} {answer : τ → Option α}
    (hK : r.Stable K)
    (hfits : ∀ held v, r.Good v → K held v → r.Fits i (held ++ locks v) v (write v))
    (hA : ∀ held v, r.Good v → K held v → A held (held ++ locks v) v (write v v))
    (hQ : ∀ held v a, r.Good v → K held v → answer v = some a →
      Q a (held ++ locks v) (write v v)) :
    r.Triple i A K (.perform locks write answer) Q := by
  intro held v _ hk w hrely
  have hkw : K held w := hK held v w hrely hk
  refine ⟨hfits held w hrely.good hkw, hA held w hrely.good hkw, ?_⟩
  show r.Safe i A Q (Program.answered (answer w)) _ _
  cases ha : answer w with
  | none => trivial
  | some a => exact hQ held w a hrely.good hkw ha

variable {p : Program τ κ α} {f : α → Program τ κ β} {Q' : β → List κ → τ → Prop}

theorem Triple.weaken {K' : List κ → τ → Prop} (h : r.Triple i A K p Q)
    (hK : ∀ held v, r.Good v → K' held v → K held v) : r.Triple i A K' p Q :=
  fun held v hv hk => h held v hv (hK held v hv hk)

theorem safe_bind (hf : ∀ a, r.Triple i A (Q a) (f a) Q') {held : List κ} {v : τ} (hv : r.Good v)
    (h : r.Safe i A Q p held v) : r.Safe i A Q' (p >>= f) held v := by
  induction p generalizing held v with
  | done a => exact hf a held v hv h
  | raised => trivial
  | statement locks write next ih =>
    intro w hrely
    obtain ⟨hfits, hA, hnext⟩ := h w hrely
    exact ⟨hfits, hA, ih w hfits.good hnext⟩

/-- One part after the other. -/
theorem Triple.bind (h : r.Triple i A K p Q) (hf : ∀ a, r.Triple i A (Q a) (f a) Q') :
    r.Triple i A K (p >>= f) Q' :=
  fun held v hv hk => safe_bind hf hv (h held v hv hk)

/-- What others do leaves a program under way safe. -/
theorem Safe.rely (hQ : ∀ a, r.Stable (Q a)) {held : List κ} {v w : τ} (h : r.Safe i A Q p held v)
    (hrely : r.Rely held v w) : r.Safe i A Q p held w := by
  cases p with
  | done a => exact hQ a held v w hrely h
  | raised => trivial
  | statement locks write next => exact fun u hu => h u (hrely.trans hu)

end Triple

/-! ### All of them -/

section Runs
variable (r)

/-- What a transaction has written: rows it holds, each as it may. -/
structure Sound (i : ι) (store : τ) (x : Txn τ κ δ) : Prop where
  local_ : r.Local x.writes
  does : ∀ k, r.does i k store (x.writes store)
  good : r.Good (x.writes store)
  frame : ∀ t, (∀ k ∈ x.held, r.same k store t) → ∀ k, k ∉ x.held → r.same k t (x.writes t)

variable {r} {i : ι} {s t : τ} {x : Txn τ κ δ}

theorem sound_over (hs : r.Good s) : r.Sound i s (Txn.over : Txn τ κ δ) :=
  ⟨.id, fun k => r.does_of_same (same_refl k s), hs, fun t _ k _ => same_refl k t⟩

/-- What a transaction sees, after others left what it holds. -/
theorem Sound.view (h : r.Sound i s x) (hrely : r.Rely x.held s t) :
    r.Rely x.held (x.writes s) (x.writes t) := by
  have hkept : ∀ k ∈ x.held, r.same k (x.writes s) (x.writes t) :=
    fun k hk => h.local_.same (hrely.kept k hk)
  have hevolves : r.Evolves (x.writes s) (x.writes t) := by
    intro k
    by_cases hk : k ∈ x.held
    · exact r.evolves_of_same (hkept k hk)
    · have hs := same_symm (h.frame s (fun k _ => same_refl k s) k hk)
      have ht := h.frame t hrely.kept k hk
      exact r.evolves_trans (r.evolves_of_same hs)
        (r.evolves_trans (hrely.evolves k) (r.evolves_of_same ht))
  refine ⟨hevolves, hkept, fun k => ?_, h.local_.later hrely.later⟩
  by_cases hk : k ∈ x.held
  · exact r.good_of_evolves (h.good k) hevolves (hkept k hk)
  · refine r.good_of_evolves (hrely.good k) (fun j => ?_) (h.frame t hrely.kept k hk)
    by_cases hj : j ∈ x.held
    · have hdoes : r.does i j t (x.writes t) :=
        r.does_trans (r.does_of_same (same_symm (hrely.kept j hj)))
          (r.does_trans (h.does j) (r.does_of_same (hkept j hj)))
      exact r.evolves_of_does hdoes
    · exact r.evolves_of_same (h.frame t hrely.kept j hj)

theorem Sound.rely (h : r.Sound i s x) (hrely : r.Rely x.held s t) : r.Sound i t x where
  local_ := h.local_
  does k := by
    by_cases hk : k ∈ x.held
    · exact r.does_trans (r.does_of_same (same_symm (hrely.kept k hk)))
        (r.does_trans (h.does k) (r.does_of_same (h.local_.same (hrely.kept k hk))))
    · exact r.does_of_same (h.frame t hrely.kept k hk)
  good := (h.view hrely).good
  frame u hu := h.frame u fun k hk => same_trans (hrely.kept k hk) (hu k hk)

/-- One more statement. -/
theorem Sound.statement (h : r.Sound i s x) {locks : List κ} {f : τ → τ} {point : Option δ}
    (hfits : r.Fits i (x.held ++ locks) (x.writes s) f) :
    r.Sound i s { point := point, writes := f ∘ x.writes, held := x.held ++ locks } where
  local_ := hfits.local_.comp h.local_
  does k := r.does_trans (h.does k) (hfits.does k)
  good := hfits.good
  frame t ht k hk := by
    have hmine : ∀ j ∈ x.held, r.same j s t := fun j hj => ht j (List.mem_append_left _ hj)
    have hbefore : r.same k t (x.writes t) :=
      h.frame t hmine k fun hmem => hk (List.mem_append_left _ hmem)
    refine same_trans hbefore (hfits.frame (x.writes t) (fun j hj => ?_) k hk)
    exact h.local_.same (ht j hj)

/-- What others read of a commit: rows that only this transaction held changed. -/
theorem Sound.commit (h : r.Sound i s x) {held : List κ} (hfree : ∀ k ∈ held, k ∉ x.held)
    (hlater : ∀ t, r.later t (x.writes t)) : r.Rely held s (x.writes s) where
  evolves k := r.evolves_of_does (h.does k)
  kept k hk := h.frame s (fun k _ => same_refl k s) k (hfree k hk)
  good := h.good
  later := hlater s

end Runs

section Database
variable {ω : Type}

variable (r) in
/-- The store is good, no lock is held twice, and every transaction has kept to
the rules and will. -/
structure Held (A : ι → Assertion κ τ) (s : Database ι τ κ (Program τ κ Unit)) : Prop where
  good : r.Good s.store
  exclusive : s.Exclusive
  sound : ∀ i, r.Sound i s.store (s.txns i)
  safe : ∀ i p, (s.txns i).point = some p →
    r.Safe i (A i) (fun _ _ _ => True) p (s.txns i).held (s.view i)

variable {A : ι → Assertion κ τ} {s : Database ι τ κ (Program τ κ Unit)}
  {program : ι → Program τ κ Unit} {others : ω → τ → τ}

variable {t : τ}

/-- A transaction that others left what it holds goes on as before. -/
theorem Held.elsewhere (h : r.Held A s) {i : ι} (hrely : r.Rely (s.txns i).held s.store t) :
    r.Sound i t (s.txns i) ∧ ∀ p, (s.txns i).point = some p →
      r.Safe i (A i) (fun _ _ _ => True) p (s.txns i).held ((s.txns i).writes t) :=
  ⟨(h.sound i).rely hrely, fun p hp =>
    (h.safe i p hp).rely (fun _ _ _ _ _ _ => trivial) ((h.sound i).view hrely)⟩

variable [DecidableEq ι]

theorem Held.finish (h : r.Held A s) (i : ι) (ht : r.Good t)
    (hrely : ∀ j, j ≠ i → r.Rely (s.txns j).held s.store t) (hexclusive : (s.finish i t).Exclusive) :
    r.Held A (s.finish i t) where
  good := ht
  exclusive := hexclusive
  sound j := by
    by_cases hj : j = i
    · subst hj
      simpa [Database.finish] using sound_over ht
    · simpa [Database.finish, Function.update_of_ne hj] using (h.elsewhere (hrely j hj)).1
  safe j p hp := by
    by_cases hj : j = i
    · subst hj
      simp [Database.finish, Txn.over] at hp
    · simp only [Database.finish, Function.update_of_ne hj] at hp
      simpa [Database.finish, Database.view, Function.update_of_ne hj] using
        (h.elsewhere (hrely j hj)).2 p hp

variable [Fintype ι] [DecidableEq κ]

/-- What is shown of an event: `A` of a statement that runs. -/
def Shown (A : ι → Assertion κ τ) (s : Database ι τ κ (Program τ κ Unit)) (e : Event ι ω) : Prop :=
  ∀ i locks write next, e = .move (.run i) → (s.txns i).point = some (.statement locks write next) →
    s.blocked i (locks (s.view i)) = false →
      A i (s.txns i).held ((s.txns i).held ++ locks (s.view i)) (s.view i)
        (write (s.view i) (s.view i))

omit [DecidableEq ι] [Fintype ι] [DecidableEq κ] in
theorem held_init (hprogram : ∀ i, r.Triple i (A i) (fun held _ => held = []) (program i)
      fun _ _ _ => True) (ht : r.Good t) :
    r.Held A ((Program.code program).init t) where
  good := ht
  exclusive := Code.exclusive_init _ t
  sound i := ⟨.id, fun k => r.does_of_same (same_refl k t), ht, fun u _ k _ => same_refl k u⟩
  safe i p hp := by
    cases hp
    exact hprogram i [] t ht rfl

omit [DecidableEq ι] [Fintype ι] [DecidableEq κ] in
/-- What the others read once a transaction has committed. -/
theorem Held.commit (h : r.Held A s) {i j : ι} (hj : j ≠ i) :
    r.Rely (s.txns j).held s.store (s.view i) :=
  (h.sound i).commit (fun k hk => h.exclusive j i hj k hk) fun t =>
    r.later_of_instant ((h.sound i).local_.now t)

variable (program others) in
/-- Everything that can become of the transactions and the store. -/
theorem next_cases (s : Database ι τ κ (Program τ κ Unit)) (e : Event ι ω) :
    ((Program.code program).within others).next s e = s ∨
      (∃ i locks write next, e = .move (.run i) ∧
        (s.txns i).point = some (.statement locks write next) ∧
        s.blocked i (locks (s.view i)) = false ∧
        ((Program.code program).within others).next s e = s.execute i locks write next) ∨
      (∃ i a, e = .move (.run i) ∧ (s.txns i).point = some (.done a) ∧
        ((Program.code program).within others).next s e = s.finish i (s.view i)) ∨
      (∃ i, ((Program.code program).within others).next s e = s.finish i s.store) ∨
      ∃ o, e = .others o ∧
        ((Program.code program).within others).next s e = { s with store := others o s.store } := by
  cases e with
  | others o => exact .inr (.inr (.inr (.inr ⟨o, rfl, rfl⟩)))
  | move m =>
    cases m with
    | abort i => exact .inr (.inr (.inr (.inl ⟨i, rfl⟩)))
    | run i =>
      rcases Code.step_cases (c := Program.code program) s i with
        hs | ⟨p, hp, ⟨locks, write, next, ha, hfree, hs⟩ | ⟨ha, hs⟩ | ⟨-, hs⟩⟩
      · exact .inl hs
      · refine .inr (.inl ⟨i, locks, write, next, rfl, ?_, hfree, hs⟩)
        cases p with
        | done a => cases ha
        | raised => cases ha
        | statement l w n =>
          cases ha
          exact hp
      · refine .inr (.inr (.inl ?_))
        cases p with
        | done a => exact ⟨i, a, rfl, hp, hs⟩
        | raised => cases ha
        | statement l w n => cases ha
      · exact .inr (.inr (.inr (.inl ⟨i, hs⟩)))

variable (program others) in
/-- Everything that can become of the store. -/
theorem store_next (s : Database ι τ κ (Program τ κ Unit)) (e : Event ι ω) :
    (((Program.code program).within others).next s e).store = s.store ∨
      (∃ i a, e = .move (.run i) ∧ (s.txns i).point = some (.done a) ∧
        (((Program.code program).within others).next s e).store = s.view i) ∨
      ∃ o, e = .others o ∧
        (((Program.code program).within others).next s e).store = others o s.store := by
  rcases next_cases program others s e with
    hs | ⟨i, locks, write, next, -, -, -, hs⟩ | ⟨i, a, he, hp, hs⟩ | ⟨i, hs⟩ | ⟨o, he, hs⟩
  · exact .inl (by rw [hs])
  · exact .inl (by rw [hs]; rfl)
  · exact .inr (.inl ⟨i, a, he, hp, by rw [hs]; rfl⟩)
  · exact .inl (by rw [hs]; rfl)
  · exact .inr (.inr ⟨o, he, by rw [hs]⟩)

omit [Fintype ι] [DecidableEq κ] in
/-- A statement that has its locks. -/
theorem Held.execute (h : r.Held A s) {i : ι} {locks : τ → List κ} {write : τ → τ → τ}
    {next : τ → Program τ κ Unit} (hp : (s.txns i).point = some (.statement locks write next))
    (hexclusive : (s.execute i locks write next).Exclusive) :
    r.Held A (s.execute i locks write next) := by
  have hview : r.Rely (s.txns i).held (s.view i) (s.view i) := .refl (h.sound i).good
  obtain ⟨hfits, -, hnext⟩ := h.safe i _ hp (s.view i) hview
  refine ⟨h.good, hexclusive, fun j => ?_, fun j q hq => ?_⟩
  · by_cases hj : j = i
    · subst hj
      simpa [Database.execute] using (h.sound j).statement hfits
    · simpa [Database.execute, Function.update_of_ne hj] using h.sound j
  · by_cases hj : j = i
    · subst hj
      simp only [Database.execute, Function.update_self, Option.some.injEq] at hq
      subst hq
      simpa [Database.execute, Database.view] using hnext
    · simp only [Database.execute, Function.update_of_ne hj] at hq
      simpa [Database.execute, Database.view, Function.update_of_ne hj] using h.safe j q hq

theorem Held.move (h : r.Held A s) (m : Move ι) : r.Held A ((Program.code program).move s m) := by
  have hexclusive := Code.exclusive_move (c := Program.code program) h.exclusive m
  have hstays : ∀ j, r.Rely (s.txns j).held s.store s.store := fun j => .refl h.good
  have hcases := next_cases program (fun _ : Unit => id) s (.move m)
  change (Program.code program).move s m = s ∨ _ at hcases
  rcases hcases with hs | ⟨i, locks, write, next, -, hp, -, hs⟩ | ⟨i, a, -, -, hs⟩ | ⟨i, hs⟩ | ⟨o, he, -⟩
  · rwa [hs]
  · change (Program.code program).move s m = _ at hs
    rw [hs] at hexclusive ⊢
    exact h.execute hp hexclusive
  · change (Program.code program).move s m = _ at hs
    rw [hs] at hexclusive ⊢
    exact h.finish i (h.sound i).good (fun j hj => h.commit hj) hexclusive
  · change (Program.code program).move s m = _ at hs
    rw [hs] at hexclusive ⊢
    exact h.finish i h.good (fun j _ => hstays j) hexclusive
  · cases he

/-- What is to show of a statement is shown. -/
theorem Held.shown (h : r.Held A s) (e : Event ι ω) : Shown A s e := by
  intro i locks write next _ hp _
  have hview : r.Rely (s.txns i).held (s.view i) (s.view i) := .refl (h.sound i).good
  exact (h.safe i _ hp (s.view i) hview).2.1

/-- **One event.** The rules are still kept. -/
theorem Held.step (h : r.Held A s)
    (hothers : ∀ o s, (∀ k, r.same k s (others o s)) ∧ r.later s (others o s)) (e : Event ι ω) :
    r.Held A (((Program.code program).within others).next s e) := by
  cases e with
  | move m => exact h.move m
  | others o =>
    obtain ⟨hsame, hlater⟩ := hothers o s.store
    have hevolves : r.Evolves s.store (others o s.store) := fun k => r.evolves_of_same (hsame k)
    have hgood : r.Good (others o s.store) :=
      fun k => r.good_of_evolves (h.good k) hevolves (hsame k)
    have hrely : ∀ i, r.Rely (s.txns i).held s.store (others o s.store) :=
      fun i => ⟨hevolves, fun k _ => hsame k, hgood, hlater⟩
    exact ⟨hgood, h.exclusive, fun i => (h.elsewhere (hrely i)).1, fun i => (h.elsewhere (hrely i)).2⟩

/-- **A run of programs that keep to the rules.** Every event shows what it is to
show. -/
theorem held_of_run (hprogram : ∀ i, r.Triple i (A i) (fun held _ => held = []) (program i)
      fun _ _ _ => True) (hothers : ∀ o s, (∀ k, r.same k s (others o s)) ∧ r.later s (others o s))
    (ht : r.Good t) (es : List (Event ι ω)) :
    ((Program.code program).within others).Meets (fun s e => r.Held A s ∧ Shown A s e)
        ((Program.code program).init t) es ∧
      r.Held A (((Program.code program).within others).after ((Program.code program).init t) es) := by
  have hinit := held_init (A := A) hprogram ht
  constructor
  · refine Machine.meets_of_meets (I := r.Held A) (P := fun _ _ => True) (fun s e hs _ => ?_) hinit
      (Machine.meets_of_forall (fun _ _ => trivial) _ es)
    exact ⟨⟨hs, hs.shown e⟩, hs.step hothers e⟩
  · exact Machine.invariant (I := r.Held A) (fun s e hs => hs.step hothers e) hinit es

end Database
end Rules
end TraderBot.Lib
