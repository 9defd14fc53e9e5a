import TraderBot.Lib.Machine

/-! # Routines that may be cut off

A component runs a routine effect by effect. Between two effects others may
change the world, an effect may raise, which ends the routine, and a crash may
come at any point: it drops the routine and leaves what a restart leaves.

What holds of every run follows from `Safe`: at each effect a routine performs,
where it may assume `C`, it meets `A` and keeps the invariant, whatever the
surroundings answer and whatever others did before it. -/
namespace TraderBot.Lib

/-- Code that performs effects `ε`, each with an answer of its own type. -/
inductive Routine (ε : Type) (ρ : ε → Type) (α : Type) where
  | done (a : α)
  | raised
  | call (e : ε) (next : ρ e → Routine ε ρ α)

namespace Routine
variable {ε : Type} {ρ : ε → Type} {α β : Type}

def bind (f : α → Routine ε ρ β) : Routine ε ρ α → Routine ε ρ β
  | .done a => f a
  | .raised => .raised
  | .call e next => .call e fun a => bind f (next a)

instance : Monad (Routine ε ρ) where
  pure := .done
  bind x f := x.bind f

/-- One effect and its answer. -/
def perform (e : ε) : Routine ε ρ (ρ e) := .call e .done

/-- All effects the routine can perform meet `P`. -/
def Only (P : ε → Prop) : Routine ε ρ α → Prop
  | .done _ | .raised => True
  | .call e next => P e ∧ ∀ a, Only P (next a)

section Only
variable {P : ε → Prop}

theorem only_perform {e : ε} (h : P e) : (perform e : Routine ε ρ (ρ e)).Only P := ⟨h, fun _ => trivial⟩

theorem only_call {e : ε} {next : ρ e → Routine ε ρ α} (he : P e) (hnext : ∀ a, (next a).Only P) :
    (perform e >>= next).Only P := ⟨he, hnext⟩

theorem only_bind {p : Routine ε ρ α} {f : α → Routine ε ρ β} (hp : p.Only P)
    (hf : ∀ a, (f a).Only P) : (p >>= f).Only P := by
  induction p with
  | done a => exact hf a
  | raised => trivial
  | call e next ih => exact ⟨hp.1, fun a => ih a (hp.2 a)⟩

theorem only_ite {c : Prop} [Decidable c] {p q : Routine ε ρ α} (hp : p.Only P) (hq : q.Only P) :
    (if c then p else q).Only P := by
  by_cases h : c
  · rwa [if_pos h]
  · rwa [if_neg h]

end Only
end Routine

/-- A component: the routine behind each of its calls, what an effect answers
and leaves when the surroundings answer `θ` (no answer when it raises), what
others may do, and what a restart leaves. -/
structure Component (σ κ ε : Type) (ρ : ε → Type) (θ ω : Type) where
  routine : κ → Routine ε ρ Unit
  perform : (e : ε) → θ → σ → Option (ρ e) × σ
  others : ω → σ → σ
  restart : σ → σ

namespace Component
variable {σ κ ε : Type} {ρ : ε → Type} {θ ω : Type}

/-- What happens next: a call, one effect of the routine under way, something
others do, a crash. -/
inductive Input (κ θ ω : Type) where
  | begin (call : κ)
  | go (reading : θ)
  | others (other : ω)
  | crash

structure State (σ ε : Type) (ρ : ε → Type) where
  world : σ
  running : Routine ε ρ Unit

variable (c : Component σ κ ε ρ θ ω)

def init (w : σ) : State σ ε ρ := ⟨w, .done ()⟩

/-- One effect of the routine under way. -/
def advance (x : θ) (s : State σ ε ρ) : State σ ε ρ :=
  match s.running with
  | .call e next =>
    match c.perform e x s.world with
    | (some a, w) => ⟨w, next a⟩
    | (none, w) => ⟨w, .raised⟩
  | .done _ | .raised => s

/-- A call is taken when no routine is under way. -/
def begin (call : κ) (s : State σ ε ρ) : State σ ε ρ :=
  match s.running with
  | .call _ _ => s
  | .done _ | .raised => { s with running := c.routine call }

def step (s : State σ ε ρ) : Input κ θ ω → State σ ε ρ
  | .begin call => c.begin call s
  | .go x => c.advance x s
  | .others o => { s with world := c.others o s.world }
  | .crash => ⟨c.restart s.world, .done ()⟩

def machine : Machine (State σ ε ρ) (Input κ θ ω) Unit where
  step s i := ((), c.step s i)

/-- `P` of the effect this step performs, if it performs one. -/
def At (P : ε → σ → Prop) (s : State σ ε ρ) (i : Input κ θ ω) : Prop :=
  match i with
  | .go _ =>
    match s.running with
    | .call e _ => P e s.world
    | .done _ | .raised => True
  | .begin _ | .others _ | .crash => True

instance {P : ε → σ → Prop} [∀ e w, Decidable (P e w)] (s : State σ ε ρ) (i : Input κ θ ω) :
    Decidable (At P s i) := by
  unfold At
  cases i with
  | go x =>
    cases s.running with
    | call e next => exact inferInstanceAs (Decidable (P e s.world))
    | done _ => exact isTrue trivial
    | raised => exact isTrue trivial
  | begin _ => exact isTrue trivial
  | others _ => exact isTrue trivial
  | crash => exact isTrue trivial

/-! ## One call alone -/

/-- How a call ends: it comes back, raises or is cut off. -/
inductive Ended (α : Type) where
  | returned (a : α)
  | raised
  | cut
  deriving DecidableEq, Repr

section Alone
variable {α : Type}

/-- A routine with what the surroundings answer to one effect after the other. Where
the answers run out it is cut off. -/
def finish : Routine ε ρ α → List θ → σ → Ended α × σ
  | .done a, _, s => (.returned a, s)
  | .raised, _, s => (.raised, s)
  | .call _ _, [], s => (.cut, s)
  | .call e next, x :: xs, s =>
    match c.perform e x s with
    | (some a, w) => finish (next a) xs w
    | (none, w) => (.raised, w)

/-- The effects it performs, each with the world it finds. -/
def performed : Routine ε ρ α → List θ → σ → List (ε × σ)
  | .done _, _, _ => []
  | .raised, _, _ => []
  | .call _ _, [], _ => []
  | .call e next, x :: xs, s => (e, s) ::
    match c.perform e x s with
    | (some a, w) => performed (next a) xs w
    | (none, _) => []

variable {c}

theorem finish_answered {e : ε} {next : ρ e → Routine ε ρ α} {x : θ} {xs : List θ} {s w : σ} {a : ρ e}
    (h : c.perform e x s = (some a, w)) :
    c.finish (.call e next) (x :: xs) s = c.finish (next a) xs w := by
  simp only [finish, h]

end Alone

/-! ## Rules -/

/-- What a proof about a component assumes at each effect (`C`), shows at each
effect (`A`) and keeps throughout (`I`), and what others do meanwhile (`R`). -/
structure Rules (σ ε : Type) where
  C : ε → σ → Prop
  A : ε → σ → Prop
  I : σ → Prop
  R : σ → σ → Prop
  refl : ∀ s, R s s
  trans : ∀ {a b c}, R a b → R b c → R a c

namespace Rules
variable {c} {α β : Type} (r : Rules σ ε)

/-- An assertion others do not break. -/
def Stable (K : σ → Prop) : Prop := ∀ s t, r.I s → r.I t → r.R s t → K s → K t

variable (c) in
/-- From `s`, the routine meets the rules at each of its effects and ends in `Q`. -/
def Safe (Q : α → σ → Prop) : Routine ε ρ α → σ → Prop
  | .done a, s => Q a s
  | .raised, _ => True
  | .call e next, s => ∀ t, r.R s t → r.I t → r.C e t → r.A e t ∧
      ∀ x, r.I (c.perform e x t).2 ∧
        ∀ a, (c.perform e x t).1 = some a → Safe Q (next a) (c.perform e x t).2

variable (c) in
/-- From every state of the invariant in which `K` holds. -/
def Triple (K : σ → Prop) (p : Routine ε ρ α) (Q : α → σ → Prop) : Prop :=
  ∀ s, r.I s → K s → r.Safe c Q p s

variable {r} {K : σ → Prop} {Q : α → σ → Prop}

theorem triple_raised : r.Triple c K .raised Q := fun _ _ _ => trivial

/-- One effect: it meets `A`, keeps the invariant, and what it answers sets up
the rest. -/
theorem triple_call {e : ε} {next : ρ e → Routine ε ρ α} {L : ρ e → σ → Prop} (hK : r.Stable K)
    (hA : ∀ s, r.I s → K s → r.C e s → r.A e s)
    (hI : ∀ s x, r.I s → K s → r.C e s → r.I (c.perform e x s).2)
    (hL : ∀ s x a, r.I s → K s → r.C e s → (c.perform e x s).1 = some a →
      L a (c.perform e x s).2)
    (hnext : ∀ a, r.Triple c (L a) (next a) Q) :
    r.Triple c K (Routine.perform e >>= next) Q := by
  intro s hs hk t hst ht hC
  have hkt : K t := hK s t hs ht hst hk
  refine ⟨hA t ht hkt hC, fun x => ⟨hI t x ht hkt hC, fun a ha => ?_⟩⟩
  exact hnext a _ (hI t x ht hkt hC) (hL t x a ht hkt hC ha)

variable {p : Routine ε ρ α} {f : α → Routine ε ρ β} {Q' : β → σ → Prop} {s : State σ ε ρ}

theorem Triple.weaken {K' : σ → Prop} (h : r.Triple c K p Q) (hK : ∀ s, r.I s → K' s → K s) :
    r.Triple c K' p Q :=
  fun s hs hk => h s hs (hK s hs hk)

/-- A routine of effects that each keep `K`. -/
theorem triple_of_only {P : ε → Prop} (hK : r.Stable K)
    (hA : ∀ e s, P e → r.I s → K s → r.C e s → r.A e s)
    (hkeep : ∀ e s x, P e → r.I s → K s → r.C e s →
      r.I (c.perform e x s).2 ∧ K (c.perform e x s).2) (hp : p.Only P) :
    r.Triple c K p fun _ => K := by
  induction p with
  | done a => exact fun _ _ hk => hk
  | raised => exact triple_raised
  | call e next ih =>
    refine triple_call (L := fun _ => K) hK ?_ ?_ ?_ fun a => ih a (hp.2 a)
    · exact fun s hs hk hC => hA e s hp.1 hs hk hC
    · exact fun s x hs hk hC => (hkeep e s x hp.1 hs hk hC).1
    · exact fun s x _ hs hk hC _ => (hkeep e s x hp.1 hs hk hC).2

theorem safe_bind (hf : ∀ a, r.Triple c (Q a) (f a) Q') {s : σ} (hs : r.I s) (h : r.Safe c Q p s) :
    r.Safe c Q' (p >>= f) s := by
  induction p generalizing s with
  | done a => exact hf a s hs h
  | raised => trivial
  | call e next ih =>
    intro t hst ht hC
    obtain ⟨hA, hgo⟩ := h t hst ht hC
    refine ⟨hA, fun x => ⟨(hgo x).1, fun a ha => ?_⟩⟩
    exact ih a (hgo x).1 ((hgo x).2 a ha)

/-- One part after the other. -/
theorem Triple.bind (h : r.Triple c K p Q) (hf : ∀ a, r.Triple c (Q a) (f a) Q') :
    r.Triple c K (p >>= f) Q' :=
  fun s hs hk => safe_bind hf hs (h s hs hk)

/-- What others do to the world leaves a routine under way safe. -/
theorem Safe.interfere (hQ : ∀ a s t, Q a s → Q a t) {s t : σ} (h : r.Safe c Q p s) (hst : r.R s t) :
    r.Safe c Q p t := by
  cases p with
  | done a => exact hQ a s t h
  | raised => trivial
  | call e next => exact fun u htu => h u (r.trans hst htu)

/-- **A call alone** that is safe and assumes nothing: what it shows of each effect,
what it leaves, and what it comes back with. -/
theorem finish_safe (hC : ∀ e s, r.C e s) {s : σ} (hs : r.I s) (h : r.Safe c Q p s) (xs : List θ) :
    (∀ ew ∈ c.performed p xs s, r.A ew.1 ew.2) ∧ r.I (c.finish p xs s).2 ∧
      ∀ a, (c.finish p xs s).1 = .returned a → Q a (c.finish p xs s).2 := by
  induction p generalizing s xs with
  | done a =>
    refine ⟨nofun, hs, fun b hb => ?_⟩
    cases hb
    exact h
  | raised => exact ⟨nofun, hs, nofun⟩
  | call e next ih =>
    cases xs with
    | nil => exact ⟨nofun, hs, nofun⟩
    | cons x xs =>
      obtain ⟨hA, hgo⟩ := h s (r.refl s) hs (hC e s)
      obtain ⟨hI, hnext⟩ := hgo x
      unfold performed finish
      rcases hp : c.perform e x s with ⟨_ | a, w⟩
      · rw [hp] at hI
        refine ⟨fun ew hew => ?_, hI, nofun⟩
        cases List.mem_singleton.mp hew
        exact hA
      · rw [hp] at hI hnext
        obtain ⟨hperformed, hleft, hreturned⟩ := ih a hI (hnext a rfl) xs
        refine ⟨fun ew hew => ?_, hleft, hreturned⟩
        rcases List.mem_cons.mp hew with rfl | hew
        · exact hA
        · exact hperformed ew hew

/-! ## Runs -/

variable (c r) in
/-- The component keeps to the rules: every call does, and what others do and a
restart keep the invariant. -/
structure Kept : Prop where
  calls : ∀ call, r.Triple c (fun _ => True) (c.routine call) fun _ _ => True
  others : ∀ o s, r.I s → r.I (c.others o s) ∧ r.R s (c.others o s)
  restart : ∀ s, r.I s → r.I (c.restart s)

/-- The world is in the invariant, and the routine under way is safe in it. -/
def Sound (c : Component σ κ ε ρ θ ω) (r : Rules σ ε) (s : State σ ε ρ) : Prop :=
  r.I s.world ∧ r.Safe c (fun _ _ => True) s.running s.world

theorem Sound.advance (h : Sound c r s) (x : θ) (hC : At r.C s (.go x : Input κ θ ω)) :
    At r.A s (.go x : Input κ θ ω) ∧ Sound c r (c.advance x s) := by
  obtain ⟨hI, hsafe⟩ := h
  unfold At at hC ⊢
  unfold Component.advance
  cases hrun : s.running with
  | done a => exact ⟨trivial, hI, hsafe⟩
  | raised => exact ⟨trivial, hI, hsafe⟩
  | call e next =>
    simp only [hrun] at hC hsafe ⊢
    obtain ⟨hA, hgo⟩ := hsafe s.world (r.refl _) hI hC
    obtain ⟨hI', hnext⟩ := hgo x
    refine ⟨hA, ?_⟩
    generalize hp : c.perform e x s.world = out at hI' hnext
    obtain ⟨answer, w⟩ := out
    cases answer with
    | none => exact ⟨hI', trivial⟩
    | some a => exact ⟨hI', hnext a rfl⟩

theorem Kept.step (hkept : r.Kept c) (h : Sound c r s) (i : Input κ θ ω) (hC : At r.C s i) :
    At r.A s i ∧ Sound c r (c.machine.next s i) := by
  cases i with
  | go x => exact h.advance x hC
  | begin call =>
    refine ⟨trivial, ?_⟩
    show Sound c r (c.begin call s)
    unfold Component.begin
    cases hrun : s.running with
    | call e next => exact h
    | done a => exact ⟨h.1, hkept.calls call s.world h.1 trivial⟩
    | raised => exact ⟨h.1, hkept.calls call s.world h.1 trivial⟩
  | others o =>
    obtain ⟨hI, hR⟩ := hkept.others o s.world h.1
    exact ⟨trivial, hI, h.2.interfere (fun _ _ _ _ => trivial) hR⟩
  | crash => exact ⟨trivial, hkept.restart s.world h.1, trivial⟩

/-- **A run whose effects meet the assumption meets the assertion at each
effect, and the invariant holds after it.** -/
theorem Kept.run (hkept : r.Kept c) {w : σ} (hw : r.I w) {is : List (Input κ θ ω)}
    (hC : c.machine.Meets (At r.C) (init w) is) :
    c.machine.Meets (At r.A) (init w) is ∧ r.I (c.machine.after (init w) is).world := by
  have hinit : Sound c r (init w) := ⟨hw, trivial⟩
  refine ⟨Machine.meets_of_meets ?_ hinit hC, ?_⟩
  · exact fun s i hs hi => hkept.step hs i hi
  · exact (Machine.invariant_of_meets (I := Sound c r) (fun s i hs hi => (hkept.step hs i hi).2) hinit
      hC).1

end Rules
end Component
end TraderBot.Lib
