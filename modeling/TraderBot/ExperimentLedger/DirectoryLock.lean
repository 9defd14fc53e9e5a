import TraderBot.Lib.Machine

/-! # The lock of the experiment ledger

`Ledger._lock` makes a directory and writes its own pid into it; `Ledger._unlock`
removes both. A waiter that finds the directory reads how old it is and whose it is,
and removes it when its owner died. Each of these is a file operation of its own, and
the processes take turns between any two of them. -/
namespace TraderBot.ExperimentLedger
open TraderBot.Lib

/-- Where a process is; a waiter carries the turns of its loop that are left. -/
inductive Pc where
  | outside
  | makeDirectory (turns : Nat)
  | writeOwner
  | stat (turns : Nat)
  | ownerExists (turns mtime : Nat)
  | readOwner (turns mtime : Nat)
  | judge (turns mtime : Nat) (owner : Option Nat)
  | unlinkStale (turns : Nat)
  | removeStale (turns : Nat)
  | inside
  | unlink
  | remove
  deriving DecidableEq, Repr

/-- The lock directory: who made it, when it last changed (in seconds), and the pid in
its `owner` file where there is one. -/
structure Directory where
  maker : Nat
  mtime : Nat
  owner : Option Nat
  deriving DecidableEq, Repr

structure State where
  now : Nat
  lock : Option Directory
  pc : Nat → Pc
  crashed : Nat → Bool

/-- What happens next: a process calls `_lock`, does its next file operation, returns to
call `_unlock` or crashes; or time passes. A crashed process' pid may be `reused` by a
program that has nothing to do with the ledger. -/
inductive Label where
  | enter (pid : Nat)
  | run (pid : Nat) (reused : Bool)
  | leave (pid : Nat)
  | crash (pid : Nat)
  | wait (seconds : Nat)
  deriving DecidableEq, Repr

namespace State

def goto (s : State) (pid : Nat) (pc : Pc) : State := { s with pc := Function.update s.pc pid pc }

@[simp] theorem goto_pc_self (s : State) (pid : Nat) (pc : Pc) : (s.goto pid pc).pc pid = pc := by
  show Function.update s.pc pid pc pid = pc
  rw [Function.update_self]

theorem goto_pc_ne (s : State) {pid p : Nat} (pc : Pc) (h : p ≠ pid) : (s.goto pid pc).pc p = s.pc p := by
  show Function.update s.pc pid pc p = s.pc p
  rw [Function.update_of_ne h]

def withLock (s : State) (lock : Option Directory) : State := { s with lock := lock }

/-- `_pid_alive(owner)`. -/
def pidAlive (s : State) (owner : Nat) (reused : Bool) : Bool := !s.crashed owner || reused

/-- The end of a turn of the loop: the next one, or the `LedgerError` of a timeout. -/
def retry (s : State) (pid turns : Nat) : State :=
  match turns with
  | 0 => s.goto pid .outside
  | turns + 1 => s.goto pid (.makeDirectory turns)

/-- `(lock / "owner").unlink(missing_ok=True)`. -/
def unlinked (s : State) : State :=
  match s.lock with
  | some d => if d.owner.isSome then s.withLock (some { d with mtime := s.now, owner := none }) else s
  | none => s

/-- `os.rmdir(lock)`: only an empty directory goes. -/
def removed (s : State) : State :=
  match s.lock with
  | some d => if d.owner.isSome then s else s.withLock none
  | none => s

/-- One file operation of a process. -/
def operate (s : State) (pid : Nat) (reused : Bool) : State :=
  match s.pc pid with
  | .outside | .inside => s
  | .makeDirectory turns =>
    match s.lock with
    | none => (s.withLock (some ⟨pid, s.now, none⟩)).goto pid .writeOwner
    | some _ => s.goto pid (.stat turns)
  | .writeOwner =>
    match s.lock with
    | none => s.goto pid .outside
    | some d =>
      let mtime := if d.owner.isSome then d.mtime else s.now
      (s.withLock (some { d with mtime := mtime, owner := some pid })).goto pid .inside
  | .stat turns =>
    match s.lock with
    | none => s.retry pid turns
    | some d => s.goto pid (.ownerExists turns d.mtime)
  | .ownerExists turns mtime =>
    match s.lock.bind (·.owner) with
    | none => s.goto pid (.judge turns mtime none)
    | some _ => s.goto pid (.readOwner turns mtime)
  | .readOwner turns mtime =>
    match s.lock.bind (·.owner) with
    | none => s.retry pid turns
    | some owner => s.goto pid (.judge turns mtime (some owner))
  | .judge turns mtime owner =>
    let dead := owner.any fun owner => !s.pidAlive owner reused
    if mtime + 60 < s.now ∧ (dead ∨ owner = none) then s.goto pid (.unlinkStale turns)
    else s.retry pid turns
  | .unlinkStale turns => s.unlinked.goto pid (.removeStale turns)
  | .removeStale turns => s.removed.retry pid turns
  | .unlink => s.unlinked.goto pid .remove
  | .remove => s.removed.goto pid .outside

def next (s : State) : Label → State
  | .enter pid => if s.crashed pid = false ∧ s.pc pid = .outside then s.goto pid (.makeDirectory 2999) else s
  | .run pid reused => if s.crashed pid then s else s.operate pid reused
  | .leave pid => if s.crashed pid = false ∧ s.pc pid = .inside then s.goto pid .unlink else s
  | .crash pid => { s with crashed := Function.update s.crashed pid true }
  | .wait seconds => { s with now := s.now + seconds }

end State

/-- Any number of processes at one ledger. -/
def processes : Machine State Label Unit where
  step s label := ((), s.next label)

/-- At most one live process is between a `_lock` that returned and its `_unlock`. -/
def Exclusive (s : State) : Prop :=
  ∀ p q, s.crashed p = false → s.crashed q = false → s.pc p = .inside → s.pc q = .inside → p = q

/-- No live process is at the lock yet; a directory may be left of one that crashed. -/
def Quiet (s : State) : Prop := ∀ p, s.crashed p = false → s.pc p = .outside

/-- Whether a waiter is about to remove the directory it judged. -/
def Pc.removesStale : Pc → Bool
  | .removeStale _ => true
  | _ => false

/-- Where a waiter's `os.rmdir` removes the directory, the maker of it crashed. -/
def RemovesDead (s : State) : Label → Prop
  | .run pid _ => s.crashed pid = false → (s.pc pid).removesStale = true →
      s.lock.all (fun d => d.owner.isSome || s.crashed d.maker) = true
  | _ => True

instance (s : State) : (label : Label) → Decidable (RemovesDead s label)
  | .run _ _ => inferInstanceAs (Decidable (_ → _ → _))
  | .enter _ | .leave _ | .crash _ | .wait _ => isTrue trivial

/-! ## Exclusion -/

/-- Where a process has made the directory and not removed it. -/
def Pc.holds : Pc → Bool
  | .writeOwner | .inside | .unlink | .remove => true
  | _ => false

/-- The directory is there and of the live process that holds it. -/
def Held (s : State) : Prop :=
  ∀ p, s.crashed p = false → (s.pc p).holds = true → ∃ d, s.lock = some d ∧ d.maker = p

theorem Held.exclusive {s : State} (h : Held s) : Exclusive s := by
  intro p q hp hq hpin hqin
  obtain ⟨d, hd, rfl⟩ := h p hp (by rw [hpin]; rfl)
  obtain ⟨d', hd', rfl⟩ := h q hq (by rw [hqin]; rfl)
  rw [Option.some.inj (hd.symm.trans hd')]

section
variable {s : State} {pid : Nat}

/-- A process that does not come to hold the lock leaves the others as they hold it. -/
theorem Held.goto (h : Held s) {pc : Pc} (hpc : pc.holds = true → ∃ d, s.lock = some d ∧ d.maker = pid) :
    Held (s.goto pid pc) := by
  intro p hp hholds
  by_cases heq : p = pid
  · subst heq
    rw [State.goto_pc_self] at hholds
    exact hpc hholds
  · refine h p hp ?_
    rwa [State.goto_pc_ne s pc heq] at hholds

theorem Held.retry (h : Held s) (turns : Nat) : Held (s.retry pid turns) := by
  cases turns with
  | zero => exact h.goto nofun
  | succ turns => exact h.goto nofun

/-- A change of the directory that keeps its maker. -/
theorem Held.withLock (h : Held s) {d d' : Directory} (hd : s.lock = some d) (hmaker : d'.maker = d.maker) :
    Held (s.withLock (some d')) := by
  intro p hp hholds
  obtain ⟨e, he, rfl⟩ := h p hp hholds
  exact ⟨d', rfl, hmaker.trans (congrArg Directory.maker (Option.some.inj (hd.symm.trans he)))⟩

theorem Held.unlinked (h : Held s) : Held s.unlinked := by
  unfold State.unlinked
  cases hd : s.lock with
  | none => exact h
  | some d =>
    dsimp only
    split_ifs
    · exact h.withLock hd rfl
    · exact h

theorem unlinked_lock (s : State) : (s.unlinked.lock).map (·.maker) = s.lock.map (·.maker) := by
  unfold State.unlinked
  cases hd : s.lock with
  | none => rw [hd]
  | some d =>
    dsimp only
    split_ifs
    · rfl
    · rw [hd]

/-- A directory that goes leaves those as they hold it whose it was not. -/
theorem Held.removed (h : Held s) (hgone : ∀ p d, s.crashed p = false → (s.pc p).holds = true →
    s.lock = some d → d.owner = none → d.maker ≠ p) : Held s.removed := by
  unfold State.removed
  cases hd : s.lock with
  | none => exact h
  | some d =>
    dsimp only
    split_ifs with howner
    · exact h
    · intro p hp hholds
      obtain ⟨e, he, hmaker⟩ := h p hp hholds
      cases hd.symm.trans he
      exact absurd hmaker (hgone p d hp hholds hd (by simpa using howner))

end

theorem Held.operate {s : State} (h : Held s) {pid : Nat} {reused : Bool} (hlive : s.crashed pid = false)
    (hdead : RemovesDead s (.run pid reused)) : Held (s.operate pid reused) := by
  have hself : (s.pc pid).holds = true → ∃ d, s.lock = some d ∧ d.maker = pid := h pid hlive
  unfold State.operate
  cases hpc : s.pc pid with
  | outside => exact h
  | inside => exact h
  | makeDirectory turns =>
    dsimp only
    cases hd : s.lock with
    | some d => exact h.goto nofun
    | none =>
      -- nobody held the lock while there was no directory
      intro p hp hholds
      by_cases heq : p = pid
      · exact ⟨_, rfl, heq.symm⟩
      · rw [State.goto_pc_ne _ _ heq] at hholds
        obtain ⟨e, he, -⟩ := h p hp hholds
        exact absurd (hd.symm.trans he) nofun
  | writeOwner =>
    obtain ⟨d, hd, hmaker⟩ := hself (by rw [hpc]; rfl)
    dsimp only
    rw [hd]
    have hwritten : Held (s.withLock (some ⟨d.maker, if d.owner.isSome then d.mtime else s.now, some pid⟩)) :=
      h.withLock hd rfl
    exact hwritten.goto fun _ => ⟨_, rfl, hmaker⟩
  | stat turns =>
    dsimp only
    cases hd : s.lock with
    | none => exact h.retry turns
    | some d => exact h.goto nofun
  | ownerExists turns mtime =>
    dsimp only
    split
    · exact h.goto nofun
    · exact h.goto nofun
  | readOwner turns mtime =>
    dsimp only
    split
    · exact h.retry turns
    · exact h.goto nofun
  | judge turns mtime owner =>
    dsimp only
    split_ifs
    · exact h.goto nofun
    · exact h.retry turns
  | unlinkStale turns => exact h.unlinked.goto nofun
  | removeStale turns =>
    refine (h.removed fun p d hp _ hd howner hmaker => ?_).retry turns
    have hall := hdead hlive (by rw [hpc]; rfl)
    rw [hd, Option.all_some, howner, hmaker, hp] at hall
    cases hall
  | unlink =>
    refine h.unlinked.goto fun _ => ?_
    obtain ⟨d, hd, hmaker⟩ := hself (by rw [hpc]; rfl)
    have hkept := unlinked_lock s
    rw [hd] at hkept
    obtain ⟨e, he, heq⟩ := Option.map_eq_some_iff.mp hkept
    exact ⟨e, he, heq.trans hmaker⟩
  | remove =>
    obtain ⟨d, hd, hmaker⟩ := hself (by rw [hpc]; rfl)
    -- the directory that goes is its own, so no other process held it
    intro p hp hholds
    by_cases heq : p = pid
    · subst heq
      rw [State.goto_pc_self] at hholds
      cases hholds
    · rw [State.goto_pc_ne _ _ heq] at hholds
      have hsame : s.removed.pc = s.pc ∧ s.removed.crashed = s.crashed := by
        unfold State.removed
        rw [hd]
        dsimp only
        split_ifs
        · exact ⟨rfl, rfl⟩
        · exact ⟨rfl, rfl⟩
      obtain ⟨e, he, hmaker'⟩ := h p (hsame.2 ▸ hp) (hsame.1 ▸ hholds)
      cases hd.symm.trans he
      exact absurd (hmaker'.symm.trans hmaker) heq

theorem Held.next {s : State} (h : Held s) {label : Label} (hdead : RemovesDead s label) :
    Held (s.next label) := by
  cases label with
  | enter pid =>
    rw [State.next]
    split_ifs
    · exact h.goto nofun
    · exact h
  | run pid reused =>
    rw [State.next]
    split_ifs with hcrashed
    · exact h
    · exact h.operate (by simpa using hcrashed) hdead
  | leave pid =>
    rw [State.next]
    split_ifs with hin
    · exact h.goto fun _ => h pid hin.1 (by rw [hin.2]; rfl)
    · exact h
  | crash pid =>
    intro p hp hholds
    refine h p ?_ hholds
    by_cases heq : p = pid
    · rw [heq] at hp
      simp [State.next] at hp
    · simpa [State.next, Function.update_of_ne heq] using hp
  | wait seconds => exact h

/-- **The lock excludes as long as waiters remove dead directories only.** -/
theorem lock_excludes {s : State} (hquiet : Quiet s) {labels : List Label}
    (hdead : processes.Meets RemovesDead s labels) :
    ∀ done, done <+: labels → Exclusive (processes.after s done) := by
  rintro done ⟨rest, rfl⟩
  have hstart : Held s := fun p hp hholds => by
    rw [hquiet p hp] at hholds
    cases hholds
  have hheld : Held (processes.after s done) :=
    Machine.invariant_of_meets
      (fun s label (h : Held s) hd => show Held (processes.next s label) from h.next hd) hstart
      (Machine.meets_append.mp hdead).1
  exact hheld.exclusive

/-- No process has called `_lock` yet. -/
def idle : State := ⟨0, none, fun _ => .outside, fun _ => false⟩

def turns (pid n : Nat) : List Label := List.replicate n (.run pid false)

/-- A process takes the lock and crashes; a minute later two more wait, and both judge
its directory stale before the first of them removes it and takes the lock. -/
def judgedTwice : List Label :=
  .enter 1 :: turns 1 2 ++ [.crash 1, .wait 61] ++ .enter 2 :: turns 2 5 ++ .enter 3 :: turns 3 5 ++ turns 2 4

theorem lock_excludes_judgedTwice : Exclusive (processes.after idle judgedTwice) :=
  lock_excludes (fun _ _ => rfl) (by decide +kernel) judgedTwice (List.prefix_refl _)

/-- The second waiter then removes the directory of the first and takes the lock as well. -/
theorem two_inside :
    let s := processes.after idle (judgedTwice ++ turns 3 4)
    Quiet idle ∧ s.crashed 2 = false ∧ s.crashed 3 = false ∧ s.pc 2 = .inside ∧ s.pc 3 = .inside ∧
      ¬ Exclusive s := by
  intro s
  have hpc : s.crashed 2 = false ∧ s.crashed 3 = false ∧ s.pc 2 = .inside ∧ s.pc 3 = .inside := by decide +kernel
  refine ⟨fun _ _ => rfl, hpc.1, hpc.2.1, hpc.2.2.1, hpc.2.2.2, fun h => ?_⟩
  exact absurd (h 2 3 hpc.1 hpc.2.1 hpc.2.2.1 hpc.2.2.2) (by decide)

end TraderBot.ExperimentLedger
