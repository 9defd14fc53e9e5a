import TraderBot.SignalQueue.Fenced

/-! # One busy task for each account

A claim looks for a busy task of its account behind the lock of the queue, and a
registration checks its lease behind the lock of the account. Between its check and
its commit the lease can run out, and then a claim finds the account free. In every
run where that does not happen, no account ever has two busy tasks. -/
namespace TraderBot.SignalQueue
open TraderBot.Lib TraderBot.Lib.Json

section Exclusive
variable {ι : Type} {h : Handoff} {ops : ι → Op} {forbidden : List String} {s s' : QueueState ι}

/-- The task is one of the account and is busy. -/
def BusyIn (w : Store) (accountId id : String) : Prop :=
  ∃ t, w.task id = some t ∧ t.accountId = accountId ∧ t.busy w.clock = true

/-- What is committed, or what a transaction sees. -/
def Seen (s : QueueState ι) (w : Store) : Prop := w = s.store ∨ ∃ i, w = s.view i

/-- What keeps the tasks of an account apart. Over all that anyone sees an account
has one busy task; none, where a claim has found it free and has leased nothing
yet; such a claim holds the queue of the account, and has only changed tasks of
accounts that it found free; and but for claims and registrations, nobody makes a
task busy for longer than it is committed to be. -/
structure Exclusion (ops : ι → Op) (s : QueueState ι) : Prop where
  one : ∀ a w w' id id', Seen s w → Seen s w' → BusyIn w a id → BusyIn w' a id' → id = id'
  free : ∀ i a, .found a ∈ (s.txns i).held → (∀ x, .leased x ∉ (s.txns i).held) →
    ∀ w id, Seen s w → ¬BusyIn w a id
  locked : ∀ i a, .found a ∈ (s.txns i).held → .queue a ∈ (s.txns i).held
  touched : ∀ i, (ops i).isClaim = true → ∀ id b, (s.view i).task id = some b →
    (s.view i).task id ≠ s.store.task id → .found b.accountId ∈ (s.txns i).held
  lasts : ∀ i, (ops i).isClaim = false → (ops i).isRegister = false → ∀ id b,
    (s.view i).task id = some b → ∀ now, b.busy now = true →
      ∃ t, s.store.task id = some t ∧ t.accountId = b.accountId ∧ t.busy now = true

theorem busy_mono {t : SignalTask} {now later : Int} (hle : now ≤ later)
    (hbusy : t.busy later = true) : t.busy now = true := by
  have hahead : ahead t.leaseExpiresAt later = true → ahead t.leaseExpiresAt now = true := by
    intro ha
    simp only [ahead, Option.any_eq_true, decide_eq_true_eq] at ha ⊢
    obtain ⟨x, hx, hlt⟩ := ha
    exact ⟨x, hx, hle.trans_lt hlt⟩
  simp only [SignalTask.busy, Bool.or_eq_true, Bool.and_eq_true] at hbusy ⊢
  tauto

/-- Time leaves a task busy at most. -/
theorem BusyIn.of_row {w w' : Store} {a id : String} (hbusy : BusyIn w a id)
    (hrow : w.task id = w'.task id) (hclock : w'.clock ≤ w.clock) : BusyIn w' a id := by
  obtain ⟨t, ht, haccount, hb⟩ := hbusy
  exact ⟨t, hrow.symm.trans ht, haccount, busy_mono hclock hb⟩

/-! ## Others finish, and time passes -/

/-- What a transaction sees after others left what it holds: its own rows, and
theirs. -/
theorem rows_of_rely {i : ι} (hs : QueueHeld h ops forbidden s) {t : Store}
    (hrely : (queueRules h ops forbidden).Rely (s.txns i).held s.store t) (id : String) :
    ((s.txns i).writes t).task id = t.task id ∨
      (((s.txns i).writes t).task id = (s.view i).task id ∧ t.task id = s.store.task id) := by
  by_cases hheld : .task id ∈ (s.txns i).held
  · have hkept : s.store.task id = t.task id := hrely.kept _ hheld
    have hview : (s.view i).task id = ((s.txns i).writes t).task id :=
      ((hs.sound i).view hrely).kept _ hheld
    exact .inr ⟨hview.symm, hkept.symm⟩
  · exact .inl ((hs.sound i).frame t hrely.kept (.task id) hheld).symm

theorem clock_view (hs : QueueHeld h ops forbidden s) (i : ι) : (s.view i).clock = s.store.clock :=
  (hs.sound i).local_.now s.store

/-- What comes after others finish or time passes: every row is one that someone
saw, and no transaction has more locks. -/
structure Follows (s s' : QueueState ι) : Prop where
  store : ∀ a id, BusyIn s'.store a id → ∃ w, Seen s w ∧ BusyIn w a id
  clock : s.store.clock ≤ s'.store.clock
  txn : ∀ i, ((s'.txns i).held = [] ∧ s'.view i = s'.store) ∨
    ((s'.txns i).held = (s.txns i).held ∧ ∀ id, (s'.view i).task id = s'.store.task id ∨
      ((s'.view i).task id = (s.view i).task id ∧ s'.store.task id = s.store.task id))

theorem Exclusion.follows (hx : Exclusion ops s) (hs : QueueHeld h ops forbidden s)
    (hs' : QueueHeld h ops forbidden s') (hf : Follows s s') : Exclusion ops s' := by
  have hseen : ∀ w a id, Seen s' w → BusyIn w a id → ∃ w', Seen s w' ∧ BusyIn w' a id := by
    intro w a id hw hbusy
    rcases hw with rfl | ⟨i, rfl⟩
    · exact hf.store a id hbusy
    · have hstore : (s'.view i).task id = s'.store.task id → ∃ w', Seen s w' ∧ BusyIn w' a id :=
        fun hrow => hf.store a id (hbusy.of_row hrow (clock_view hs' i).ge)
      rcases hf.txn i with ⟨-, hview⟩ | ⟨-, hrows⟩
      · exact hstore (by rw [hview])
      · rcases hrows id with hrow | ⟨hrow, -⟩
        · exact hstore hrow
        · refine ⟨s.view i, .inr ⟨i, rfl⟩, hbusy.of_row hrow ?_⟩
          rw [clock_view hs, clock_view hs']
          exact hf.clock
  have hheld : ∀ i k, k ∈ (s'.txns i).held → (s'.txns i).held = (s.txns i).held := by
    intro i k hk
    rcases hf.txn i with ⟨hnone, -⟩ | ⟨hsame, -⟩
    · rw [hnone] at hk
      cases hk
    · exact hsame
  refine ⟨fun a w w' id id' hw hw' hbusy hbusy' => ?_, fun i a hfound hleased w id hw hbusy => ?_,
    fun i a hfound => ?_, fun i hclaim id b hb hne => ?_, fun i hclaim hregister id b hb now hbusy => ?_⟩
  · obtain ⟨v, hv, hvbusy⟩ := hseen w a id hw hbusy
    obtain ⟨v', hv', hvbusy'⟩ := hseen w' a id' hw' hbusy'
    exact hx.one a v v' id id' hv hv' hvbusy hvbusy'
  · obtain ⟨v, hv, hvbusy⟩ := hseen w a id hw hbusy
    have hsame := hheld i _ hfound
    rw [hsame] at hfound
    exact hx.free i a hfound (fun x => hsame ▸ hleased x) v id hv hvbusy
  · have hsame := hheld i _ hfound
    rw [hsame] at hfound ⊢
    exact hx.locked i a hfound
  · rcases hf.txn i with ⟨-, hview⟩ | ⟨hsame, hrows⟩
    · exact absurd (congrArg (fun w => w.task id) hview) hne
    · rcases hrows id with hrow | ⟨hrow, hstore⟩
      · exact absurd hrow hne
      · rw [hsame]
        rw [hrow, hstore] at hne
        exact hx.touched i hclaim id b (hrow ▸ hb) hne
  · rcases hf.txn i with ⟨-, hview⟩ | ⟨-, hrows⟩
    · rw [hview] at hb
      exact ⟨b, hb, rfl, hbusy⟩
    · rcases hrows id with hrow | ⟨hrow, hstore⟩
      · exact ⟨b, hrow ▸ hb, rfl, hbusy⟩
      · obtain ⟨t, ht, haccount, hlasts⟩ := hx.lasts i hclaim hregister id b (hrow ▸ hb) now hbusy
        exact ⟨t, hstore ▸ ht, haccount, hlasts⟩

/-- A transaction is over, and what it leaves is what is committed or what it saw. -/
theorem follows_finish [DecidableEq ι] {i : ι} {t : Store} (hs : QueueHeld h ops forbidden s)
    (hrely : ∀ j, j ≠ i → (queueRules h ops forbidden).Rely (s.txns j).held s.store t)
    (ht : Seen s t) (hclock : s.store.clock ≤ t.clock) : Follows s (s.finish i t) where
  store a id hbusy := ⟨t, ht, hbusy⟩
  clock := hclock
  txn j := by
    by_cases hj : j = i
    · subst hj
      exact .inl ⟨by simp [Database.finish, Txn.over], by simp [Database.finish, Database.view, Txn.over]⟩
    · refine .inr ⟨by simp [Database.finish, Function.update_of_ne hj], fun id => ?_⟩
      simpa [Database.finish, Database.view, Function.update_of_ne hj] using rows_of_rely hs (hrely j hj) id

theorem follows_tick (hs : QueueHeld h ops forbidden s) (d : Nat) :
    Follows s { s with store := s.store.tick d } where
  store a id hbusy := by
    refine ⟨s.store, .inl rfl, hbusy.of_row rfl ?_⟩
    exact (same_tick h ops forbidden d s.store).2
  clock := (same_tick h ops forbidden d s.store).2
  txn i := by
    obtain ⟨hsame, hlater⟩ := same_tick h ops forbidden d s.store
    have hevolves : (queueRules h ops forbidden).Evolves s.store (s.store.tick d) :=
      fun k => (queueRules h ops forbidden).evolves_of_same (hsame k)
    refine .inr ⟨rfl, fun id => rows_of_rely hs ⟨hevolves, fun k _ => hsame k, fun k => ?_, hlater⟩ id⟩
    exact (queueRules h ops forbidden).good_of_evolves (hs.good k) hevolves (hsame k)

/-! ## A statement -/

section Statement
variable {i : ι} {locks : Store → List Lock} {write : Store → Store → Store}
  {next : Store → Transaction Unit}

theorem busyIn_of_accountBusy {w : Store} {a : String} (hfree : w.accountBusy a = false)
    (id : String) : ¬BusyIn w a id := by
  rintro ⟨t, ht, haccount, hb⟩
  have hnot := List.any_eq_false.mp hfree t (Store.mem_of_task ht)
  simp [haccount, hb] at hnot

/-- An account that a claim finds free has no busy task anywhere, unless a
registration has made one of it busy for longer than it is committed to be. -/
theorem Exclusion.found (hx : Exclusion ops s) (hs : QueueHeld h ops forbidden s)
    (hshown : Change h ops i (s.txns i).held ((s.txns i).held ++ locks (s.view i)) (s.view i)
      (write (s.view i) (s.view i))) {a : String}
    (hcond : ∀ j, (ops j).isRegister = true → ∀ id, BusyIn (s.view j) a id → BusyIn s.store a id)
    (ha : .found a ∈ (s.txns i).held ++ locks (s.view i)) (hnot : .found a ∉ (s.txns i).held) :
    ∀ w id, Seen s w → ¬BusyIn w a id := by
  intro w id hw hbusy
  obtain ⟨hqueue, hclaim, hfree, -⟩ := hshown.found a ha hnot
  have hview : ¬BusyIn (s.view i) a id := busyIn_of_accountBusy hfree id
  have hstore : ¬BusyIn s.store a id := by
    rintro ⟨t, ht, haccount, hb⟩
    by_cases hrow : (s.view i).task id = s.store.task id
    · exact hview (BusyIn.of_row ⟨t, ht, haccount, hb⟩ hrow.symm (clock_view hs i).le)
    · obtain ⟨b, hbrow, hevolves⟩ := ((hs.sound i).does (.task id)).1 t ht
      have haccount' : b.accountId = a :=
        (congrArg Source.accountId hevolves.source).trans haccount
      exact hnot (haccount' ▸ hx.touched i hclaim id b hbrow hrow)
  rcases hw with rfl | ⟨j, rfl⟩
  · exact hstore hbusy
  cases hclaim' : (ops j).isClaim with
  | true =>
    by_cases hrow : (s.view j).task id = s.store.task id
    · exact hstore (hbusy.of_row hrow (clock_view hs j).ge)
    · obtain ⟨b, hb, haccount, -⟩ := hbusy
      have hfound := hx.touched j hclaim' id b hb hrow
      rw [haccount] at hfound
      by_cases hji : j = i
      · exact hnot (hji ▸ hfound)
      · exact hs.exclusive i j (Ne.symm hji) _ hqueue (hx.locked j a hfound)
  | false =>
    cases hregister : (ops j).isRegister with
    | true => exact hstore (hcond j hregister id hbusy)
    | false =>
      obtain ⟨b, hb, haccount, hbb⟩ := hbusy
      obtain ⟨t, ht, haccount', hlasts⟩ := hx.lasts j hclaim' hregister id b hb _ hbb
      exact hstore ⟨t, ht, haccount'.trans haccount, by rw [← clock_view hs j]; exact hlasts⟩

variable [DecidableEq ι]

/-- **A statement** keeps the tasks of every account apart. -/
theorem Exclusion.execute (hx : Exclusion ops s) (hs : QueueHeld h ops forbidden s)
    (hshown : Change h ops i (s.txns i).held ((s.txns i).held ++ locks (s.view i)) (s.view i)
      (write (s.view i) (s.view i)))
    (hcond : ∀ a, .found a ∈ locks (s.view i) → .found a ∉ (s.txns i).held →
      ∀ j, (ops j).isRegister = true → ∀ id, BusyIn (s.view j) a id → BusyIn s.store a id) :
    Exclusion ops (s.execute i locks write next) := by
  have hheldI : ((s.execute i locks write next).txns i).held =
      (s.txns i).held ++ locks (s.view i) := by simp [Database.execute]
  have hviewI : (s.execute i locks write next).view i = write (s.view i) (s.view i) := by
    simp [Database.execute, Database.view]
  have hheld : ∀ j, j ≠ i → ((s.execute i locks write next).txns j).held = (s.txns j).held :=
    fun j hj => by simp [Database.execute, Function.update_of_ne hj]
  have hview : ∀ j, j ≠ i → (s.execute i locks write next).view j = s.view j :=
    fun j hj => by simp [Database.execute, Database.view, Function.update_of_ne hj]
  have hnewly : ∀ a, .found a ∈ (s.txns i).held ++ locks (s.view i) → .found a ∉ (s.txns i).held →
      ∀ w id, Seen s w → ¬BusyIn w a id := by
    intro a ha hnot
    exact hx.found hs hshown (hcond a ((List.mem_append.mp ha).resolve_left hnot) hnot) ha hnot
  -- what is busy now was busy before, or is the first task this claim leases
  have hseen : ∀ w a id, Seen (s.execute i locks write next) w → BusyIn w a id →
      (∃ w', Seen s w' ∧ BusyIn w' a id) ∨ (.found a ∈ (s.txns i).held ∧
        (∀ x, .leased x ∉ (s.txns i).held) ∧
          ∀ x, .leased x ∈ (s.txns i).held ++ locks (s.view i) ↔ x = id) := by
    intro w a id hw hbusy
    rcases hw with rfl | ⟨j, rfl⟩
    · exact .inl ⟨s.store, .inl rfl, hbusy⟩
    · by_cases hj : j = i
      · subst hj
        rw [hviewI] at hbusy
        obtain ⟨b, hb, rfl, hbb⟩ := hbusy
        rcases hshown.busy id b hb hbb with ⟨t, ht, haccount, htb⟩ | hfirst
        · exact .inl ⟨s.view j, .inr ⟨j, rfl⟩, t, ht, haccount, htb⟩
        · exact .inr hfirst
      · rw [hview j hj] at hbusy
        exact .inl ⟨s.view j, .inr ⟨j, rfl⟩, hbusy⟩
  refine ⟨fun a w w' id id' hw hw' hbusy hbusy' => ?_, fun j a hfound hleased w id hw hbusy => ?_,
    fun j a hfound => ?_, fun j hclaim id b hb hne => ?_, fun j hclaim hregister id b hb now hbusy => ?_⟩
  · rcases hseen w a id hw hbusy with ⟨v, hv, hvb⟩ | ⟨hfound, hnone, hfirst⟩ <;>
      rcases hseen w' a id' hw' hbusy' with ⟨v', hv', hvb'⟩ | ⟨hfound', hnone', hfirst'⟩
    · exact hx.one a v v' id id' hv hv' hvb hvb'
    · exact absurd hvb (hx.free i a hfound' hnone' v id hv)
    · exact absurd hvb' (hx.free i a hfound hnone v' id' hv')
    · exact (hfirst' id).mp ((hfirst id).mpr rfl)
  · by_cases hj : j = i
    · subst hj
      rw [hheldI] at hfound hleased
      have hnone : ∀ x, .leased x ∉ (s.txns j).held :=
        fun x hx' => hleased x (List.mem_append_left _ hx')
      rcases hseen w a id hw hbusy with ⟨v, hv, hvb⟩ | ⟨-, -, hfirst⟩
      · by_cases hold : .found a ∈ (s.txns j).held
        · exact hx.free j a hold hnone v id hv hvb
        · exact hnewly a hfound hold v id hv hvb
      · exact hleased id ((hfirst id).mpr rfl)
    · rw [hheld j hj] at hfound hleased
      rcases hseen w a id hw hbusy with ⟨v, hv, hvb⟩ | ⟨hfound', -, -⟩
      · exact hx.free j a hfound hleased v id hv hvb
      · exact hs.exclusive j i hj _ (hx.locked j a hfound) (hx.locked i a hfound')
  · by_cases hj : j = i
    · subst hj
      rw [hheldI] at hfound ⊢
      refine List.mem_append_left _ ?_
      by_cases hold : .found a ∈ (s.txns j).held
      · exact hx.locked j a hold
      · exact (hshown.found a hfound hold).1
    · rw [hheld j hj] at hfound ⊢
      exact hx.locked j a hfound
  · by_cases hj : j = i
    · subst hj
      rw [hviewI] at hb hne
      rw [hheldI]
      refine List.mem_append_left _ ?_
      by_cases hrow : (write (s.view j) (s.view j)).task id = (s.view j).task id
      · rw [hrow] at hb hne
        exact hx.touched j hclaim id b hb hne
      · exact hshown.touched hclaim id b hb hrow
    · rw [hview j hj] at hb hne
      rw [hheld j hj]
      exact hx.touched j hclaim id b hb hne
  · by_cases hj : j = i
    · subst hj
      rw [hviewI] at hb
      obtain ⟨t, ht, haccount, htb⟩ := hshown.lasts hclaim hregister id b hb now hbusy
      obtain ⟨u, hu, haccount', hub⟩ := hx.lasts j hclaim hregister id t ht now htb
      exact ⟨u, hu, haccount'.trans haccount, hub⟩
    · rw [hview j hj] at hb
      exact hx.lasts j hclaim hregister id b hb now hbusy

end Statement

/-! ## Runs -/

section Runs
variable [DecidableEq ι] [Fintype ι]

/-- The accounts a statement finds free. -/
def foundFree (s : QueueState ι) : QueueEvent ι → List String
  | .move (.run i) =>
    match (s.txns i).point with
    | some (.statement locks _ _) =>
      if s.blocked i (locks (s.view i)) then []
      else (locks (s.view i)).filterMap fun
        | .found a => some a
        | .account _ | .queue _ | .source _ _ | .task _ | .run _ | .leased _ => none
    | some (.done _) | some .raised | none => []
  | .move (.abort _) | .others _ => []

/-- A claim finds an account free while no registration of it, checked and not yet
committed, has outlived the lease of its task. -/
def NotOvertaken (ops : ι → Op) (s : QueueState ι) (e : QueueEvent ι) : Prop :=
  ∀ a ∈ foundFree s e, ∀ j, (ops j).isRegister = true →
    ∀ t ∈ (s.view j).tasks.rows, t.accountId = a → t.busy s.store.clock = true →
      (s.store.task t.taskId).any (fun x => x.busy s.store.clock) = true

instance (ops : ι → Op) (s : QueueState ι) (e : QueueEvent ι) : Decidable (NotOvertaken ops s e) :=
  inferInstanceAs (Decidable (∀ a ∈ _, ∀ _, _ → ∀ t ∈ _, _ → _ → _))

theorem Exclusion.next (hx : Exclusion ops s) (hs : QueueHeld h ops forbidden s) (e : QueueEvent ι)
    (hshown : Rules.Shown (Change h ops) s e) (hcond : NotOvertaken ops s e) :
    Exclusion ops ((machine h ops).next s e) := by
  have hs' := hs.next e
  have hrefl : ∀ j, (queueRules h ops forbidden).Rely (s.txns j).held s.store s.store :=
    fun j => .refl hs.good
  rcases Rules.next_cases (fun i => (ops i).program h) Store.tick s e with
    hn | ⟨i, locks, write, next, rfl, hpoint, hfree, hn⟩ | ⟨i, a, -, -, hn⟩ | ⟨i, hn⟩ | ⟨d, -, hn⟩
  · change (machine h ops).next s e = s at hn
    rwa [hn]
  · change (machine h ops).next s _ = _ at hn
    rw [hn]
    refine hx.execute hs (hshown i locks write next rfl hpoint hfree) fun a ha _ j hregister id hbusy => ?_
    obtain ⟨t, ht, haccount, hb⟩ := hbusy
    have hmem : a ∈ foundFree s (.move (.run i)) := by
      simp only [foundFree, hpoint, hfree, Bool.false_eq_true, if_false]
      exact List.mem_filterMap.mpr ⟨_, ha, rfl⟩
    rw [clock_view hs] at hb
    have hstore := hcond a hmem j hregister t (Store.mem_of_task ht) haccount hb
    obtain ⟨x, hx', hxb⟩ := (Option.any_eq_true _ _).mp hstore
    rw [Store.task_id ht] at hx'
    obtain ⟨b, hbrow, hevolves⟩ := ((hs.sound j).does (.task id)).1 x hx'
    cases ht.symm.trans hbrow
    exact ⟨x, hx', (congrArg Source.accountId hevolves.source).symm.trans haccount, hxb⟩
  · change (machine h ops).next s e = _ at hn
    rw [hn] at hs' ⊢
    exact hx.follows hs hs' (follows_finish hs (fun j hj => hs.commit hj) (.inr ⟨i, rfl⟩)
      (clock_view hs i).ge)
  · change (machine h ops).next s e = _ at hn
    rw [hn] at hs' ⊢
    exact hx.follows hs hs' (follows_finish hs (fun j _ => hrefl j) (.inl rfl) le_rfl)
  · change (machine h ops).next s e = _ at hn
    rw [hn] at hs' ⊢
    exact hx.follows hs hs' (follows_tick hs d)

/-- At most one task of each account is reconciling, or holds an unexpired lease or
a registered request. -/
def OneBusy (s : Store) : Prop :=
  ∀ t ∈ s.tasks.rows, ∀ x ∈ s.tasks.rows, t.accountId = x.accountId → t.busy s.clock = true →
    x.busy s.clock = true → t.taskId = x.taskId

instance (s : Store) : Decidable (OneBusy s) :=
  inferInstanceAs (Decidable (∀ t ∈ _, ∀ x ∈ _, _ → _ → _ → _))

omit [DecidableEq ι] [Fintype ι] in
theorem exclusion_initial (clock : Int) : Exclusion ops (initial h ops clock) := by
  have hrow : ∀ w id, Seen (initial h ops clock) w → w.task id = none := by
    intro w id hw
    rcases hw with rfl | ⟨i, rfl⟩ <;> rfl
  refine ⟨fun a w w' id id' hw _ hbusy _ => ?_, nofun, nofun, fun i _ id b hb => ?_, fun i _ _ id b hb => ?_⟩
  · obtain ⟨t, ht, -⟩ := hbusy
    cases (hrow w id hw).symm.trans ht
  · cases (hrow _ id (.inr ⟨i, rfl⟩)).symm.trans hb
  · cases (hrow _ id (.inr ⟨i, rfl⟩)).symm.trans hb

/-- **Every run in which no claim overtakes a registration** keeps the busy tasks of
every account to one. -/
theorem one_busy_of_run (h : Handoff) (ops : ι → Op) (clock : Int) (es : List (QueueEvent ι))
    (hcond : (machine h ops).Meets (NotOvertaken ops) (initial h ops clock) es) :
    OneBusy ((machine h ops).after (initial h ops clock) es).store := by
  have hrun := (queueHeld_of_run h ops [] nofun
    (fun _ _ _ _ _ => List.not_mem_nil) clock es).1
  have hboth : (machine h ops).Meets (fun s e => (QueueHeld h ops [] s ∧
      Rules.Shown (Change h ops) s e) ∧ NotOvertaken ops s e) (initial h ops clock) es :=
    Machine.meets_and.mpr ⟨hrun, hcond⟩
  have hx := Machine.invariant_of_meets (I := Exclusion ops)
    (fun s e hs he => hs.next he.1.1 e he.1.2 he.2) (exclusion_initial clock) hboth
  intro t ht x hx' haccount hbt hbx
  exact hx.one x.accountId _ _ t.taskId x.taskId (.inl rfl) (.inl rfl)
    ⟨t, Store.task_of_mem ht, haccount, hbt⟩ ⟨x, Store.task_of_mem hx', rfl, hbx⟩

end Runs
end Exclusive

section Sample

theorem one_busy_sample : OneBusy (sampleStore sampleRun) := by
  unfold sampleStore
  exact one_busy_of_run sampleHandoff sampleOps 0 sampleRun (by decide +kernel)

local instance overtaken_pos : NeZero 7 := ⟨by decide⟩

/-- A second task of the account, queued by a slow transaction, and another worker. -/
def overtakenOps : Fin 7 → Op
  | 0 => sampleOps 0
  | 1 => sampleOps 1
  | 2 => sampleOps 2
  | 3 => sampleOps 3
  | 4 => sampleOps 4
  | 5 => .enqueue { taskId := "task2", rawMessageId := "raw2", channelId := "c", sourceMessageId := "m2"
                    editVersion := "1", accountId := some "a", processingPurpose := .signal }
  | 6 => .claim { workerId := "w2", processingPurpose := .signal, claimToken := "token2"
                  processingRunId := "run2", turns := [⟨30 * microseconds + 1, 30 * microseconds + 1⟩] }

/-- The registration has made its update when its lease runs out; the other worker
claims the second task, and then the registration commits. -/
def overtakenRun : List (QueueEvent (Fin 7)) :=
  .move (.run 5) :: .others 1 :: ([0, 1, 2, 3, 5].flatMap fun i => List.replicate 10 (.move (.run i))) ++
    List.replicate 3 (.move (.run 4)) ++ .others (Int.toNat (30 * microseconds)) ::
      List.replicate 12 (.move (.run 6)) ++ [.move (.run 4)]

theorem overtaken_account_has_two :
    ¬OneBusy ((machine sampleHandoff overtakenOps).after (initial sampleHandoff overtakenOps 0)
      overtakenRun).store := by decide +kernel

end Sample
end TraderBot.SignalQueue
