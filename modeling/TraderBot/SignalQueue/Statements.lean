import TraderBot.SignalQueue.Queue

/-! # What the statements do

One rule for each kind of statement: what is to show of the row it changes so
that it keeps to the rules of the queue, and what is shown of it beside. -/
namespace TraderBot.SignalQueue
open TraderBot.Lib TraderBot.Lib.Json

section Rows
variable {s t : Store} {a b : TaskRow} {r r' : Run}

variable {accountId id : String} (taskId : String)

theorem bound_setTask :
    bound accountId id (s.setTask b) = if id = b.taskId then
      (if b.accountId = accountId then b.operatorIntentId.map (b.toSource, ·) else none)
    else bound accountId id s := by
  unfold bound
  rw [Store.task_setTask]
  split_ifs <;> simp_all

theorem bound_of_task (ha : s.task id = some a) :
    bound accountId id s =
      if a.accountId = accountId then a.operatorIntentId.map (a.toSource, ·) else none := by
  simp only [bound, ha, Option.bind_some]

/-- The row is there and meets the condition, or nothing is updated. -/
theorem updatedTask_cases (where_ : Store → TaskRow → Bool) (set : Store → TaskRow → TaskRow)
    (v : Store) :
    updatedTask taskId where_ set v = none ∨ ∃ a, v.task taskId = some a ∧ where_ v a = true ∧
      updatedTask taskId where_ set v = some (a, set v a) := by
  unfold updatedTask
  cases hrow : v.task taskId with
  | none => exact .inl rfl
  | some a =>
    by_cases hwhere : where_ v a = true
    · exact .inr ⟨a, rfl, hwhere, if_pos hwhere⟩
    · exact .inl (if_neg hwhere)

/-- The task and its run are there and meet the condition, or nothing is updated. -/
theorem eligible_cases (where_ : Store → TaskRow → Run → Bool) (v : Store) :
    eligible taskId where_ v = none ∨ ∃ a r, v.task taskId = some a ∧
      v.currentRun a.toSignalTask = some r ∧ where_ v a r = true ∧
        eligible taskId where_ v = some (a, r) := by
  unfold eligible
  cases hrow : v.task taskId with
  | none => exact .inl rfl
  | some a =>
    cases hrun : v.currentRun a.toSignalTask with
    | none => exact .inl (by simp only [hrun])
    | some r =>
      by_cases hwhere : where_ v a r = true
      · exact .inr ⟨a, r, rfl, hrun, hwhere, by simp only [hrun, if_pos hwhere]⟩
      · refine .inl ?_
        simp only [hrun]
        exact if_neg hwhere

end Rows

section Rules
variable {ι : Type} {h : Handoff} {ops : ι → Op} {forbidden : List String} {i : ι}
  {held : List Lock} {v : Store}

theorem local_setTask (b : TaskRow) : (queueRules h ops forbidden).Local (Store.setTask b) where
  same := by
    intro k s t hst
    cases k with
    | task id =>
      show (s.setTask b).task id = (t.setTask b).task id
      have hrow : s.task id = t.task id := hst
      rw [Store.task_setTask, Store.task_setTask, hrow]
    | run id => exact hst
    | account a =>
      intro id
      have hrow : bound a id s = bound a id t := hst id
      rw [bound_setTask, bound_setTask, hrow]
    | queue | source | found | leased => trivial
  later hst := hst
  now _ := rfl

theorem local_setRun (r : Run) : (queueRules h ops forbidden).Local (Store.setRun r) where
  same := by
    intro k s t hst
    cases k with
    | run id =>
      show (s.setRun r).run id = (t.setRun r).run id
      have hrow : s.run id = t.run id := hst
      rw [Store.run_setRun, Store.run_setRun, hrow]
    | task id => exact hst
    | account a => exact hst
    | queue | source | found | leased => trivial
  later hst := hst
  now _ := rfl

/-! ## One row -/

/-- What is to show of a statement that finds `a` and leaves `b`. -/
structure TaskStep (h : Handoff) (ops : ι → Op) (forbidden : List String) (i : ι)
    (held : List Lock) (v : Store) (a b : TaskRow) : Prop where
  key : b.taskId = a.taskId
  evolves : TaskEvolves a b
  good : GoodTask forbidden v b
  authorized : ∀ p, (ops i).presents h = some p → a.taskId = p.taskId ∧ a.claimToken = p.claimToken
  binds : b.operatorIntentId = a.operatorIntentId ∨
    (.account a.accountId ∈ held ∧ Accepts ops i a.accountId v (v.setTask b))

variable {s : Store} {locks : List Lock}

theorem TaskStep.bound_eq {a b : TaskRow} (hstep : TaskStep h ops forbidden i held v a b)
    (ha : s.task a.taskId = some a) {accountId : String}
    (hother : b.operatorIntentId = a.operatorIntentId ∨ a.accountId ≠ accountId) (id : String) :
    bound accountId id s = bound accountId id (s.setTask b) := by
  rw [bound_setTask]
  split_ifs with hid hb
  · rw [hid, hstep.key, bound_of_task ha]
    have hsource := hstep.evolves.source
    have haccount : b.accountId = a.accountId := congrArg Source.accountId hsource
    rw [if_pos (haccount.symm.trans hb), hsource]
    rcases hother with hop | hne
    · rw [hop]
    · exact absurd (haccount.symm.trans hb) hne
  · rw [hid, hstep.key, bound_of_task ha]
    have haccount : b.accountId = a.accountId := congrArg Source.accountId hstep.evolves.source
    rw [if_neg fun ha' => hb (haccount.trans ha')]
  · rfl

theorem TaskStep.fits {a b : TaskRow} (hstep : TaskStep h ops forbidden i held v a b)
    (hv : (queueRules h ops forbidden).Good v) (ha : v.task a.taskId = some a)
    (hheld : .task a.taskId ∈ held) : (queueRules h ops forbidden).Fits i held v (Store.setTask b) where
  local_ := local_setTask b
  does k := by
    cases k with
    | task id =>
      by_cases hid : id = b.taskId
      · have hida : id = a.taskId := hid.trans hstep.key
        subst hida
        refine ⟨fun x hx => ⟨b, by rw [Store.task_setTask, if_pos hid], ?_⟩, .inr fun p hp => ?_⟩
        · cases ha.symm.trans hx
          exact hstep.evolves
        · obtain ⟨htask, htoken⟩ := hstep.authorized p hp
          exact ⟨htask, a, ha, htoken⟩
      · have hsame : v.task id = (v.setTask b).task id := by rw [Store.task_setTask, if_neg hid]
        exact rowDoes_of_same (h := h) (k := .task id) hsame
    | run id => exact rowDoes_of_same (h := h) (k := .run id) rfl
    | account accountId =>
      rcases hstep.binds with hop | ⟨-, haccepts⟩
      · exact rowDoes_of_same (h := h) (k := .account accountId) (hstep.bound_eq ha (.inl hop))
      · by_cases haccount : a.accountId = accountId
        · subst haccount
          exact haccepts
        · exact rowDoes_of_same (h := h) (k := .account accountId) (hstep.bound_eq ha (.inr haccount))
    | queue | source | found | leased => trivial
  good k := by
    cases k with
    | task id =>
      intro x hx
      have hruns : ∀ id, RowEvolves (.run id) v (v.setTask b) := fun id r hr => ⟨r, hr, rfl⟩
      rw [Store.task_setTask] at hx
      split_ifs at hx
      · cases hx
        exact hstep.good.of_evolves hruns
      · exact (hv (.task id) x hx).of_evolves hruns
    | run | account | queue | source | found | leased => trivial
  frame t ht k hk := by
    have hat : t.task a.taskId = some a := (show v.task a.taskId = t.task a.taskId from ht _ hheld).symm.trans ha
    cases k with
    | task id =>
      show t.task id = (t.setTask b).task id
      rw [Store.task_setTask, if_neg]
      rintro rfl
      exact hk (hstep.key ▸ hheld)
    | run id => rfl
    | account accountId =>
      refine hstep.bound_eq hat ?_
      rcases hstep.binds with hop | ⟨haccount, -⟩
      · exact .inl hop
      · refine .inr ?_
        rintro rfl
        exact hk haccount
    | queue | source | found | leased => trivial

/-- What is to show of a statement that finds the run `r` and leaves `r'`. -/
structure RunStep (h : Handoff) (ops : ι → Op) (i : ι) (r r' : Run) : Prop where
  evolves : RunEvolves r r'
  authorized : ∀ p, (ops i).presents h = some p → r.claimToken = p.claimToken

theorem RunStep.fits {r r' : Run} (hstep : RunStep h ops i r r')
    (hv : (queueRules h ops forbidden).Good v) (hr : v.run r.processingRunId = some r)
    (hheld : .run r.processingRunId ∈ held) :
    (queueRules h ops forbidden).Fits i held v (Store.setRun r') := by
  have hkey : r'.processingRunId = r.processingRunId := by rw [hstep.evolves]
  have hevolves : ∀ id, RowEvolves (.run id) v (v.setRun r') := by
    intro id x hx
    rw [Store.run_setRun]
    split_ifs with hid
    · rw [hid, hkey, hr] at hx
      cases hx
      exact ⟨r', rfl, hstep.evolves⟩
    · exact ⟨x, hx, rfl⟩
  refine ⟨local_setRun r', fun k => ?_, fun k => ?_, fun t ht k hk => ?_⟩
  · cases k with
    | run id =>
      refine ⟨hevolves id, ?_⟩
      by_cases hid : id = r'.processingRunId
      · refine .inr fun p hp => ⟨r, ?_, hstep.authorized p hp⟩
        rw [hid, hkey]
        exact hr
      · exact .inl (by rw [Store.run_setRun, if_neg hid])
    | task id => exact rowDoes_of_same (h := h) (k := .task id) rfl
    | account accountId => exact rowDoes_of_same (h := h) (k := .account accountId) fun _ => rfl
    | queue | source | found | leased => trivial
  · cases k with
    | task id => exact fun x hx => (hv (.task id) x hx).of_evolves hevolves
    | run | account | queue | source | found | leased => trivial
  · cases k with
    | run id =>
      show t.run id = (t.setRun r').run id
      rw [Store.run_setRun, if_neg]
      rintro rfl
      exact hk (hkey ▸ hheld)
    | task id => rfl
    | account accountId => exact fun _ => rfl
    | queue | source | found | leased => trivial

/-- The end of several runs in one statement. -/
theorem fits_setTimedOut (hp : (ops i).presents h = none) (rs : List Run)
    (hv : (queueRules h ops forbidden).Good v)
    (hrs : ∀ r ∈ rs, v.run r.processingRunId = some r ∧ .run r.processingRunId ∈ held)
    (hunique : (rs.map (·.processingRunId)).Nodup) :
    (queueRules h ops forbidden).Fits i held v (Store.setTimedOut rs) := by
  induction rs generalizing v with
  | nil => exact .id hv
  | cons r rs ih =>
    obtain ⟨hr, hheld⟩ := hrs r List.mem_cons_self
    have hstep : RunStep h ops i r (timedOut r) := ⟨rfl, fun p hp' => by cases hp.symm.trans hp'⟩
    have hfirst : (queueRules h ops forbidden).Fits i held v _ := hstep.fits hv hr hheld
    obtain ⟨hnot, hrest⟩ := List.nodup_cons.mp hunique
    refine (ih hfirst.good (fun x hx => ?_) hrest).comp hfirst
    obtain ⟨hx', hheld'⟩ := hrs x (List.mem_cons_of_mem _ hx)
    refine ⟨?_, hheld'⟩
    rw [Store.run_setRun, if_neg]
    · exact hx'
    · intro heq
      exact hnot (List.mem_map.mpr ⟨x, hx, heq⟩)

theorem tasks_setTimedOut (rs : List Run) (s : Store) :
    (s.setTimedOut rs).tasks = s.tasks ∧ (s.setTimedOut rs).clock = s.clock := by
  induction rs generalizing s with
  | nil => exact ⟨rfl, rfl⟩
  | cons r rs ih => exact ih (s.setRun (timedOut r))

/-! ## Rows that are new -/

theorem fits_insertRun {r : Run} (hp : (ops i).presents h = none)
    (hv : (queueRules h ops forbidden).Good v) (hr : v.run r.processingRunId = none)
    (hheld : .run r.processingRunId ∈ held) :
    (queueRules h ops forbidden).Fits i held v (Store.setRun r) := by
  have hevolves : ∀ id, RowEvolves (.run id) v (v.setRun r) := by
    intro id x hx
    rw [Store.run_setRun, if_neg]
    · exact ⟨x, hx, rfl⟩
    · rintro rfl
      cases hr.symm.trans hx
  refine ⟨local_setRun r, fun k => ?_, fun k => ?_, fun t _ k hk => ?_⟩
  · cases k with
    | run id =>
      refine ⟨hevolves id, .inr fun p hp' => ?_⟩
      cases hp.symm.trans hp'
    | task id => exact rowDoes_of_same (h := h) (k := .task id) rfl
    | account accountId => exact rowDoes_of_same (h := h) (k := .account accountId) fun _ => rfl
    | queue | source | found | leased => trivial
  · cases k with
    | task id => exact fun x hx => (hv (.task id) x hx).of_evolves hevolves
    | run | account | queue | source | found | leased => trivial
  · cases k with
    | run id =>
      show t.run id = (t.setRun r).run id
      rw [Store.run_setRun, if_neg]
      rintro rfl
      exact hk hheld
    | task id => rfl
    | account accountId => exact fun _ => rfl
    | queue | source | found | leased => trivial

theorem fits_insertTask {b : TaskRow} (hp : (ops i).presents h = none)
    (hv : (queueRules h ops forbidden).Good v) (hb : v.task b.taskId = none)
    (hgood : GoodTask forbidden v b) (hop : b.operatorIntentId = none)
    (hheld : .task b.taskId ∈ held) :
    (queueRules h ops forbidden).Fits i held v (Store.setTask b) := by
  have hbound : ∀ s : Store, s.task b.taskId = none → ∀ accountId id,
      bound accountId id s = bound accountId id (s.setTask b) := by
    intro s hs accountId id
    rw [bound_setTask]
    split_ifs with hid
    · rw [hid, bound, hs, hop]
      rfl
    · rw [hid, bound, hs]
      rfl
    · rfl
  refine ⟨local_setTask b, fun k => ?_, fun k => ?_, fun t ht k hk => ?_⟩
  · cases k with
    | task id =>
      refine ⟨fun x hx => ⟨x, ?_, .refl x⟩, .inr fun p hp' => ?_⟩
      · rw [Store.task_setTask, if_neg]
        · exact hx
        · rintro rfl
          cases hb.symm.trans hx
      · cases hp.symm.trans hp'
    | run id => exact rowDoes_of_same (h := h) (k := .run id) rfl
    | account accountId =>
      exact rowDoes_of_same (h := h) (k := .account accountId) (hbound v hb accountId)
    | queue | source | found | leased => trivial
  · cases k with
    | task id =>
      intro x hx
      have hruns : ∀ id, RowEvolves (.run id) v (v.setTask b) := fun id r hr => ⟨r, hr, rfl⟩
      rw [Store.task_setTask] at hx
      split_ifs at hx
      · cases hx
        exact hgood.of_evolves hruns
      · exact (hv (.task id) x hx).of_evolves hruns
    | run | account | queue | source | found | leased => trivial
  · have hnone : t.task b.taskId = none :=
      (show v.task b.taskId = t.task b.taskId from ht _ hheld).symm.trans hb
    cases k with
    | task id =>
      show t.task id = (t.setTask b).task id
      rw [Store.task_setTask, if_neg]
      rintro rfl
      exact hk hheld
    | run id => rfl
    | account accountId => exact hbound t hnone accountId
    | queue | source | found | leased => trivial

/-! ## What is shown beside -/

/-- What is shown of each statement. A writer changes only the task and the run
that carry its token, and unless it is the one for a past lease, only under an
unexpired one. A task becomes busy only where it was, or where a claim that found
its account free leases its first task; and a writer that is no registration leaves
no task busy for longer than it was. A claim finds an account free only behind the
lock of the queue, and changes only tasks of accounts it found free. -/
structure Change (h : Handoff) (ops : ι → Op) (i : ι) (held held' : List Lock) (v w : Store) :
    Prop where
  tasks : ∀ p, (ops i).presents h = some p → ∀ id, w.task id ≠ v.task id → id = p.taskId ∧
    ∃ a, v.task id = some a ∧ a.claimToken = p.claimToken ∧
      ((ops i).needsLease = true → ahead a.leaseExpiresAt v.clock = true)
  runs : ∀ p, (ops i).presents h = some p → ∀ id, w.run id ≠ v.run id →
    ∃ r, v.run id = some r ∧ r.claimToken = p.claimToken ∧
      ((ops i).needsLease = true → ahead r.leaseExpiresAt v.clock = true)
  busy : ∀ id b, w.task id = some b → b.busy w.clock = true →
    (∃ a, v.task id = some a ∧ a.accountId = b.accountId ∧ a.busy v.clock = true) ∨
      (.found b.accountId ∈ held ∧ (∀ x, .leased x ∉ held) ∧ ∀ x, .leased x ∈ held' ↔ x = id)
  lasts : (ops i).isClaim = false → (ops i).isRegister = false → ∀ id b, w.task id = some b →
    ∀ now, b.busy now = true → ∃ a, v.task id = some a ∧ a.accountId = b.accountId ∧ a.busy now = true
  found : ∀ a, .found a ∈ held' → .found a ∉ held →
    .queue a ∈ held ∧ (ops i).isClaim = true ∧ v.accountBusy a = false ∧ w = v
  touched : (ops i).isClaim = true → ∀ id b, w.task id = some b → w.task id ≠ v.task id →
    .found b.accountId ∈ held

theorem Change.refl (hlocks : ∀ a, .found a ∉ locks) :
    Change h ops i held (held ++ locks) v v where
  tasks _ _ id hid := absurd rfl hid
  runs _ _ id hid := absurd rfl hid
  busy _ b hb hbusy := .inl ⟨b, hb, rfl, hbusy⟩
  lasts _ _ _ b hb _ hbusy := ⟨b, hb, rfl, hbusy⟩
  found a ha hnot := by
    rcases List.mem_append.mp ha with ha | ha
    · exact absurd ha hnot
    · exact absurd ha (hlocks a)
  touched _ id _ _ hid := absurd rfl hid

/-- What is to show beside of a statement that finds `a` and leaves `b`. -/
structure TaskShown (h : Handoff) (ops : ι → Op) (i : ι) (held marks : List Lock) (v : Store)
    (a b : TaskRow) : Prop where
  lease : ((ops i).presents h).isSome = true → (ops i).needsLease = true →
    ahead a.leaseExpiresAt v.clock = true
  busy : b.busy v.clock = true → a.busy v.clock = true ∨
    (.found a.accountId ∈ held ∧ (∀ x, .leased x ∉ held) ∧ ∀ x, .leased x ∈ marks ↔ x = a.taskId)
  lasts : (ops i).isClaim = false → (ops i).isRegister = false → ∀ now, b.busy now = true →
    a.busy now = true
  touched : (ops i).isClaim = true → .found a.accountId ∈ held

theorem TaskShown.change {a b : TaskRow} (hshown : TaskShown h ops i held locks v a b)
    (hstep : TaskStep h ops forbidden i (held ++ locks) s a b) (ha : v.task a.taskId = some a)
    (hlocks : ∀ x, .found x ∉ locks) (hclock : s.clock = v.clock)
    (htasks : ∀ id, s.task id = v.task id)
    (hruns : ∀ p, (ops i).presents h = some p → ∀ id, s.run id ≠ v.run id →
      ∃ r, v.run id = some r ∧ r.claimToken = p.claimToken ∧
        ((ops i).needsLease = true → ahead r.leaseExpiresAt v.clock = true)) :
    Change h ops i held (held ++ locks) v (s.setTask b) := by
  have haccount : b.accountId = a.accountId := congrArg Source.accountId hstep.evolves.source
  have hrow : ∀ id, (s.setTask b).task id = if id = a.taskId then some b else v.task id := by
    intro id
    rw [Store.task_setTask, hstep.key, htasks]
  refine ⟨fun p hp id hid => ?_, fun p hp id hid => hruns p hp id hid, fun id x hx hbusy => ?_,
    fun hclaim hregister id x hx now hbusy => ?_, fun x hx hnot => ?_, fun hclaim id x hx hid => ?_⟩
  · rw [hrow] at hid
    split_ifs at hid with hida
    · subst hida
      obtain ⟨htask, htoken⟩ := hstep.authorized p hp
      exact ⟨htask, a, ha, htoken, hshown.lease (by rw [hp]; rfl)⟩
    · exact absurd rfl hid
  · rw [hrow] at hx
    have hnow : (s.setTask b).clock = v.clock := hclock
    rw [hnow] at hbusy
    split_ifs at hx with hida
    · cases hx
      subst hida
      rcases hshown.busy hbusy with hbusy' | ⟨hfound, hfirst, hmark⟩
      · exact .inl ⟨a, ha, haccount.symm, hbusy'⟩
      · refine .inr ⟨haccount ▸ hfound, hfirst, fun x => ?_⟩
        rw [List.mem_append, hmark]
        exact ⟨fun hx => hx.resolve_left (hfirst x), .inr⟩
    · exact .inl ⟨x, hx, rfl, hbusy⟩
  · rw [hrow] at hx
    split_ifs at hx with hida
    · cases hx
      subst hida
      exact ⟨a, ha, haccount.symm, hshown.lasts hclaim hregister now hbusy⟩
    · exact ⟨x, hx, rfl, hbusy⟩
  · rcases List.mem_append.mp hx with hx | hx
    · exact absurd hx hnot
    · exact absurd hx (hlocks x)
  · rw [hrow] at hx hid
    split_ifs at hx hid with hida
    · cases hx
      exact haccount ▸ hshown.touched hclaim
    · exact absurd rfl hid

/-- A statement that leaves the tasks as they are. -/
theorem change_of_runs {w : Store} (hlocks : ∀ x, .found x ∉ locks)
    (htasks : ∀ id, w.task id = v.task id) (hclock : w.clock = v.clock)
    (hruns : ∀ p, (ops i).presents h = some p → ∀ id, w.run id ≠ v.run id →
      ∃ r, v.run id = some r ∧ r.claimToken = p.claimToken ∧
        ((ops i).needsLease = true → ahead r.leaseExpiresAt v.clock = true)) :
    Change h ops i held (held ++ locks) v w where
  tasks _ _ id hid := absurd (htasks id) hid
  runs := hruns
  busy id b hb hbusy := .inl ⟨b, (htasks id).symm.trans hb, rfl, hclock ▸ hbusy⟩
  lasts _ _ id b hb _ hbusy := ⟨b, (htasks id).symm.trans hb, rfl, hbusy⟩
  found a ha hnot := by
    rcases List.mem_append.mp ha with ha | ha
    · exact absurd ha hnot
    · exact absurd ha (hlocks a)
  touched _ id _ _ hid := absurd (htasks id) hid

/-! ## Triples -/

/-- The program keeps the rules of the queue. -/
abbrev Keeps {α : Type} (h : Handoff) (ops : ι → Op) (forbidden : List String) (i : ι)
    (K : List Lock → Store → Prop) (p : Transaction α) (Q : α → List Lock → Store → Prop) : Prop :=
  (queueRules h ops forbidden).Triple i (Change h ops i) K p Q

abbrev Stable (h : Handoff) (ops : ι → Op) (forbidden : List String)
    (K : List Lock → Store → Prop) : Prop :=
  (queueRules h ops forbidden).Stable K

section Triples
variable {α : Type} {K : List Lock → Store → Prop}

variable {answer : Store → α} {taskId : String} {Q : Option TaskRow → List Lock → Store → Prop}

theorem keeps_read {locks : Store → List Lock} {Q : α → List Lock → Store → Prop}
    (hK : Stable h ops forbidden K) (hlocks : ∀ v a, .found a ∉ locks v)
    (hQ : ∀ held v, (queueRules h ops forbidden).Good v → K held v →
      Q (answer v) (held ++ locks v) v) : Keeps h ops forbidden i K (.read locks answer) Q := by
  refine Rules.triple_perform hK (fun held v hv _ => .id hv) (fun held v _ _ => .refl (hlocks v)) ?_
  intro held v a hv hk ha
  cases ha
  exact hQ held v hv hk

theorem keeps_select {Q : α → List Lock → Store → Prop} (hK : Stable h ops forbidden K)
    (hQ : ∀ held v, (queueRules h ops forbidden).Good v → K held v → Q (answer v) held v) :
    Keeps h ops forbidden i K (select answer) Q := by
  refine keeps_read hK (fun _ _ => List.not_mem_nil) fun held v hv hk => ?_
  rw [List.append_nil]
  exact hQ held v hv hk

theorem keeps_updateTask {where_ : Store → TaskRow → Bool} {set : Store → TaskRow → TaskRow}
    {marks : List Lock} (hK : Stable h ops forbidden K) (hmarks : ∀ x, .found x ∉ marks)
    (hstep : ∀ held v a, (queueRules h ops forbidden).Good v → K held v → v.task taskId = some a →
      where_ v a = true → protectSignalExecutionRequest a (set v a) = true →
      TaskStep h ops forbidden i (held ++ .task taskId :: marks) v a (set v a) ∧
        TaskShown h ops i held (.task taskId :: marks) v a (set v a) ∧
        Q (some (set v a)) (held ++ .task taskId :: marks) (v.setTask (set v a)))
    (hnone : ∀ held v, (queueRules h ops forbidden).Good v → K held v → Q none held v) :
    Keeps h ops forbidden i K (updateTask taskId where_ set marks) Q := by
  have hlocks : ∀ x, .found x ∉ Lock.task taskId :: marks := by
    intro x hx
    rcases List.mem_cons.mp hx with hx | hx
    · cases hx
    · exact hmarks x hx
  have hcases := updatedTask_cases taskId where_ set
  refine Rules.triple_perform hK (fun held v hv hk => ?_) (fun held v hv hk => ?_)
    fun held v x hv hk hx => ?_
  · rcases hcases v with hno | ⟨a, ha, hwhere, hyes⟩
    · simp only [hno]
      exact .id hv
    · simp only [hyes, Option.isSome_some, if_true]
      split_ifs with hprotect
      · have hkey := Store.task_id ha
        obtain ⟨hstep, -, -⟩ := hstep held v a hv hk ha hwhere hprotect
        exact hstep.fits hv (hkey ▸ ha) (by simp [hkey])
      · exact .id hv
  · rcases hcases v with hno | ⟨a, ha, hwhere, hyes⟩
    · simp only [hno]
      exact .refl fun x hx => by simp at hx
    · simp only [hyes, Option.isSome_some, if_true]
      split_ifs with hprotect
      · have hkey := Store.task_id ha
        obtain ⟨hstep, hshown, -⟩ := hstep held v a hv hk ha hwhere hprotect
        exact hshown.change hstep (hkey ▸ ha) hlocks rfl (fun _ => rfl)
          fun _ _ id hid => absurd rfl hid
      · exact .refl hlocks
  · rcases hcases v with hno | ⟨a, ha, hwhere, hyes⟩
    · simp only [hno] at hx ⊢
      cases hx
      simpa using hnone held v hv hk
    · simp only [hyes, Option.isSome_some, if_true] at hx ⊢
      split_ifs at hx ⊢ with hprotect
      cases hx
      exact (hstep held v a hv hk ha hwhere hprotect).2.2

/-- Runs that others put in place of what was there, under its token and lease. -/
theorem runs_setRun {r r' : Run} (hstep : RunStep h ops i r r') (hr : v.run r.processingRunId = some r)
    (hlease : ((ops i).presents h).isSome = true → (ops i).needsLease = true →
      ahead r.leaseExpiresAt v.clock = true) :
    ∀ p, (ops i).presents h = some p → ∀ id, (v.setRun r').run id ≠ v.run id →
      ∃ x, v.run id = some x ∧ x.claimToken = p.claimToken ∧
        ((ops i).needsLease = true → ahead x.leaseExpiresAt v.clock = true) := by
  intro p hp id hid
  have hkey : r'.processingRunId = r.processingRunId := by rw [hstep.evolves]
  rw [Store.run_setRun] at hid
  split_ifs at hid with hidr
  · rw [hidr, hkey]
    exact ⟨r, hr, hstep.authorized p hp, hlease (by rw [hp]; rfl)⟩
  · exact absurd rfl hid

theorem keeps_updateRun {runId : String} {where_ : Store → Run → Bool} {set : Run → Run}
    {Q : Bool → List Lock → Store → Prop} (hK : Stable h ops forbidden K)
    (hstep : ∀ held v r, (queueRules h ops forbidden).Good v → K held v → v.run runId = some r →
      where_ v r = true → RunStep h ops i r (set r) ∧
        (((ops i).presents h).isSome = true → (ops i).needsLease = true →
          ahead r.leaseExpiresAt v.clock = true) ∧
        Q true (held ++ [.run runId]) (v.setRun (set r)))
    (hnone : ∀ held v, (queueRules h ops forbidden).Good v → K held v → Q false held v) :
    Keeps h ops forbidden i K (updateRun runId where_ set) Q := by
  have hlocks : ∀ x, .found x ∉ [Lock.run runId] := fun x hx => by simp at hx
  refine Rules.triple_perform hK (fun held v hv hk => ?_) (fun held v hv hk => ?_)
    fun held v x hv hk hx => ?_
  · cases hr : v.run runId with
    | none =>
      simp only [Option.any_none, Bool.false_eq_true, if_false]
      exact .id hv
    | some r =>
      simp only [Option.any_some]
      split_ifs with hwhere
      · have hkey := Store.run_id hr
        exact (hstep held v r hv hk hr hwhere).1.fits hv (hkey ▸ hr) (by simp [hkey])
      · exact .id hv
  · cases hr : v.run runId with
    | none =>
      simp only [Option.any_none, Bool.false_eq_true, if_false]
      exact .refl fun x hx => by simp at hx
    | some r =>
      simp only [Option.any_some]
      split_ifs with hwhere
      · obtain ⟨hrun, hlease, -⟩ := hstep held v r hv hk hr hwhere
        have hat : v.run r.processingRunId = some r := (Store.run_id hr) ▸ hr
        exact change_of_runs hlocks (fun _ => rfl) rfl (runs_setRun hrun hat hlease)
      · exact .refl fun x hx => by simp at hx
  · cases hx
    cases hr : v.run runId with
    | none =>
      simp only [Option.any_none, Bool.false_eq_true, if_false, List.append_nil]
      exact hnone held v hv hk
    | some r =>
      simp only [Option.any_some]
      split_ifs with hwhere
      · rw [hwhere]
        exact (hstep held v r hv hk hr hwhere).2.2
      · rw [Bool.eq_false_iff.mpr hwhere, List.append_nil]
        exact hnone held v hv hk

theorem keeps_updateClaim {where_ : Store → TaskRow → Run → Bool} {setTask : TaskRow → TaskRow}
    {setRun : Run → Run} (hK : Stable h ops forbidden K)
    (hstep : ∀ held v a r, (queueRules h ops forbidden).Good v → K held v →
      v.task taskId = some a → v.currentRun a.toSignalTask = some r → where_ v a r = true →
      RunStep h ops i r (setRun r) ∧
        (((ops i).presents h).isSome = true → (ops i).needsLease = true →
          ahead r.leaseExpiresAt v.clock = true) ∧
        TaskStep h ops forbidden i (held ++ [.task taskId, .run r.processingRunId]) (v.setRun (setRun r)) a
          (setTask a) ∧
        TaskShown h ops i held [.task taskId, .run r.processingRunId] v a (setTask a) ∧
        Q (some (setTask a)) (held ++ [.task taskId, .run r.processingRunId])
          ((v.setRun (setRun r)).setTask (setTask a)))
    (hnone : ∀ held v, (queueRules h ops forbidden).Good v → K held v → Q none held v) :
    Keeps h ops forbidden i K (updateClaim taskId where_ setTask setRun) Q := by
  have hcases := eligible_cases taskId where_
  have hat : ∀ (v : Store) (a : TaskRow) (r : Run), v.task taskId = some a → v.currentRun a.toSignalTask = some r →
      v.task a.taskId = some a ∧ v.run r.processingRunId = some r := by
    intro v a r ha hr
    obtain ⟨id, -, hid⟩ := Option.bind_eq_some_iff.mp hr
    exact ⟨(Store.task_id ha) ▸ ha, (Store.run_id hid) ▸ hid⟩
  have hlocks : ∀ (r : Run) x, .found x ∉ [Lock.task taskId, .run r.processingRunId] :=
    fun r x hx => by simp at hx
  refine Rules.triple_perform hK (fun held v hv hk => ?_) (fun held v hv hk => ?_)
    fun held v x hv hk hx => ?_
  · rcases hcases v with hno | ⟨a, r, ha, hr, hwhere, hyes⟩
    · simp only [hno]
      exact .id hv
    · simp only [hyes]
      split_ifs
      · obtain ⟨hrun, -, htask, -, -⟩ := hstep held v a r hv hk ha hr hwhere
        obtain ⟨hata, hatr⟩ := hat v a r ha hr
        have hkey := Store.task_id ha
        have hmine : .run r.processingRunId ∈ held ++ [Lock.task taskId, .run r.processingRunId] := by simp
        have hfirst := hrun.fits hv hatr hmine
        exact (htask.fits hfirst.good hata (by simp [hkey])).comp hfirst
      · exact .id hv
  · rcases hcases v with hno | ⟨a, r, ha, hr, hwhere, hyes⟩
    · simp only [hno]
      exact .refl fun x hx => by simp at hx
    · simp only [hyes]
      split_ifs
      · obtain ⟨hrun, hlease, htask, hshown, -⟩ := hstep held v a r hv hk ha hr hwhere
        obtain ⟨hata, hatr⟩ := hat v a r ha hr
        exact hshown.change htask hata (hlocks r) rfl (fun _ => rfl) (runs_setRun hrun hatr hlease)
      · exact .refl (hlocks r)
  · rcases hcases v with hno | ⟨a, r, ha, hr, hwhere, hyes⟩
    · simp only [hno] at hx ⊢
      cases hx
      simpa using hnone held v hv hk
    · simp only [hyes] at hx ⊢
      split_ifs at hx ⊢
      cases hx
      exact (hstep held v a r hv hk ha hr hwhere).2.2.2.2

theorem keeps_insertRun {r : Run} {Q : Unit → List Lock → Store → Prop}
    (hp : (ops i).presents h = none) (hK : Stable h ops forbidden K)
    (hQ : ∀ held v, (queueRules h ops forbidden).Good v → K held v →
      Q () (held ++ [.run r.processingRunId]) (v.setRun r)) :
    Keeps h ops forbidden i K (insertRun r) Q := by
  have hlocks : ∀ x, .found x ∉ [Lock.run r.processingRunId] := fun x hx => by simp at hx
  refine Rules.triple_perform hK (fun held v hv hk => ?_) (fun held v hv hk => ?_)
    fun held v x hv hk hx => ?_
  · split_ifs with hrefused
    · exact .id hv
    · have hnew : v.run r.processingRunId = none := by
        simp only [Bool.or_eq_true, not_or, Bool.not_eq_true, Option.isSome_eq_false_iff,
          Option.isNone_iff_eq_none] at hrefused
        exact hrefused.1
      exact fits_insertRun hp hv hnew (by simp)
  · split_ifs
    · exact .refl hlocks
    · refine change_of_runs hlocks (fun _ => rfl) rfl fun p hp' => ?_
      cases hp.symm.trans hp'
  · split_ifs at hx ⊢
    exact hQ held v hv hk

theorem keeps_setTimedOut {now : Int} (hp : (ops i).presents h = none)
    (hK : Stable h ops forbidden K) :
    Keeps h ops forbidden i K (.perform (fun v => (v.dueRuns now).map fun r => .run r.processingRunId)
      (fun v => Store.setTimedOut (v.dueRuns now)) fun _ => some ()) fun _ _ _ => True := by
  have hlocks : ∀ (v : Store) x,
      .found x ∉ (v.dueRuns now).map fun r => Lock.run r.processingRunId := fun v x hx => by simp at hx
  refine Rules.triple_perform hK (fun held v hv _ => ?_) (fun held v _ _ => ?_)
    fun _ _ _ _ _ _ => trivial
  · refine fits_setTimedOut hp _ hv (fun r hr => ?_) ?_
    · have hmem : r ∈ v.runs.rows := (List.mem_filter.mp hr).1
      refine ⟨Table.find?_of_mem hmem, List.mem_append_right _ ?_⟩
      exact List.mem_map.mpr ⟨r, hr, rfl⟩
    · exact List.Nodup.sublist (List.Sublist.map _ List.filter_sublist) v.runs.unique
  · obtain ⟨htasks, hclock⟩ := tasks_setTimedOut (v.dueRuns now) v
    refine change_of_runs (hlocks v) (fun id => ?_) hclock fun p hp' => ?_
    · exact congrArg (fun t : Table _ => t.find? id) htasks
    · cases hp.symm.trans hp'

theorem keeps_insertTask {b : TaskRow} {Q : Bool → List Lock → Store → Prop}
    (hp : (ops i).presents h = none) (hclaim : (ops i).isClaim = false)
    (hK : Stable h ops forbidden K)
    (hgood : ∀ v, GoodTask forbidden v b) (hop : b.operatorIntentId = none)
    (hbusy : ∀ now, b.busy now = false)
    (hQ : ∀ inserted held v, Q inserted held v) :
    Keeps h ops forbidden i K (insertTask b) Q := by
  have hlocks : ∀ (v : Store) x, .found x ∉ (if (v.sourceTask b.toSource b.editVersion).isSome then []
      else [Lock.source b.toSource b.editVersion, .task b.taskId]) := by
    intro v x hx
    split_ifs at hx <;> simp at hx
  refine Rules.triple_perform hK (fun held v hv hk => ?_) (fun held v hv hk => ?_)
    fun held v x hv hk hx => hQ x _ _
  · split_ifs with hsource hrefused hrefused
    · exact .id hv
    · simp [hsource] at hrefused
    · exact .id hv
    · have hnew : v.task b.taskId = none := by
        simp only [Bool.or_eq_true, not_or, Bool.not_eq_true, Option.isSome_eq_false_iff,
          Option.isNone_iff_eq_none] at hrefused
        exact hrefused.2
      exact fits_insertTask hp hv hnew (hgood v) hop (by simp)
  · by_cases hrefused : ((v.sourceTask b.toSource b.editVersion).isSome ||
        (v.task b.taskId).isSome) = true
    · rw [if_pos hrefused]
      exact .refl (hlocks v)
    · rw [if_neg hrefused]
      have hold : ∀ id x now, (v.setTask b).task id = some x → x.busy now = true →
          v.task id = some x := by
        intro id x now hx hb
        rw [Store.task_setTask] at hx
        split_ifs at hx
        · cases hx
          rw [hbusy] at hb
          cases hb
        · exact hx
      refine ⟨fun p hp' => ?_, fun p hp' => ?_, fun id x hx hb => ?_, fun _ _ id x hx now hb => ?_,
        fun x hx hnot => ?_, fun hclaim' => ?_⟩
      · cases hp.symm.trans hp'
      · cases hp.symm.trans hp'
      · exact .inl ⟨x, hold id x _ hx hb, rfl, hb⟩
      · exact ⟨x, hold id x now hx hb, rfl, hb⟩
      · rcases List.mem_append.mp hx with hx | hx
        · exact absurd hx hnot
        · exact absurd hx (hlocks v x)
      · rw [hclaim] at hclaim'
        cases hclaim'

end Triples

end Rules
end TraderBot.SignalQueue
