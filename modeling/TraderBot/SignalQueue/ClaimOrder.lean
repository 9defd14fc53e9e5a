import TraderBot.SignalQueue.Released

/-! # Which task a claim takes

The loop of a claim alone with the tables. The query for candidates goes by the clock of the database,
  the check of
the row that follows by the worker's,
  and a row that fails it hides its whole account. A candidate whose time to
live has passed is disposed of, which takes it out of the query; the first one else is leased,
  unless the run that
is made for it is refused. -/
namespace TraderBot.SignalQueue
open TraderBot.Lib TraderBot.Lib.Json

/-! ## The candidates -/

/-- The order by `created_at, task_id`. -/
def Before (a b : TaskRow) : Prop :=
  a.createdAt < b.createdAt ∨ a.createdAt = b.createdAt ∧ a.taskId ≤ b.taskId

instance (a b : TaskRow) : Decidable (Before a b) := by unfold Before; infer_instance

/-- What the query asks of a task, the accounts that are skipped apart. -/
def claimable (c : ClaimCall) (s : Store) (t : TaskRow) : Bool :=
  (t.status = .pending || t.status = .leased) && t.processingPurpose = c.processingPurpose &&
    t.executionRequest.isNone &&
    (t.status = .pending || t.leaseExpiresAt.isNone || past t.leaseExpiresAt s.clock) &&
    !s.accountBusy t.accountId &&
    (c.accountId.getD "" = "" || some t.accountId = c.accountId)

/-- The claimable tasks of accounts without a live lease, in order. -/
def candidates (c : ClaimCall) (s : Store) : List TaskRow :=
  (s.tasks.rows.filter (claimable c s)).insertionSort Before

def remaining (c : ClaimCall) (s : Store) (skipAccounts : List String) : List TaskRow :=
  (candidates c s).filter fun t => !skipAccounts.contains t.accountId

section
variable {a b x : TaskRow}

theorem before_total (a b : TaskRow) : Before a b ∨ Before b a := by
  rcases lt_trichotomy a.createdAt b.createdAt with hlt | heq | hlt
  · exact .inl (.inl hlt)
  · exact (le_total a.taskId b.taskId).imp (fun hle => .inr ⟨heq, hle⟩) fun hle => .inr ⟨heq.symm, hle⟩
  · exact .inr (.inl hlt)

theorem Before.trans (h : Before a b) (h' : Before b x) : Before a x := by
  rcases h with hlt | ⟨heq, hle⟩
  · rcases h' with hlt' | ⟨heq', -⟩
    · exact .inl (hlt.trans hlt')
    · exact .inl (heq' ▸ hlt)
  · rcases h' with hlt' | ⟨heq', hle'⟩
    · exact .inl (heq ▸ hlt')
    · exact .inr ⟨heq.trans heq', hle.trans hle'⟩

theorem Before.antisymm (h : Before a b) (h' : Before b a) : a.taskId = b.taskId := by
  rcases h with hlt | ⟨heq, hle⟩
  · rcases h' with hlt' | ⟨heq', -⟩
    · exact absurd hlt' hlt.asymm
    · exact absurd heq' hlt.ne'
  · rcases h' with hlt' | ⟨-, hle'⟩
    · exact absurd heq hlt'.ne'
    · exact le_antisymm hle hle'

variable (rows : List TaskRow)

theorem before_sorted : (rows.insertionSort Before).Pairwise Before := by
  have : Std.Total Before := ⟨before_total⟩
  have : IsTrans TaskRow Before := ⟨fun _ _ _ => Before.trans⟩
  exact List.pairwise_insertionSort _ _

/-- The first row is one of the rows, before all of them. -/
theorem firstRow_spec : (firstRow rows = none ∧ rows = []) ∨
    ∃ b ∈ rows, firstRow rows = some b ∧ ∀ x ∈ rows, Before b x := by
  induction rows using List.reverseRecOn with
  | nil => exact .inl ⟨rfl, rfl⟩
  | append_singleton rows t ih =>
    right
    have hstep : firstRow (rows ++ [t]) = some ((firstRow rows).elim t fun b => earlier b t) := by
      unfold firstRow
      rw [List.foldl_append]
      rfl
    rcases ih with ⟨hnone, rfl⟩ | ⟨b, hb, hfirst, hleast⟩
    · rw [hnone] at hstep
      exact ⟨t, List.mem_singleton_self t, hstep, fun x hx => .inr (by rw [List.mem_singleton.mp hx]; exact ⟨rfl, le_rfl⟩)⟩
    · rw [hfirst] at hstep
      have htMem : t ∈ rows ++ [t] := List.mem_append_right _ (List.mem_singleton_self t)
      by_cases hbt : Before b t
      · refine ⟨b, List.mem_append_left _ hb, hstep.trans (congrArg some (if_pos hbt)), fun x hx => ?_⟩
        rcases List.mem_append.mp hx with hx | hx
        · exact hleast x hx
        · exact List.mem_singleton.mp hx ▸ hbt
      · have htb : Before t b := (before_total t b).resolve_right hbt
        refine ⟨t, htMem, hstep.trans (congrArg some (if_neg hbt)), fun x hx => ?_⟩
        rcases List.mem_append.mp hx with hx | hx
        · exact htb.trans (hleast x hx)
        · rw [List.mem_singleton.mp hx]
          exact .inr ⟨rfl, le_rfl⟩

end

section
variable {c : ClaimCall} {s : Store} {skipAccounts : List String} {t : TaskRow}

theorem mem_candidates : t ∈ candidates c s ↔ s.task t.taskId = some t ∧ claimable c s t = true := by
  unfold candidates
  rw [List.mem_insertionSort, List.mem_filter]
  exact and_congr_left fun _ => ⟨Store.task_of_mem, Store.mem_of_task⟩

theorem candidates_ids (c : ClaimCall) (s : Store) : ((candidates c s).map (·.taskId)).Nodup :=
  (s.tasks.unique.sublist (List.filter_sublist.map _)).perm ((List.perm_insertionSort _ _).map _).symm

theorem candidates_sorted (c : ClaimCall) (s : Store) : (candidates c s).Pairwise Before := before_sorted _

theorem mem_remaining : t ∈ remaining c s skipAccounts ↔
    t ∈ candidates c s ∧ t.accountId ∉ skipAccounts := by
  unfold remaining
  rw [List.mem_filter, Bool.not_eq_true', List.contains_eq_mem, decide_eq_false_iff_not]

/-- Rows of one set in order are one list. -/
theorem eq_of_sorted {xs ys : List TaskRow} (hxs : xs.Pairwise Before) (hys : ys.Pairwise Before)
    (hidx : (xs.map (·.taskId)).Nodup) (hidy : (ys.map (·.taskId)).Nodup) (h : ∀ t, t ∈ xs ↔ t ∈ ys) :
      xs = ys := by
  have hperm : xs.Perm ys := (List.perm_ext_iff_of_nodup (hidx.of_map _) (hidy.of_map _)).mpr h
  refine hperm.eq_of_pairwise (fun a b ha hb hab hba => ?_) hxs hys
  exact List.inj_on_of_nodup_map hidx ha ((h b).mpr hb) (hab.antisymm hba)

/-- The query finds the first one of the candidates that remain. -/
theorem alone_peek : (peekClaimCandidate c skipAccounts s.clock).alone s =
    some ((remaining c s skipAccounts).head?, s) := by
  unfold peekClaimCandidate select
  rw [Program.alone_read]
  have hfilter : (s.tasks.rows.filter fun t =>
      (t.status = .pending || t.status = .leased) && t.processingPurpose = c.processingPurpose &&
        t.executionRequest.isNone &&
        (t.status = .pending || t.leaseExpiresAt.isNone || past t.leaseExpiresAt s.clock) &&
        !s.accountBusy t.accountId &&
        (c.accountId.getD "" = "" || some t.accountId = c.accountId) &&
        !skipAccounts.contains t.accountId) =
      (s.tasks.rows.filter (claimable c s)).filter fun t => !skipAccounts.contains t.accountId := by
    rw [List.filter_filter]
    exact List.filter_congr fun t _ => Bool.and_comm _ _
  rw [hfilter]
  congr 2
  set rows := (s.tasks.rows.filter (claimable c s)).filter fun t => !skipAccounts.contains t.accountId with hrows
  have hmem : ∀ t, t ∈ rows ↔ t ∈ remaining c s skipAccounts := fun t => by
    simp only [hrows, remaining, candidates, List.mem_filter, List.mem_insertionSort]
  rcases firstRow_spec rows with ⟨hnone, hempty⟩ | ⟨b, hb, hfirst, hleast⟩
  · have hnil : remaining c s skipAccounts = [] := by
      refine List.eq_nil_iff_forall_not_mem.mpr fun t ht => ?_
      have hin := (hmem t).mpr ht
      rw [hempty] at hin
      cases hin
    rw [hnone, hnil]
    rfl
  · cases hremaining : remaining c s skipAccounts with
    | nil =>
      have hin := (hmem b).mp hb
      rw [hremaining] at hin
      cases hin
    | cons t rest =>
      have hsorted : (remaining c s skipAccounts).Pairwise Before := (candidates_sorted c s).filter _
      have hids : ((remaining c s skipAccounts).map (·.taskId)).Nodup :=
        (candidates_ids c s).sublist (List.filter_sublist.map _)
      have hbIn := (hmem b).mp hb
      have htIn : t ∈ remaining c s skipAccounts := hremaining ▸ List.mem_cons_self
      rw [hfirst]
      refine congrArg some (List.inj_on_of_nodup_map hids hbIn htIn ?_)
      rw [hremaining] at hbIn hsorted
      have htb : b = t ∨ Before t b :=
        (List.mem_cons.mp hbIn).imp_right ((List.pairwise_cons.mp hsorted).1 b)
      rcases htb with rfl | htb
      · rfl
      · exact (hleast t ((hmem t).mpr htIn)).antisymm htb

theorem claimable_spec (h : claimable c s t = true) : (t.status = .pending ∨ t.status = .leased) ∧
    t.processingPurpose = c.processingPurpose ∧ t.executionRequest = none ∧
      s.accountBusy t.accountId = false ∧
    (t.status = .pending || t.leaseExpiresAt.isNone || past t.leaseExpiresAt s.clock) = true := by
  unfold claimable at h
  simp only [Bool.and_eq_true, Bool.or_eq_true, decide_eq_true_eq, Option.isNone_iff_eq_none, Bool.not_eq_true'] at h
  obtain ⟨⟨⟨⟨⟨hstatus, hpurpose⟩, hrequest⟩, hlease⟩, hbusy⟩, -⟩ := h
  refine ⟨hstatus, hpurpose, hrequest, hbusy, ?_⟩
  simpa only [Bool.or_eq_true, decide_eq_true_eq, Option.isNone_iff_eq_none] using hlease

/-! ## What a turn does -/

/-- The current run of a task, ended where it meets the condition. -/
def endedRun (t : SignalTask) (where_ : Run → Bool) (set : Run → Run) (s : Store) : Store :=
  match t.processingRunId.bind s.run with
  | some r => if where_ r then s.setRun (set r) else s
  | none => s

theorem alone_endRun (t : SignalTask) (where_ : Run → Bool) (set : Run → Run) (s : Store) :
    (endRun t (fun _ => where_) set).alone s = some ((), endedRun t where_ set s) := by
  unfold endRun endedRun
  cases t.processingRunId with
  | none => rfl
  | some id =>
    rw [Option.bind_some]
    dsimp only
    unfold updateRun
    rw [Program.alone_bind, Program.alone_perform]
    cases s.run id with
    | none => rfl
    | some r =>
      dsimp only
      split_ifs <;> rfl

variable {where_ : Run → Bool} {set : Run → Run} {id : String} {x : TaskRow} {rest : List TaskRow}

@[simp] theorem clock_endedRun {t : SignalTask} : (endedRun t where_ set s).clock = s.clock := by
  unfold endedRun
  split
  · split_ifs <;> rfl
  · rfl

@[simp] theorem task_endedRun {t : SignalTask} : (endedRun t where_ set s).task id = s.task id := by
  unfold endedRun
  split
  · split_ifs <;> rfl
  · rfl

theorem run_endedRun {t : SignalTask} (hset : ∀ r, (set r).processingRunId = r.processingRunId) :
    (endedRun t where_ set s).run id =
      if t.processingRunId = some id then (s.run id).map fun r => if where_ r then set r else r else s.run id := by
  unfold endedRun
  cases ht : t.processingRunId with
  | none => rfl
  | some own =>
    rw [Option.bind_some]
    cases hown : s.run own with
    | none =>
      split_ifs with hid
      · cases hid
        rw [hown]
        rfl
      · rfl
    | some r =>
      have hkey := Store.run_id hown
      dsimp only
      by_cases hid : own = id
      · subst hid
        rw [if_pos rfl, hown]
        split_ifs with hwhere
        · rw [Store.run_setRun, hset, hkey, if_pos rfl]
          simp [hwhere]
        · rw [hown]
          simp [hwhere]
      · rw [if_neg fun heq => hid (Option.some.inj heq)]
        split_ifs
        · rw [Store.run_setRun, hset, hkey, if_neg (Ne.symm hid)]
        · rfl

/-- A task whose time to live has passed. -/
def disposedRow (c : ClaimCall) (t : TaskRow) : TaskRow :=
  { t with
    status := .expired, disposition := some "expired"
    dispositionReason := some "signal_ttl_exceeded", workerId := some c.workerId
    shadowResult := expiredPayload }

def disposed (c : ClaimCall) (t : TaskRow) (s : Store) : Store :=
  (endedRun t.toSignalTask (fun r => r.status.isActive) skippedRun s).setTask (disposedRow c t)

theorem alone_disposeExpired (ht : s.task t.taskId = some t)
    (hstatus : t.status = .pending ∨ t.status = .leased) :
    (disposeExpired t c.workerId).alone s = some ((), disposed c t s) := by
  have ht' : (endedRun t.toSignalTask (fun r => r.status.isActive) skippedRun s).task t.taskId =
    some t := by
    rw [task_endedRun]
    exact ht
  unfold disposeExpired
  rw [Program.alone_bind, alone_endRun, Option.bind_some, Program.alone_bind, updateTask_alone ht',
    if_pos (by simpa using hstatus), if_pos (by simp [protectSignalExecutionRequest])]
  rfl

theorem task_disposed :
    (disposed c t s).task id = if id = t.taskId then some (disposedRow c t) else s.task id := by
  unfold disposed
  rw [Store.task_setTask, task_endedRun]
  rfl

theorem run_disposed : (disposed c t s).run id = if t.processingRunId = some id then
    (s.run id).map fun r => if r.status.isActive then skippedRun r else r else s.run id := by
  show (endedRun t.toSignalTask (fun r => r.status.isActive) skippedRun s).run id = _
  have hid : ∀ r, (skippedRun r).processingRunId = r.processingRunId := fun _ => rfl
  exact run_endedRun hid

@[simp] theorem clock_disposed : (disposed c t s).clock = s.clock := by
  show (endedRun t.toSignalTask (fun r => r.status.isActive) skippedRun s).clock = _
  exact clock_endedRun

/-- A task that is disposed of made no account busy. -/
theorem busy_disposed (ht : s.task t.taskId = some t) (hfree : s.accountBusy t.accountId = false)
    (account : String) :
    (disposed c t s).accountBusy account = s.accountBusy account := by
  have hrow : ∀ v : Store, ∀ account, v.accountBusy account = true ↔
      ∃ x, v.task x.taskId = some x ∧ x.accountId = account ∧ x.busy v.clock = true := by
    intro v account
    unfold Store.accountBusy
    simp only [List.any_eq_true, Bool.and_eq_true, decide_eq_true_eq]
    exact exists_congr fun x => and_congr_left fun _ => ⟨Store.task_of_mem, Store.mem_of_task⟩
  have hidle : t.busy s.clock = false := by
    refine Bool.eq_false_iff.mpr fun hbusy => ?_
    exact absurd ((hrow s t.accountId).mpr ⟨t, ht, rfl, hbusy⟩) (Bool.eq_false_iff.mp hfree)
  rw [Bool.eq_iff_iff, hrow, hrow, clock_disposed]
  refine exists_congr fun x => ?_
  rw [task_disposed]
  by_cases hx : x.taskId = t.taskId
  · rw [if_pos hx, hx, ht]
    refine iff_of_false ?_ ?_
    · rintro ⟨heq, -, hbusy⟩
      cases heq
      simp [disposedRow, SignalTask.busy] at hbusy
    · rintro ⟨heq, -, hbusy⟩
      cases heq
      rw [hidle] at hbusy
      cases hbusy
  · rw [if_neg hx]

/-- A task that was disposed of is the one candidate less. -/
theorem mem_candidates_disposed (ht : s.task t.taskId = some t)
    (hfree : s.accountBusy t.accountId = false) :
    x ∈ candidates c (disposed c t s) ↔ x ∈ candidates c s ∧ x.taskId ≠ t.taskId := by
  rw [mem_candidates, mem_candidates, task_disposed]
  have hsame : claimable c (disposed c t s) x = claimable c s x := by
    unfold claimable
    rw [busy_disposed ht hfree, clock_disposed]
  rw [hsame]
  by_cases hx : x.taskId = t.taskId
  · rw [if_pos hx]
    refine iff_of_false ?_ fun h => h.2 hx
    rintro ⟨heq, hclaimable⟩
    cases heq
    have hstatus := (claimable_spec hclaimable).1
    simp [disposedRow] at hstatus
  · rw [if_neg hx]
    exact (and_iff_left hx).symm

theorem candidates_disposed (h : candidates c s = t :: rest) :
    candidates c (disposed c t s) = rest := by
  have hmem : t ∈ candidates c s := h ▸ List.mem_cons_self
  obtain ⟨ht, hclaimable⟩ := mem_candidates.mp hmem
  have hids := candidates_ids c s
  have hsorted := candidates_sorted c s
  rw [h] at hids hsorted
  rw [List.map_cons, List.nodup_cons] at hids
  refine eq_of_sorted (candidates_sorted _ _) (List.pairwise_cons.mp hsorted).2 (candidates_ids _ _) hids.2 fun x => ?_
  rw [mem_candidates_disposed ht (claimable_spec hclaimable).2.2.2.1, h, List.mem_cons]
  constructor
  · rintro ⟨rfl | hx, hne⟩
    · exact absurd rfl hne
    · exact hx
  · exact fun hx => ⟨.inr hx, fun heq => hids.1 (heq ▸ List.mem_map_of_mem hx)⟩


/-- The store in which a claim makes its run: the run before is ended if its lease is past. -/
def retired (t : TaskRow) (s : Store) : Store :=
  endedRun t.toSignalTask (fun r => r.status.isActive && past r.leaseExpiresAt s.clock) timedOut s

def nextAttempt (t : TaskRow) (s : Store) : Nat := (retired t s).maxAttempt t.toSignalTask + 1

/-- The run of the claim is refused. -/
def refused (c : ClaimCall) (t : TaskRow) (s : Store) : Bool :=
  ((retired t s).run c.processingRunId).isSome ||
    (retired t s).activeRunConflicts (startedRun c t.toSignalTask s.clock (nextAttempt t s))

def leased (c : ClaimCall) (t : TaskRow) (s : Store) : Store :=
  ((retired t s).setRun (startedRun c t.toSignalTask s.clock (nextAttempt t s))).setTask
    (leasedRow c s.clock (nextAttempt t s) t)

theorem alone_insertRun (r : Run) (s : Store) : (insertRun r).alone s =
    if (s.run r.processingRunId).isSome || s.activeRunConflicts r then none else some ((), s.setRun r) := by
  unfold insertRun
  rw [Program.alone_perform]
  split_ifs <;> rfl

theorem alone_leaseTask (ht : s.task t.taskId = some t) (hclaimable : claimable c s t = true) :
    (leaseTask c t s.clock).alone s =
      if refused c t s then none else some (some (leasedRow c s.clock (nextAttempt t s) t), leased c t s) := by
  obtain ⟨hstatus, -, hrequest, -, hlease⟩ := claimable_spec hclaimable
  have hrow : ((retired t s).setRun (startedRun c t.toSignalTask s.clock (nextAttempt t s))).task t.taskId = some t :=
    task_endedRun.trans ht
  unfold leaseTask select
  rw [Program.alone_bind, alone_endRun, Option.bind_some, Program.alone_bind, Program.alone_read, Option.bind_some,
    Program.alone_bind]
  show ((insertRun (startedRun c t.toSignalTask s.clock (nextAttempt t s))).alone (retired t s)).bind _ = _
  rw [alone_insertRun]
  show (if refused c t s then none else _).bind _ = _
  by_cases hrefused : refused c t s = true
  · rw [if_pos hrefused, if_pos hrefused]
    rfl
  · rw [if_neg hrefused, if_neg hrefused, Option.bind_some, Program.alone_bind, updateTask_alone hrow, if_pos, if_pos]
    · rfl
    · simp [protectSignalExecutionRequest, leasedRow, hrequest]
    · rw [Bool.and_eq_true, Bool.and_eq_true]
      exact ⟨⟨by simpa using hstatus, by rw [hrequest]; rfl⟩, hlease⟩

theorem task_leased : (leased c t s).task id =
    if id = t.taskId then some (leasedRow c s.clock (nextAttempt t s) t) else s.task id := by
  unfold leased
  rw [Store.task_setTask, Store.task_setRun]
  unfold retired
  rw [task_endedRun]
  rfl

/-! ## The loop -/

variable {turn : Turn} {turns : List Turn}

theorem loop_empty (h : remaining c s skipAccounts = []) :
    (claimLoop c s.clock (turn :: turns) skipAccounts).alone s = some (none, s) := by
  unfold claimLoop
  rw [Program.alone_bind, alone_peek, h]
  rfl

/-- A turn with a candidate skips its account, disposes of it or leases it. -/
theorem loop_candidate (h : remaining c s skipAccounts = t :: rest) :
    (claimLoop c s.clock (turn :: turns) skipAccounts).alone s =
      if rowIsClaimable t.toSignalTask turn.claimableAt = false then
        (claimLoop c s.clock turns (t.accountId :: skipAccounts)).alone s
      else if taskTtlExpired t.toSignalTask c.openTtlSeconds turn.expiredAt then
        (claimLoop c s.clock turns skipAccounts).alone (disposed c t s)
      else (leaseTask c t s.clock).alone s := by
  obtain ⟨ht, hclaimable⟩ :=
    mem_candidates.mp (mem_remaining.mp (h ▸ List.mem_cons_self : t ∈ remaining c s skipAccounts)).1
  obtain ⟨hstatus, hpurpose, -, hfree, -⟩ := claimable_spec hclaimable
  conv_lhs => unfold claimLoop
  rw [Program.alone_bind, alone_peek, h]
  show (advisoryLock (.queue t.accountId) >>= _).alone s = _
  unfold advisoryLock accountHasLiveLease selectTaskForUpdate
  rw [Program.alone_bind, Program.alone_read, Option.bind_some, Program.alone_bind, Program.alone_read, Option.bind_some]
  dsimp only
  rw [hfree, if_neg Bool.false_ne_true, Program.alone_bind, Program.alone_read, Option.bind_some, ht]
  dsimp only
  by_cases hrow : rowIsClaimable t.toSignalTask turn.claimableAt = false
  · rw [if_pos (.inr hrow), if_pos hrow]
  · rw [if_neg (not_or.mpr ⟨fun hne => hne hpurpose, hrow⟩), if_neg hrow]
    split_ifs with hexpired
    · rw [Program.alone_bind, alone_disposeExpired ht hstatus]
      rfl
    · rfl

/-- An account that is skipped is not looked at any more. -/
theorem skipped_kept {result : Option TaskRow} {s' : Store}
    (h : (claimLoop c s.clock turns skipAccounts).alone s = some (result, s'))
    (hskip : x.accountId ∈ skipAccounts) (hx : s.task x.taskId = some x) :
    s'.task x.taskId = some x := by
  induction turns generalizing s skipAccounts with
  | nil => cases h
  | cons turn turns ih =>
    cases hremaining : remaining c s skipAccounts with
    | nil =>
      rw [loop_empty hremaining] at h
      cases h
      exact hx
    | cons t rest =>
      obtain ⟨hcandidate, hnot⟩ :=
        mem_remaining.mp (hremaining ▸ List.mem_cons_self : t ∈ remaining c s skipAccounts)
      obtain ⟨ht, hclaimable⟩ := mem_candidates.mp hcandidate
      -- the candidate is of another account
      have hne : x.taskId ≠ t.taskId := by
        intro heq
        rw [heq, ht] at hx
        cases hx
        exact hnot hskip
      rw [loop_candidate hremaining] at h
      split_ifs at h
      · exact ih h (List.mem_cons_of_mem _ hskip) hx
      · rw [← clock_disposed (c := c) (t := t)] at h
        exact ih h hskip (by rw [task_disposed, if_neg hne]; exact hx)
      · rw [alone_leaseTask ht hclaimable] at h
        split_ifs at h
        cases h
        rw [task_leased, if_neg hne]
        exact hx

/-- **The loop ends**: each turn takes a task or an account from what remains. -/
theorem loop_ends (h : (remaining c s skipAccounts).length < turns.length) (more : List Turn) :
    (claimLoop c s.clock (turns ++ more) skipAccounts).alone s =
      (claimLoop c s.clock turns skipAccounts).alone s := by
  induction turns generalizing s skipAccounts with
  | nil => exact absurd h (Nat.not_lt_zero _)
  | cons turn turns ih =>
    rw [List.cons_append]
    cases hremaining : remaining c s skipAccounts with
    | nil => rw [loop_empty hremaining, loop_empty hremaining]
    | cons t rest =>
      have hmem : t ∈ remaining c s skipAccounts := hremaining ▸ List.mem_cons_self
      obtain ⟨hcandidate, hnot⟩ := mem_remaining.mp hmem
      obtain ⟨ht, hclaimable⟩ := mem_candidates.mp hcandidate
      rw [List.length_cons] at h
      rw [loop_candidate hremaining, loop_candidate hremaining]
      split_ifs
      · refine ih ?_
        have hfewer : remaining c s (t.accountId :: skipAccounts) =
            (remaining c s skipAccounts).filter fun x => x.accountId ≠ t.accountId := by
          unfold remaining
          rw [List.filter_filter]
          refine List.filter_congr fun x _ => ?_
          by_cases hx : x.accountId = t.accountId <;> simp [hx]
        have hlt : ((remaining c s skipAccounts).filter fun x => x.accountId ≠ t.accountId).length <
            (remaining c s skipAccounts).length :=
          List.length_filter_lt_length_iff_exists.mpr ⟨t, hmem, by simp⟩
        rw [hfewer]
        omega
      · rw [← clock_disposed (c := c) (t := t)]
        refine ih ?_
        have hfewer : (remaining c (disposed c t s) skipAccounts).length < (remaining c s skipAccounts).length := by
          have hids : ((remaining c (disposed c t s) skipAccounts).map (·.taskId)).Nodup :=
            (candidates_ids _ _).sublist (List.filter_sublist.map _)
          have hsub : (t :: remaining c (disposed c t s) skipAccounts) ⊆ remaining c s skipAccounts := by
            refine List.cons_subset.mpr ⟨hmem, fun x hx => ?_⟩
            obtain ⟨hx, hskip⟩ := mem_remaining.mp hx
            exact mem_remaining.mpr ⟨((mem_candidates_disposed ht (claimable_spec hclaimable).2.2.2.1).mp hx).1, hskip⟩
          have hnodup : (t :: remaining c (disposed c t s) skipAccounts).Nodup := by
            refine List.nodup_cons.mpr ⟨fun hin => ?_, hids.of_map _⟩
            exact ((mem_candidates_disposed ht (claimable_spec hclaimable).2.2.2.1).mp (mem_remaining.mp hin).1).2 rfl
          exact (List.subperm_of_subset hnodup hsub).length_le
        omega
      · rfl

end
end TraderBot.SignalQueue
