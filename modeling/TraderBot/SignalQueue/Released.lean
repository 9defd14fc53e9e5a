import TraderBot.SignalQueue.Accepted

/-! # Whether an abandoned request is released

A worker that never came back leaves a registered request behind. When its leases
are past, the writer for uncertainty lets it go, unless the sweep of the legacy
queue ended its run first: the run is then no longer active, and the task stays
as it is. -/
namespace TraderBot.SignalQueue
open TraderBot.Lib TraderBot.Lib.Json

/-- A signal task that was handed over, has no operation and whose leases are past. -/
structure Abandoned (s : Store) (t : TaskRow) (r : Run) : Prop where
  task : s.task t.taskId = some t
  run : s.currentRun t.toSignalTask = some r
  purpose : t.processingPurpose = .signal
  status : t.status = .reconciling ∨ (t.status = .leased ∧ t.executionRequest.isSome = true)
  unbound : t.operatorIntentId = none
  lease : past t.leaseExpiresAt s.clock = true
  runLease : past r.leaseExpiresAt s.clock = true

/-- The writer for uncertainty, with the claim of the task, expires it. -/
def Released (s : Store) (t : TaskRow) (detail : String) (operatorDetail : Option Value) : Prop :=
  ∃ row s', (recordOperatorUncertainty t.toSignalTask detail operatorDetail).alone s = some (row, s') ∧
    row.status = .expired ∧ s'.task t.taskId = some row

section Serial
variable {s : Store} {t : TaskRow} {r : Run}

variable {taskId : String}

theorem updateTask_alone {where_ : Store → TaskRow → Bool} {set : Store → TaskRow → TaskRow}
    {marks : List Lock} (ht : s.task taskId = some t) :
    (updateTask taskId where_ set marks).alone s =
      if where_ s t then
        if protectSignalExecutionRequest t (set s t) then some (some (set s t), s.setTask (set s t))
        else none
      else some (none, s) := by
  unfold updateTask
  rw [Program.alone_perform]
  simp only [updatedTask, ht]
  split_ifs with hwhere hprotect
  · simp [hprotect]
  · simp [hprotect]
  · rfl

/-- The detail changes the shadow result of the task and nothing else. -/
theorem recordOperatorDetail_alone (ht : s.task t.taskId = some t) (operatorDetail : Option Value) :
    ∃ s' t', (recordOperatorDetail t.taskId operatorDetail).alone s = some ((), s') ∧
      s'.task t.taskId = some t' ∧ t'.toSignalTask = t.toSignalTask ∧ s'.run = s.run ∧
      s'.clock = s.clock := by
  cases operatorDetail with
  | none => exact ⟨s, t, rfl, ht, rfl, rfl, rfl⟩
  | some detail =>
    let t' : TaskRow := { t with shadowResult := t.shadowResult.set "operator_detail" detail }
    refine ⟨s.setTask t', t', ?_, ?_, rfl, rfl, rfl⟩
    · unfold recordOperatorDetail
      rw [Program.alone_bind, updateTask_alone ht]
      simp [protectSignalExecutionRequest, t']
    · rw [Store.task_setTask, if_pos rfl]

/-- The release of a claim, alone. -/
theorem expireClaim_alone (ht : s.task taskId = some t) (hr : s.currentRun t.toSignalTask = some r)
    (hwhere : (t.processingPurpose = .signal && t.operatorIntentId.isNone && t.status.isClaimed &&
      runMatches t r && past t.leaseExpiresAt s.clock && past r.leaseExpiresAt s.clock) =
        r.status.isActive) :
    (r.status.isActive = true → ∃ b s', (expireClaim taskId).alone s = some (some b, s') ∧
        b.status = .expired ∧ s'.task b.taskId = some b ∧ b.taskId = t.taskId) ∧
      (r.status.isActive = false → (expireClaim taskId).alone s = some (none, s)) := by
  unfold expireClaim updateClaim
  rw [Program.alone_perform]
  simp only [eligible, ht, hr, hwhere]
  constructor
  · intro hactive
    let b : TaskRow := { t with
      status := .expired, disposition := some "rejected"
      dispositionReason := some "claim_expired_without_operation"
      shadowResult := (t.shadowResult.set "operator_submitted" (.bool false)).set "operator_result"
        (.str "expired_without_operation") }
    let ended : Run := { r with status := .hermesTimeout
                                error := some "claim_expired_without_operation" }
    have hprotect : protectSignalExecutionRequest t b = true := by
      simp [protectSignalExecutionRequest, b]
    simp only [hactive, if_true]
    refine ⟨b, (s.setRun ended).setTask b, ?_, rfl, ?_, rfl⟩
    · rw [if_pos hprotect, if_pos hprotect]
      rfl
    · exact (Store.task_setTask).trans (if_pos rfl)
  · intro hended
    simp [hended]

/-- What was not expired is no closer to it. -/
theorem markReconciling_alone (detail : String) (task : SignalTask)
    (ht : s.task task.taskId = some t) :
    (∃ b s', (markReconciling task detail).alone s = some (some b, s') ∧ b.status = .reconciling) ∨
      (markReconciling task detail).alone s = some (none, s) := by
  unfold markReconciling
  rw [updateTask_alone ht]
  split_ifs with hwhere hprotect
  · exact .inl ⟨_, _, rfl, rfl⟩
  · simp [protectSignalExecutionRequest] at hprotect
  · exact .inr rfl

end Serial

variable {forbidden : List String}

/-- The row and its run agree on everything the release asks, so that only the
status of the run decides. -/
theorem release_iff_active {s s' : Store} {t t' : TaskRow} {r : Run} (ht : Abandoned s t r)
    (hgood : GoodTask forbidden s t) (hsame : t'.toSignalTask = t.toSignalTask)
    (hclock : s'.clock = s.clock) :
    (t'.processingPurpose = .signal && t'.operatorIntentId.isNone && t'.status.isClaimed &&
      runMatches t' r && past t'.leaseExpiresAt s'.clock && past r.leaseExpiresAt s'.clock) =
        r.status.isActive := by
  have hclaimed : t.status.isClaimed = true := by
    rcases ht.status with hstatus | ⟨hstatus, -⟩ <;> rw [hstatus] <;> rfl
  obtain ⟨hid, htoken, -⟩ := hgood.claimed hclaimed
  obtain ⟨id, hid⟩ := Option.isSome_iff_exists.mp hid
  obtain ⟨r', hr', hraw, haccount, hpurpose, hattempt, hclaim, hlease⟩ := hgood.run id hid
  have hrun := ht.run
  simp only [Store.currentRun, hid, Option.bind_some] at hrun
  cases hr'.symm.trans hrun
  have hmatches : runMatches t r = r.status.isActive := by
    have hpurpose' : r.processingPurpose = .signal := hpurpose.trans ht.purpose
    simp [runMatches, sqlEq, hraw, haccount, hpurpose', hattempt, hclaim, htoken]
  have hmatches' : runMatches t' r = r.status.isActive := by
    rw [← hmatches]
    unfold runMatches
    rw [hsame]
  rw [hmatches', hsame, hclock]
  simp [ht.purpose, ht.unbound, hclaimed, ht.lease, ht.runLease]

/-- **Whether the writer for uncertainty releases an abandoned request is whether its
run is still active.** -/
theorem released_iff {s : Store} {t : TaskRow} {r : Run} (ht : Abandoned s t r)
    (hgood : GoodTask forbidden s t) (detail : String) (operatorDetail : Option Value) :
    Released s t detail operatorDetail ↔ r.status.isActive = true := by
  have hopen : ¬(t.operatorIntentId.isSome = true ∨ t.status.isTerminal = true) := by
    rcases ht.status with hstatus | ⟨hstatus, -⟩ <;> simp [hstatus, ht.unbound, TaskStatus.isTerminal]
  obtain ⟨id, hid, hrun⟩ := Option.bind_eq_some_iff.mp ht.run
  obtain ⟨s', t', hdetail, ht', hsame, hruns, hclock⟩ := recordOperatorDetail_alone ht.task operatorDetail
  have hrun' : s'.currentRun t'.toSignalTask = some r := by
    rw [hsame, Store.currentRun, hid, Option.bind_some, hruns]
    exact hrun
  obtain ⟨hyes, hno⟩ := expireClaim_alone ht' hrun' (release_iff_active ht hgood hsame hclock)
  have hid' : t'.taskId = t.taskId := congrArg SignalTask.taskId hsame
  unfold Released recordOperatorUncertainty
  simp only [Program.alone_bind, advisoryLock, selectTaskForUpdate, selectRunForUpdate,
    Program.alone_read, Option.bind_some, ht.task, if_neg hopen, hid]
  simp only [ne_eq, not_true_eq_false, or_self, if_false, Program.alone_bind, Program.alone_read,
    Option.bind_some, hrun, hdetail]
  cases hactive : r.status.isActive with
  | true =>
    obtain ⟨b, w, hb, hstatus, hw, hbid⟩ := hyes hactive
    simp only [hb, Option.bind_some, Program.alone_pure, iff_true]
    exact ⟨b, w, rfl, hstatus, by rw [← hid', ← hbid]; exact hw⟩
  | false =>
    simp only [hno hactive, Option.bind_some, Program.alone_bind, Bool.false_eq_true, iff_false]
    rintro ⟨row, w, hrow, hstatus, -⟩
    have hmark := markReconciling_alone detail t.toSignalTask ht'
    rcases hmark with ⟨b, u, hb, hbstatus⟩ | hb
    · simp only [hb, Option.bind_some, Program.alone_pure, Option.some.injEq, Prod.mk.injEq] at hrow
      rw [← hrow.1, hbstatus] at hstatus
      cases hstatus
    · simp only [hb, Option.bind_some, Program.alone_bind, select, Program.alone_read, ht',
        Program.alone_pure, Option.some.injEq, Prod.mk.injEq] at hrow
      have hstatus' : t.status = .expired := by
        rw [← hrow.1] at hstatus
        exact (congrArg SignalTask.status hsame).symm.trans hstatus
      rcases ht.status with h | ⟨h, -⟩ <;> rw [hstatus'] at h <;> cases h

/-! ## Runs -/

section Runs
variable {ι : Type} [DecidableEq ι] [Fintype ι]

/-- **In every state that a run of the queue and of the legacy sweep reaches**, an
abandoned request is released by the writer for uncertainty just where its run is
still active. -/
theorem abandoned_released_iff (h : Handoff) (ops : ι → Op) (clock : Int) (es : List (QueueEvent ι))
    (t : TaskRow) (r : Run)
    (ht : Abandoned ((machine h ops).after (initial h ops clock) es).store t r) (detail : String)
    (operatorDetail : Option Value) :
    Released ((machine h ops).after (initial h ops clock) es).store t detail operatorDetail ↔
      r.status.isActive = true := by
  have hrun := (queueHeld_of_run h ops [] nofun
    (fun _ _ _ _ _ => List.not_mem_nil) clock es).2
  exact released_iff ht (hrun.good (.task t.taskId) t ht.task) detail operatorDetail

end Runs

section Sample

def sampleHandoff : Handoff := ⟨.ascii, id, fun _ => none⟩

/-- The claim of one worker on one task. -/
def sampleClaim : SignalTask where
  sourcePlatform := "telegram"
  channelId := "c"
  sourceMessageId := "m"
  accountId := "a"
  claimToken := some "token"
  processingRunId := some "run"
  leaseExpiresAt := some (30 * microseconds)
  taskId := "task"
  rawMessageId := "raw"
  editVersion := "1"
  status := .leased
  attempt := 1
  processingPurpose := .signal

def sampleRequest : JsonObject where
  members := [("account_id", .str "a"), ("decision_id", .str "d"),
    ("signal_claim", .obj [("attempt", .int 1), ("claim_token", .str "token"),
      ("processing_run_id", .str "run"), ("task_id", .str "task")])]
  canonical := by decide +kernel

/-- A task that is queued, claimed, decided on and registered, the legacy sweep, and
the writer for uncertainty. -/
def sampleOps : Fin 7 → Op
  | 0 => .enqueue { taskId := "task", rawMessageId := "raw", channelId := "c", sourceMessageId := "m"
                    editVersion := "1", accountId := some "a", processingPurpose := .signal }
  | 1 => .claim { workerId := "w", processingPurpose := .signal, claimToken := "token"
                  processingRunId := "run", turns := [⟨0, 0⟩] }
  | 2 => .storeContext sampleClaim ⟨[("account_id", .str "a")], by decide +kernel⟩
  | 3 => .recordDecision sampleClaim (.obj [("decision", .obj [("decision_id", .str "d")])]) .null .null
  | 4 => .register sampleClaim sampleRequest
  | 5 => .legacySweep
  | 6 => .uncertainty { sampleClaim with status := .reconciling, executionRequest := some sampleRequest }
      "operator http_timeout" none

/-- One transaction after the other, and then its lease is past. -/
def sampleRun : List (QueueEvent (Fin 7)) :=
  ([0, 1, 2, 3, 4].flatMap fun i => List.replicate 10 (.move (.run i))) ++
    [.others (Int.toNat (30 * microseconds))]

/-- The same, and the legacy queue sweeps. -/
def sampleSwept : List (QueueEvent (Fin 7)) := sampleRun ++ List.replicate 4 (.move (.run 5))

def sampleStore (es : List (QueueEvent (Fin 7))) : Store :=
  ((machine sampleHandoff sampleOps).after (initial sampleHandoff sampleOps 0) es).store

/-- The sample task is abandoned, and its run is as active as said. -/
def sampleAbandoned (s : Store) (active : Bool) : Bool :=
  (s.task "task").any fun t => t.taskId = "task" && t.processingPurpose = .signal &&
    t.status = .reconciling && t.operatorIntentId.isNone && past t.leaseExpiresAt s.clock &&
      (s.currentRun t.toSignalTask).any fun r =>
        past r.leaseExpiresAt s.clock && r.status.isActive = active

theorem abandoned_of_sample {s : Store} {active : Bool} (hs : sampleAbandoned s active = true) :
    ∃ t r, Abandoned s t r ∧ r.status.isActive = active := by
  simp only [sampleAbandoned, Option.any_eq_true, Bool.and_eq_true, decide_eq_true_eq,
    Option.isNone_iff_eq_none] at hs
  obtain ⟨t, ht, ⟨⟨⟨⟨hid, hpurpose⟩, hstatus⟩, hnone⟩, hlease⟩, r, hr, hrlease, hactive⟩ := hs
  exact ⟨t, r, ⟨hid ▸ ht, hr, hpurpose, .inl hstatus, hnone, hlease, hrlease⟩, hactive⟩

theorem abandoned_released_sample :
    ∃ t r, Abandoned (sampleStore sampleRun) t r ∧
      Released (sampleStore sampleRun) t "http_timeout" none := by
  obtain ⟨t, r, ht, hactive⟩ : ∃ t r, Abandoned (sampleStore sampleRun) t r ∧
      r.status.isActive = true := abandoned_of_sample (by decide +kernel)
  exact ⟨t, r, ht, (abandoned_released_iff sampleHandoff sampleOps 0 sampleRun t r ht _ _).mpr hactive⟩

/-- The sweep of the legacy queue ends the run of an abandoned request first, and no
call of the writer for uncertainty releases it any more. -/
theorem swept_run_is_never_released :
    ∃ t r, Abandoned (sampleStore sampleSwept) t r ∧
      ∀ detail operatorDetail, ¬Released (sampleStore sampleSwept) t detail operatorDetail := by
  obtain ⟨t, r, ht, hended⟩ : ∃ t r, Abandoned (sampleStore sampleSwept) t r ∧
      r.status.isActive = false := abandoned_of_sample (by decide +kernel)
  have hrun := (queueHeld_of_run sampleHandoff sampleOps [] nofun
    (fun _ _ _ _ _ => List.not_mem_nil) 0 sampleSwept).2
  refine ⟨t, r, ht, fun detail operatorDetail hreleased => ?_⟩
  have hactive := (released_iff ht (hrun.good (.task t.taskId) t ht.task) detail operatorDetail).mp
    hreleased
  rw [hended] at hactive
  cases hactive

end Sample
end TraderBot.SignalQueue
