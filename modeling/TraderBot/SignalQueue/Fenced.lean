import TraderBot.SignalQueue.Released

/-! # Claims are fenced

Nine writers change a task and its run. What a claim of the past, or one whose
lease is past, can still do to them is nothing, except that the writer for
uncertainty is there for leases that are past. -/
namespace TraderBot.SignalQueue
open TraderBot.Lib TraderBot.Lib.Json

section Fenced
variable {ι : Type} [DecidableEq ι] [Fintype ι] (h : Handoff) (ops : ι → Op)

/-- The claim a writer presents is not the task's, or it needs a lease that is past. -/
def Outdated (i : ι) (p : Presented) (v : Store) (t : TaskRow) : Prop :=
  t.claimToken ≠ p.claimToken ∨
    ((ops i).needsLease = true ∧ ahead t.leaseExpiresAt v.clock = false)

/-- What an event must not do. A statement of an outdated claim changes neither the
task nor its current run, and a commit changes only what carries the claim. -/
structure Fenced (s : QueueState ι) (e : QueueEvent ι) : Prop where
  statement : ∀ i p locks write next, e = .move (.run i) → (ops i).presents h = some p →
    (s.txns i).point = some (.statement locks write next) →
    s.blocked i (locks (s.view i)) = false → ∀ t, (s.view i).task p.taskId = some t →
    Outdated ops i p (s.view i) t →
      (write (s.view i) (s.view i)).task p.taskId = (s.view i).task p.taskId ∧
        ∀ id, t.processingRunId = some id →
          (write (s.view i) (s.view i)).run id = (s.view i).run id
  commit : ∀ i p, e = .move (.run i) → (ops i).presents h = some p →
    (∀ id, ((machine h ops).next s e).store.task id ≠ s.store.task id → id = p.taskId ∧
      ∃ a, s.store.task id = some a ∧ a.claimToken = p.claimToken) ∧
    ∀ id, ((machine h ops).next s e).store.run id ≠ s.store.run id →
      ∃ r, s.store.run id = some r ∧ r.claimToken = p.claimToken

variable {h ops}

variable {forbidden : List String} {s : QueueState ι}

theorem fenced_of_held {e : QueueEvent ι} (hs : QueueHeld h ops forbidden s)
    (hshown : Rules.Shown (Change h ops) s e) :
    Fenced h ops s e where
  statement i p locks write next he hp hpoint hfree t ht hout := by
    have hchange := hshown i locks write next he hpoint hfree
    have hgood : GoodTask forbidden (s.view i) t := (hs.sound i).good (.task p.taskId) t ht
    refine ⟨?_, fun id hid => ?_⟩
    · by_contra hne
      obtain ⟨-, a, ha, htoken, hlease⟩ := hchange.tasks p hp p.taskId hne
      cases ht.symm.trans ha
      rcases hout with hout | ⟨hneeds, hout⟩
      · exact hout htoken
      · exact absurd (hlease hneeds) (by rw [hout]; nofun)
    · by_contra hne
      obtain ⟨r, hr, htoken, hlease⟩ := hchange.runs p hp id hne
      -- the run has the token and the lease of its task
      obtain ⟨r', hr', -, -, -, -, hclaim, hsame⟩ := hgood.run id hid
      cases hr.symm.trans hr'
      rcases hout with hout | ⟨hneeds, hout⟩
      · exact hout (hclaim.symm.trans htoken)
      · rw [← hsame] at hout
        exact absurd (hlease hneeds) (by rw [hout]; nofun)
  commit i p he hp := by
    rcases hs.does e with hsame | ⟨j, hj, hdoes⟩
    · exact ⟨fun id hid => absurd (hsame id).1 hid, fun id hid => absurd (hsame id).2 hid⟩
    · cases he.symm.trans hj
      refine ⟨fun id hid => ?_, fun id hid => ?_⟩
      · rcases (hdoes (.task id)).2 with heq | hauthorized
        · exact absurd heq.symm hid
        · exact hauthorized p hp
      · rcases (hdoes (.run id)).2 with heq | hauthorized
        · exact absurd heq.symm hid
        · exact hauthorized p hp

theorem evolves_of_held (hs : QueueHeld h ops forbidden s) (e : QueueEvent ι) (id : String)
    (a : TaskRow) (ha : s.store.task id = some a) :
    ∃ b, ((machine h ops).next s e).store.task id = some b ∧ TaskEvolves a b := by
  rcases hs.does e with hsame | ⟨i, -, hdoes⟩
  · exact ⟨a, (hsame id).1.trans ha, .refl a⟩
  · exact (hdoes (.task id)).1 a ha

/-- **Claims are fenced in every run.** The attempt of a task rises with every new
lease; a request stays, and its task is not leased again; an operation is bound
once; an outdated claim changes nothing; and no task with an operation has a reason
of expiry, as the details that uncertainty writes are not such reasons. -/
theorem claims_fenced (h : Handoff) (ops : ι → Op)
    (hdetail : ∀ i task detail operatorDetail, ops i = .uncertainty task detail operatorDetail →
      detailText detail ∉ expiryReasons) (clock : Int) (es : List (QueueEvent ι)) :
    (machine h ops).Meets (fun s e => Fenced h ops s e ∧
        ∀ id a, s.store.task id = some a →
          ∃ b, ((machine h ops).next s e).store.task id = some b ∧ TaskEvolves a b)
        (initial h ops clock) es ∧
      ∀ t ∈ ((machine h ops).after (initial h ops clock) es).store.tasks.rows,
        ∀ x ∈ expiryReasons, ¬(t.operatorIntentId.isSome = true ∧ t.dispositionReason = some x) := by
  obtain ⟨hmeets, hheld⟩ := queueHeld_of_run h ops expiryReasons
    (fun _ hx => hx) hdetail clock es
  refine ⟨?_, fun t ht x hx hboth => ?_⟩
  · refine Machine.meets_of_meets (I := fun _ => True) (fun s e _ hs => ⟨?_, trivial⟩) trivial hmeets
    exact ⟨fenced_of_held hs.1 hs.2, evolves_of_held hs.1 e⟩
  · have hgood : GoodTask expiryReasons _ t := hheld.good (.task t.taskId) t (Store.task_of_mem ht)
    exact hgood.reason (.inr (.inr (hgood.accepted hboth.1))) x hx hboth.2

/-- **The two tables agree in every run**: no run of a claim is lost, and only its status and error
change; a task that was ever claimed has the run of its claim, one that never was has no attempt, a
claimed one its whole lease, and one with an operation is dispatched. -/
theorem tables_agree (h : Handoff) (ops : ι → Op) (clock : Int) (es : List (QueueEvent ι)) :
    (machine h ops).Meets (fun s e => ∀ id r, s.store.run id = some r →
        ∃ r', ((machine h ops).next s e).store.run id = some r' ∧ RunEvolves r r')
        (initial h ops clock) es ∧
      ∀ t ∈ ((machine h ops).after (initial h ops clock) es).store.tasks.rows,
        GoodTask [] ((machine h ops).after (initial h ops clock) es).store t := by
  obtain ⟨hmeets, hheld⟩ := queueHeld_of_run h ops [] (fun _ hx => absurd hx List.not_mem_nil)
    (fun _ _ _ _ _ => List.not_mem_nil) clock es
  refine ⟨?_, fun t ht => hheld.good (.task t.taskId) t (Store.task_of_mem ht)⟩
  refine Machine.meets_of_meets (I := fun _ => True) (fun s e _ hs => ⟨?_, trivial⟩) trivial hmeets
  intro id r hr
  rcases hs.1.does e with hsame | ⟨i, -, hdoes⟩
  · exact ⟨r, (hsame id).2.trans hr, rfl⟩
  · exact (hdoes (.run id)).1 r hr

end Fenced

theorem claims_fenced_sample :
    (machine sampleHandoff sampleOps).Meets (fun s e => Fenced sampleHandoff sampleOps s e ∧
        ∀ id a, s.store.task id = some a → ∃ b,
          ((machine sampleHandoff sampleOps).next s e).store.task id = some b ∧ TaskEvolves a b)
        (initial sampleHandoff sampleOps 0) sampleSwept ∧
      ∀ t ∈ (sampleStore sampleSwept).tasks.rows, ∀ x ∈ expiryReasons,
        ¬(t.operatorIntentId.isSome = true ∧ t.dispositionReason = some x) := by
  unfold sampleStore
  refine claims_fenced sampleHandoff sampleOps ?_ 0 sampleSwept
  intro i task detail operatorDetail hop
  fin_cases i <;> cases hop
  decide +kernel

local instance released_pos : NeZero 7 := ⟨by decide⟩

/-- The run of a request whose leases are past, and then the writer for uncertainty. -/
def sampleReleased : List (QueueEvent (Fin 7)) := sampleRun ++ List.replicate 8 (.move (.run 6))

/-- The writer for uncertainty changes the task and its run though its lease is past. -/
theorem past_lease_is_changed :
    (sampleOps 6).presents sampleHandoff = some ⟨"task", some "token"⟩ ∧
      ((sampleStore sampleRun).task "task").any (fun t => past t.leaseExpiresAt
        (sampleStore sampleRun).clock) = true ∧
      (sampleStore sampleReleased).task "task" ≠ (sampleStore sampleRun).task "task" ∧
      (sampleStore sampleReleased).run "run" ≠ (sampleStore sampleRun).run "run" := by
  refine ⟨rfl, by decide +kernel, fun htask => ?_, fun hrun => ?_⟩
  · have hstatus := congrArg (Option.map fun t : TaskRow => t.status) htask
    exact absurd hstatus (by decide +kernel)
  · exact absurd hrun (by decide +kernel)

end TraderBot.SignalQueue
