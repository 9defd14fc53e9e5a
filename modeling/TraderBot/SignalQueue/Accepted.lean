import TraderBot.SignalQueue.Kept

/-! # Operations that ingress accepts

Ingress holds the account from before it loads the request until its operation
is bound, so what it saw of the other tasks of the source is still so then. -/
namespace TraderBot.SignalQueue
open TraderBot.Lib TraderBot.Lib.Json

section Ingress
variable {ι : Type} {h : Handoff} {ops : ι → Op} {forbidden : List String} {i : ι}
  {accountId : String} {body : JsonObject} {intent : TradeIntent}

/-- The account is locked, and so is the task, of which this is the row. -/
def Taken (accountId taskId : String) (t : TaskRow) (held : List Lock) (v : Store) : Prop :=
  .account accountId ∈ held ∧ Row taskId (· = t) held v

theorem stable_taken (accountId taskId : String) (t : TaskRow) :
    Stable h ops forbidden (Taken accountId taskId t) :=
  stable_and (stable_held _) (stable_row _ _)

/-- No other task of the source has an operation. -/
def Alone (accountId taskId : String) (source : Source) (v : Store) : Prop :=
  ∀ id y, id ≠ taskId → bound accountId id v = some y → y.1 ≠ source

/-- What `load_request` leaves: its context is about the task it locked, and an
entry has seen no operation of the source. -/
structure Loaded (h : Handoff) (accountId : String) (body : JsonObject) (c : NamedClaim)
    (context : Context) (t : TaskRow) (held : List Lock) (v : Store) : Prop where
  named : namedClaim h accountId body = some c
  taskId : context.taskId = c.taskId
  claimToken : context.claimToken = c.claimToken
  account : t.accountId = accountId
  intent : context.operatorIntentId = t.operatorIntentId
  taken : Taken accountId c.taskId t held v
  alone : t.operatorIntentId = none → entryAction body = true →
    Alone accountId c.taskId t.toSource v

variable {c : NamedClaim} {context : Context} {t : TaskRow} {v : Store}

theorem stable_loaded : Stable h ops forbidden (Loaded h accountId body c context t) := by
  intro held v w hrely hloaded
  refine { hloaded with
    taken := stable_taken _ _ _ held v w hrely hloaded.taken
    alone := fun hnone hentry id y hid hy => ?_ }
  have hsame : ∀ id, bound accountId id v = bound accountId id w := hrely.kept _ hloaded.taken.1
  exact hloaded.alone hnone hentry id y hid ((hsame id).trans hy)

theorem alone_of_no_sibling (hsibling : v.siblingOperation t = false) :
    Alone accountId t.taskId t.toSource v := by
  intro id y hid hy hsource
  obtain ⟨x, hx, hbound⟩ := Option.bind_eq_some_iff.mp hy
  split_ifs at hbound
  obtain ⟨o, ho, rfl⟩ := Option.map_eq_some_iff.mp hbound
  have hmem := Store.mem_of_task hx
  have hnot := List.any_eq_false.mp hsibling x hmem
  refine hnot ?_
  have hxid : x.taskId ≠ t.taskId := (Store.task_id hx).symm ▸ hid
  have hxsource : x.toSource = t.toSource := hsource
  simp [hxsource, hxid, ho]

theorem requestDeadline_keeps {r : Run} (hid : t.taskId = c.taskId) :
    Keeps h ops forbidden i (Taken accountId c.taskId t) (requestDeadline h body t r)
      fun _ held v => Taken accountId c.taskId t held v ∧ (t.operatorIntentId = none →
        entryAction body = true → Alone accountId c.taskId t.toSource v) := by
  unfold requestDeadline
  cases hop : t.operatorIntentId with
  | some o =>
    intro _ _ _ hk
    exact ⟨hk, nofun⟩
  | none =>
    dsimp only
    have hK : Stable h ops forbidden (Taken accountId c.taskId t) := stable_taken _ _ _
    refine (keeps_select (Q := fun _ => Taken accountId c.taskId t) hK fun _ _ _ hk => hk).bind
      fun checkedAt => ?_
    split_ifs with hclosed hpast hentry
    · exact keeps_raised
    · exact keeps_raised
    · cases entryDeadline h t.rawMessageId checkedAt with
      | none => exact keeps_raised
      | some deadline =>
        refine (keeps_select (Q := fun sibling held v => Taken accountId c.taskId t held v ∧
          (sibling = false → Alone accountId c.taskId t.toSource v)) hK
            fun held v _ hk => ⟨hk, fun hsibling => ?_⟩).bind fun sibling => ?_
        · exact hid ▸ alone_of_no_sibling hsibling
        · split_ifs with hsibling
          · exact keeps_raised
          · exact fun held v _ hk => ⟨hk.1, fun _ _ => hk.2 (Bool.eq_false_iff.mpr hsibling)⟩
    · exact fun held v _ hk => ⟨hk, fun _ hyes => absurd hyes hentry⟩

theorem loadRequest_keeps :
    Keeps h ops forbidden i (fun held _ => .account accountId ∈ held) (loadRequest h accountId body)
      fun context held v => ∃ c t, Loaded h accountId body c context t held v := by
  unfold loadRequest
  cases hnamed : namedClaim h accountId body with
  | none => exact keeps_raised
  | some c =>
    dsimp only
    refine (keeps_read (Q := fun task held v => ∀ t, task = some t →
        Taken accountId c.taskId t held v) (stable_held _) (fun v a => ?_)
          fun held v _ hk t ht => ?_).bind fun task => ?_
    · split_ifs <;> simp
    · refine ⟨List.mem_append_left _ hk, List.mem_append_right _ ?_, t, ht, rfl⟩
      simp [ht]
    cases task with
    | none => exact keeps_raised
    | some t =>
      dsimp only
      split_ifs with hanswers
      · exact keeps_raised
      have haccount : t.accountId = accountId := by
        simp only [taskAnswers, Bool.not_eq_false, Bool.and_eq_true, decide_eq_true_eq] at hanswers
        exact hanswers.1.1.1.1.1
      have hK : Stable h ops forbidden (Taken accountId c.taskId t) := stable_taken _ _ _
      refine Rules.Triple.weaken (K := Taken accountId c.taskId t) ?_ fun held v _ hk => hk t rfl
      refine (keeps_read (Q := fun _ => Taken accountId c.taskId t) hK (fun v a => ?_)
        fun held v _ hk => ?_).bind fun run => ?_
      · split_ifs <;> simp
      · exact ⟨List.mem_append_left _ hk.1, List.mem_append_left _ hk.2.1, hk.2.2⟩
      cases run with
      | none => exact keeps_raised
      | some r =>
        dsimp only
        split_ifs
        · exact keeps_raised
        by_cases hid : t.taskId = c.taskId
        · refine (requestDeadline_keeps hid).bind fun deadline => ?_
          exact fun held v _ hk => ⟨c, t, hnamed, rfl, rfl, haccount, rfl, hk.1, hk.2⟩
        · -- the row locked is the task asked for
          refine fun held v _ hk => ?_
          obtain ⟨-, -, x, hx, rfl⟩ := hk
          exact absurd (Store.task_id hx) hid

/-- The row of an accepted operation. -/
theorem acceptedRow_step {held locks : List Lock} {intentId : String}
    (hop : ops i = .ingress accountId body intent)
    (hloaded : Loaded h accountId body c context t held v) (ht : GoodTask forbidden v t)
    (hnone : t.operatorIntentId = none) (hclaimed : t.status.isClaimed = true)
    (htoken : t.claimToken = some context.claimToken) (hid : t.taskId = c.taskId) :
    TaskStep h ops forbidden i (held ++ locks) v t
      { t with operatorIntentId := some intentId, status := .dispatched } where
  key := rfl
  evolves := by
    refine ⟨rfl, rfl, rfl, le_rfl, fun hne => absurd rfl hne, fun q hq => ⟨hq, rfl, rfl⟩, fun o ho => ?_⟩
    cases hnone.symm.trans ho
  good := ⟨ht.run, ht.unclaimed, nofun, fun _ => rfl, fun _ => ht.reason (.inr (.inl hclaimed))⟩
  authorized p hp := by
    rw [hop] at hp
    simp only [Op.presents, hloaded.named, Option.map_some, Option.some.injEq] at hp
    subst hp
    exact ⟨hid, htoken.trans (congrArg some hloaded.claimToken)⟩
  binds := by
    refine .inr ⟨hloaded.account ▸ List.mem_append_left _ hloaded.taken.1, fun id x hx => ?_,
      fun id x hx hx' => ?_⟩
    · rw [bound_setTask, if_neg]
      · exact hx
      · intro hidt
        obtain ⟨-, -, y, hy, hyt⟩ := hloaded.taken
        subst hyt
        have hyid : v.task id = some y := by rw [hidt]; exact hid ▸ hy
        rw [bound_of_task hyid, hnone] at hx
        split_ifs at hx
        cases hx
    · rw [bound_setTask] at hx'
      split_ifs at hx' with hidt
      · cases hx'
        refine ⟨accountId, body, intent, hop, fun hentry id' y hne hy => ?_⟩
        rw [bound_setTask, if_neg (hidt ▸ hne)] at hy
        exact hloaded.alone hnone hentry id' y (hid ▸ hidt ▸ hne) (hloaded.account ▸ hy)
      · cases hx.symm.trans hx'

theorem acceptOperation_keeps (hop : ops i = .ingress accountId body intent) :
    Keeps h ops forbidden i (fun held v => ∃ c t, Loaded h accountId body c context t held v)
      (acceptOperation h context intent) fun _ _ _ => True := by
  have hclaim : (ops i).isClaim = false := by rw [hop]; rfl
  have hK : Stable h ops forbidden fun held v => ∃ c t, Loaded h accountId body c context t held v := by
    rintro held v w hrely ⟨c, t, hloaded⟩
    exact ⟨c, t, stable_loaded held v w hrely hloaded⟩
  unfold acceptOperation
  cases uuidText h (some (Value.str intent.intentId)) with
  | none => exact keeps_raised
  | some intentId =>
    dsimp only
    cases context.operatorIntentId with
    | some existing =>
      dsimp only
      split_ifs
      · exact keeps_done
      · exact keeps_raised
    | none =>
      dsimp only
      refine (keeps_updateClaim (Q := fun _ _ _ => True) hK ?_ fun _ _ _ _ => trivial).bind
        fun accepted => ?_
      · rintro held v a r hv ⟨c, t, hloaded⟩ ha hr hwhere
        simp only [acceptable, Bool.and_eq_true, decide_eq_true_eq, Option.isNone_iff_eq_none] at hwhere
        have hnone : a.operatorIntentId = none := by tauto
        have hclaimed : a.status.isClaimed = true := by tauto
        have htoken : a.claimToken = some context.claimToken := by tauto
        have hrtoken : r.claimToken = some context.claimToken := by tauto
        have hlease : ahead a.leaseExpiresAt v.clock = true := by tauto
        have hrlease : ahead r.leaseExpiresAt v.clock = true := by tauto
        obtain ⟨-, x, hx, rfl⟩ := hloaded.taken.2
        rw [← hloaded.taskId] at hx
        cases hx.symm.trans ha
        obtain ⟨id, -, hid⟩ := Option.bind_eq_some_iff.mp hr
        have hat : v.run r.processingRunId = some r := (Store.run_id hid) ▸ hid
        have hrun : RunStep h ops i r { r with status := .succeeded } := by
          refine ⟨rfl, fun p hp => ?_⟩
          rw [hop] at hp
          simp only [Op.presents, hloaded.named, Option.map_some, Option.some.injEq] at hp
          subst hp
          exact hrtoken.trans (congrArg some hloaded.claimToken)
        have hmine : .run r.processingRunId ∈ held ++ [Lock.task context.taskId, .run r.processingRunId] := by
          simp
        have hfirst := hrun.fits hv hat hmine
        have hgood := hfirst.good (.task context.taskId) a ha
        have haid : a.taskId = c.taskId := (Store.task_id ha).trans hloaded.taskId
        -- the run that was written is of no concern to the operations
        have hloaded' : Loaded h accountId body c context a held
            (v.setRun { r with status := .succeeded }) := { hloaded with
          taken := hloaded.taken
          alone := hloaded.alone }
        refine ⟨hrun, fun _ _ => hrlease,
          acceptedRow_step hop hloaded' hgood hnone hclaimed htoken haid,
          ⟨fun _ _ => hlease, fun hb => ?_, fun _ _ _ hb => ?_, fun hc => ?_⟩, trivial⟩
        · simp [SignalTask.busy] at hb
        · simp [SignalTask.busy] at hb
        · rw [hclaim] at hc
          cases hc
      · cases accepted with
        | some t => exact keeps_done
        | none => exact keeps_raised

theorem operatorIngress_keeps (hop : ops i = .ingress accountId body intent) :
    Keeps h ops forbidden i (fun _ _ => True) (operatorIngress h accountId body intent)
      fun _ _ _ => True := by
  have htrue : Stable h ops forbidden fun _ _ => True := fun _ _ _ _ _ => trivial
  refine (keeps_read (Q := fun _ held _ => .account accountId ∈ held) htrue (fun _ a => by simp)
    fun held v _ _ => by simp).bind fun _ => ?_
  refine loadRequest_keeps.bind fun context => ?_
  exact acceptOperation_keeps hop

end Ingress

/-! ## Runs -/

section Runs
variable {ι : Type} {h : Handoff} {ops : ι → Op} {forbidden : List String}

/-- **Every transaction keeps the rules.** -/
theorem op_keeps (hforbidden : ∀ x ∈ forbidden, x ∈ expiryReasons)
    (hdetail : ∀ i task detail operatorDetail, ops i = .uncertainty task detail operatorDetail →
      detailText detail ∉ forbidden) (i : ι) :
    Keeps h ops forbidden i (fun held _ => held = []) ((ops i).program h) fun _ _ _ => True := by
  have hany : ∀ {α : Type} {p : Transaction α},
      Keeps h ops forbidden i (fun _ _ => True) p (fun _ _ _ => True) →
        Keeps h ops forbidden i (fun held _ => held = []) p fun _ _ _ => True :=
    fun hp => hp.weaken fun _ _ _ _ => trivial
  cases hop : ops i with
  | enqueue e => exact hany (enqueueSignalTask_keeps hforbidden hop)
  | claim c =>
    refine ((claimSignalTask_keeps hop).weaken fun held v _ hk => ?_).bind fun _ => keeps_done
    rintro x hx
    rw [hk] at hx
    cases hx
  | complete c => exact (hany (completeSignalTask_keeps hop)).bind fun _ => keeps_done
  | storeContext task versions => exact hany (storeExecutionContext_keeps hop)
  | recordDecision task semantic stages snapshot => exact hany (recordSignalDecision_keeps hop)
  | register task body =>
    exact (hany (registerExecutionRequest_keeps hforbidden hop)).bind fun _ => keeps_done
  | uncertainty task detail operatorDetail =>
    exact (hany (recordOperatorUncertainty_keeps (hdetail i task detail operatorDetail hop) hop)).bind
      fun _ => keeps_done
  | ingress accountId body intent => exact hany (operatorIngress_keeps hop)
  | legacySweep => exact hany (expireTimedOutRuns_keeps hop)

theorem good_emptyStore (clock : Int) : (queueRules h ops forbidden).Good (emptyStore clock) := by
  intro k
  cases k with
  | task id =>
    intro t ht
    have hnone : (emptyStore clock).task id = none := rfl
    cases hnone.symm.trans ht
  | run | account | queue | source | found | leased => trivial

variable (h ops forbidden) in
theorem same_tick (d : Nat) (s : Store) :
    (∀ k, (queueRules h ops forbidden).same k s (s.tick d)) ∧
      (queueRules h ops forbidden).later s (s.tick d) := by
  refine ⟨fun k => ?_, ?_⟩
  · cases k with
    | task | run => rfl
    | account => exact fun _ => rfl
    | queue | source | found | leased => trivial
  · show s.clock ≤ s.clock + d
    omega

variable [DecidableEq ι] [Fintype ι]

variable (h ops forbidden) in
/-- Every transaction of the queue has kept to the rules and will. -/
abbrev QueueHeld (s : QueueState ι) : Prop := (queueRules h ops forbidden).Held (Change h ops) s

variable {s : QueueState ι}

theorem QueueHeld.next (hs : QueueHeld h ops forbidden s) (e : QueueEvent ι) :
    QueueHeld h ops forbidden ((machine h ops).next s e) := hs.step (same_tick h ops forbidden) e

variable (h ops forbidden) in
/-- **Any run of the queue.** -/
theorem queueHeld_of_run (hforbidden : ∀ x ∈ forbidden, x ∈ expiryReasons)
    (hdetail : ∀ i task detail operatorDetail, ops i = .uncertainty task detail operatorDetail →
      detailText detail ∉ forbidden) (clock : Int) (es : List (QueueEvent ι)) :
    (machine h ops).Meets (fun s e => QueueHeld h ops forbidden s ∧ Rules.Shown (Change h ops) s e)
        (initial h ops clock) es ∧
      QueueHeld h ops forbidden ((machine h ops).after (initial h ops clock) es) :=
  Rules.held_of_run (op_keeps hforbidden hdetail) (same_tick h ops forbidden) (good_emptyStore clock) es

/-- What a commit may do to the store. -/
theorem QueueHeld.does (hs : QueueHeld h ops forbidden s) (e : QueueEvent ι) :
    (∀ id, ((machine h ops).next s e).store.task id = s.store.task id ∧
        ((machine h ops).next s e).store.run id = s.store.run id) ∨
      ∃ i, e = .move (.run i) ∧
        ∀ k, RowDoes h ops i k s.store ((machine h ops).next s e).store := by
  rcases Rules.store_next (fun i => (ops i).program h) Store.tick s e with
    hs' | ⟨i, a, rfl, -, hs'⟩ | ⟨o, -, hs'⟩
  · refine .inl fun id => ?_
    have hstore : ((machine h ops).next s e).store = s.store := hs'
    rw [hstore]
    exact ⟨rfl, rfl⟩
  · refine .inr ⟨i, rfl, fun k => ?_⟩
    have hstore : ((machine h ops).next s (.move (.run i))).store = s.view i := hs'
    rw [hstore]
    exact (hs.sound i).does k
  · refine .inl fun id => ?_
    have hstore : ((machine h ops).next s e).store = s.store.tick o := hs'
    rw [hstore]
    exact ⟨rfl, rfl⟩

end Runs

/-! ## Accepted operations -/

section Acceptances
variable {ι : Type} {h : Handoff} {ops : ι → Op}

/-- An operation that was bound to a task, and whether it is an entry. -/
structure Acceptance where
  source : Source
  taskId : String
  entry : Bool
  deriving DecidableEq, Repr

/-- The transaction is the ingress of an entry. -/
def Op.entry : Op → Bool
  | .ingress _ body _ => entryAction body
  | .enqueue _ | .claim _ | .complete _ | .storeContext _ _ | .recordDecision _ _ _ _ | .register _ _
  | .uncertainty _ _ _ | .legacySweep => false

/-- What moves is the ingress of an entry. -/
def isEntry (ops : ι → Op) : QueueEvent ι → Bool
  | .move (.run i) => (ops i).entry
  | .move (.abort _) | .others _ => false

/-- The tasks with an operation in the later store that had none in the earlier. -/
def newlyBound (s s' : Store) : List TaskRow :=
  s'.tasks.rows.filter fun t => t.operatorIntentId.isSome &&
    (s.task t.taskId).all fun x => x.operatorIntentId.isNone

/-- What an event accepts. -/
def acceptances (ops : ι → Op) (s s' : Store) (e : QueueEvent ι) : List Acceptance :=
  (newlyBound s s').map fun t => ⟨t.toSource, t.taskId, isEntry ops e⟩

variable [DecidableEq ι] [Fintype ι]

/-- The operations a run accepts, in the order in which they are committed. -/
def accepted (h : Handoff) (ops : ι → Op) : QueueState ι → List (QueueEvent ι) → List Acceptance
  | _, [] => []
  | s, e :: es => acceptances ops s.store ((machine h ops).next s e).store e ++
      accepted h ops ((machine h ops).next s e) es

/-- No task of the source has an operation. -/
def Unentered (source : Source) (s : Store) : Prop :=
  ∀ t ∈ s.tasks.rows, t.toSource = source → t.operatorIntentId = none

variable {t : TaskRow} {forbidden : List String} {s : QueueState ι}

theorem bound_of_mem {s : Store} {o : String} (ht : t ∈ s.tasks.rows)
    (ho : t.operatorIntentId = some o) : bound t.accountId t.taskId s = some (t.toSource, o) := by
  rw [bound_of_task (Store.task_of_mem ht), if_pos rfl, ho]
  rfl

theorem mem_of_bound {s : Store} {accountId id : String} {x : Source × String}
    (hx : bound accountId id s = some x) :
    ∃ t ∈ s.tasks.rows, t.taskId = id ∧ t.accountId = accountId ∧ t.toSource = x.1 ∧
      t.operatorIntentId = some x.2 := by
  obtain ⟨t, ht, hsome⟩ := Option.bind_eq_some_iff.mp hx
  split_ifs at hsome with haccount
  obtain ⟨o, ho, rfl⟩ := Option.map_eq_some_iff.mp hsome
  exact ⟨t, Store.mem_of_task ht, Store.task_id ht, haccount, rfl, ho⟩

theorem newlyBound_mem {s s' : Store} (ht : t ∈ newlyBound s s') :
    t ∈ s'.tasks.rows ∧ (∃ o, t.operatorIntentId = some o) ∧
      ∀ x, s.task t.taskId = some x → x.operatorIntentId = none := by
  simp only [newlyBound, List.mem_filter, Bool.and_eq_true, Option.isSome_iff_exists] at ht
  obtain ⟨hmem, ho, hnone⟩ := ht
  refine ⟨hmem, ho, fun x hx => ?_⟩
  rw [hx] at hnone
  exact Option.isNone_iff_eq_none.mp hnone

/-- **One event.** Operations stay, and an entry is only accepted where no task of
its source has an operation, not even one that is bound beside it. -/
theorem accepted_step (hs : QueueHeld h ops forbidden s) (e : QueueEvent ι) :
    (∀ accountId id x, bound accountId id s.store = some x →
        bound accountId id ((machine h ops).next s e).store = some x) ∧
      ∀ t ∈ newlyBound s.store ((machine h ops).next s e).store, isEntry ops e = true →
        ∀ x ∈ ((machine h ops).next s e).store.tasks.rows, x.toSource = t.toSource →
          x.taskId ≠ t.taskId → x.operatorIntentId = none := by
  rcases hs.does e with hsame | ⟨i, rfl, hdoes⟩
  · refine ⟨fun accountId id x hx => ?_, fun t ht => ?_⟩
    · unfold bound at hx ⊢
      rwa [(hsame id).1]
    · obtain ⟨hmem, ⟨o, ho⟩, hnone⟩ := newlyBound_mem ht
      have hrow := Store.task_of_mem hmem
      rw [(hsame t.taskId).1] at hrow
      cases (hnone t hrow).symm.trans ho
  · have haccepts : ∀ a, Accepts ops i a s.store ((machine h ops).next s (.move (.run i))).store :=
      fun a => hdoes (.account a)
    refine ⟨fun accountId id x hx => (haccepts accountId).kept id x hx, fun t ht hentry x hx hsource hne => ?_⟩
    obtain ⟨hmem, ⟨o, ho⟩, hnone⟩ := newlyBound_mem ht
    have hbefore : bound t.accountId t.taskId s.store = none := by
      cases hb : bound t.accountId t.taskId s.store with
      | none => rfl
      | some y =>
        obtain ⟨x, hx, hid, -, -, hy⟩ := mem_of_bound hb
        cases (hnone x (hid ▸ Store.task_of_mem hx)).symm.trans hy
    obtain ⟨accountId, body, intent, hop, hother⟩ :=
      (haccepts t.accountId).fresh t.taskId _ hbefore (bound_of_mem hmem ho)
    have hbody : entryAction body = true := by
      simp only [isEntry, hop, Op.entry] at hentry
      exact hentry
    cases hxo : x.operatorIntentId with
    | none => rfl
    | some o' =>
      have haccount : x.accountId = t.accountId := congrArg Source.accountId hsource
      exact absurd hsource (hother hbody x.taskId _ hne (haccount ▸ bound_of_mem hx hxo))

/-- What holds of the operations that a run from `s` accepts. -/
structure Once (s : Store) (log : List Acceptance) : Prop where
  fresh : ∀ a ∈ log, ∀ x, s.task a.taskId = some x → x.operatorIntentId = none
  ids : (log.map (·.taskId)).Nodup
  entries : log.Pairwise fun a b => b.source = a.source → b.entry = false
  first : ∀ a ∈ log, a.entry = true → Unentered a.source s

theorem once_of_held (hs : QueueHeld h ops forbidden s) (es : List (QueueEvent ι)) :
    Once s.store (accepted h ops s es) := by
  induction es generalizing s with
  | nil => exact ⟨nofun, List.nodup_nil, .nil, nofun⟩
  | cons e es ih =>
    obtain ⟨hstays, hentries⟩ := accepted_step hs e
    have hrest := ih (hs.next e)
    have hkept : ∀ t ∈ s.store.tasks.rows, t.operatorIntentId.isSome = true →
        ∃ t' ∈ ((machine h ops).next s e).store.tasks.rows, t'.taskId = t.taskId ∧
          t'.toSource = t.toSource ∧ t'.operatorIntentId.isSome = true := by
      intro t ht hsome
      obtain ⟨o, ho⟩ := Option.isSome_iff_exists.mp hsome
      obtain ⟨t', ht', hid, -, hsource, ho'⟩ := mem_of_bound (hstays _ _ _ (bound_of_mem ht ho))
      exact ⟨t', ht', hid, hsource, by rw [ho']; rfl⟩
    have hmap : (acceptances ops s.store ((machine h ops).next s e).store e).map (·.taskId) =
        (newlyBound s.store ((machine h ops).next s e).store).map fun t => t.taskId := by
      simp [acceptances, Function.comp_def]
    have hnew : ((newlyBound s.store ((machine h ops).next s e).store).map fun t => t.taskId).Nodup :=
      List.Nodup.sublist (List.Sublist.map _ List.filter_sublist)
        ((machine h ops).next s e).store.tasks.unique
    refine ⟨fun a ha => ?_, ?_, ?_, fun a ha => ?_⟩
    · rcases List.mem_append.mp ha with ha | ha
      · obtain ⟨t, ht, rfl⟩ := List.mem_map.mp ha
        exact (newlyBound_mem ht).2.2
      · intro x hx
        by_contra hsome
        obtain ⟨t', ht', hid, -, hsome'⟩ := hkept x (Store.mem_of_task hx)
          (Option.isSome_iff_ne_none.mpr hsome)
        have hat : ((machine h ops).next s e).store.task a.taskId = some t' := by
          rw [← Store.task_id hx, ← hid]
          exact Store.task_of_mem ht'
        rw [hrest.fresh a ha t' hat] at hsome'
        cases hsome'
    · rw [accepted, List.map_append, hmap]
      refine List.Nodup.append hnew hrest.ids fun id hid hid' => ?_
      obtain ⟨t, ht, rfl⟩ := List.mem_map.mp hid
      obtain ⟨b, hb, hbid⟩ := List.mem_map.mp hid'
      obtain ⟨hmem, ⟨o, ho⟩, -⟩ := newlyBound_mem ht
      have hat : ((machine h ops).next s e).store.task b.taskId = some t := by
        rw [hbid]
        exact Store.task_of_mem hmem
      cases (hrest.fresh b hb t hat).symm.trans ho
    · refine List.pairwise_append.mpr ⟨?_, hrest.entries, fun a ha b hb hsource => ?_⟩
      · refine List.pairwise_map.mpr ((List.pairwise_map.mp hnew).imp_of_mem ?_)
        intro a b ha hb hne hsource
        by_contra hentry
        obtain ⟨hmem, ⟨o, ho⟩, -⟩ := newlyBound_mem ha
        have hnone := hentries b hb (Bool.eq_true_of_not_eq_false hentry) a hmem hsource.symm hne
        cases hnone.symm.trans ho
      · obtain ⟨t, ht, rfl⟩ := List.mem_map.mp ha
        obtain ⟨hmem, ⟨o, ho⟩, -⟩ := newlyBound_mem ht
        by_contra hentry
        have hnone := hrest.first b hb (Bool.eq_true_of_not_eq_false hentry) t hmem hsource.symm
        cases hnone.symm.trans ho
    · intro hentry x hx hsource
      by_contra hsome
      obtain ⟨t', ht', hid, hsource', hsome'⟩ := hkept x hx (Option.isSome_iff_ne_none.mpr hsome)
      rcases List.mem_append.mp ha with ha | ha
      · obtain ⟨t, ht, rfl⟩ := List.mem_map.mp ha
        have hne : t'.taskId ≠ t.taskId := by
          rintro heq
          exact hsome ((newlyBound_mem ht).2.2 x (heq ▸ hid ▸ Store.task_of_mem hx))
        rw [hentries t ht hentry t' ht' (hsource'.trans hsource) hne] at hsome'
        cases hsome'
      · rw [hrest.first a ha hentry t' ht' (hsource'.trans hsource)] at hsome'
        cases hsome'

/-- **Edited messages do not enter twice.** Whatever transactions of the queue and of
ingress run, in any order of their statements: no task is accepted twice, an entry
is accepted only where no task of its source has an operation, and of the entries
of a source at most one is accepted. -/
theorem edits_enter_once (h : Handoff) (ops : ι → Op) (clock : Int) (es : List (QueueEvent ι)) :
    (machine h ops).Meets (fun s e =>
        ∀ a ∈ acceptances ops s.store ((machine h ops).next s e).store e, a.entry = true →
          Unentered a.source s.store) (initial h ops clock) es ∧
      ((accepted h ops (initial h ops clock) es).map (·.taskId)).Nodup ∧
      (accepted h ops (initial h ops clock) es).Pairwise
        (fun a b => b.source = a.source → b.entry = false) ∧
      ∀ source, ((accepted h ops (initial h ops clock) es).filter fun a =>
        a.source = source ∧ a.entry = true).length ≤ 1 := by
  have hrun := queueHeld_of_run h ops [] nofun
    (fun _ _ _ _ _ => List.not_mem_nil) clock
  have honce : Once _ (accepted h ops (initial h ops clock) es) := once_of_held (hrun []).2 es
  refine ⟨?_, honce.ids, honce.entries, fun source => ?_⟩
  · refine Machine.meets_of_meets (I := fun _ => True) (fun s e _ hs => ⟨?_, trivial⟩) trivial (hrun es).1
    have hone := once_of_held hs.1 [e]
    simp only [accepted, List.append_nil] at hone
    exact hone.first
  · have hpair := honce.entries.filter fun a => a.source = source ∧ a.entry = true
    rcases hlog : (accepted h ops (initial h ops clock) es).filter fun a =>
      a.source = source ∧ a.entry = true with _ | ⟨a, _ | ⟨b, rest⟩⟩
    · rw [hlog]
      exact Nat.zero_le 1
    · rw [hlog]
      exact le_rfl
    · exfalso
      rw [hlog] at hpair
      have hin : ∀ x ∈ a :: b :: rest, x.source = source ∧ x.entry = true := by
        intro x hx
        rw [← hlog] at hx
        simpa using (List.mem_filter.mp hx).2
      obtain ⟨ha, -⟩ := hin a List.mem_cons_self
      obtain ⟨hb, hentry⟩ := hin b (List.mem_cons_of_mem _ List.mem_cons_self)
      have hfalse := (List.pairwise_cons.mp hpair).1 b List.mem_cons_self (hb.trans ha.symm)
      rw [hfalse] at hentry
      cases hentry

end Acceptances
end TraderBot.SignalQueue
