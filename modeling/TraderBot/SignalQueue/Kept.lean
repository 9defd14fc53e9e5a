import TraderBot.SignalQueue.Statements

/-! # The transactions keep the rules

Each transaction of the queue, of ingress and of the legacy queue, one after the
other, and every run of them together. -/
namespace TraderBot.SignalQueue
open TraderBot.Lib TraderBot.Lib.Json

/-- The reasons an expiry leaves. -/
def expiryReasons : List String := ["claim_expired_without_operation", "signal_ttl_exceeded"]

section Assertions
variable {ι : Type} {h : Handoff} {ops : ι → Op} {forbidden : List String}

theorem stable_held (P : List Lock → Prop) : Stable h ops forbidden fun held _ => P held :=
  fun _ _ _ _ hp => hp

theorem stable_and {K L : List Lock → Store → Prop} (hK : Stable h ops forbidden K)
    (hL : Stable h ops forbidden L) : Stable h ops forbidden fun held v => K held v ∧ L held v :=
  fun held v w hrely hkl => ⟨hK held v w hrely hkl.1, hL held v w hrely hkl.2⟩

/-- The transaction holds the task and sees this row. -/
def Row (taskId : String) (P : TaskRow → Prop) (held : List Lock) (v : Store) : Prop :=
  .task taskId ∈ held ∧ ∃ t, v.task taskId = some t ∧ P t

variable (taskId : String)

theorem stable_row (P : TaskRow → Prop) : Stable h ops forbidden (Row taskId P) := by
  rintro held v w hrely ⟨hheld, t, ht, hp⟩
  have hsame : v.task taskId = w.task taskId := hrely.kept _ hheld
  exact ⟨hheld, t, hsame.symm.trans ht, hp⟩

/-- The task is one of this source. -/
def OfSource (taskId : String) (source : Source) (_ : List Lock) (v : Store) : Prop :=
  ∃ t, v.task taskId = some t ∧ t.toSource = source

theorem stable_ofSource (source : Source) : Stable h ops forbidden (OfSource taskId source) := by
  rintro held v w hrely ⟨t, ht, hsource⟩
  obtain ⟨t', ht', hevolves⟩ := hrely.evolves (.task taskId) t ht
  exact ⟨t', ht', hevolves.source.trans hsource⟩

/-- No task was leased yet. -/
def Unleased (held : List Lock) (_ : Store) : Prop := ∀ x, .leased x ∉ held

theorem Unleased.append {held locks : List Lock} {v w : Store} (hheld : Unleased held v)
    (hlocks : ∀ x, .leased x ∉ locks) : Unleased (held ++ locks) w := by
  intro x hx
  rcases List.mem_append.mp hx with hx | hx
  · exact hheld x hx
  · exact hlocks x hx

theorem stable_unleased : Stable h ops forbidden Unleased := fun _ _ _ _ hheld => hheld

end Assertions

/-! ## Ingress of messages, and the legacy queue -/

section Programs
variable {ι : Type} {h : Handoff} {ops : ι → Op} {forbidden : List String} {i : ι}
  {K : List Lock → Store → Prop}

variable {α : Type} {v : Store}

/-- Where nothing more is claimed, a query may come. -/
theorem keeps_query {β : Type} {answer : Store → α} {next : α → Transaction β}
    (hK : Stable h ops forbidden K)
    (hnext : ∀ a, Keeps h ops forbidden i K (next a) fun _ _ _ => True) :
    Keeps h ops forbidden i K (select answer >>= next) fun _ _ _ => True :=
  (keeps_select (Q := fun _ => K) hK fun _ _ _ hk => hk).bind hnext

theorem keeps_done {a : α} : Keeps h ops forbidden i K (pure a) fun _ _ _ => True :=
  fun _ _ _ _ => trivial

theorem keeps_raised {Q : α → List Lock → Store → Prop} :
    Keeps h ops forbidden i K (.raised : Transaction α) Q := Rules.triple_raised

theorem expireTimedOutRuns_keeps (hop : ops i = .legacySweep) :
    Keeps h ops forbidden i (fun _ _ => True) expireTimedOutRuns fun _ _ _ => True := by
  have hp : (ops i).presents h = none := by rw [hop]; rfl
  have htrue : Stable h ops forbidden fun _ _ => True := fun _ _ _ _ _ => trivial
  exact keeps_query htrue fun now => keeps_setTimedOut hp htrue

theorem not_forbidden (hforbidden : ∀ x ∈ forbidden, x ∈ expiryReasons) {s : String}
    (hs : s ∉ expiryReasons) : ∀ x ∈ forbidden, some s ≠ some x := by
  intro x hx heq
  exact hs (Option.some.inj heq ▸ hforbidden x hx)

theorem enqueuedRow_good (hforbidden : ∀ x ∈ forbidden, x ∈ expiryReasons) (e : Enqueue)
    (accountId : String) (now : Int) (v : Store) :
    GoodTask forbidden v (enqueuedRow e accountId now) where
  run := nofun
  unclaimed _ := rfl
  claimed hclaimed := by
    simp only [enqueuedRow] at hclaimed
    split_ifs at hclaimed <;> cases hclaimed
  accepted := nofun
  reason hopen x hx := by
    simp only [enqueuedRow] at hopen ⊢
    split_ifs at hopen ⊢
    · simp [TaskStatus.isClaimed] at hopen
    all_goals exact not_forbidden hforbidden (by decide) x hx

theorem enqueueSignalTask_keeps (hforbidden : ∀ x ∈ forbidden, x ∈ expiryReasons) {e : Enqueue}
    (hop : ops i = .enqueue e) :
    Keeps h ops forbidden i (fun _ _ => True) (enqueueSignalTask e) fun _ _ _ => True := by
  have hp : (ops i).presents h = none := by rw [hop]; rfl
  have htrue : Stable h ops forbidden fun _ _ => True := fun _ _ _ _ _ => trivial
  have hbusy : ∀ account at_ now, (enqueuedRow e account at_).busy now = false := by
    intro account at_ now
    simp only [enqueuedRow, SignalTask.busy]
    split_ifs <;> rfl
  unfold enqueueSignalTask
  dsimp only
  split_ifs
  · exact keeps_raised
  · exact keeps_raised
  · refine keeps_query htrue fun now => ?_
    refine (keeps_insertTask (Q := fun _ _ _ => True) hp (by rw [hop]; rfl) htrue
      (enqueuedRow_good hforbidden e _ now) rfl (hbusy _ now) fun _ _ _ => trivial).bind
        fun inserted => ?_
    split_ifs
    · exact keeps_done
    · refine keeps_query htrue fun existing => ?_
      split
      · exact keeps_raised
      · split_ifs
        · exact keeps_raised
        · exact keeps_done

/-- The columns that only a lease or an operation changes. -/
def kept (t : TaskRow) :=
  (t.taskId, t.toSource, t.rawMessageId, t.processingPurpose, t.attempt, t.toClaim, t.operatorIntentId)

/-- An update under the claim the task has. -/
theorem step_of_kept {held : List Lock} {a b : TaskRow} (ha : GoodTask forbidden v a)
    (hkept : kept b = kept a)
    (hrequest : a.executionRequest = none ∨ b.executionRequest = a.executionRequest)
    (hclaimed : b.status.isClaimed = true → a.status.isClaimed = true)
    (haccepted : a.operatorIntentId.isSome = true → b.status = .dispatched)
    (hreason : b.status = .pending ∨ b.status.isClaimed = true ∨ b.status = .dispatched →
      ∀ x ∈ forbidden, b.dispositionReason ≠ some x)
    (hauthorized : ∀ p, (ops i).presents h = some p →
      a.taskId = p.taskId ∧ a.claimToken = p.claimToken) :
    TaskStep h ops forbidden i held v a b := by
  simp only [kept, Prod.mk.injEq] at hkept
  obtain ⟨hkey, hsource, hraw, hpurpose, hattempt, hclaim, hintent⟩ := hkept
  have haccount : b.accountId = a.accountId := congrArg Source.accountId hsource
  have htoken : b.claimToken = a.claimToken := congrArg Claim.claimToken hclaim
  have hrun : b.processingRunId = a.processingRunId := congrArg Claim.processingRunId hclaim
  have hlease : b.leaseExpiresAt = a.leaseExpiresAt := congrArg Claim.leaseExpiresAt hclaim
  refine ⟨hkey, ⟨hsource, hraw, hpurpose, hattempt.ge, fun hne => absurd hclaim hne, fun q hq => ?_,
    fun o ho => hintent.trans ho⟩, ⟨fun id hid => ?_, fun hid => ?_, fun hb => ?_, fun hb => ?_,
      hreason⟩, hauthorized, .inl hintent⟩
  · rcases hrequest with hnone | hsame
    · cases hq.symm.trans hnone
    · exact ⟨hsame.trans hq, hclaim, hattempt⟩
  · rw [hraw, haccount, hpurpose, hattempt, htoken, hlease]
    exact ha.run id (hrun.symm.trans hid)
  · exact hattempt.trans (ha.unclaimed (hrun.symm.trans hid))
  · rw [hrun, htoken, hlease]
    exact ha.claimed (hclaimed hb)
  · exact haccepted (hintent ▸ hb)

/-- A task that is open has no operation. -/
theorem GoodTask.unaccepted {a : TaskRow} (ha : GoodTask forbidden v a)
    (hstatus : a.status ≠ .dispatched) : a.operatorIntentId.isSome = true → False :=
  fun hsome => hstatus (ha.accepted hsome)

/-! ## Claims -/

section Claim
variable {c : ClaimCall}

variable {v : Store} {t : TaskRow}

theorem maxAttempt_lt (ht : GoodTask forbidden v t) :
    t.attempt < v.maxAttempt t.toSignalTask + 1 := by
  cases hrun : t.processingRunId with
  | none =>
    rw [ht.unclaimed hrun]
    exact Nat.succ_pos _
  | some id =>
    obtain ⟨r, hr, hraw, haccount, hpurpose, hattempt, -⟩ := ht.run id hrun
    rw [← hattempt]
    refine Nat.lt_succ_of_le ?_
    have hmem : r ∈ v.runs.rows.filter fun r => r.rawMessageId = t.rawMessageId ∧
        r.processingPurpose = t.processingPurpose ∧ r.accountId = some t.accountId := by
      refine List.mem_filter.mpr ⟨List.mem_of_find?_eq_some hr, ?_⟩
      simp [hraw, hpurpose, haccount]
    have hmax : ∀ (rs : List Run) n, n ≤ rs.foldl (fun n r => max n r.attempt) n ∧
        (r ∈ rs → r.attempt ≤ rs.foldl (fun n r => max n r.attempt) n) := by
      intro rs
      induction rs with
      | nil => exact fun n => ⟨le_rfl, nofun⟩
      | cons x rs ih =>
        intro n
        obtain ⟨hle, hin⟩ := ih (max n x.attempt)
        refine ⟨(Nat.le_max_left _ _).trans hle, fun hr => ?_⟩
        rcases List.mem_cons.mp hr with rfl | hr
        · exact (Nat.le_max_right _ _).trans hle
        · exact hin hr
    exact (hmax _ 0).2 hmem

/-- A claim that found the account free holds a task of it and has leased none. -/
def Claimable (fresh : TaskRow) (held : List Lock) (v : Store) : Prop :=
  (Unleased held v ∧ .found fresh.accountId ∈ held) ∧ Row fresh.taskId (· = fresh) held v

theorem stable_claimable (fresh : TaskRow) : Stable h ops forbidden (Claimable fresh) :=
  stable_and (stable_and stable_unleased (stable_held _)) (stable_row _ _)

/-- Another lock, another run. -/
theorem Claimable.mono {fresh : TaskRow} {held locks : List Lock} {w : Store}
    (hc : Claimable fresh held v) (hlocks : ∀ x, .leased x ∉ locks)
    (htasks : ∀ id, w.task id = v.task id) : Claimable fresh (held ++ locks) w := by
  obtain ⟨⟨hunleased, hfound⟩, hheld, t, ht, rfl⟩ := hc
  exact ⟨⟨hunleased.append hlocks, List.mem_append_left _ hfound⟩, List.mem_append_left _ hheld,
    t, (htasks _).trans ht, rfl⟩

theorem endRun_keeps (hop : ops i = .claim c) (fresh : TaskRow) (where_ : Store → Run → Bool)
    (set : Run → Run) (hset : ∀ r, RunEvolves r (set r)) :
    Keeps h ops forbidden i (Claimable fresh) (endRun fresh.toSignalTask where_ set)
      fun _ => Claimable fresh := by
  have hp : (ops i).presents h = none := by rw [hop]; rfl
  unfold endRun
  split
  · next runId hrun =>
    refine (keeps_updateRun (Q := fun _ => Claimable fresh) (stable_claimable fresh) ?_
      fun _ _ _ hk => hk).bind fun _ _ _ _ hk => hk
    intro held v r hv hk hr hwhere
    refine ⟨⟨hset r, fun p hp' => ?_⟩, fun hsome => ?_, hk.mono (fun x hx => ?_) fun _ => rfl⟩
    · cases hp.symm.trans hp'
    · rw [hp] at hsome
      cases hsome
    · simp at hx
  · exact fun _ _ _ hk => hk

/-- The new run of the claim is there, with the next attempt. -/
def Leasable (c : ClaimCall) (fresh : TaskRow) (now : Int) (attempt : Nat) (held : List Lock)
    (v : Store) : Prop :=
  fresh.attempt < attempt ∧ Claimable fresh held v ∧ .run c.processingRunId ∈ held ∧
    v.run c.processingRunId = some (startedRun c fresh.toSignalTask now attempt)

theorem stable_leasable (c : ClaimCall) (fresh : TaskRow) (now : Int) (attempt : Nat) :
    Stable h ops forbidden (Leasable c fresh now attempt) := by
  rintro held v w hrely ⟨hattempt, hclaimable, hheld, hrun⟩
  have hsame : v.run c.processingRunId = w.run c.processingRunId := hrely.kept _ hheld
  exact ⟨hattempt, stable_claimable fresh held v w hrely hclaimable, hheld, hsame.symm.trans hrun⟩

/-- A lease of a task that is pending or whose lease is past. -/
theorem leasedRow_step {held : List Lock} {now : Int} {attempt : Nat}
    (hp : (ops i).presents h = none) (ht : GoodTask forbidden v t) (hattempt : t.attempt < attempt)
    (hstatus : t.status = .pending ∨ t.status = .leased)
    (hrequest : t.executionRequest.isNone = true)
    (hrun : v.run c.processingRunId = some (startedRun c t.toSignalTask now attempt)) :
    TaskStep h ops forbidden i held v t (leasedRow c now attempt t) where
  key := rfl
  evolves := by
    refine ⟨rfl, rfl, rfl, hattempt.le, fun _ => hattempt, fun q hq => ?_, fun o ho => ho⟩
    rw [hq] at hrequest
    cases hrequest
  good := by
    refine ⟨fun id hid => ?_, nofun, fun _ => ⟨rfl, rfl, rfl⟩, fun hsome => ?_, fun _ => ?_⟩
    · cases hid
      exact ⟨_, hrun, rfl, rfl, rfl, rfl, rfl, rfl⟩
    · have hdispatched := ht.accepted hsome
      rcases hstatus with hstatus | hstatus <;> rw [hdispatched] at hstatus <;> cases hstatus
    · refine ht.reason ?_
      rcases hstatus with hstatus | hstatus
      · exact .inl hstatus
      · exact .inr (.inl (by rw [hstatus]; rfl))
  authorized p hp' := by cases hp.symm.trans hp'
  binds := .inl rfl

theorem leaseTask_keeps (hop : ops i = .claim c) (fresh : TaskRow) (now : Int) :
    Keeps h ops forbidden i (Claimable fresh) (leaseTask c fresh now) fun _ _ _ => True := by
  have hp : (ops i).presents h = none := by rw [hop]; rfl
  refine (endRun_keeps hop fresh _ timedOut fun r => rfl).bind fun _ => ?_
  refine (keeps_select (Q := fun n held v => Claimable fresh held v ∧ fresh.attempt < n)
    (stable_claimable fresh) fun held v hv hk => ⟨hk, ?_⟩).bind fun attempt => ?_
  · obtain ⟨-, -, t, ht, rfl⟩ := hk
    exact maxAttempt_lt (hv (.task t.taskId) t ht)
  have hK : Stable h ops forbidden fun held v => Claimable fresh held v ∧ fresh.attempt < attempt :=
    stable_and (stable_claimable fresh) (stable_held fun _ => fresh.attempt < attempt)
  refine (keeps_insertRun (Q := fun _ => Leasable c fresh now attempt) hp hK fun held v _ hk => ?_).bind
    fun _ => ?_
  · refine ⟨hk.2, hk.1.mono (fun x hx => by simp at hx) fun _ => rfl, by simp [startedRun], ?_⟩
    show (v.setRun (startedRun c fresh.toSignalTask now attempt)).run c.processingRunId = _
    rw [Store.run_setRun]
    exact if_pos rfl
  refine (keeps_updateTask (Q := fun _ _ _ => True) (stable_leasable c fresh now attempt)
    (fun x hx => by simp at hx) ?_ fun _ _ _ _ => trivial).bind fun leased => ?_
  · rintro held v a hv ⟨hattempt, ⟨⟨hunleased, hfound⟩, -, t, ht, rfl⟩, -, hrun⟩ ha hwhere -
    cases ht.symm.trans ha
    have hgood := hv (.task a.taskId) a ha
    simp only [Bool.and_eq_true, Bool.or_eq_true, decide_eq_true_eq] at hwhere
    obtain ⟨⟨hstatus, hrequest⟩, -⟩ := hwhere
    refine ⟨leasedRow_step hp hgood hattempt hstatus hrequest hrun, ⟨fun hsome => ?_, fun _ => ?_,
      fun hc => ?_, fun _ => hfound⟩, trivial⟩
    · rw [hp] at hsome
      cases hsome
    · exact .inr ⟨hfound, hunleased, by simp⟩
    · rw [hop] at hc
      cases hc
  · split
    · exact keeps_done
    · exact keeps_raised

theorem disposeExpired_keeps (hop : ops i = .claim c) (fresh : TaskRow)
    (hrequest : fresh.executionRequest = none) :
    Keeps h ops forbidden i (Claimable fresh) (disposeExpired fresh c.workerId) fun _ => Unleased := by
  have hp : (ops i).presents h = none := by rw [hop]; rfl
  refine (endRun_keeps hop fresh _ skippedRun fun r => rfl).bind fun _ => ?_
  refine (keeps_updateTask (Q := fun _ => Unleased) (stable_claimable fresh) (fun x hx => by simp at hx)
    ?_ fun _ _ _ hk => hk.1.1).bind fun _ _ _ _ hk => hk
  rintro held v a hv ⟨⟨hunleased, hfound⟩, -, t, ht, rfl⟩ ha hwhere -
  cases ht.symm.trans ha
  have hgood := hv (.task a.taskId) a ha
  simp only [Bool.or_eq_true, decide_eq_true_eq] at hwhere
  have hopen : a.status ≠ .dispatched := by
    rcases hwhere with hstatus | hstatus <;> rw [hstatus] <;> decide
  refine ⟨step_of_kept hgood rfl (.inl hrequest) (fun hb => by cases hb)
    (fun hsome => (hgood.unaccepted hopen hsome).elim)
    (fun hb => by simp [TaskStatus.isClaimed] at hb) (fun p hp' => by cases hp.symm.trans hp'),
    ⟨fun hsome => ?_, fun hb => ?_, fun hc => ?_, fun _ => hfound⟩,
    hunleased.append fun x hx => by simp at hx⟩
  · rw [hp] at hsome
    cases hsome
  · simp [SignalTask.busy] at hb
  · rw [hop] at hc
    cases hc

/-- The statement that finds an account free marks it. -/
theorem accountHasLiveLease_keeps (hop : ops i = .claim c) (accountId : String)
    {P : List Lock → Store → Prop} (hP : Stable h ops forbidden P) :
    Keeps h ops forbidden i (fun held v => (Unleased held v ∧ .queue accountId ∈ held) ∧ P held v)
      (accountHasLiveLease accountId) fun busy held v =>
        (Unleased held v ∧ (busy = false → .found accountId ∈ held)) ∧ ∃ held', P held' v := by
  refine Rules.triple_perform (stable_and (stable_and stable_unleased (stable_held _)) hP)
    (fun held v hv _ => .id hv) (fun held v _ hk => ?_) fun held v busy _ hk hb => ?_
  · refine ⟨fun _ _ id hid => absurd rfl hid, fun _ _ id hid => absurd rfl hid,
      fun _ b hb hbusy => .inl ⟨b, hb, rfl, hbusy⟩, fun _ _ _ b hb _ hbusy => ⟨b, hb, rfl, hbusy⟩,
      fun a ha hnot => ?_,
      fun _ id _ _ hid => absurd rfl hid⟩
    rcases List.mem_append.mp ha with ha | ha
    · exact absurd ha hnot
    · cases hbusy : v.accountBusy accountId with
      | true => simp [hbusy] at ha
      | false =>
        simp only [hbusy, Bool.false_eq_true, if_false, List.mem_singleton, Lock.found.injEq] at ha
        subst ha
        exact ⟨hk.1.2, by rw [hop]; rfl, hbusy, rfl⟩
  · cases hb
    refine ⟨⟨hk.1.1.append fun x hx => ?_, fun hbusy => ?_⟩, held, hk.2⟩
    · split_ifs at hx <;> simp at hx
    · simp [hbusy]

theorem firstRow_mem {rows : List TaskRow} (ht : firstRow rows = some t) : t ∈ rows := by
  have hfold : ∀ (rows : List TaskRow) (best : Option TaskRow),
      rows.foldl (fun best t => some (best.elim t fun b => earlier b t)) best = some t →
        t ∈ rows ∨ best = some t := by
    intro rows
    induction rows with
    | nil => exact fun best hbest => .inr hbest
    | cons x rows ih =>
      intro best hbest
      rcases ih _ hbest with hmem | hsome
      · exact .inl (List.mem_cons_of_mem _ hmem)
      · cases best with
        | none =>
          cases hsome
          exact .inl List.mem_cons_self
        | some b =>
          simp only [Option.elim_some, earlier, Option.some.injEq] at hsome
          split_ifs at hsome
          · exact .inr (congrArg some hsome)
          · exact .inl (hsome ▸ List.mem_cons_self)
  rcases hfold rows none ht with hmem | hnone
  · exact hmem
  · cases hnone

theorem claimLoop_keeps (hop : ops i = .claim c) (now : Int) (turns : List Turn)
    (skipAccounts : List String) :
    Keeps h ops forbidden i Unleased (claimLoop c now turns skipAccounts) fun _ _ _ => True := by
  induction turns generalizing skipAccounts with
  | nil => exact keeps_raised
  | cons turn turns ih =>
    have hagain : ∀ skipAccounts K, (∀ held v, K held v → Unleased held v) →
        Keeps h ops forbidden i K (claimLoop c now turns skipAccounts) fun _ _ _ => True :=
      fun skipAccounts K hK => (ih skipAccounts).weaken fun held v _ hk => hK held v hk
    unfold claimLoop
    refine (keeps_select (Q := fun candidate held v => Unleased held v ∧
        ∀ t, candidate = some t → OfSource t.taskId t.toSource held v) stable_unleased
      fun held v _ hk => ⟨hk, fun t ht => ?_⟩).bind fun candidate => ?_
    · have hmem := (List.mem_filter.mp (firstRow_mem ht)).1
      exact ⟨t, Store.task_of_mem hmem, rfl⟩
    cases candidate with
    | none => exact keeps_done
    | some task =>
      dsimp only
      -- the source of the candidate is the source of whatever row is locked later
      have hsource : Stable h ops forbidden (OfSource task.taskId task.toSource) :=
        stable_ofSource _ _
      refine (keeps_read (Q := fun _ held v => (Unleased held v ∧ .queue task.accountId ∈ held) ∧
          OfSource task.taskId task.toSource held v) (K := fun held v => Unleased held v ∧
          ∀ t, some task = some t → OfSource t.taskId t.toSource held v) ?_
        (fun _ a => by simp) fun held v _ hk => ?_).bind fun _ => ?_
      · intro held v w hrely hk
        exact ⟨hk.1, fun t ht => stable_ofSource _ _ held v w hrely (hk.2 t ht)⟩
      · exact ⟨⟨hk.1.append fun x hx => by simp at hx, by simp⟩, hk.2 task rfl⟩
      refine (accountHasLiveLease_keeps hop task.accountId hsource).bind fun busy => ?_
      split_ifs with hbusy
      · exact hagain _ _ fun held v hk => hk.1.1
      refine (keeps_read (Q := fun locked held v => (Unleased held v ∧ .found task.accountId ∈ held) ∧
          ∀ t, locked = some t → t.toSource = task.toSource ∧ Row t.taskId (· = t) held v)
        ?_ (fun v a => ?_) fun held v _ hk => ?_).bind fun locked => ?_
      · intro held v w hrely hk
        obtain ⟨held', hk'⟩ := hk.2
        obtain ⟨t, ht, hts⟩ := hk'
        obtain ⟨t', ht', hevolves⟩ := hrely.evolves (.task task.taskId) t ht
        exact ⟨hk.1, held', t', ht', hevolves.source.trans hts⟩
      · split_ifs <;> simp
      · obtain ⟨⟨hunleased, hfound⟩, held', t, ht, hts⟩ := hk
        refine ⟨⟨hunleased.append fun x hx => ?_, List.mem_append_left _ ?_⟩, fun x hx => ?_⟩
        · split_ifs at hx <;> simp at hx
        · exact hfound (Bool.eq_false_iff.mpr hbusy)
        · have hxid := Store.task_id hx
          cases ht.symm.trans hx
          refine ⟨hts, ?_, t, hxid ▸ ht, rfl⟩
          simp [ht, hxid]
      cases locked with
      | none => exact hagain _ _ fun held v hk => hk.1.1
      | some fresh =>
        dsimp only
        have hclaimable : ∀ held v, ((Unleased held v ∧ .found task.accountId ∈ held) ∧
            ∀ t, some fresh = some t → t.toSource = task.toSource ∧ Row t.taskId (· = t) held v) →
              Claimable fresh held v := by
          rintro held v ⟨⟨hunleased, hfound⟩, hrow⟩
          obtain ⟨hts, hrow⟩ := hrow fresh rfl
          have haccount : fresh.accountId = task.accountId := congrArg Source.accountId hts
          exact ⟨⟨hunleased, haccount ▸ hfound⟩, hrow⟩
        split_ifs with hskip hexpired
        · exact hagain _ _ fun held v hk => hk.1.1
        · have hrequest : fresh.executionRequest = none := by
            simp only [not_or, Bool.not_eq_false, rowIsClaimable, Bool.and_eq_true,
              Option.isNone_iff_eq_none] at hskip
            exact hskip.2.1
          refine ((disposeExpired_keeps hop fresh hrequest).weaken fun held v _ hk =>
            hclaimable held v hk).bind fun _ => ih skipAccounts
        · exact (leaseTask_keeps hop fresh now).weaken fun held v _ hk => hclaimable held v hk

theorem claimSignalTask_keeps (hop : ops i = .claim c) :
    Keeps h ops forbidden i Unleased (claimSignalTask c) fun _ _ _ => True := by
  unfold claimSignalTask
  split_ifs
  · exact keeps_raised
  · exact keeps_query stable_unleased fun now => claimLoop_keeps hop now c.turns []

end Claim

/-! ## Results -/

theorem completeSignalTask_keeps {c : Completion} (hop : ops i = .complete c) :
    Keeps h ops forbidden i (fun _ _ => True) (completeSignalTask c) fun _ _ _ => True := by
  have hp : (ops i).presents h = some ⟨c.taskId, some c.claimToken⟩ := by rw [hop]; rfl
  have hclaim : (ops i).isClaim = false := by rw [hop]; rfl
  have htrue : Stable h ops forbidden fun _ _ => True := fun _ _ _ _ _ => trivial
  unfold completeSignalTask
  split_ifs with hrefused
  · exact keeps_raised
  have hterminal : c.status.isTerminal = true := by
    simp only [not_or, Bool.not_eq_false] at hrefused
    exact hrefused.2.1
  refine (keeps_updateTask (Q := fun _ _ _ => True) htrue (fun x hx => by simp at hx) ?_
    fun _ _ _ _ => trivial).bind fun row => ?_
  · intro held v a hv _ ha hwhere _
    have hgood := hv (.task c.taskId) a ha
    simp only [Bool.and_eq_true, decide_eq_true_eq] at hwhere
    obtain ⟨⟨htoken, hstatus⟩, hlease⟩ := hwhere
    have hnever : ∀ (t : SignalTask) now, t.status = c.status → t.busy now = true → False := by
      intro t now hs hb
      simp only [SignalTask.busy, Bool.or_eq_true, Bool.and_eq_true, decide_eq_true_eq, hs] at hb
      rcases hb with hb | ⟨hb, -⟩ <;> rw [hb] at hterminal <;> cases hterminal
    have hnot : ¬(c.status = .pending ∨ c.status.isClaimed = true ∨ c.status = .dispatched) := by
      intro hopen
      cases hs : c.status <;> simp [hs, TaskStatus.isTerminal, TaskStatus.isClaimed] at hterminal hopen
    refine ⟨step_of_kept hgood rfl (.inr rfl) (fun hb => absurd (.inr (.inl hb)) hnot)
      (fun hsome => (hgood.unaccepted (by rw [hstatus]; decide) hsome).elim)
      (fun hb => absurd hb hnot) fun p hp' => ?_, ⟨fun _ _ => hlease, fun hb => (hnever _ _ rfl hb).elim,
      fun _ _ now hb => (hnever _ now rfl hb).elim, fun hc => ?_⟩, trivial⟩
    · cases hp.symm.trans hp'
      exact ⟨Store.task_id ha, htoken⟩
    · rw [hclaim] at hc
      cases hc
  · cases row with
    | none => exact keeps_raised
    | some task =>
      dsimp only
      cases task.processingRunId with
      | none => exact keeps_done
      | some runId =>
        refine (keeps_updateRun (Q := fun _ _ _ => True) htrue ?_ fun _ _ _ _ => trivial).bind
          fun ended => ?_
        · intro held v r _ _ _ hwhere
          simp only [Bool.and_eq_true, decide_eq_true_eq] at hwhere
          obtain ⟨⟨htoken, -⟩, hlease⟩ := hwhere
          refine ⟨⟨rfl, fun p hp' => ?_⟩, fun _ _ => hlease, trivial⟩
          cases hp.symm.trans hp'
          exact htoken
        · split_ifs
          · exact keeps_done
          · exact keeps_raised

/-! ## Execution -/

section Execution
variable {task : SignalTask}

/-- The claim is the task's, and nothing was handed over under it. -/
structure Claimed (task : SignalTask) (t : TaskRow) : Prop where
  claimToken : t.claimToken = task.claimToken
  status : t.status = .leased
  request : t.executionRequest = none

theorem eq_of_sqlEq {α : Type} [DecidableEq α] {a b : Option α} (hab : sqlEq a b = true) : a = b := by
  simp only [sqlEq, Bool.and_eq_true, decide_eq_true_eq] at hab
  exact hab.2

theorem lockExecutionClaim_keeps :
    Keeps h ops forbidden i (fun _ _ => True) (lockExecutionClaim task) fun _ =>
      Row task.taskId (Claimed task) := by
  have htrue : Stable h ops forbidden fun _ _ => True := fun _ _ _ _ _ => trivial
  unfold lockExecutionClaim
  split_ifs
  · exact keeps_raised
  refine (keeps_read (Q := fun _ _ _ => True) htrue (fun _ a => by simp) fun _ _ _ _ => trivial).bind
    fun _ => ?_
  refine (keeps_read (Q := fun found held v => found = true → Row task.taskId (Claimed task) held v)
    htrue (fun v a => ?_) fun held v _ _ => ?_).bind fun found => ?_
  · split <;> simp
  · rcases eligible_cases task.taskId _ v with hno | ⟨t, r, ht, hr, hwhere, hyes⟩
    · rw [hno]
      exact nofun
    · simp only [hyes]
      intro _
      simp only [Bool.and_eq_true, decide_eq_true_eq, sameClaim] at hwhere
      refine ⟨List.mem_append_right _ List.mem_cons_self, t, ht, ?_, hwhere.1.1.1.1.2, ?_⟩
      · exact eq_of_sqlEq hwhere.1.1.1.1.1.1.2.1.2
      · exact Option.isNone_iff_eq_none.mp hwhere.1.1.1.2
  · split_ifs with hfound
    · exact fun _ _ _ hk => hk hfound
    · exact keeps_raised

/-- An update under a locked claim: the task is leased under the claim, and its
lease is unexpired when the row is written. -/
theorem keeps_underClaim (hp : (ops i).presents h = some ⟨task.taskId, task.claimToken⟩)
    (hclaim : (ops i).isClaim = false) {where_ : Store → TaskRow → Bool} {set : TaskRow → TaskRow}
    (hwhere : ∀ v t, where_ v t = true → ahead t.leaseExpiresAt v.clock = true)
    (hkept : ∀ t, kept (set t) = kept t)
    (hlasts : (ops i).isRegister = false → ∀ t now, (set t).busy now = t.busy now)
    (hreason : ∀ t x, x ∈ forbidden → (∀ x ∈ forbidden, t.dispositionReason ≠ some x) →
      (set t).dispositionReason ≠ some x) :
    Keeps h ops forbidden i (Row task.taskId (Claimed task))
      (updateTask task.taskId where_ fun _ t => set t) fun _ _ _ => True := by
  refine keeps_updateTask (stable_row _ _) (fun x hx => by simp at hx) ?_ fun _ _ _ _ => trivial
  rintro held v a hv ⟨hheld, t, ht, hclaimed⟩ ha hw -
  cases ht.symm.trans ha
  have hgood := hv (.task task.taskId) a ha
  have hopen : a.status ≠ .dispatched := by rw [hclaimed.status]; decide
  have hlease := hwhere v a hw
  refine ⟨step_of_kept hgood (hkept a) (.inl hclaimed.request)
    (fun _ => by rw [hclaimed.status]; rfl) (fun hsome => (hgood.unaccepted hopen hsome).elim)
    (fun _ x hx => hreason a x hx (hgood.reason (.inr (.inl (by rw [hclaimed.status]; rfl)))))
    fun p hp' => ?_, ⟨fun _ _ => hlease, fun _ => .inl ?_,
      fun _ hregister now hb => (hlasts hregister a now).symm.trans hb, fun hc => ?_⟩, trivial⟩
  · cases hp.symm.trans hp'
    exact ⟨Store.task_id ha, hclaimed.claimToken⟩
  · simp [SignalTask.busy, hclaimed.status, hlease]
  · rw [hclaim] at hc
    cases hc

theorem ahead_of_leasesAhead {v : Store} {t : TaskRow} (hlease : leasesAhead v t = true) :
    ahead t.leaseExpiresAt v.clock = true := by
  simp only [leasesAhead, Bool.and_eq_true] at hlease
  exact hlease.1

theorem storeExecutionContext_keeps {versions : JsonObject}
    (hop : ops i = .storeContext task versions) :
    Keeps h ops forbidden i (fun _ _ => True) (storeExecutionContext task versions)
      fun _ _ _ => True := by
  refine lockExecutionClaim_keeps.bind fun _ => ?_
  split_ifs
  · exact keeps_raised
  refine Rules.Triple.bind (keeps_underClaim (by rw [hop]; rfl) (by rw [hop]; rfl) (fun v t hw => ?_)
    (fun _ => rfl) (fun _ _ _ => rfl) fun t x hx hr => hr x hx) fun row => ?_
  · simp only [Bool.and_eq_true] at hw
    exact ahead_of_leasesAhead hw.2
  · cases row with
    | none => exact keeps_raised
    | some t => exact keeps_done

theorem recordSignalDecision_keeps {semantic stages snapshot : Value}
    (hop : ops i = .recordDecision task semantic stages snapshot) :
    Keeps h ops forbidden i (fun _ _ => True) (recordSignalDecision task semantic stages snapshot)
      fun _ _ _ => True := by
  refine lockExecutionClaim_keeps.bind fun _ => ?_
  refine Rules.Triple.bind (keeps_underClaim (by rw [hop]; rfl) (by rw [hop]; rfl)
    (fun v t hw => ahead_of_leasesAhead hw) (fun _ => rfl) (fun _ _ _ => rfl)
    fun t x hx hr => hr x hx) fun row => ?_
  cases row with
  | none => exact keeps_raised
  | some t => exact keeps_done

theorem registerExecutionRequest_keeps (hforbidden : ∀ x ∈ forbidden, x ∈ expiryReasons)
    {body : JsonObject} (hop : ops i = .register task body) :
    Keeps h ops forbidden i (fun _ _ => True) (registerExecutionRequest task body)
      fun _ _ _ => True := by
  unfold registerExecutionRequest
  split_ifs
  · exact keeps_raised
  · exact keeps_raised
  refine lockExecutionClaim_keeps.bind fun _ => ?_
  refine Rules.Triple.bind (keeps_underClaim (by rw [hop]; rfl) (by rw [hop]; rfl) (fun v t hw => ?_)
    (fun _ => rfl) (fun hr => by rw [hop] at hr; cases hr) fun t x hx _ => not_forbidden hforbidden (by decide) x hx)
      fun row => ?_
  · simp only [Bool.and_eq_true] at hw
    exact ahead_of_leasesAhead hw.2
  · cases row with
    | none => exact keeps_raised
    | some t => exact keeps_done

end Execution

/-! ## Uncertainty -/

section Uncertainty
variable {task : SignalTask} {detail : String} {operatorDetail : Option Value}

/-- The row another statement of this transaction wrote. -/
theorem row_setTask {taskId : String} {P : TaskRow → Prop} {held locks : List Lock} {v : Store}
    {b : TaskRow} (hheld : .task taskId ∈ held) (hid : b.taskId = taskId) (hb : P b) :
    Row taskId P (held ++ locks) (v.setTask b) := by
  refine ⟨List.mem_append_left _ hheld, b, ?_, hb⟩
  rw [Store.task_setTask, if_pos hid.symm]

/-- The task carries the token of the claim. -/
def Mine (task : SignalTask) (held : List Lock) (v : Store) : Prop :=
  Row task.taskId (fun t => t.claimToken = task.claimToken) held v

theorem recordOperatorDetail_keeps (hop : ops i = .uncertainty task detail operatorDetail) :
    Keeps h ops forbidden i (Mine task) (recordOperatorDetail task.taskId operatorDetail)
      fun _ => Mine task := by
  have hp : (ops i).presents h = some ⟨task.taskId, task.claimToken⟩ := by rw [hop]; rfl
  have hclaim : (ops i).isClaim = false := by rw [hop]; rfl
  have hneeds : (ops i).needsLease = false := by rw [hop]; rfl
  cases operatorDetail with
  | none => exact fun _ _ _ hk => hk
  | some detail =>
    refine (keeps_updateTask (Q := fun _ => Mine task) (stable_row _ _) (fun x hx => by simp at hx) ?_
      fun _ _ _ hk => hk).bind fun _ _ _ _ hk => hk
    rintro held v a hv ⟨hheld, t, ht, htoken⟩ ha - -
    cases ht.symm.trans ha
    have hgood := hv (.task task.taskId) a ha
    have hid : a.taskId = task.taskId := Store.task_id ha
    refine ⟨step_of_kept hgood rfl (.inr rfl) (fun hb => hb) hgood.accepted hgood.reason
      fun p hp' => ?_, ⟨fun _ hn => ?_, fun hb => .inl hb, fun _ _ _ hb => hb, fun hc => ?_⟩, row_setTask hheld hid htoken⟩
    · cases hp.symm.trans hp'
      exact ⟨Store.task_id ha, htoken⟩
    · rw [hneeds] at hn
      cases hn
    · rw [hclaim] at hc
      cases hc

theorem expireClaim_keeps (hop : ops i = .uncertainty task detail operatorDetail) :
    Keeps h ops forbidden i (Mine task) (expireClaim task.taskId)
      fun expired held v => expired = none → Mine task held v := by
  have hp : (ops i).presents h = some ⟨task.taskId, task.claimToken⟩ := by rw [hop]; rfl
  have hclaim : (ops i).isClaim = false := by rw [hop]; rfl
  have hneeds : (ops i).needsLease = false := by rw [hop]; rfl
  refine keeps_updateClaim (stable_row _ _) ?_ fun _ _ _ hk _ => hk
  rintro held v a r hv ⟨hheld, t, ht, htoken⟩ ha hr hwhere
  cases ht.symm.trans ha
  simp only [Bool.and_eq_true, Option.isNone_iff_eq_none, runMatches] at hwhere
  obtain ⟨⟨⟨⟨⟨-, hop'⟩, hstatus⟩, hruns⟩, -⟩, -⟩ := hwhere
  obtain ⟨id, -, hid⟩ := Option.bind_eq_some_iff.mp hr
  have hat : v.run r.processingRunId = some r := (Store.run_id hid) ▸ hid
  have hrun : RunStep h ops i r { r with status := .hermesTimeout
                                         error := some "claim_expired_without_operation" } := by
    refine ⟨rfl, fun p hp' => ?_⟩
    cases hp.symm.trans hp'
    exact (eq_of_sqlEq hruns.1.1.1.1.1).trans htoken
  have hmine : .run r.processingRunId ∈ [Lock.run r.processingRunId] := List.mem_cons_self
  have hgood := (hrun.fits hv hat hmine).good (.task task.taskId) a ha
  refine ⟨hrun, fun _ hn => ?_, step_of_kept hgood rfl (.inr rfl) nofun (fun hsome => ?_)
    (fun hb => ?_) fun p hp' => ?_, ⟨fun _ hn => ?_, fun hb => ?_, fun _ _ _ hb => ?_, fun hc => ?_⟩, nofun⟩
  · rw [hneeds] at hn
    cases hn
  · rw [hop'] at hsome
    cases hsome
  · rcases hb with hb | hb | hb <;> cases hb
  · cases hp.symm.trans hp'
    exact ⟨Store.task_id ha, htoken⟩
  · rw [hneeds] at hn
    cases hn
  · simp [SignalTask.busy] at hb
  · simp [SignalTask.busy] at hb
  · rw [hclaim] at hc
    cases hc

theorem markReconciling_keeps (hdetail : detailText detail ∉ forbidden)
    (hop : ops i = .uncertainty task detail operatorDetail) :
    Keeps h ops forbidden i (Mine task) (markReconciling task detail) fun _ _ _ => True := by
  have hp : (ops i).presents h = some ⟨task.taskId, task.claimToken⟩ := by rw [hop]; rfl
  have hclaim : (ops i).isClaim = false := by rw [hop]; rfl
  have hneeds : (ops i).needsLease = false := by rw [hop]; rfl
  refine keeps_updateTask (stable_row _ _) (fun x hx => by simp at hx) ?_ fun _ _ _ _ => trivial
  rintro held v a hv ⟨hheld, t, ht, htoken⟩ ha hwhere -
  cases ht.symm.trans ha
  have hgood := hv (.task task.taskId) a ha
  simp only [Bool.and_eq_true] at hwhere
  obtain ⟨⟨-, hrequest⟩, hstatus⟩ := hwhere
  have hopen : a.status ≠ .dispatched := by
    intro hd
    rw [hd] at hstatus
    cases hstatus
  have hbusy : ∀ now, a.busy now = true := by
    intro now
    simp only [sqlEq, Bool.and_eq_true] at hrequest
    cases hs : a.status <;> rw [hs] at hstatus <;> cases hstatus
    · simp [SignalTask.busy, hs, hrequest.1]
    · simp [SignalTask.busy, hs]
  refine ⟨step_of_kept hgood rfl (.inr rfl) (fun _ => hstatus)
    (fun hsome => (hgood.unaccepted hopen hsome).elim) (fun _ x hx heq => ?_) fun p hp' => ?_,
    ⟨fun _ hn => ?_, fun _ => .inl (hbusy _), fun _ _ now _ => hbusy now, fun hc => ?_⟩, trivial⟩
  · cases Option.some.inj heq
    exact hdetail hx
  · cases hp.symm.trans hp'
    exact ⟨Store.task_id ha, htoken⟩
  · rw [hneeds] at hn
    cases hn
  · rw [hclaim] at hc
    cases hc

theorem recordOperatorUncertainty_keeps (hdetail : detailText detail ∉ forbidden)
    (hop : ops i = .uncertainty task detail operatorDetail) :
    Keeps h ops forbidden i (fun _ _ => True) (recordOperatorUncertainty task detail operatorDetail)
      fun _ _ _ => True := by
  have htrue : Stable h ops forbidden fun _ _ => True := fun _ _ _ _ _ => trivial
  refine (keeps_read (Q := fun _ _ _ => True) htrue (fun _ a => by simp) fun _ _ _ _ => trivial).bind
    fun _ => ?_
  refine (keeps_read (Q := fun locked held v => ∀ t, locked = some t →
      Row task.taskId (· = t) held v) htrue (fun v a => ?_) fun held v _ _ t ht => ?_).bind
        fun locked => ?_
  · split_ifs <;> simp
  · refine ⟨List.mem_append_right _ ?_, t, ht, rfl⟩
    simp [ht]
  cases locked with
  | none => exact keeps_raised
  | some current =>
    dsimp only
    split_ifs with hover hother
    · exact keeps_done
    · exact keeps_raised
    have htoken : current.claimToken = task.claimToken := by
      simp only [not_or, not_not] at hother
      exact hother.1
    have hmine : ∀ held v, (∀ t, some current = some t → Row task.taskId (· = t) held v) →
        Mine task held v := by
      intro held v hk
      obtain ⟨hheld, t, ht, rfl⟩ := hk current rfl
      exact ⟨hheld, t, ht, htoken⟩
    refine Rules.Triple.weaken (K := Mine task) ?_ fun held v _ hk => hmine held v hk
    cases task.processingRunId with
    | none => exact keeps_raised
    | some runId =>
      refine (keeps_read (Q := fun _ => Mine task) (stable_row _ _) (fun v a => ?_)
        fun held v _ hk => ?_).bind fun run => ?_
      · split_ifs <;> simp
      · obtain ⟨hheld, hrow⟩ := hk
        exact ⟨List.mem_append_left _ hheld, hrow⟩
      cases run with
      | none => exact keeps_raised
      | some r =>
        refine (recordOperatorDetail_keeps hop).bind fun _ => ?_
        refine (expireClaim_keeps hop).bind fun expired => ?_
        cases expired with
        | some t => exact keeps_done
        | none =>
          dsimp only
          refine ((markReconciling_keeps hdetail hop).weaken fun held v _ hk => hk rfl).bind
            fun row => ?_
          cases row with
          | some t => exact keeps_done
          | none =>
            refine keeps_query htrue fun authoritative => ?_
            cases authoritative with
            | some t => exact keeps_done
            | none => exact keeps_raised

end Uncertainty

end Programs
end TraderBot.SignalQueue
