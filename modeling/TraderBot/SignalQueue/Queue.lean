import TraderBot.SignalQueue.Handoff

/-! # The queue under way

Any number of transactions of the queue, of operator ingress and of the legacy
queue run at once, while time passes. Here is what they may do to a row: a task
keeps its source, a new lease raises its attempt, a request and an operation are
set once, and a run only changes how it ended. -/
namespace TraderBot.SignalQueue
open TraderBot.Lib TraderBot.Lib.Json

/-! ## Transactions -/

inductive Op where
  | enqueue (e : Enqueue)
  | claim (c : ClaimCall)
  | complete (c : Completion)
  | storeContext (task : SignalTask) (versions : JsonObject)
  | recordDecision (task : SignalTask) (semantic stages snapshot : Value)
  | register (task : SignalTask) (body : JsonObject)
  | uncertainty (task : SignalTask) (detail : String) (operatorDetail : Option Value)
  | ingress (accountId : String) (body : JsonObject) (intent : TradeIntent)
  | legacySweep

def Op.program (h : Handoff) : Op → Transaction Unit
  | .enqueue e => enqueueSignalTask e
  | .claim c => claimSignalTask c >>= fun _ => pure ()
  | .complete c => completeSignalTask c >>= fun _ => pure ()
  | .storeContext task versions => storeExecutionContext task versions
  | .recordDecision task semantic stages snapshot => recordSignalDecision task semantic stages snapshot
  | .register task body => registerExecutionRequest task body >>= fun _ => pure ()
  | .uncertainty task detail operatorDetail =>
    recordOperatorUncertainty task detail operatorDetail >>= fun _ => pure ()
  | .ingress accountId body intent => operatorIngress h accountId body intent
  | .legacySweep => expireTimedOutRuns

/-- The claim a writer presents: its task and its token. -/
structure Presented where
  taskId : String
  claimToken : Option String
  deriving DecidableEq, Repr

def Op.presents (h : Handoff) : Op → Option Presented
  | .complete c => some ⟨c.taskId, some c.claimToken⟩
  | .storeContext task _ | .recordDecision task _ _ _ | .register task _ | .uncertainty task _ _ =>
    some ⟨task.taskId, task.claimToken⟩
  | .ingress accountId body _ =>
    (namedClaim h accountId body).map fun c => ⟨c.taskId, some c.claimToken⟩
  | .enqueue _ | .claim _ | .legacySweep => none

/-- The writers that need an unexpired lease: all but the one for when it is past. -/
def Op.needsLease : Op → Bool
  | .uncertainty _ _ _ => false
  | .enqueue _ | .claim _ | .complete _ | .storeContext _ _ | .recordDecision _ _ _ _ | .register _ _
  | .ingress _ _ _ | .legacySweep => true

def Op.isClaim : Op → Bool
  | .claim _ => true
  | .enqueue _ | .complete _ | .storeContext _ _ | .recordDecision _ _ _ _ | .register _ _
  | .uncertainty _ _ _ | .ingress _ _ _ | .legacySweep => false

def Op.isRegister : Op → Bool
  | .register _ _ => true
  | .enqueue _ | .claim _ | .complete _ | .storeContext _ _ | .recordDecision _ _ _ _
  | .uncertainty _ _ _ | .ingress _ _ _ | .legacySweep => false

/-- A queue with no tasks and no runs. -/
def emptyStore (clock : Int) : Store := ⟨clock, Table.empty, Table.empty⟩

abbrev QueueState (ι : Type) := Database ι Store Lock (Transaction Unit)

abbrev QueueEvent (ι : Type) := Event ι Nat

/-- Transactions, and time. -/
def machine {ι : Type} [DecidableEq ι] [Fintype ι] (h : Handoff) (ops : ι → Op) :
    Machine (QueueState ι) (QueueEvent ι) Unit :=
  (Program.code fun i => (ops i).program h).within Store.tick

/-- All transactions about to start on an empty queue. -/
def initial {ι : Type} (h : Handoff) (ops : ι → Op) (clock : Int) : QueueState ι :=
  (Program.code fun i => (ops i).program h).init (emptyStore clock)

/-! ## Rows -/

/-- What can become of a task. -/
structure TaskEvolves (a b : TaskRow) : Prop where
  source : b.toSource = a.toSource
  rawMessageId : b.rawMessageId = a.rawMessageId
  processingPurpose : b.processingPurpose = a.processingPurpose
  attempt : a.attempt ≤ b.attempt
  /-- A new lease raises the attempt. -/
  lease : b.toClaim ≠ a.toClaim → a.attempt < b.attempt
  /-- A registered request stays, and the task is not leased again. -/
  request : ∀ q, a.executionRequest = some q →
    b.executionRequest = some q ∧ b.toClaim = a.toClaim ∧ b.attempt = a.attempt
  intent : ∀ o, a.operatorIntentId = some o → b.operatorIntentId = some o

/-- What can become of a run. -/
def RunEvolves (a b : Run) : Prop := b = { a with status := b.status, error := b.error }

theorem TaskEvolves.refl (a : TaskRow) : TaskEvolves a a :=
  ⟨rfl, rfl, rfl, le_rfl, fun h => absurd rfl h, fun _ h => ⟨h, rfl, rfl⟩, fun _ h => h⟩

theorem TaskEvolves.trans {a b c : TaskRow} (h : TaskEvolves a b) (h' : TaskEvolves b c) :
    TaskEvolves a c where
  source := h'.source.trans h.source
  rawMessageId := h'.rawMessageId.trans h.rawMessageId
  processingPurpose := h'.processingPurpose.trans h.processingPurpose
  attempt := h.attempt.trans h'.attempt
  lease hne := by
    by_cases hbc : c.toClaim = b.toClaim
    · exact (h.lease fun hab => hne (hbc.trans hab)).trans_le h'.attempt
    · exact h.attempt.trans_lt (h'.lease hbc)
  request q hq := by
    obtain ⟨hb, hclaim, hattempt⟩ := h.request q hq
    obtain ⟨hc, hclaim', hattempt'⟩ := h'.request q hb
    exact ⟨hc, hclaim'.trans hclaim, hattempt'.trans hattempt⟩
  intent o ho := h'.intent o (h.intent o ho)

theorem RunEvolves.trans {a b c : Run} (h : RunEvolves a b) (h' : RunEvolves b c) :
    RunEvolves a c := by
  unfold RunEvolves at h h' ⊢
  rw [h'] at ⊢
  rw [h]

/-- What holds of a task and its current run. A reason on the list is never one of
a task that is open or accepted. -/
structure GoodTask (forbidden : List String) (s : Store) (t : TaskRow) : Prop where
  run : ∀ id, t.processingRunId = some id → ∃ r, s.run id = some r ∧
    r.rawMessageId = t.rawMessageId ∧ r.accountId = some t.accountId ∧
    r.processingPurpose = t.processingPurpose ∧ r.attempt = t.attempt ∧
    r.claimToken = t.claimToken ∧ r.leaseExpiresAt = t.leaseExpiresAt
  unclaimed : t.processingRunId = none → t.attempt = 0
  claimed : t.status.isClaimed = true →
    t.processingRunId.isSome = true ∧ t.claimToken.isSome = true ∧ t.leaseExpiresAt.isSome = true
  accepted : t.operatorIntentId.isSome = true → t.status = .dispatched
  reason : t.status = .pending ∨ t.status.isClaimed = true ∨ t.status = .dispatched →
    ∀ x ∈ forbidden, t.dispositionReason ≠ some x

/-- The operation of a task of the account, with the source it is for. -/
def bound (accountId taskId : String) (s : Store) : Option (Source × String) :=
  (s.task taskId).bind fun t =>
    if t.accountId = accountId then t.operatorIntentId.map (t.toSource, ·) else none

/-! ## The rules -/

section Rules
variable {ι : Type} (h : Handoff) (ops : ι → Op)

def Same : Lock → Store → Store → Prop
  | .task id, s, t => s.task id = t.task id
  | .run id, s, t => s.run id = t.run id
  | .account a, s, t => ∀ id, bound a id s = bound a id t
  | .queue _, _, _ | .source _ _, _, _ | .found _, _, _ | .leased _, _, _ => True

def RowEvolves : Lock → Store → Store → Prop
  | .task id, s, t => ∀ a, s.task id = some a → ∃ b, t.task id = some b ∧ TaskEvolves a b
  | .run id, s, t => ∀ a, s.run id = some a → ∃ b, t.run id = some b ∧ RunEvolves a b
  | .account _, _, _ | .queue _, _, _ | .source _ _, _, _ | .found _, _, _ | .leased _, _, _ => True

/-- Operations are bound once, by ingress, and an entry only where no other task
of its source has one. -/
structure Accepts (i : ι) (accountId : String) (s t : Store) : Prop where
  kept : ∀ id x, bound accountId id s = some x → bound accountId id t = some x
  fresh : ∀ id x, bound accountId id s = none → bound accountId id t = some x →
    ∃ account body intent, ops i = .ingress account body intent ∧ (entryAction body = true →
      ∀ id' y, id' ≠ id → bound accountId id' t = some y → y.1 ≠ x.1)

/-- What a transaction may do to a row: a writer only changes the task and the run
of the claim it presents. -/
def RowDoes (i : ι) : Lock → Store → Store → Prop
  | .task id, s, t => RowEvolves (.task id) s t ∧ (s.task id = t.task id ∨
    ∀ p, (ops i).presents h = some p → id = p.taskId ∧
      ∃ a, s.task id = some a ∧ a.claimToken = p.claimToken)
  | .run id, s, t => RowEvolves (.run id) s t ∧ (s.run id = t.run id ∨
    ∀ p, (ops i).presents h = some p → ∃ a, s.run id = some a ∧ a.claimToken = p.claimToken)
  | .account a, s, t => Accepts ops i a s t
  | .queue _, _, _ | .source _ _, _, _ | .found _, _, _ | .leased _, _, _ => True

def RowGood (forbidden : List String) : Lock → Store → Prop
  | .task id, s => ∀ t, s.task id = some t → GoodTask forbidden s t
  | .run _, _ | .account _, _ | .queue _, _ | .source _ _, _ | .found _, _ | .leased _, _ => True

variable {h ops} {i : ι} {forbidden : List String}

theorem same_equivalence (k : Lock) : Equivalence (Same k) := by
  cases k with
  | task id => exact ⟨fun _ => rfl, fun h => h.symm, fun h h' => h.trans h'⟩
  | run id => exact ⟨fun _ => rfl, fun h => h.symm, fun h h' => h.trans h'⟩
  | account a => exact ⟨fun _ _ => rfl, fun h id => (h id).symm, fun h h' id => (h id).trans (h' id)⟩
  | queue | source | found | leased => exact ⟨fun _ => trivial, fun h => h, fun h _ => h⟩

variable {k : Lock} {s t : Store}

theorem rowEvolves_of_same (hst : Same k s t) : RowEvolves k s t := by
  cases k with
  | task id => exact fun a ha => ⟨a, hst.symm.trans ha, .refl a⟩
  | run id => exact fun a ha => ⟨a, hst.symm.trans ha, rfl⟩
  | account | queue | source | found | leased => trivial

theorem rowEvolves_trans {u : Store} (hst : RowEvolves k s t) (htu : RowEvolves k t u) :
    RowEvolves k s u := by
  cases k with
  | task id =>
    intro a ha
    obtain ⟨b, hb, hab⟩ := hst a ha
    obtain ⟨c, hc, hbc⟩ := htu b hb
    exact ⟨c, hc, hab.trans hbc⟩
  | run id =>
    intro a ha
    obtain ⟨b, hb, hab⟩ := hst a ha
    obtain ⟨c, hc, hbc⟩ := htu b hb
    exact ⟨c, hc, hab.trans hbc⟩
  | account | queue | source | found | leased => trivial

theorem Accepts.trans {a : String} {u : Store} (hst : Accepts ops i a s t)
    (htu : Accepts ops i a t u) : Accepts ops i a s u where
  kept id x hx := htu.kept id x (hst.kept id x hx)
  fresh id x hs hu := by
    cases ht : bound a id t with
    | none => exact htu.fresh id x ht hu
    | some x' =>
      cases Option.some.inj ((htu.kept id x' ht).symm.trans hu)
      obtain ⟨account, body, intent, hop, hother⟩ := hst.fresh id x hs ht
      refine ⟨account, body, intent, hop, fun hentry id' y hid hy => ?_⟩
      cases ht' : bound a id' t with
      | some y' =>
        cases Option.some.inj ((htu.kept id' y' ht').symm.trans hy)
        exact hother hentry id' y hid ht'
      | none =>
        -- the other operation came later, so it is the one that saw this one
        obtain ⟨account', body', intent', hop', hother'⟩ := htu.fresh id' y ht' hy
        cases hop.symm.trans hop'
        exact (hother' hentry id x (Ne.symm hid) hu).symm

theorem rowDoes_of_same (hst : Same k s t) : RowDoes h ops i k s t := by
  cases k with
  | task id => exact ⟨rowEvolves_of_same hst, .inl hst⟩
  | run id => exact ⟨rowEvolves_of_same hst, .inl hst⟩
  | account a =>
    refine ⟨fun id x hx => (hst id).symm.trans hx, fun id x hs ht => ?_⟩
    cases hs.symm.trans ((hst id).trans ht)
  | queue | source | found | leased => trivial

theorem rowDoes_trans {u : Store} (hst : RowDoes h ops i k s t) (htu : RowDoes h ops i k t u) :
    RowDoes h ops i k s u := by
  cases k with
  | task id =>
    refine ⟨rowEvolves_trans hst.1 htu.1, ?_⟩
    rcases hst.2 with hsame | hdone
    · rw [hsame]
      exact htu.2
    · exact .inr hdone
  | run id =>
    refine ⟨rowEvolves_trans hst.1 htu.1, ?_⟩
    rcases hst.2 with hsame | hdone
    · rw [hsame]
      exact htu.2
    · exact .inr hdone
  | account a => exact Accepts.trans hst htu
  | queue | source | found | leased => trivial

theorem rowEvolves_of_does (hst : RowDoes h ops i k s t) : RowEvolves k s t := by
  cases k with
  | task id => exact hst.1
  | run id => exact hst.1
  | account | queue | source | found | leased => trivial

theorem GoodTask.of_evolves {a : TaskRow} (ha : GoodTask forbidden s a)
    (hst : ∀ id, RowEvolves (.run id) s t) : GoodTask forbidden t a := by
  refine ⟨fun id hid => ?_, ha.unclaimed, ha.claimed, ha.accepted, ha.reason⟩
  obtain ⟨r, hr, hmatch⟩ := ha.run id hid
  obtain ⟨r', hr', hevolves⟩ := hst id r hr
  refine ⟨r', hr', ?_⟩
  rw [hevolves]
  exact hmatch

theorem rowGood_of_evolves (hs : RowGood forbidden k s) (hst : ∀ j, RowEvolves j s t)
    (hsame : Same k s t) : RowGood forbidden k t := by
  cases k with
  | task id =>
    intro a ha
    have hrow : s.task id = t.task id := hsame
    exact (hs a (hrow.trans ha)).of_evolves fun id => hst (.run id)
  | run | account | queue | source | found | leased => trivial

variable (h ops forbidden) in
/-- The rules of the queue. -/
def queueRules : Rules ι Store Lock where
  same := Same
  evolves := RowEvolves
  does := RowDoes h ops
  good := RowGood forbidden
  later s t := s.clock ≤ t.clock
  instant s t := t.clock = s.clock
  equivalence := same_equivalence
  evolves_of_same := rowEvolves_of_same
  evolves_trans := rowEvolves_trans
  does_of_same := rowDoes_of_same
  does_trans := rowDoes_trans
  evolves_of_does := rowEvolves_of_does
  later_refl s := le_refl s.clock
  later_trans h h' := h.trans h'
  instant_refl _ := rfl
  instant_trans h h' := h'.trans h
  later_of_instant h := h.ge
  good_of_evolves := rowGood_of_evolves

end Rules
end TraderBot.SignalQueue
