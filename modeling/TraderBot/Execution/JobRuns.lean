import TraderBot.Execution.Jobs

/-! # Runs over execution jobs

What a call does to one job is said once (`step_cases`). From it: the attempts of a
job never fall and its terminal status stays exactly when each call comes in order,
and then retries are bounded and no job is claimed twice before a retry
(`jobs_bounded_and_final_iff`). -/
namespace TraderBot.Execution
open TraderBot.Lib TraderBot.Lib.Json TraderBot.Venue

/-! ## Calls -/

inductive Call where
  | create (c : Creation)
  | claim (c : Claim)
  | retry (r : Retry)
  | close (m : Closing)
  | persist (d : Delivery)

/-- What a call gives back: a claim the job it claimed, a retry the new status. -/
inductive Reply where
  | raised
  | returned
  | claimed (executionJobId : Option String)
  | retried (status : JobStatus)
  deriving DecidableEq, Repr

/-- A call that raises is rolled back. -/
def rolledBack (t : Tables) : Option (Reply × Tables) → Reply × Tables
  | some r => r
  | none => (.raised, t)

/-- The result of a call; `none` raises. -/
def Call.result? (env : Env) (maxAttempts : String → Int) (t : Tables) : Call → Option (Reply × Tables)
  | .create c => (createExecutionJob env c t).map fun t' => (.returned, t')
  | .claim c => (claimNextExecutionJob env c t).map fun r => (.claimed r.1, r.2)
  | .retry r =>
    (scheduleJobRetry env r (maxAttempts r.executionJobId) t).map fun p => (.retried p.1, p.2)
  | .close m => (markJobTerminal m t).map fun t' => (.returned, t')
  | .persist d => (persistIntentStatus env.py env.enum d t).map fun t' => (.returned, t')

/-- Calls one after the other, with the `max_attempts` of each job. -/
def calls (env : Env) (maxAttempts : String → Int) : Machine Tables Call Reply where
  step t c := rolledBack t (c.result? env maxAttempts t)

/-! ## What a call does to a job -/

/-- The calls that change a job, with the reply and the job after the call. -/
inductive Moves (env : Env) (maxAttempts : String → Int) (t : Tables) (job : Job) :
    Call → Reply → Job → Prop
  | recreate {c request} (hrequest : c.request? env t = some request) (hkey : job.key = request.key) :
    Moves env maxAttempts t job (.create c) .returned (Job.recreate request job)
  | claim {c now payload} (hstatus : job.status = .pending ∨ job.status = .retryScheduled)
    (hpayload : claimedPayload env c now job.payload = some payload) :
    Moves env maxAttempts t job (.claim c) (.claimed (some job.executionJobId)) (job.claim now payload)
  | retry {r status payload now completed} (hid : r.executionJobId = job.executionJobId)
    (houtcome : r.outcome? env (maxAttempts job.executionJobId) job = some (status, payload, now)) :
    Moves env maxAttempts t job (.retry r) (.retried status) (job.settle status payload completed)
  | close {m status payload now completed} (hid : m.executionJobId = job.executionJobId)
    (houtcome : m.outcome? job = some (status, payload, now)) :
    Moves env maxAttempts t job (.close m) .returned (job.settle status payload completed)
  | persist {d observedAt item} (hid : d.executionJobId = some job.executionJobId)
    (hitem : d.item? env.py = some (observedAt, item)) :
    Moves env maxAttempts t job (.persist d) .returned
      (job.observe (classifyIntentOutcome env.py d.event).jobStatus observedAt item)

/-- The calls that leave a job alone, with their replies. -/
def Rests (env : Env) (maxAttempts : String → Int) (t : Tables) (job : Job) (c : Call) (reply : Reply) :
    Prop :=
  match c with
  | .create c => reply ≠ .claimed (some job.executionJobId) ∧
      ∀ request, c.request? env t = some request → job.key ≠ request.key
  | .claim _ => reply ≠ .claimed (some job.executionJobId)
  | .retry r => reply ≠ .claimed (some job.executionJobId) ∧ (r.executionJobId = job.executionJobId →
      reply = .raised ∧ r.outcome? env (maxAttempts job.executionJobId) job = none)
  | .close m => reply ≠ .claimed (some job.executionJobId) ∧
      (m.executionJobId = job.executionJobId → m.outcome? job = none)
  | .persist d => reply ≠ .claimed (some job.executionJobId) ∧
      (d.executionJobId = some job.executionJobId → d.item? env.py = none)

section
variable {env : Env} {maxAttempts : String → Int} {t : Tables} {id : String} {job : Job}

variable {jobs : Jobs} {f : Job → Job} {target : String} {request job' : Job}
  {now observedAt : DateTime} {payload item : Dict Value} {status : JobStatus}
  {completed : Option DateTime} {c : Call} {reply : Reply} {t' : Tables} {n : Int}

/-- A write by id reaches the job of that id only. -/
theorem Jobs.find?_update_id {hid : ∀ r, (f r).executionJobId = r.executionJobId}
    {hkey : ∀ r, (f r).key = r.key} (hjob : jobs.find? id = some job) :
    (jobs.update (fun r => r.executionJobId = target) f hid hkey).find? id =
      some (if target = id then f job else job) := by
  have hrow : job.executionJobId = id := Table.key_of_find? hjob
  rw [Jobs.find?_update, hjob]
  by_cases htarget : target = id
  · simp [hrow, htarget]
  · simp [hrow, htarget, Ne.symm htarget]

theorem Jobs.find?_recreate :
    (jobs.recreate request).find? id =
      (jobs.find? id).map fun r => if r.key = request.key then Job.recreate request r else r := by
  unfold Jobs.recreate
  rw [Jobs.find?_update]
  simp

/-- A write makes no new job. -/
theorem Jobs.find?_update_none {p : Job → Bool} {hid : ∀ r, (f r).executionJobId = r.executionJobId}
    {hkey : ∀ r, (f r).key = r.key} (hnone : jobs.find? id = none) :
    (jobs.update p f hid hkey).find? id = none := by
  rw [Jobs.find?_update, hnone]
  rfl

theorem Jobs.find?_claim (hjob : jobs.find? id = some job) :
    (jobs.claim target now payload).find? id = some (if target = id then job.claim now payload else job) :=
  Jobs.find?_update_id hjob

theorem Jobs.find?_settle (hjob : jobs.find? id = some job) :
    (jobs.settle target status payload completed).find? id =
      some (if target = id then job.settle status payload completed else job) :=
  Jobs.find?_update_id hjob

theorem Jobs.find?_observe (hjob : jobs.find? id = some job) :
    (jobs.observe target status observedAt item).find? id =
      some (if target = id then job.observe status observedAt item else job) :=
  Jobs.find?_update_id hjob

theorem Jobs.find?_claim_none (hnone : jobs.find? id = none) :
    (jobs.claim target now payload).find? id = none :=
  Jobs.find?_update_none hnone

theorem Jobs.find?_settle_none (hnone : jobs.find? id = none) :
    (jobs.settle target status payload completed).find? id = none :=
  Jobs.find?_update_none hnone

theorem Jobs.find?_observe_none (hnone : jobs.find? id = none) :
    (jobs.observe target status observedAt item).find? id = none :=
  Jobs.find?_update_none hnone

theorem next_raised (h : c.result? env maxAttempts t = none) :
    (calls env maxAttempts).answer t c = .raised ∧ (calls env maxAttempts).next t c = t := by
  simp [Machine.answer, Machine.next, calls, h, rolledBack]

theorem next_result (h : c.result? env maxAttempts t = some (reply, t')) :
    (calls env maxAttempts).answer t c = reply ∧ (calls env maxAttempts).next t c = t' := by
  simp [Machine.answer, Machine.next, calls, h, rolledBack]

theorem createExecutionJob_cases (c : Creation) (hjob : t.jobs.find? id = some job) :
    (((calls env maxAttempts).answer t (.create c) ≠ .claimed (some id) ∧
        ∀ request, c.request? env t = some request → job.key ≠ request.key) ∧
      ((calls env maxAttempts).next t (.create c)).jobs.find? id = some job) ∨
    ∃ request, c.request? env t = some request ∧ job.key = request.key ∧
      (calls env maxAttempts).answer t (.create c) = .returned ∧
      ((calls env maxAttempts).next t (.create c)).jobs.find? id = some (Job.recreate request job) := by
  cases hrequest : c.request? env t with
  | none =>
    have hnone : (Call.create c).result? env maxAttempts t = none := by
      simp [Call.result?, createExecutionJob, hrequest]
    obtain ⟨hanswer, hnext⟩ := next_raised hnone
    rw [hanswer, hnext]
    exact .inl ⟨⟨by simp, by simp⟩, hjob⟩
  | some request =>
    have hmem : job ∈ t.jobs.table.rows := List.mem_of_find?_eq_some hjob
    cases hjobs : t.jobs.insertExecutionJob request with
    | none =>
      have hnone : (Call.create c).result? env maxAttempts t = none := by
        simp [Call.result?, createExecutionJob, hrequest, hjobs]
      obtain ⟨hanswer, hnext⟩ := next_raised hnone
      rw [hanswer, hnext]
      refine .inl ⟨⟨by simp, fun r hr hkey => ?_⟩, hjob⟩
      obtain rfl := Option.some.inj hr
      rw [Jobs.insertExecutionJob, dif_pos (hkey ▸ List.mem_map_of_mem hmem)] at hjobs
      cases hjobs
    | some jobs =>
      have hresult : (Call.create c).result? env maxAttempts t = some (.returned, { t with jobs }) := by
        simp [Call.result?, createExecutionJob, hrequest, hjobs]
      obtain ⟨hanswer, hnext⟩ := next_result hresult
      rw [hanswer, hnext]
      show (_ ∧ jobs.find? id = some job) ∨ ∃ r, some request = some r ∧ job.key = r.key ∧ _ ∧
        jobs.find? id = some (Job.recreate r job)
      unfold Jobs.insertExecutionJob at hjobs
      by_cases hkey : job.key = request.key
      · rw [dif_pos (hkey ▸ List.mem_map_of_mem hmem)] at hjobs
        refine .inr ⟨request, rfl, hkey, rfl, ?_⟩
        rw [← Option.some.inj hjobs, Jobs.find?_recreate, hjob]
        simp [hkey]
      · refine .inl ⟨⟨by simp, fun r hr => Option.some.inj hr ▸ hkey⟩, ?_⟩
        split_ifs at hjobs with h hid
        · rw [← Option.some.inj hjobs]
          rw [Jobs.find?_recreate, hjob]
          simp [hkey]
        · rw [← Option.some.inj hjobs]
          show (t.jobs.table.insert request).find? id = some job
          have hfind : t.jobs.table.find? id = some job := hjob
          rw [Table.find?_insert, hfind, Option.some_or]

theorem Job.status_of_claimable (h : job.claimable env now = some true) :
    job.status = .pending ∨ job.status = .retryScheduled := by
  unfold Job.claimable at h
  split at h <;> simp_all

theorem Jobs.nextJob_claimable {c : Claim} {first : Job}
    (h : jobs.nextJob env c now = some (some first)) :
    first ∈ jobs.table.rows ∧ (first.status = .pending ∨ first.status = .retryScheduled) := by
  unfold Jobs.nextJob at h
  split_ifs at h
  have hmem := List.mem_mergeSort.mp (List.mem_of_mem_head? (Option.some.inj h))
  obtain ⟨hrow, hclaimable⟩ := List.mem_filter.mp hmem
  simp only [Bool.and_eq_true, decide_eq_true_eq] at hclaimable
  exact ⟨hrow, Job.status_of_claimable hclaimable.1⟩

theorem claimNextExecutionJob_cases (c : Claim) (hjob : t.jobs.find? id = some job) :
    ((calls env maxAttempts).answer t (.claim c) ≠ .claimed (some id) ∧
      ((calls env maxAttempts).next t (.claim c)).jobs.find? id = some job) ∨
    ∃ now payload, (job.status = .pending ∨ job.status = .retryScheduled) ∧
      claimedPayload env c now job.payload = some payload ∧
      (calls env maxAttempts).answer t (.claim c) = .claimed (some id) ∧
      ((calls env maxAttempts).next t (.claim c)).jobs.find? id = some (job.claim now payload) := by
  cases hclaim : claimNextExecutionJob env c t with
  | none =>
    have hnone : (Call.claim c).result? env maxAttempts t = none := by simp [Call.result?, hclaim]
    obtain ⟨hanswer, hnext⟩ := next_raised hnone
    rw [hanswer, hnext]
    exact .inl ⟨by simp, hjob⟩
  | some result =>
    have hresult : (Call.claim c).result? env maxAttempts t = some (.claimed result.1, result.2) := by
      simp [Call.result?, hclaim]
    obtain ⟨hanswer, hnext⟩ := next_result hresult
    rw [hanswer, hnext]
    unfold claimNextExecutionJob at hclaim
    obtain ⟨now, -, hclaim⟩ := Option.bind_eq_some_iff.mp hclaim
    obtain ⟨first, hfirst, hclaim⟩ := Option.bind_eq_some_iff.mp hclaim
    cases first with
    | none =>
      obtain rfl := Option.some.inj hclaim
      exact .inl ⟨by simp, hjob⟩
    | some first =>
      obtain ⟨payload, hpayload, hclaim⟩ := Option.bind_eq_some_iff.mp hclaim
      obtain rfl := Option.some.inj hclaim
      obtain ⟨hrow, hstatus⟩ := Jobs.nextJob_claimable hfirst
      by_cases hsame : first.executionJobId = id
      · have hfound : t.jobs.find? first.executionJobId = some first := Table.find?_of_mem hrow
        obtain rfl : job = first := Option.some.inj (hjob.symm.trans (hsame ▸ hfound))
        exact .inr ⟨now, payload, hstatus, hpayload, by rw [hsame],
          (Jobs.find?_claim hjob).trans (by rw [if_pos hsame])⟩
      · exact .inl ⟨by simp [hsame], (Jobs.find?_claim hjob).trans (by rw [if_neg hsame])⟩

theorem scheduleJobRetry_cases (r : Retry) (hjob : t.jobs.find? id = some job) :
    (((calls env maxAttempts).answer t (.retry r) ≠ .claimed (some id) ∧ (r.executionJobId = id →
        (calls env maxAttempts).answer t (.retry r) = .raised ∧ r.outcome? env (maxAttempts id) job = none)) ∧
      ((calls env maxAttempts).next t (.retry r)).jobs.find? id = some job) ∨
    ∃ status payload now completed, r.executionJobId = id ∧
      r.outcome? env (maxAttempts id) job = some (status, payload, now) ∧
      (calls env maxAttempts).answer t (.retry r) = .retried status ∧
      ((calls env maxAttempts).next t (.retry r)).jobs.find? id =
        some (job.settle status payload completed) := by
  cases hretry : scheduleJobRetry env r (maxAttempts r.executionJobId) t with
  | none =>
    have hnone : (Call.retry r).result? env maxAttempts t = none := by simp [Call.result?, hretry]
    obtain ⟨hanswer, hnext⟩ := next_raised hnone
    rw [hanswer, hnext]
    refine .inl ⟨⟨by simp, fun hsame => ⟨rfl, ?_⟩⟩, hjob⟩
    subst hsame
    cases houtcome : r.outcome? env (maxAttempts r.executionJobId) job with
    | none => rfl
    | some outcome => simp [scheduleJobRetry, hjob, houtcome] at hretry
  | some result =>
    have hresult : (Call.retry r).result? env maxAttempts t = some (.retried result.1, result.2) := by
      simp [Call.result?, hretry]
    obtain ⟨hanswer, hnext⟩ := next_result hresult
    rw [hanswer, hnext]
    unfold scheduleJobRetry at hretry
    obtain ⟨found, hfound, hretry⟩ := Option.bind_eq_some_iff.mp hretry
    obtain ⟨⟨status, payload, now⟩, houtcome, hretry⟩ := Option.bind_eq_some_iff.mp hretry
    obtain rfl := Option.some.inj hretry
    by_cases hsame : r.executionJobId = id
    · subst hsame
      obtain rfl : job = found := Option.some.inj (hjob.symm.trans hfound)
      exact .inr ⟨status, payload, now, _, rfl, houtcome, rfl,
        (Jobs.find?_settle hjob).trans (by rw [if_pos rfl])⟩
    · exact .inl ⟨⟨by simp, fun h => absurd h hsame⟩,
        (Jobs.find?_settle hjob).trans (by rw [if_neg hsame])⟩

theorem markJobTerminal_cases (m : Closing) (hjob : t.jobs.find? id = some job) :
    (((calls env maxAttempts).answer t (.close m) ≠ .claimed (some id) ∧
        (m.executionJobId = id → m.outcome? job = none)) ∧
      ((calls env maxAttempts).next t (.close m)).jobs.find? id = some job) ∨
    ∃ status payload now completed, m.executionJobId = id ∧
      m.outcome? job = some (status, payload, now) ∧
      (calls env maxAttempts).answer t (.close m) = .returned ∧
      ((calls env maxAttempts).next t (.close m)).jobs.find? id =
        some (job.settle status payload completed) := by
  cases hclose : markJobTerminal m t with
  | none =>
    have hnone : (Call.close m).result? env maxAttempts t = none := by simp [Call.result?, hclose]
    obtain ⟨hanswer, hnext⟩ := next_raised hnone
    rw [hanswer, hnext]
    refine .inl ⟨⟨by simp, fun hsame => ?_⟩, hjob⟩
    subst hsame
    cases houtcome : m.outcome? job with
    | none => rfl
    | some outcome => simp [markJobTerminal, hjob, houtcome] at hclose
  | some t' =>
    have hresult : (Call.close m).result? env maxAttempts t = some (.returned, t') := by
      simp [Call.result?, hclose]
    obtain ⟨hanswer, hnext⟩ := next_result hresult
    rw [hanswer, hnext]
    unfold markJobTerminal at hclose
    obtain ⟨found, hfound, hclose⟩ := Option.bind_eq_some_iff.mp hclose
    obtain ⟨⟨status, payload, now⟩, houtcome, hclose⟩ := Option.bind_eq_some_iff.mp hclose
    obtain rfl := Option.some.inj hclose
    by_cases hsame : m.executionJobId = id
    · subst hsame
      obtain rfl : job = found := Option.some.inj (hjob.symm.trans hfound)
      exact .inr ⟨status, payload, now, _, rfl, houtcome, rfl,
        (Jobs.find?_settle hjob).trans (by rw [if_pos rfl])⟩
    · exact .inl ⟨⟨by simp, fun h => absurd h hsame⟩,
        (Jobs.find?_settle hjob).trans (by rw [if_neg hsame])⟩

theorem persistIntentStatus_cases (d : Delivery) (hjob : t.jobs.find? id = some job) :
    (((calls env maxAttempts).answer t (.persist d) ≠ .claimed (some id) ∧
        (d.executionJobId = some id → d.item? env.py = none)) ∧
      ((calls env maxAttempts).next t (.persist d)).jobs.find? id = some job) ∨
    ∃ observedAt item, d.executionJobId = some id ∧ d.item? env.py = some (observedAt, item) ∧
      (calls env maxAttempts).answer t (.persist d) = .returned ∧
      ((calls env maxAttempts).next t (.persist d)).jobs.find? id =
        some (job.observe (classifyIntentOutcome env.py d.event).jobStatus observedAt item) := by
  cases hitem : d.item? env.py with
  | none =>
    have hnone : (Call.persist d).result? env maxAttempts t = none := by
      simp [Call.result?, persistIntentStatus, hitem]
    obtain ⟨hanswer, hnext⟩ := next_raised hnone
    rw [hanswer, hnext]
    exact .inl ⟨⟨by simp, fun _ => rfl⟩, hjob⟩
  | some result =>
    obtain ⟨observedAt, item⟩ := result
    obtain ⟨t', hpersist, hjobs⟩ : ∃ t', persistIntentStatus env.py env.enum d t = some t' ∧
        t'.jobs = d.executionJobId.elim t.jobs fun target =>
          t.jobs.observe target (classifyIntentOutcome env.py d.event).jobStatus observedAt item := by
      unfold persistIntentStatus
      rw [hitem]
      refine ⟨_, rfl, ?_⟩
      cases d.executionJobId <;>
        cases dbIntentStatus env.enum (classifyIntentOutcome env.py d.event).intentStatus <;> rfl
    have hresult : (Call.persist d).result? env maxAttempts t = some (.returned, t') := by
      simp [Call.result?, hpersist]
    obtain ⟨hanswer, hnext⟩ := next_result hresult
    rw [hanswer, hnext, hjobs]
    cases htarget : d.executionJobId with
    | none => exact .inl ⟨⟨by simp, fun h => by cases h⟩, hjob⟩
    | some target =>
      by_cases hsame : target = id
      · exact .inr ⟨observedAt, item, by rw [hsame], rfl, rfl,
          (Jobs.find?_observe hjob).trans (by rw [if_pos hsame])⟩
      · exact .inl ⟨⟨by simp, fun h => absurd (Option.some.inj h) hsame⟩,
          (Jobs.find?_observe hjob).trans (by rw [if_neg hsame])⟩

variable (env maxAttempts) in
/-- **What a call does to a job that is there**: it leaves it alone, or moves it. -/
theorem step_cases (c : Call) (hjob : t.jobs.find? id = some job) :
    (Rests env maxAttempts t job c ((calls env maxAttempts).answer t c) ∧
      ((calls env maxAttempts).next t c).jobs.find? id = some job) ∨
    ∃ job', Moves env maxAttempts t job c ((calls env maxAttempts).answer t c) job' ∧
      ((calls env maxAttempts).next t c).jobs.find? id = some job' := by
  obtain rfl : job.executionJobId = id := Table.key_of_find? hjob
  cases c with
  | create c =>
    rcases createExecutionJob_cases c hjob with h | ⟨request, hrequest, hkey, hanswer, hnext⟩
    · exact .inl h
    · exact .inr ⟨_, hanswer ▸ .recreate hrequest hkey, hnext⟩
  | claim c =>
    rcases claimNextExecutionJob_cases c hjob with h | ⟨now, payload, hstatus, hpayload, hanswer, hnext⟩
    · exact .inl h
    · exact .inr ⟨_, hanswer ▸ .claim hstatus hpayload, hnext⟩
  | retry r =>
    rcases scheduleJobRetry_cases r hjob with h | ⟨status, payload, now, completed, hid, hout, hanswer, hnext⟩
    · exact .inl h
    · exact .inr ⟨_, hanswer ▸ .retry hid hout, hnext⟩
  | close m =>
    rcases markJobTerminal_cases m hjob with h | ⟨status, payload, now, completed, hid, hout, hanswer, hnext⟩
    · exact .inl h
    · exact .inr ⟨_, hanswer ▸ .close hid hout, hnext⟩
  | persist d =>
    rcases persistIntentStatus_cases d hjob with h | ⟨observedAt, item, hid, hitem, hanswer, hnext⟩
    · exact .inl h
    · exact .inr ⟨_, hanswer ▸ .persist hid hitem, hnext⟩

/-! ## Attempts -/

/-- The payload says that so many attempts were made. -/
def Counts (payload : Dict Value) (n : Int) : Prop := payload.get? "attempts" = some (.int n)

theorem attempts_of_counts (h : Counts payload n) : attempts env payload = some n := by
  unfold attempts
  rw [h]
  by_cases hn : n = 0
  · simp [hn, Json.orElse, Value.truthy]
  · simp [hn, Json.orElse, Value.truthy, env.intOf_int]

theorem counts_stored {payload' : Dict Value} (h : Counts payload n)
    (hstored : Jsonb.storedDict payload = some payload') : Counts payload' n := by
  unfold Counts
  rw [Jsonb.get?_storedDict hstored, h]
  rfl

theorem counts_set {k : String} {v : Value} (h : Counts payload n) (hk : "attempts" ≠ k) :
    Counts (payload.set k v) n := (Dict.get?_set_ne hk).trans h

theorem counts_requestPayload (c : Creation) (intent : TradeIntent) (key : String) (now : DateTime)
    (reservation : Dict Value) : Counts (requestPayload env c intent key now reservation) 0 := by
  unfold requestPayload
  refine counts_set ?_ (by decide)
  unfold injectTraceContext
  refine (Dict.get?_setDefault_ne (by decide)).trans ?_
  split
  · refine (Dict.get?_setDefault_ne (by decide)).trans ?_
    exact counts_set (counts_set Dict.get?_set_self (by decide)) (by decide)
  · exact counts_set (counts_set Dict.get?_set_self (by decide)) (by decide)

/-- A request asks for a job that is pending and has made no attempt. -/
theorem request?_new {c : Creation} (h : c.request? env t = some request) :
    request.status = .pending ∧ Counts request.payload 0 := by
  obtain ⟨intent, -, h⟩ := Option.bind_eq_some_iff.mp h
  split_ifs at h
  obtain ⟨now, -, h⟩ := Option.bind_eq_some_iff.mp h
  obtain ⟨reservation, -, h⟩ := Option.bind_eq_some_iff.mp h
  obtain ⟨payload, hpayload, h⟩ := Option.bind_eq_some_iff.mp h
  obtain rfl := Option.some.inj h
  exact ⟨rfl, counts_stored (counts_requestPayload _ _ _ _ _) hpayload⟩

theorem counts_claimed {c : Claim} {payload' : Dict Value} (h : Counts payload n)
    (hclaimed : claimedPayload env c now payload = some payload') : Counts payload' n := by
  obtain ⟨m, hm, hstored⟩ := Option.bind_eq_some_iff.mp hclaimed
  obtain rfl : n = m := Option.some.inj ((attempts_of_counts h).symm.trans hm)
  exact counts_stored Dict.get?_set_self hstored

/-- **What a failed attempt adds**: one, and a retry only within the bound. -/
theorem retry_outcome {r : Retry} {bound : Int} (h : Counts job.payload n)
    (hout : r.outcome? env bound job = some (status, payload, now)) :
    Counts payload (n + 1) ∧
      ((status = .failed ∧ bound < n + 1) ∨ (status = .retryScheduled ∧ n + 1 ≤ bound)) := by
  obtain ⟨now', -, hout⟩ := Option.bind_eq_some_iff.mp hout
  obtain ⟨⟨status', payload'⟩, hretry, hout⟩ := Option.bind_eq_some_iff.mp hout
  obtain ⟨stored, hstored, hout⟩ := Option.bind_eq_some_iff.mp hout
  obtain ⟨rfl, rfl, rfl⟩ : status' = status ∧ stored = payload ∧ now' = now := by
    simpa using Option.some.inj hout
  obtain ⟨m, hm, hretry⟩ := Option.bind_eq_some_iff.mp hretry
  obtain rfl : n = m := Option.some.inj ((attempts_of_counts h).symm.trans hm)
  by_cases hbound : bound < n + 1
  · rw [if_pos hbound] at hretry
    obtain ⟨rfl, rfl⟩ := Prod.mk.inj (Option.some.inj hretry)
    exact ⟨counts_stored (counts_set Dict.get?_set_self (by decide)) hstored, .inl ⟨rfl, hbound⟩⟩
  · rw [if_neg hbound] at hretry
    obtain ⟨due, -, hretry⟩ := Option.bind_eq_some_iff.mp hretry
    obtain ⟨rfl, rfl⟩ := Prod.mk.inj (Option.some.inj hretry)
    exact ⟨counts_stored (counts_set Dict.get?_set_self (by decide)) hstored, .inr ⟨rfl, not_lt.mp hbound⟩⟩

theorem close_outcome {m : Closing} (h : Counts job.payload n)
    (hout : m.outcome? job = some (status, payload, now)) :
    Counts payload n ∧ terminalStatus? m.status = some status ∧ status.isTerminal = true := by
  obtain ⟨status', hstatus, hout⟩ := Option.bind_eq_some_iff.mp hout
  obtain ⟨now', -, hout⟩ := Option.bind_eq_some_iff.mp hout
  obtain ⟨stored, hstored, hout⟩ := Option.bind_eq_some_iff.mp hout
  obtain ⟨rfl, rfl, rfl⟩ : status' = status ∧ stored = payload ∧ now' = now := by
    simpa using Option.some.inj hout
  refine ⟨counts_stored (counts_set h (by decide)) hstored, hstatus, ?_⟩
  have hmem := List.mem_of_find?_eq_some hstatus
  fin_cases hmem <;> rfl

/-- The attempts after a call that moves the job. -/
theorem Moves.counts (h : Counts job.payload n) (hmoves : Moves env maxAttempts t job c reply job') :
    ∃ n', Counts job'.payload n' ∧ (0 ≤ n → 0 ≤ n') := by
  cases hmoves with
  | recreate hrequest hkey =>
    refine ⟨0, ?_, fun _ => le_refl 0⟩
    exact Dict.get?_merge.trans (by rw [(request?_new hrequest).2, Option.some_or])
  | claim hstatus hpayload => exact ⟨n, counts_claimed h hpayload, id⟩
  | retry hid houtcome => exact ⟨n + 1, (retry_outcome h houtcome).1, fun hn => by omega⟩
  | close hid houtcome => exact ⟨n, (close_outcome h houtcome).1, id⟩
  | persist hid hitem => exact ⟨n, counts_set h (by decide), id⟩

/-! ## Calls in order -/

/-- A job is still there, with no fewer attempts, and a terminal status stays. -/
def Kept (env : Env) (job job' : Job) : Prop :=
  (∀ n ∈ attempts env job.payload, ∀ n' ∈ attempts env job'.payload, n ≤ n') ∧
    (job.status.isTerminal = true → job'.status = job.status)

def JobKept (env : Env) (id : String) (t t' : Tables) : Prop :=
  ∀ job, t.jobs.find? id = some job → ∃ job', t'.jobs.find? id = some job' ∧ Kept env job job'

/-- What a call must find the job in: no attempt made when its request comes again;
no terminal status when it is put back, closed or observed and the call goes
through, unless the call says that very status again. -/
def InOrderFor (env : Env) (maxAttempts : String → Int) (t : Tables) (job : Job) : Call → Prop
  | .create c => ∀ request, c.request? env t = some request → job.key = request.key →
      attempts env job.payload = some 0
  | .claim _ => True
  | .retry r => r.executionJobId = job.executionJobId →
      (r.outcome? env (maxAttempts job.executionJobId) job).isSome → job.status.isTerminal = true →
        job.status = .failed ∧ ∀ n ∈ attempts env job.payload, maxAttempts job.executionJobId ≤ n
  | .close m => m.executionJobId = job.executionJobId → (m.outcome? job).isSome →
      job.status.isTerminal = true → terminalStatus? m.status = some job.status
  | .persist d => d.executionJobId = some job.executionJobId → (d.item? env.py).isSome →
      job.status.isTerminal = true → (classifyIntentOutcome env.py d.event).jobStatus = job.status

def InOrder (env : Env) (maxAttempts : String → Int) (id : String) (t : Tables) (c : Call) : Prop :=
  ∀ job, t.jobs.find? id = some job → InOrderFor env maxAttempts t job c

theorem kept_refl (job : Job) : Kept env job job :=
  ⟨fun _ hn _ hn' => (Option.mem_unique hn hn').le, fun _ => rfl⟩

theorem Rests.inOrder (h : Rests env maxAttempts t job c reply) :
    InOrderFor env maxAttempts t job c := by
  cases c with
  | create c => exact fun request hrequest hkey => absurd hkey (h.2 request hrequest)
  | claim c => trivial
  | retry r => exact fun hid hsome => by simp [(h.2 hid).2] at hsome
  | close m => exact fun hid hsome => by simp [h.2 hid] at hsome
  | persist d => exact fun hid hsome => by simp [h.2 hid] at hsome

/-- The attempts before and after, when both are known. -/
theorem kept_iff {n' : Int} (h : Counts job.payload n) (h' : Counts job'.payload n') :
    Kept env job job' ↔ n ≤ n' ∧ (job.status.isTerminal = true → job'.status = job.status) := by
  unfold Kept
  rw [attempts_of_counts h, attempts_of_counts h']
  simp

theorem Moves.kept_iff_inOrder (hn : 0 ≤ n) (h : Counts job.payload n)
    (hmoves : Moves env maxAttempts t job c reply job') :
    Kept env job job' ↔ InOrderFor env maxAttempts t job c := by
  cases hmoves with
  | @recreate c request hrequest hkey =>
    have hcounts : Counts (Job.recreate request job).payload 0 :=
      Dict.get?_merge.trans (by rw [(request?_new hrequest).2, Option.some_or])
    rw [kept_iff h hcounts]
    constructor
    · intro hkept _ _ _
      rw [attempts_of_counts h, le_antisymm hkept.1 hn]
    · intro horder
      have hzero : some n = some 0 := (attempts_of_counts h).symm.trans (horder _ hrequest hkey)
      exact ⟨(Option.some.inj hzero).le, fun _ => rfl⟩
  | claim hstatus hpayload =>
    refine iff_of_true ((kept_iff h (counts_claimed h hpayload)).mpr ⟨le_refl n, fun hterminal => ?_⟩) trivial
    rcases hstatus with hstatus | hstatus <;> simp [hstatus, JobStatus.isTerminal] at hterminal
  | @retry r status payload now completed hid houtcome =>
    obtain ⟨hcounts, hstatus⟩ := retry_outcome h houtcome
    have hsettled : Counts (job.settle status payload completed).payload (n + 1) := hcounts
    rw [kept_iff h hsettled]
    show _ ∧ (_ → status = job.status) ↔ (_ → _ → _ → _ ∧ ∀ m ∈ attempts env job.payload, _)
    rw [attempts_of_counts h]
    constructor
    · rintro ⟨-, hkept⟩ _ _ hterminal
      have hsame := hkept hterminal
      rcases hstatus with ⟨rfl, hbound⟩ | ⟨rfl, -⟩
      · refine ⟨hsame.symm, fun m hm => ?_⟩
        cases Option.mem_some.mp hm
        omega
      · rw [← hsame] at hterminal
        cases hterminal
    · intro horder
      refine ⟨by omega, fun hterminal => ?_⟩
      obtain ⟨hfailed, hbound⟩ := horder hid (by simp [houtcome]) hterminal
      have hn' := hbound n rfl
      rcases hstatus with ⟨rfl, -⟩ | ⟨-, hle⟩
      · exact hfailed.symm
      · omega
  | @close m status payload now completed hid houtcome =>
    obtain ⟨hcounts, hstatus, -⟩ := close_outcome h houtcome
    have hsettled : Counts (job.settle status payload completed).payload n := hcounts
    rw [kept_iff h hsettled]
    show _ ∧ (_ → status = job.status) ↔ (_ → _ → _ → terminalStatus? m.status = some job.status)
    rw [hstatus]
    simp [hid, houtcome]
  | @persist d observedAt item hid hitem =>
    have hobserved : Counts
        (job.observe (classifyIntentOutcome env.py d.event).jobStatus observedAt item).payload n :=
      counts_set h (by decide)
    rw [kept_iff h hobserved]
    show _ ∧ (_ → (classifyIntentOutcome env.py d.event).jobStatus = job.status) ↔ (_ → _ → _ → _)
    simp [hid, hitem]

/-- The job's attempts are known. -/
def Counted (id : String) (t : Tables) : Prop :=
  ∀ job, t.jobs.find? id = some job → ∃ n, 0 ≤ n ∧ Counts job.payload n

variable (env maxAttempts) in
/-- **What a call does where there is no job**: nothing, or it creates one. -/
theorem step_new (c : Call) (hnone : t.jobs.find? id = none) :
    ((calls env maxAttempts).answer t c ≠ .claimed (some id) ∧
      ∀ r, c = .retry r → r.executionJobId = id → (calls env maxAttempts).answer t c = .raised) ∧
    (((calls env maxAttempts).next t c).jobs.find? id = none ∨
      ∃ request, ((calls env maxAttempts).next t c).jobs.find? id = some request ∧
        request.status = .pending ∧ Counts request.payload 0) := by
  cases hresult : c.result? env maxAttempts t with
  | none =>
    obtain ⟨hanswer, hnext⟩ := next_raised hresult
    rw [hanswer, hnext]
    exact ⟨⟨by simp, fun _ _ _ => rfl⟩, .inl hnone⟩
  | some result =>
    obtain ⟨reply, t'⟩ := result
    obtain ⟨hanswer, hnext⟩ := next_result hresult
    rw [hanswer, hnext]
    cases c with
    | create c =>
      obtain ⟨t'', hcreate, heq⟩ := Option.map_eq_some_iff.mp hresult
      obtain ⟨rfl, rfl⟩ := Prod.mk.inj heq
      obtain ⟨request, hrequest, hcreate⟩ := Option.bind_eq_some_iff.mp hcreate
      obtain ⟨jobs, hjobs, hcreate⟩ := Option.bind_eq_some_iff.mp hcreate
      obtain rfl := Option.some.inj hcreate
      refine ⟨⟨by simp, by simp⟩, ?_⟩
      have hfind : t.jobs.table.find? id = none := hnone
      unfold Jobs.insertExecutionJob at hjobs
      split_ifs at hjobs with hkey hid
      · refine .inl ?_
        rw [← Option.some.inj hjobs, Jobs.find?_recreate, hnone]
        rfl
      · rw [← Option.some.inj hjobs]
        show (t.jobs.table.insert request).find? id = none ∨ ∃ r, (t.jobs.table.insert request).find? id = _ ∧ _
        rw [Table.find?_insert, hfind, Option.none_or]
        split_ifs
        · exact .inr ⟨request, rfl, request?_new hrequest⟩
        · exact .inl rfl
    | claim c =>
      obtain ⟨⟨claimed, t''⟩, hclaim, heq⟩ := Option.map_eq_some_iff.mp hresult
      obtain ⟨rfl, rfl⟩ := Prod.mk.inj heq
      obtain ⟨now, -, hclaim⟩ := Option.bind_eq_some_iff.mp hclaim
      obtain ⟨first, hfirst, hclaim⟩ := Option.bind_eq_some_iff.mp hclaim
      cases first with
      | none =>
        obtain ⟨rfl, rfl⟩ := Prod.mk.inj (Option.some.inj hclaim)
        exact ⟨⟨by simp, by simp⟩, .inl hnone⟩
      | some first =>
        obtain ⟨payload, -, hclaim⟩ := Option.bind_eq_some_iff.mp hclaim
        obtain ⟨rfl, rfl⟩ := Prod.mk.inj (Option.some.inj hclaim)
        have hfound : t.jobs.find? first.executionJobId = some first :=
          Table.find?_of_mem (Jobs.nextJob_claimable hfirst).1
        have hne : first.executionJobId ≠ id := fun h => by simp [← h, hfound] at hnone
        exact ⟨⟨by simpa using hne, by simp⟩, .inl (Jobs.find?_claim_none hnone)⟩
    | retry r =>
      obtain ⟨⟨status, t''⟩, hretry, heq⟩ := Option.map_eq_some_iff.mp hresult
      obtain ⟨rfl, rfl⟩ := Prod.mk.inj heq
      obtain ⟨found, hfound, hretry⟩ := Option.bind_eq_some_iff.mp hretry
      obtain ⟨outcome, -, hretry⟩ := Option.bind_eq_some_iff.mp hretry
      obtain ⟨-, rfl⟩ := Prod.mk.inj (Option.some.inj hretry)
      refine ⟨⟨by simp, fun r' hr' hid => ?_⟩, .inl (Jobs.find?_settle_none hnone)⟩
      obtain rfl := Call.retry.inj hr'
      rw [hid, hnone] at hfound
      cases hfound
    | close m =>
      obtain ⟨t'', hclose, heq⟩ := Option.map_eq_some_iff.mp hresult
      obtain ⟨rfl, rfl⟩ := Prod.mk.inj heq
      obtain ⟨found, -, hclose⟩ := Option.bind_eq_some_iff.mp hclose
      obtain ⟨outcome, -, hclose⟩ := Option.bind_eq_some_iff.mp hclose
      obtain rfl := Option.some.inj hclose
      exact ⟨⟨by simp, by simp⟩, .inl (Jobs.find?_settle_none hnone)⟩
    | persist d =>
      obtain ⟨t'', hpersist, heq⟩ := Option.map_eq_some_iff.mp hresult
      obtain ⟨rfl, rfl⟩ := Prod.mk.inj heq
      refine ⟨⟨by simp, by simp⟩, .inl ?_⟩
      obtain ⟨⟨observedAt, item⟩, -, hpersist⟩ := Option.bind_eq_some_iff.mp hpersist
      obtain rfl := Option.some.inj hpersist
      cases d.executionJobId <;>
        cases dbIntentStatus env.enum (classifyIntentOutcome env.py d.event).intentStatus <;>
        first | exact hnone | exact Jobs.find?_observe_none hnone

variable (env maxAttempts) in
theorem counted_next (c : Call) (h : Counted id t) : Counted id ((calls env maxAttempts).next t c) := by
  intro job' hjob'
  cases hjob : t.jobs.find? id with
  | none =>
    rcases (step_new env maxAttempts c hjob).2 with hnone | ⟨request, hfind, -, hcounts⟩
    · rw [hnone] at hjob'
      cases hjob'
    · obtain rfl := Option.some.inj (hfind.symm.trans hjob')
      exact ⟨0, le_refl 0, hcounts⟩
  | some job =>
    obtain ⟨n, hn, hcounts⟩ := h job hjob
    rcases step_cases env maxAttempts c hjob with ⟨-, hsame⟩ | ⟨moved, hmoves, hfind⟩
    · obtain rfl := Option.some.inj (hsame.symm.trans hjob')
      exact ⟨n, hn, hcounts⟩
    · obtain rfl := Option.some.inj (hfind.symm.trans hjob')
      obtain ⟨n', hcounts', hpos⟩ := hmoves.counts hcounts
      exact ⟨n', hpos hn, hcounts'⟩

variable (env maxAttempts) in
/-- **A call keeps a job exactly when it comes in order.** -/
theorem jobKept_next_iff (c : Call) (h : Counted id t) :
    JobKept env id t ((calls env maxAttempts).next t c) ↔ InOrder env maxAttempts id t c := by
  unfold JobKept InOrder
  refine forall_congr' fun job => forall_congr' fun hjob => ?_
  obtain ⟨n, hn, hcounts⟩ := h job hjob
  rcases step_cases env maxAttempts c hjob with ⟨hrests, hsame⟩ | ⟨moved, hmoves, hfind⟩
  · exact iff_of_true ⟨job, hsame, kept_refl job⟩ hrests.inOrder
  · rw [← hmoves.kept_iff_inOrder hn hcounts]
    constructor
    · rintro ⟨job', hjob', hkept⟩
      obtain rfl := Option.some.inj (hfind.symm.trans hjob')
      exact hkept
    · exact fun hkept => ⟨moved, hfind, hkept⟩

/-! ## Whole runs -/

/-- What an observer counts of one job: how often it was put back for a retry,
whether it was claimed and not put back since, and whether it was ever claimed in
that time. -/
structure Account where
  retries : Nat
  outstanding : Bool
  reclaimed : Bool

def Account.zero : Account := ⟨0, false, false⟩

def Account.note (id : String) (a : Account) (c : Call) (reply : Reply) : Account :=
  match c, reply with
  | .retry r, .retried .retryScheduled =>
    if r.executionJobId = id then { a with retries := a.retries + 1, outstanding := false } else a
  | _, .claimed (some claimed) =>
    if claimed = id then { a with outstanding := true, reclaimed := a.reclaimed || a.outstanding } else a
  | _, _ => a

/-- How the account of a job stands to its row. -/
structure Accounted (maxAttempts : String → Int) (id : String) (t : Tables) (a : Account) : Prop where
  absent : t.jobs.find? id = none → a.retries = 0 ∧ a.outstanding = false
  counted : ∀ job, t.jobs.find? id = some job → ∃ n, 0 ≤ n ∧ Counts job.payload n ∧ (a.retries : Int) ≤ n
  outstanding : ∀ job, t.jobs.find? id = some job → a.outstanding = true →
    job.status ≠ .pending ∧ job.status ≠ .retryScheduled
  bounded : a.retries ≤ (maxAttempts id).toNat
  reclaimed : a.reclaimed = false

variable {a : Account}

theorem note_quiet (hclaim : reply ≠ .claimed (some id))
    (hretry : ∀ r, c = .retry r → r.executionJobId = id → reply = .raised) :
    a.note id c reply = a := by
  unfold Account.note
  split
  · next r =>
    refine if_neg fun hid => ?_
    cases hretry r rfl hid
  · next claimed _ =>
    refine if_neg fun hid => hclaim ?_
    rw [hid]
  · rfl

theorem Rests.quiet (h : Rests env maxAttempts t job c reply) :
    reply ≠ .claimed (some job.executionJobId) ∧
      ∀ r, c = .retry r → r.executionJobId = job.executionJobId → reply = .raised := by
  cases c with
  | create c => exact ⟨h.1, by simp⟩
  | claim c => exact ⟨h, by simp⟩
  | retry r =>
    refine ⟨h.1, fun r' hr' hid => ?_⟩
    obtain rfl := Call.retry.inj hr'
    exact (h.2 hid).1
  | close m => exact ⟨h.1, by simp⟩
  | persist d => exact ⟨h.1, by simp⟩

/-- What an event reports is neither pending nor due for a retry. -/
theorem jobStatus_observed (py : Interpreter) (event : Event) :
    (classifyIntentOutcome py event).jobStatus ≠ .pending ∧
      (classifyIntentOutcome py event).jobStatus ≠ .retryScheduled := by
  simp only [classifyIntentOutcome]
  split_ifs <;> simp

/-- The account of a job that was moved. -/
theorem Moves.accounted (h : Accounted maxAttempts id t a) (hjob : t.jobs.find? id = some job)
    (horder : InOrderFor env maxAttempts t job c)
    (hmoves : Moves env maxAttempts t job c reply job') (hjob' : t'.jobs.find? id = some job') :
    Accounted maxAttempts id t' (a.note id c reply) := by
  obtain rfl : job.executionJobId = id := Table.key_of_find? hjob
  obtain ⟨n, hn, hcounts, hle⟩ := h.counted job hjob
  have habsent : ∀ b : Account, t'.jobs.find? job.executionJobId = none → b.retries = 0 ∧ b.outstanding = false := by
    intro b hnone
    rw [hjob'] at hnone
    cases hnone
  -- of the job after the call it is enough to know its count and its status
  have hmoved : ∀ (b : Account) (n' : Int), 0 ≤ n' → Counts job'.payload n' → (b.retries : Int) ≤ n' →
      (b.outstanding = true → job'.status ≠ .pending ∧ job'.status ≠ .retryScheduled) →
      b.retries ≤ (maxAttempts job.executionJobId).toNat → b.reclaimed = false →
      Accounted maxAttempts job.executionJobId t' b := by
    intro b n' hn' hcounts' hle' hstatus hbounded hreclaimed
    refine ⟨habsent b, fun j hj => ?_, fun j hj => ?_, hbounded, hreclaimed⟩
    · obtain rfl := Option.some.inj (hjob'.symm.trans hj)
      exact ⟨n', hn', hcounts', hle'⟩
    · obtain rfl := Option.some.inj (hjob'.symm.trans hj)
      exact hstatus
  cases hmoves with
  | @recreate c request hrequest hkey =>
    have hzero : some n = some 0 := (attempts_of_counts hcounts).symm.trans (horder _ hrequest hkey)
    obtain rfl := Option.some.inj hzero
    have hcounts' : Counts (Job.recreate request job).payload 0 :=
      Dict.get?_merge.trans (by rw [(request?_new hrequest).2, Option.some_or])
    exact hmoved a 0 (le_refl 0) hcounts' hle (h.outstanding job hjob) h.bounded h.reclaimed
  | @claim c now payload hstatus hpayload =>
    have hidle : a.outstanding = false := by
      by_contra houtstanding
      obtain ⟨hpending, hretry⟩ := h.outstanding job hjob (by simpa using houtstanding)
      exact hstatus.elim hpending hretry
    have hnote : a.note job.executionJobId (.claim c) (.claimed (some job.executionJobId)) =
        { a with outstanding := true, reclaimed := a.reclaimed || a.outstanding } := if_pos rfl
    rw [hnote]
    exact hmoved _ n hn (counts_claimed hcounts hpayload) hle (fun _ => ⟨by simp [Job.claim], by simp [Job.claim]⟩)
      h.bounded (by simp [hidle, h.reclaimed])
  | @retry r status payload now completed hid houtcome =>
    obtain ⟨hcounts', hstatus⟩ := retry_outcome hcounts houtcome
    rcases hstatus with ⟨rfl, -⟩ | ⟨rfl, hbound⟩
    · exact hmoved a (n + 1) (by omega) hcounts' (by omega)
        (fun _ => ⟨by simp [Job.settle], by simp [Job.settle]⟩) h.bounded h.reclaimed
    · have hnote : a.note job.executionJobId (.retry r) (.retried .retryScheduled) =
          { a with retries := a.retries + 1, outstanding := false } := if_pos hid
      rw [hnote]
      refine hmoved _ (n + 1) (by omega) hcounts' ?_ (fun hfalse => by cases hfalse) ?_ h.reclaimed
      · push_cast
        omega
      · show a.retries + 1 ≤ _
        omega
  | @close m status payload now completed hid houtcome =>
    obtain ⟨hcounts', -, hterminal⟩ := close_outcome hcounts houtcome
    refine hmoved a n hn hcounts' hle (fun _ => ?_) h.bounded h.reclaimed
    show status ≠ .pending ∧ status ≠ .retryScheduled
    constructor <;> (rintro rfl; cases hterminal)
  | @persist d observedAt item hid hitem =>
    exact hmoved a n hn (counts_set hcounts (by decide)) hle (fun _ => jobStatus_observed env.py d.event)
      h.bounded h.reclaimed

/-- **A call in order keeps the account.** -/
theorem accounted_next (c : Call) (h : Accounted maxAttempts id t a)
    (horder : InOrder env maxAttempts id t c) :
    Accounted maxAttempts id ((calls env maxAttempts).next t c)
      (a.note id c ((calls env maxAttempts).answer t c)) := by
  cases hjob : t.jobs.find? id with
  | none =>
    obtain ⟨⟨hclaim, hretry⟩, hnext⟩ := step_new env maxAttempts c hjob
    obtain ⟨hretries, hidle⟩ := h.absent hjob
    rw [note_quiet hclaim hretry]
    refine ⟨fun _ => ⟨hretries, hidle⟩, fun job' hjob' => ?_, fun _ _ hbusy => ?_, h.bounded, h.reclaimed⟩
    · rcases hnext with hnone | ⟨request, hfind, -, hcounts⟩
      · rw [hnone] at hjob'
        cases hjob'
      · obtain rfl := Option.some.inj (hfind.symm.trans hjob')
        exact ⟨0, le_refl 0, hcounts, by simp [hretries]⟩
    · rw [hidle] at hbusy
      cases hbusy
  | some job =>
    rcases step_cases env maxAttempts c hjob with ⟨hrests, hsame⟩ | ⟨moved, hmoves, hfind⟩
    · obtain ⟨hclaim, hretry⟩ := hrests.quiet
      have hid : job.executionJobId = id := Table.key_of_find? hjob
      rw [note_quiet (hid ▸ hclaim) (hid ▸ hretry)]
      have hfind := hsame.trans hjob.symm
      exact ⟨fun hnone => h.absent (hfind.symm.trans hnone), fun j hj => h.counted j (hfind.symm.trans hj),
        fun j hj => h.outstanding j (hfind.symm.trans hj), h.bounded, h.reclaimed⟩
    · exact hmoves.accounted h hjob (horder job hjob) hfind

/-- **The attempts of a job never fall, its retries are bounded, its terminal status
stays and it is not claimed twice before a retry, exactly when every call comes in
order**, over any run in which the job is new. -/
theorem jobs_bounded_and_final_iff (env : Env) (maxAttempts : String → Int) {id : String} {t : Tables}
    (hnew : t.jobs.find? id = none) (history : List Call) :
    ((∀ before c, before ++ [c] <+: history →
        JobKept env id ((calls env maxAttempts).after t before)
          ((calls env maxAttempts).after t (before ++ [c]))) ∧
      ∀ before, before <+: history →
        ((calls env maxAttempts).observe (Account.note id) t .zero before).retries ≤ (maxAttempts id).toNat ∧
        ((calls env maxAttempts).observe (Account.note id) t .zero before).reclaimed = false) ↔
      (calls env maxAttempts).Meets (InOrder env maxAttempts id) t history := by
  have hcounted : Counted id t := fun job hjob => by rw [hnew] at hjob; cases hjob
  have hkept : (calls env maxAttempts).Meets
      (fun t c => JobKept env id t ((calls env maxAttempts).next t c)) t history ↔
      (calls env maxAttempts).Meets (InOrder env maxAttempts id) t history :=
    Machine.meets_congr_of_invariant (fun _ c h => counted_next env maxAttempts c h)
      (fun _ c h => jobKept_next_iff env maxAttempts c h) hcounted
  rw [Machine.consecutive_iff, hkept]
  refine ⟨And.left, fun hmeets => ⟨hmeets, fun before hbefore => ?_⟩⟩
  obtain ⟨rest, rfl⟩ := hbefore
  have hstart : Accounted maxAttempts id t .zero := by
    refine ⟨fun _ => ⟨rfl, rfl⟩, fun job hjob => ?_, fun _ _ h => ?_, Nat.zero_le _, rfl⟩
    · rw [hnew] at hjob
      cases hjob
    · cases h
  have hend := Machine.observe_of_meets (f := Account.note id)
    (fun _ _ c h horder => accounted_next c h horder) hstart (Machine.meets_append.mp hmeets).1
  exact ⟨hend.bounded, hend.reclaimed⟩

end
/-! ## A job that is put back after it was closed -/

def plainEnv : Env where
  hashes := Risk.plainHashes
  py := ascii
  intOf v := match v with
    | .int n => some n
    | _ => none
  intOf_int _ := rfl
  timestamptz s := (DateTime.fromisoformat s).map DateTime.instant
  enum := [.draft, .approved, .rejected, .cancelled, .expired]

def noon : DateTime := ⟨2026, 1, 1, 12, 0, 0, 0, by decide⟩

def approvedTables : Tables where
  intents := Table.empty.insert
    { intentId := "intent", accountId := "acct", instrumentId := "BTCUSDT", action := "open_position",
      status := .approved, orderPlan := Dict.empty, riskBudget := Dict.empty, validUntil := noon,
      idempotencyKey := "key" }
  jobs := Jobs.empty
  auditEvents := []

def jobId : String := "execution_job|intent|open_position|BTCUSDT|acct"

def created : Call := .create ⟨"intent", none, noon, none, "trace", 0, false⟩

def claimed : Call := .claim ⟨"worker", none, noon, []⟩

def completed : Call := .close ⟨jobId, "completed", "filled", none, none, noon⟩

def putBack : Call := .retry ⟨jobId, "timeout", 4, none, noon⟩

/-- A job that is created and claimed is never put back. -/
theorem jobs_claimed_once :
    ((calls plainEnv fun _ => 3).observe (Account.note jobId) approvedTables .zero [created, claimed]).retries ≤ 3 := by
  have hnew : approvedTables.jobs.find? jobId = none := rfl
  have hmeets : (calls plainEnv fun _ => 3).Meets (InOrder plainEnv (fun _ => 3) jobId) approvedTables
      [created, claimed] := by
    refine ⟨fun job hjob => ?_, fun _ _ => trivial, trivial⟩
    rw [hnew] at hjob
    cases hjob
  exact (((jobs_bounded_and_final_iff plainEnv (fun _ => 3) hnew [created, claimed]).mpr hmeets).2 _
    (List.prefix_refl _)).1

/-- A completed job is put back for a retry. -/
theorem retry_reopens_job :
    ¬ ∀ before c, before ++ [c] <+: [created, completed, putBack] →
      JobKept plainEnv jobId ((calls plainEnv fun _ => 3).after approvedTables before)
        ((calls plainEnv fun _ => 3).after approvedTables (before ++ [c])) := by
  intro h
  have hclosed : (((calls plainEnv fun _ => 3).after approvedTables [created, completed]).jobs.find? jobId).map
      Job.status = some .completed := by decide +kernel
  have hreopened : (((calls plainEnv fun _ => 3).after approvedTables
      [created, completed, putBack]).jobs.find? jobId).map Job.status = some .retryScheduled := by
    decide +kernel
  obtain ⟨job, hjob, hstatus⟩ := Option.map_eq_some_iff.mp hclosed
  obtain ⟨job', hjob', -, hkept⟩ := h [created, completed] putBack (List.prefix_refl _) job hjob
  have hsame : job'.status = job.status := hkept (by rw [hstatus]; rfl)
  have hafter : some job'.status = some .retryScheduled := by
    rw [← hreopened]
    show _ = (((calls plainEnv fun _ => 3).after approvedTables ([created, completed] ++ [putBack])).jobs.find?
      jobId).map Job.status
    rw [hjob']
    rfl
  rw [hsame, hstatus] at hafter
  cases hafter

end TraderBot.Execution
