import TraderBot.SignalQueue.ClaimOrder

/-! # When a claim is fair

A claim is fair when it takes the first candidate whose time to live has not passed and disposes of those before it.
It is, exactly as long as the worker's clock finds each row claimable that the database did,
  and no active run of
the same message is in the way of the one to be made. -/
namespace TraderBot.SignalQueue
open TraderBot.Lib TraderBot.Lib.Json

/-! ## The statement -/

/-- The candidates in order, each with the worker's readings in its turn. -/
def timed (c : ClaimCall) (s : Store) : List (TaskRow × Turn) := (candidates c s).zip c.turns

/-- The time to live has passed, by the reading of its turn. -/
def expired (c : ClaimCall) (p : TaskRow × Turn) : Bool :=
  taskTtlExpired p.1.toSignalTask c.openTtlSeconds p.2.expiredAt

/-- One task comes before another one. -/
def Ahead (a b : TaskRow) : Prop := a.taskId ≠ b.taskId ∧ Before a b

/-- The candidates that the claim met before what it took. -/
def Met (c : ClaimCall) (s : Store) (result : Option TaskRow) (p : TaskRow × Turn) : Prop :=
  p ∈ timed c s ∧ ∀ t ∈ result, Ahead p.1 t

/-- The claim takes the first candidate whose time to live has not passed; those before it are disposed of with
their runs, and nothing else changes. -/
structure Fair (c : ClaimCall) (s : Store) (result : Option TaskRow) (s' : Store) : Prop where
  none_iff : result = none ↔ ∀ p ∈ timed c s, expired c p = true
  least : ∀ t ∈ result, ∃ p ∈ timed c s, expired c p = false ∧ (∃ n, t = leasedRow c s.clock n p.1) ∧
    ∀ q ∈ timed c s, expired c q = false → Before p.1 q.1
  leased : ∀ t ∈ result, s'.task t.taskId = some t ∧
    s'.run c.processingRunId = some (startedRun c t.toSignalTask s.clock t.attempt)
  disposed : ∀ p, Met c s result p → expired c p = true ∧ s'.task p.1.taskId = some (disposedRow c p.1) ∧
    ∀ id r, p.1.processingRunId = some id → s.run id = some r →
      s'.run id = some (if r.status.isActive then skippedRun r else r)
  tasks : ∀ id, (∀ t ∈ result, t.taskId ≠ id) → (∀ p, Met c s result p → p.1.taskId ≠ id) → s'.task id =
    s.task id
  runs : ∀ id, (result.isSome → id ≠ c.processingRunId) →
    (∀ p ∈ timed c s, (Met c s result p ∨ ∃ t ∈ result, t.taskId = p.1.taskId) → p.1.processingRunId ≠ some id) →
    s'.run id = s.run id
  clock : s'.clock = s.clock

/-- All candidates before this one have no time left. -/
def Reached (c : ClaimCall) (s : Store) (p : TaskRow × Turn) : Prop :=
  p ∈ timed c s ∧ ∀ q ∈ timed c s, Ahead q.1 p.1 → expired c q = true

/-- An active run of the message, which neither ends with a task before nor as timed out. -/
def InTheWay (c : ClaimCall) (s : Store) (p : TaskRow × Turn) : Prop :=
  ∃ id r, s.run id = some r ∧ r.status.isActive = true ∧ r.rawMessageId = p.1.rawMessageId ∧
    r.processingPurpose = c.processingPurpose ∧
      (c.processingPurpose = .signal → r.accountId = some p.1.accountId) ∧
    (∀ q ∈ timed c s, Ahead q.1 p.1 → q.1.processingRunId ≠ some id) ∧
    ¬ (p.1.processingRunId = some id ∧ past r.leaseExpiresAt s.clock = true)

/-- The worker finds claimable what it reaches, and can make its run. -/
def WayClear (c : ClaimCall) (s : Store) : Prop :=
  ∀ p, Reached c s p → rowIsClaimable p.1.toSignalTask p.2.claimableAt = true ∧
    (expired c p = false → ¬ InTheWay c s p)

/-- What a call is asked for. -/
structure ClaimCall.Valid (c : ClaimCall) : Prop where
  purpose : c.processingPurpose ≠ .legacy
  worker : c.workerId ≠ ""
  lease : 0 < c.leaseSeconds

/-! ## The candidates that are met -/

section
variable {c : ClaimCall} {s : Store} {turns : List Turn} {met : List (TaskRow × Turn)}

/-- The store after these were disposed of. -/
def disposedAll (c : ClaimCall) (met : List (TaskRow × Turn)) (s : Store) : Store :=
  met.foldl (fun s p => disposed c p.1 s) s

theorem clock_disposedAll : (disposedAll c met s).clock = s.clock := by
  unfold disposedAll
  induction met generalizing s with
  | nil => rfl
  | cons p met ih => exact (ih (s := disposed c p.1 s)).trans clock_disposed

theorem task_disposedAll_other {id : String} (h : ∀ p ∈ met, p.1.taskId ≠ id) :
    (disposedAll c met s).task id = s.task id := by
  unfold disposedAll
  induction met generalizing s with
  | nil => rfl
  | cons p met ih =>
    rw [List.foldl_cons, ih fun q hq => h q (List.mem_cons_of_mem _ hq), task_disposed,
      if_neg (Ne.symm (h p List.mem_cons_self))]

theorem task_disposedAll (hids : (met.map (·.1.taskId)).Nodup) :
    ∀ p ∈ met, (disposedAll c met s).task p.1.taskId = some (disposedRow c p.1) := by
  induction met generalizing s with
  | nil => exact fun p hp => by cases hp
  | cons p met ih =>
    obtain ⟨hp, hids⟩ := List.nodup_cons.mp hids
    refine List.forall_mem_cons.mpr ⟨?_, ih (s := disposed c p.1 s) hids⟩
    show (disposedAll c met (disposed c p.1 s)).task _ = _
    have hother : ∀ q ∈ met, q.1.taskId ≠ p.1.taskId := fun q hq heq => hp (List.mem_map.mpr ⟨q, hq, heq⟩)
    rw [task_disposedAll_other hother, task_disposed, if_pos rfl]

theorem run_disposedAll (id : String) : (disposedAll c met s).run id = (s.run id).map fun r =>
    if (∃ p ∈ met, p.1.processingRunId = some id) ∧ r.status.isActive = true then skippedRun r else r := by
  unfold disposedAll
  induction met generalizing s with
  | nil =>
    cases hrun : s.run id with
    | none => exact hrun
    | some r => exact hrun.trans (congrArg some (if_neg (by simp)).symm)
  | cons p met ih =>
    rw [List.foldl_cons, ih, run_disposed]
    cases s.run id with
    | none => split_ifs <;> rfl
    | some r =>
      by_cases hp : p.1.processingRunId = some id
      · cases hactive : r.status.isActive with
        | false => simp [hp, hactive]
        | true =>
          have hended : ¬ ((∃ q ∈ met, q.1.processingRunId = some id) ∧ (skippedRun r).status.isActive = true) :=
            fun h => by cases h.2
          rw [if_pos hp, Option.map_some, if_pos hactive, Option.map_some, Option.map_some, if_neg hended,
            if_pos ⟨⟨p, List.mem_cons_self, hp⟩, hactive⟩]
      · have hsame : (∃ q ∈ p :: met, q.1.processingRunId = some id) ↔
        ∃ q ∈ met, q.1.processingRunId = some id := by
          simp [hp]
        simp only [if_neg hp, hsame]

/-- The loop disposes of what it meets, turn by turn. -/
theorem loop_met {rest : List (TaskRow × Turn)} (hzip : (candidates c s).zip turns = met ++ rest)
    (hmet : ∀ p ∈ met, rowIsClaimable p.1.toSignalTask p.2.claimableAt = true ∧ expired c p = true)
    (hturns : (candidates c s).length < turns.length) :
    ∃ turns', (claimLoop c s.clock turns []).alone s =
      (claimLoop c s.clock turns' []).alone (disposedAll c met s) ∧
      (candidates c (disposedAll c met s)).zip turns' = rest ∧
      (candidates c (disposedAll c met s)).length < turns'.length := by
  unfold disposedAll
  induction met generalizing s turns with
  | nil => exact ⟨turns, rfl, hzip, hturns⟩
  | cons p met ih =>
    cases hcandidates : candidates c s with
    | nil =>
      rw [hcandidates] at hzip
      cases hzip
    | cons t later =>
      cases turns with
      | nil =>
        rw [List.length_nil] at hturns
        exact absurd hturns (Nat.not_lt_zero _)
      | cons turn turns =>
        rw [hcandidates] at hzip hturns
        obtain ⟨rfl, htail⟩ := List.cons.inj hzip
        obtain ⟨⟨hrow, hexpired⟩, hmet⟩ := List.forall_mem_cons.mp hmet
        have hnext := candidates_disposed hcandidates
        have hremaining : remaining c s [] = t :: later := by
          unfold remaining
          simp [hcandidates]
        have hexpired : taskTtlExpired t.toSignalTask c.openTtlSeconds turn.expiredAt = true := hexpired
        rw [List.foldl_cons, loop_candidate hremaining, if_neg (by simpa using hrow), if_pos hexpired,
          ← clock_disposed (c := c) (t := t) (s := s)]
        refine ih (hnext ▸ htail) hmet ?_
        rw [hnext]
        exact Nat.lt_of_succ_lt_succ hturns

/-- A list up to the first that is kept. -/
theorem split_at {β : Type} (keep : β → Bool) (xs : List β) :
    ∃ met rest, xs = met ++ rest ∧ (∀ x ∈ met, keep x = false) ∧
    ∀ x ∈ rest.head?, keep x = true := by
  refine ⟨xs.takeWhile fun x => !keep x, xs.dropWhile fun x => !keep x, List.takeWhile_append_dropWhile.symm, ?_, ?_⟩
  · intro x hx
    simpa using List.mem_takeWhile_imp hx
  · intro x hx
    have hne : (xs.dropWhile fun x => !keep x) ≠ [] := by
      intro hnil
      rw [hnil] at hx
      cases hx
    have hhead := List.head_dropWhile_not (fun x => !keep x) hne
    rw [List.head?_eq_some_head hne] at hx
    cases hx
    simpa using hhead

/-! ## Where the claim stops -/

variable {p : TaskRow × Turn} {later : List (TaskRow × Turn)}

theorem timed_fst (hturns : (candidates c s).length < c.turns.length) :
    (timed c s).map Prod.fst = candidates c s :=
  List.map_fst_zip hturns.le

theorem mem_candidates_of_timed (hp : p ∈ timed c s) : p.1 ∈ candidates c s := (List.of_mem_zip hp).1

theorem timed_ids (hturns : (candidates c s).length < c.turns.length) :
    ((timed c s).map (·.1.taskId)).Nodup := by
  have hids := candidates_ids c s
  rw [← timed_fst hturns, List.map_map] at hids
  exact hids

/-- Of two candidates the one listed first is ahead. -/
theorem timed_ahead (hturns : (candidates c s).length < c.turns.length) :
    (timed c s).Pairwise fun p q => Ahead p.1 q.1 := by
  have hsorted := candidates_sorted c s
  have hids := candidates_ids c s
  rw [← timed_fst hturns] at hsorted hids
  have hne : ((timed c s).map Prod.fst).Pairwise fun a b => a.taskId ≠ b.taskId := List.pairwise_map.mp hids
  exact (List.pairwise_map.mp hne).and (List.pairwise_map.mp hsorted)

theorem Ahead.asymm {a b : TaskRow} (h : Ahead a b) : ¬ Ahead b a := fun h' => h.1 (h.2.antisymm h'.2)

/-- What is ahead of a candidate are those listed before it. -/
theorem ahead_iff (hturns : (candidates c s).length < c.turns.length)
    (hsplit : timed c s = met ++ p :: later)
    {q : TaskRow × Turn} (hq : q ∈ timed c s) : Ahead q.1 p.1 ↔ q ∈ met := by
  have hpairs := timed_ahead hturns
  rw [hsplit] at hpairs hq
  obtain ⟨-, hlater, hcross⟩ := List.pairwise_append.mp hpairs
  constructor
  · intro hahead
    rcases List.mem_append.mp hq with hq | hq
    · exact hq
    · rcases List.mem_cons.mp hq with rfl | hq
      · exact absurd rfl hahead.1
      · exact absurd ((List.pairwise_cons.mp hlater).1 q hq) hahead.asymm
  · exact fun hq => hcross q hq p List.mem_cons_self


/-! ## What is left behind -/

theorem run_disposedAll_none {id : String} (h : s.run id = none) : (disposedAll c met s).run id = none := by
  rw [run_disposedAll, h]
  rfl

/-- A claim that found only candidates without time left. -/
theorem fair_none (hturns : (candidates c s).length < c.turns.length)
    (hmet : ∀ p ∈ timed c s, expired c p = true) :
    Fair c s none (disposedAll c (timed c s) s) where
  none_iff := iff_of_true rfl hmet
  least t ht := by cases ht
  leased t ht := by cases ht
  disposed p hp := by
    refine ⟨hmet p hp.1, task_disposedAll (timed_ids hturns) p hp.1, fun id r hid hr => ?_⟩
    rw [run_disposedAll, hr, Option.map_some]
    exact congrArg some (if_congr (and_iff_right ⟨p, hp.1, hid⟩) rfl rfl)
  tasks id _ hother := task_disposedAll_other fun p hp => hother p ⟨hp, fun t ht => by cases ht⟩
  runs id _ hother := by
    have hnone : ¬ ∃ p ∈ timed c s, p.1.processingRunId = some id := fun ⟨p, hp, hid⟩ =>
      hother p hp (.inl ⟨hp, fun t ht => by cases ht⟩) hid
    rw [run_disposedAll]
    cases s.run id with
    | none => rfl
    | some r => exact congrArg some (if_neg fun h => hnone h.1)
  clock := clock_disposedAll

theorem run_retired {t : TaskRow} {id : String} : (retired t s).run id = if t.processingRunId = some id then
    (s.run id).map fun r => if r.status.isActive && past r.leaseExpiresAt s.clock then timedOut r else r
      else s.run id := by
  have hid : ∀ r, (timedOut r).processingRunId = r.processingRunId := fun _ => rfl
  exact run_endedRun hid

/-- The first candidate with time left, leased after those before it were disposed of. -/
theorem fair_some (hturns : (candidates c s).length < c.turns.length)
    (hfresh : s.run c.processingRunId = none)
    (hsplit : timed c s = met ++ p :: later) (hmet : ∀ q ∈ met, expired c q = true)
    (hp : expired c p = false) :
    Fair c s (some (leasedRow c s.clock (nextAttempt p.1 (disposedAll c met s)) p.1))
      (leased c p.1 (disposedAll c met s)) := by
  have hids := timed_ids hturns
  rw [hsplit, List.map_append, List.map_cons] at hids
  obtain ⟨hidsMet, -, hcross⟩ := List.nodup_append.mp hids
  have hpMem : p ∈ timed c s := hsplit ▸ List.mem_append_right _ List.mem_cons_self
  have hmetMem : ∀ q ∈ met, q ∈ timed c s := fun q hq => hsplit ▸ List.mem_append_left _ hq
  have hne : ∀ q ∈ met, q.1.taskId ≠ p.1.taskId := fun q hq =>
    hcross _ (List.mem_map_of_mem hq) _ List.mem_cons_self
  set s1 := disposedAll c met s with hs1
  set row := leasedRow c s.clock (nextAttempt p.1 s1) p.1 with hrow
  have hclock : s1.clock = s.clock := clock_disposedAll
  -- what was met is what is listed before the task that is taken
  have hmetIff : ∀ q, Met c s (some row) q ↔ q ∈ met := by
    intro q
    constructor
    · rintro ⟨hq, hahead⟩
      exact (ahead_iff hturns hsplit hq).mp (hahead row rfl)
    · intro hq
      refine ⟨hmetMem q hq, fun t ht => ?_⟩
      cases ht
      exact (ahead_iff hturns hsplit (hmetMem q hq)).mpr hq
  have htask : ∀ id, (leased c p.1 s1).task id = if id = p.1.taskId then some row else s1.task id := by
    intro id
    rw [task_leased, hclock]
  have hrun : ∀ id, (leased c p.1 s1).run id = if id = c.processingRunId then
      some (startedRun c p.1.toSignalTask s.clock (nextAttempt p.1 s1)) else (retired p.1 s1).run id := by
    intro id
    rw [← hclock]
    exact Store.run_setRun
  refine
    { none_iff := iff_of_false (fun h => by cases h) fun hall => ?_
      least := fun t ht => ?_
      leased := fun t ht => ?_
      disposed := fun q hq => ?_
      tasks := fun id hid hother => ?_
      runs := fun id hid hother => ?_
      clock := ?_ }
  · rw [hall p hpMem] at hp
    cases hp
  · cases ht
    refine ⟨p, hpMem, hp, ⟨_, rfl⟩, fun q hq hexpired => ?_⟩
    rcases before_total p.1 q.1 with hbefore | hbefore
    · exact hbefore
    · by_cases hsame : q.1.taskId = p.1.taskId
      · have heq := List.inj_on_of_nodup_map (timed_ids hturns) hq hpMem hsame
        exact heq ▸ .inr ⟨rfl, le_rfl⟩
      · have hin := (ahead_iff hturns hsplit hq).mp ⟨hsame, hbefore⟩
        rw [hmet q hin] at hexpired
        cases hexpired
  · cases ht
    exact ⟨(htask _).trans (if_pos rfl), (hrun _).trans (if_pos rfl)⟩
  · have hin := (hmetIff q).mp hq
    refine ⟨hmet q hin, ?_, fun id r hid hr => ?_⟩
    · rw [htask, if_neg (hne q hin)]
      exact task_disposedAll hidsMet q hin
    · have hnew : id ≠ c.processingRunId := by
        rintro rfl
        rw [hfresh] at hr
        cases hr
      have hended : s1.run id = some (if r.status.isActive then skippedRun r else r) := by
        rw [hs1, run_disposedAll, hr, Option.map_some]
        exact congrArg some (if_congr (and_iff_right ⟨q, hin, hid⟩) rfl rfl)
      have hinactive : (if r.status.isActive then skippedRun r else r).status.isActive = false := by
        split_ifs with hactive
        · rfl
        · exact Bool.eq_false_iff.mpr hactive
      rw [hrun, if_neg hnew, run_retired, hended, Option.map_some, hinactive]
      simp
  · have hnot : id ≠ p.1.taskId := fun heq => hid row rfl heq.symm
    rw [htask, if_neg hnot]
    exact task_disposedAll_other fun q hq => hother q ((hmetIff q).mpr hq)
  · have hown : p.1.processingRunId ≠ some id := hother p hpMem (.inr ⟨row, rfl, rfl⟩)
    have hnone : ¬ ∃ q ∈ met, q.1.processingRunId = some id := fun ⟨q, hq, heq⟩ =>
      hother q (hmetMem q hq) (.inl ((hmetIff q).mpr hq)) heq
    rw [hrun, if_neg (hid rfl), run_retired, if_neg hown, run_disposedAll]
    cases s.run id with
    | none => rfl
    | some r => exact congrArg some (if_neg fun h => hnone h.1)
  · show (retired p.1 s1).clock = _
    unfold retired
    rw [clock_endedRun, hclock]

/-- The run is refused where an active one of the message is in the way. -/
theorem refused_iff (hturns : (candidates c s).length < c.turns.length)
    (hfresh : s.run c.processingRunId = none)
    (hsplit : timed c s = met ++ p :: later) :
    refused c p.1 (disposedAll c met s) = true ↔ InTheWay c s p := by
  have hpMem : p ∈ timed c s := hsplit ▸ List.mem_append_right _ List.mem_cons_self
  have hpurpose : p.1.processingPurpose = c.processingPurpose :=
    (claimable_spec (mem_candidates.mp (mem_candidates_of_timed hpMem)).2).2.1
  set s1 := disposedAll c met s with hs1
  have hclock : s1.clock = s.clock := clock_disposedAll
  have hnew : (retired p.1 s1).run c.processingRunId = none := by
    rw [run_retired, hs1, run_disposedAll_none hfresh]
    split_ifs <;> rfl
  have hmetIff : ∀ q, q ∈ met ↔ q ∈ timed c s ∧ Ahead q.1 p.1 := by
    intro q
    constructor
    · intro hq
      have hmem : q ∈ timed c s := hsplit ▸ List.mem_append_left _ hq
      exact ⟨hmem, (ahead_iff hturns hsplit hmem).mpr hq⟩
    · exact fun hq => (ahead_iff hturns hsplit hq.1).mp hq.2
  -- a run that is still active is one of before that neither ended with a task nor by its lease
  have hactive : ∀ id x, (retired p.1 s1).run id = some x ∧ x.status.isActive = true ↔
      s.run id = some x ∧ x.status.isActive = true ∧ (∀ q ∈ met, q.1.processingRunId ≠ some id) ∧
        ¬ (p.1.processingRunId = some id ∧ past x.leaseExpiresAt s.clock = true) := by
    intro id x
    rw [run_retired, hs1, run_disposedAll, ← hs1, hclock]
    cases s.run id with
    | none => simp
    | some r =>
      rw [Option.map_some]
      by_cases hended : (∃ q ∈ met, q.1.processingRunId = some id) ∧ r.status.isActive = true
      · rw [if_pos hended]
        refine iff_of_false ?_ ?_
        · rintro ⟨hx, hxactive⟩
          have hx : x = skippedRun r := by
            split_ifs at hx with hown
            · exact (Option.some.inj hx).symm
            · exact (Option.some.inj hx).symm
          rw [hx] at hxactive
          cases hxactive
        · rintro ⟨-, -, hnone, -⟩
          obtain ⟨q, hq, hid⟩ := hended.1
          exact hnone q hq hid
      · rw [if_neg hended]
        by_cases hown : p.1.processingRunId = some id
        · rw [if_pos hown, Option.map_some]
          by_cases htimed : (r.status.isActive && past r.leaseExpiresAt s.clock) = true
          · rw [if_pos htimed]
            rw [Bool.and_eq_true] at htimed
            refine iff_of_false ?_ ?_
            · rintro ⟨hx, hxactive⟩
              cases hx
              cases hxactive
            · rintro ⟨hx, -, -, hpast⟩
              cases hx
              exact hpast ⟨hown, htimed.2⟩
          · rw [if_neg htimed]
            refine and_congr_right fun hx => ?_
            cases hx
            refine ⟨fun hact => ⟨hact, fun q hq hid => hended ⟨⟨q, hq, hid⟩, hact⟩, fun hpast => htimed ?_⟩, And.left⟩
            rw [hact, hpast.2]
            rfl
        · rw [if_neg hown]
          refine and_congr_right fun hx => ?_
          cases hx
          exact ⟨fun hact => ⟨hact, fun q hq hid => hended ⟨⟨q, hq, hid⟩, hact⟩, fun hpast => hown hpast.1⟩, And.left⟩
  unfold refused Store.activeRunConflicts InTheWay
  rw [hnew, Option.isSome_none, Bool.false_or, List.any_eq_true]
  simp only [Bool.and_eq_true, Bool.or_eq_true, decide_eq_true_eq, startedRun, hpurpose]
  constructor
  · rintro ⟨x, hx, ⟨⟨hxactive, hmessage⟩, hxpurpose⟩, haccount⟩
    obtain ⟨hrun, hact, hnone, hpast⟩ := (hactive x.processingRunId x).mp ⟨Table.find?_of_mem hx, hxactive⟩
    refine ⟨_, x, hrun, hact, hmessage, hxpurpose, fun hsignal => haccount.resolve_left fun h => h hsignal, ?_, hpast⟩
    exact fun q hq hahead => hnone q ((hmetIff q).mpr ⟨hq, hahead⟩)
  · rintro ⟨id, x, hrun, hact, hmessage, hxpurpose, haccount, hnone, hpast⟩
    obtain ⟨hretired, -⟩ := (hactive id x).mpr ⟨hrun, hact, fun q hq => hnone q ((hmetIff q).mp hq).1 ((hmetIff q).mp hq).2,
      hpast⟩
    refine ⟨x, List.mem_of_find?_eq_some hretired, ⟨⟨hact, hmessage⟩, hxpurpose⟩, ?_⟩
    by_cases hsignal : c.processingPurpose = .signal
    · exact .inr (haccount hsignal)
    · exact .inl hsignal

/-! ## The claim -/

/-- A candidate that the worker does not find claimable stays as it is, so the claim is not fair. -/
theorem not_fair_of_kept (hcall : c.Valid) (hturns : (candidates c s).length < c.turns.length)
    (hsplit : timed c s = met ++ p :: later) (hmet : ∀ q ∈ met, expired c q = true)
    {result : Option TaskRow}
    {s' : Store} (hkept : s'.task p.1.taskId = some p.1) : ¬ Fair c s result s' := by
  intro hfair
  have hpMem : p ∈ timed c s := hsplit ▸ List.mem_append_right _ List.mem_cons_self
  obtain ⟨hstatus, -, -, -, hlease⟩ := claimable_spec (mem_candidates.mp (mem_candidates_of_timed hpMem)).2
  -- it was not disposed of
  have hnotMet : ¬ Met c s result p := by
    intro hm
    obtain ⟨-, hrow, -⟩ := hfair.disposed p hm
    have heq : p.1 = disposedRow c p.1 := Option.some.inj (hkept.symm.trans hrow)
    rw [heq] at hstatus
    simp [disposedRow] at hstatus
  cases hresult : result with
  | none => exact hnotMet ⟨hpMem, fun t ht => by rw [hresult] at ht; cases ht⟩
  | some t =>
    have ht : t ∈ result := hresult
    obtain ⟨q, hq, hopen, ⟨n, rfl⟩, -⟩ := hfair.least t ht
    obtain ⟨hrow, -⟩ := hfair.leased _ ht
    by_cases hsame : p.1.taskId = q.1.taskId
    · -- nor was it leased
      have hpq := List.inj_on_of_nodup_map (timed_ids hturns) hpMem hq hsame
      subst hpq
      have heq : p.1 = leasedRow c s.clock n p.1 := Option.some.inj (hkept.symm.trans hrow)
      rw [heq] at hlease
      have hpositive := hcall.lease
      simp [leasedRow, past, ClaimCall.lease, microseconds] at hlease
      omega
    · have hahead : Ahead p.1 q.1 := by
        refine ⟨hsame, (before_total p.1 q.1).resolve_right fun hbefore => ?_⟩
        have hin := (ahead_iff hturns hsplit hq).mp ⟨Ne.symm hsame, hbefore⟩
        rw [hmet q hin] at hopen
        cases hopen
      refine hnotMet ⟨hpMem, fun t' ht' => ?_⟩
      rw [hresult] at ht'
      cases ht'
      exact hahead

/-- A claim comes back with the first task that has time left, and disposes of those before it. -/
def FairClaim (c : ClaimCall) (s : Store) : Prop :=
  ∃ result s', (claimSignalTask c).alone s = some (result, s') ∧ Fair c s result s'

theorem claimSignalTask_alone (hcall : c.Valid) (s : Store) :
    (claimSignalTask c).alone s = (claimLoop c s.clock c.turns []).alone s := by
  have hvalid : ¬ (c.processingPurpose = .legacy ∨ c.workerId = "" ∨ c.leaseSeconds ≤ 0) := by
    rintro (h | h | h)
    · exact hcall.purpose h
    · exact hcall.worker h
    · exact absurd hcall.lease (not_lt.mpr h)
  unfold claimSignalTask
  rw [if_neg hvalid]
  unfold select
  rw [Program.alone_bind, Program.alone_read]
  rfl

/-- **A claim ends within as many turns as there are candidates and one, and it is fair iff the worker finds what it
reaches claimable and can make its run.** -/
theorem claim_fair_iff (hcall : c.Valid) (hturns : (candidates c s).length < c.turns.length)
    (hfresh : s.run c.processingRunId = none) :
    (∀ more, (claimLoop c s.clock (c.turns ++ more) []).alone s = (claimSignalTask c).alone s) ∧
      (FairClaim c s ↔ WayClear c s) := by
  have hall : remaining c s [] = candidates c s := by
    unfold remaining
    simp
  refine ⟨fun more => ?_, ?_⟩
  · rw [claimSignalTask_alone hcall]
    exact loop_ends (hall ▸ hturns) more
  unfold FairClaim
  rw [claimSignalTask_alone hcall]
  let goes : TaskRow × Turn → Bool :=
    fun p => rowIsClaimable p.1.toSignalTask p.2.claimableAt && expired c p
  obtain ⟨met, rest, hsplit, hgoes, hstop⟩ := split_at (fun p => !goes p) (timed c s)
  have hmet : ∀ p ∈ met, rowIsClaimable p.1.toSignalTask p.2.claimableAt = true ∧ expired c p = true := by
    intro p hp
    simpa [goes] using hgoes p hp
  obtain ⟨turns', hloop, hzip, hlength⟩ := loop_met hsplit hmet hturns
  have hclock : (disposedAll c met s).clock = s.clock := clock_disposedAll
  rw [hloop, ← hclock]
  cases rest with
  | nil =>
    -- there is no candidate left
    rw [List.append_nil] at hsplit
    subst hsplit
    cases turns' with
    | nil => exact absurd hlength (Nat.not_lt_zero _)
    | cons turn turns' =>
      have hnone : remaining c (disposedAll c (timed c s) s) [] = [] := by
        unfold remaining
        cases hcandidates : candidates c (disposedAll c (timed c s) s) with
        | nil => rfl
        | cons t later =>
          rw [hcandidates] at hzip
          cases hzip
      rw [loop_empty hnone]
      refine iff_of_true ⟨_, _, rfl, fair_none hturns fun p hp => (hmet p hp).2⟩ fun p hp => ⟨(hmet p hp.1).1, ?_⟩
      rw [(hmet p hp.1).2]
      exact fun h => by cases h
  | cons p later =>
    have hpMem : p ∈ timed c s := hsplit ▸ List.mem_append_right _ List.mem_cons_self
    have hexpired : ∀ q ∈ met, expired c q = true := fun q hq => (hmet q hq).2
    have hreached : Reached c s p :=
      ⟨hpMem, fun q hq hahead => hexpired q ((ahead_iff hturns hsplit hq).mp hahead)⟩
    have hkept : (disposedAll c met s).task p.1.taskId = some p.1 := by
      rw [task_disposedAll_other]
      · exact (mem_candidates.mp (mem_candidates_of_timed hpMem)).1
      · have hids := timed_ids hturns
        rw [hsplit, List.map_append, List.map_cons] at hids
        exact fun q hq => (List.nodup_append.mp hids).2.2 _ (List.mem_map_of_mem hq) _ List.mem_cons_self
    -- the turn that meets it
    obtain ⟨rows, turns'', hrows, rfl⟩ : ∃ rows turns'', candidates c (disposedAll c met s) = p.1 :: rows ∧
        turns' = p.2 :: turns'' := by
      cases hcandidates : candidates c (disposedAll c met s) with
      | nil =>
        rw [hcandidates] at hzip
        cases hzip
      | cons t rows =>
        cases turns' with
        | nil => exact absurd hlength (Nat.not_lt_zero _)
        | cons turn turns'' =>
          rw [hcandidates] at hzip
          obtain ⟨hp, -⟩ := List.cons.inj hzip
          subst hp
          exact ⟨rows, turns'', rfl, rfl⟩
    have hremaining : remaining c (disposedAll c met s) [] = p.1 :: rows := by
      unfold remaining
      simp [hrows]
    have hclaimable : claimable c (disposedAll c met s) p.1 = true :=
      (mem_candidates.mp (hrows ▸ List.mem_cons_self : p.1 ∈ candidates c (disposedAll c met s))).2
    rw [loop_candidate hremaining]
    by_cases hrow : rowIsClaimable p.1.toSignalTask p.2.claimableAt = false
    · rw [if_pos hrow]
      refine iff_of_false ?_ fun hclear => ?_
      · rintro ⟨result, s', hout, hfair⟩
        exact not_fair_of_kept hcall hturns hsplit hexpired (skipped_kept hout List.mem_cons_self hkept) hfair
      · rw [(hclear p hreached).1] at hrow
        cases hrow
    · have hopen : expired c p = false := by
        have hgo := hstop p rfl
        rw [Bool.not_eq_false] at hrow
        simpa [goes, hrow] using hgo
      have hnotTtl : ¬ taskTtlExpired p.1.toSignalTask c.openTtlSeconds p.2.expiredAt = true :=
        Bool.eq_false_iff.mp hopen
      rw [if_neg hrow, if_neg hnotTtl, alone_leaseTask hkept hclaimable]
      by_cases hrefused : refused c p.1 (disposedAll c met s) = true
      · rw [if_pos hrefused]
        refine iff_of_false (fun ⟨_, _, hout, _⟩ => by cases hout) fun hclear => ?_
        exact (hclear p hreached).2 hopen ((refused_iff hturns hfresh hsplit).mp hrefused)
      · rw [if_neg hrefused]
        refine iff_of_true ⟨_, _, rfl, ?_⟩ fun q hq => ?_
        · rw [hclock]
          exact fair_some hturns hfresh hsplit hexpired hopen
        · by_cases hqp : q.1.taskId = p.1.taskId
          · have heq := List.inj_on_of_nodup_map (timed_ids hturns) hq.1 hpMem hqp
            subst heq
            exact ⟨Bool.not_eq_false _ ▸ hrow, fun _ hway => hrefused ((refused_iff hturns hfresh hsplit).mpr hway)⟩
          · -- what comes after a task with time left is not reached
            rcases before_total q.1 p.1 with hbefore | hbefore
            · obtain ⟨hqrow, hqexpired⟩ := hmet q ((ahead_iff hturns hsplit hq.1).mp ⟨hqp, hbefore⟩)
              refine ⟨hqrow, fun hqopen => ?_⟩
              rw [hqexpired] at hqopen
              cases hqopen
            · have hpexpired := hq.2 p hpMem ⟨Ne.symm hqp, hbefore⟩
              rw [hopen] at hpexpired
              cases hpexpired

end

/-! ## One message for two accounts -/

/-- A task of the message for an account. -/
def messageTask (taskId accountId : String) : TaskRow :=
  { taskId := taskId, rawMessageId := "m", sourcePlatform := "telegram", channelId := "c", sourceMessageId := "1"
    accountId := accountId, editVersion := "v1", status := .pending }

/-- Account `a` has leased its task, and the run of the message is active. -/
def twoAccounts : Store where
  clock := 0
  tasks := ⟨[{ messageTask "t1" "a" with
      status := .leased, claimToken := some "x", processingRunId := some "r1", leaseExpiresAt :=
        some 30000000 },
    messageTask "t2" "b"], by decide⟩
  runs := ⟨[⟨"r1", "m", some "a", .shadow, .started, some 30000000, 1, some "x", none⟩], by decide⟩

def nextClaim : ClaimCall :=
  { workerId := "w", claimToken := "y", processingRunId := "r2", turns := [⟨0, 0⟩, ⟨0, 0⟩] }

theorem claim_fair_iff_twoAccounts :
    (∀ more, (claimLoop nextClaim twoAccounts.clock (nextClaim.turns ++ more) []).alone twoAccounts =
        (claimSignalTask nextClaim).alone twoAccounts) ∧
      (FairClaim nextClaim twoAccounts ↔ WayClear nextClaim twoAccounts) :=
  claim_fair_iff ⟨by decide, by decide, by decide⟩ (by decide) (by decide)

/-- The task of the account that is free cannot be claimed: the message has an active run. -/
theorem second_account_refused : twoAccounts.accountBusy "b" = false ∧
    (candidates nextClaim twoAccounts).map (·.taskId) = ["t2"] ∧ ¬ FairClaim nextClaim twoAccounts := by
  have hrun : ((claimSignalTask nextClaim).alone twoAccounts).isNone = true := by decide +kernel
  refine ⟨by decide, by decide, ?_⟩
  rintro ⟨result, s', hout, -⟩
  rw [hout] at hrun
  cases hrun

end TraderBot.SignalQueue
