import TraderBot.ExperimentLedger.Undisturbed

/-! # The budget of configurations, and the ledger as a whole

A configuration that counts against a budget comes into the log with a reservation, which
looks at the log inside the same lock. A mark can only take it out again. -/
namespace TraderBot.ExperimentLedger.Attempts
open TraderBot.Lib

/-! ## Budgets -/

section
variable {evs : List Event} {e : Event} {scope c : String}

theorem mem_used :
    c ∈ used scope evs ↔
      ∃ id p, (latest evs).get? id = some p ∧ p.row.scope = scope ∧ counts p.row = true ∧ p.row.configId = c := by
  unfold used inScope
  rw [List.mem_dedup, List.mem_map]
  constructor
  · rintro ⟨r, hr, rfl⟩
    obtain ⟨hscoped, hcounts⟩ := List.mem_filter.mp hr
    obtain ⟨hmem, hscope⟩ := List.mem_filter.mp hscoped
    obtain ⟨p, hp, rfl⟩ := List.mem_map.mp hmem
    obtain ⟨id, hid⟩ := OrderedDict.mem_values.mp hp
    exact ⟨id, p, hid, of_decide_eq_true hscope, hcounts, rfl⟩
  · rintro ⟨id, p, hp, hscope, hcounts, rfl⟩
    refine ⟨p.row, List.mem_filter.mpr ⟨List.mem_filter.mpr ⟨?_, decide_eq_true hscope⟩, hcounts⟩, rfl⟩
    exact List.mem_map_of_mem (OrderedDict.mem_values.mpr ⟨id, hp⟩)

theorem used_append (h : c ∈ used scope (evs ++ [e])) :
    c ∈ used scope evs ∨ e.row.scope = scope ∧ counts e.row = true ∧ e.row.configId = c := by
  obtain ⟨id, p, hp, hscope, hcounts, hc⟩ := mem_used.mp h
  rw [latest_append, OrderedDict.get?_set] at hp
  split_ifs at hp with hid
  · cases hp
    exact .inr ⟨hscope, hcounts, hc⟩
  · exact .inl (mem_used.mpr ⟨id, p, hp, hscope, hcounts, hc⟩)

/-- An event that brings a configuration finds room for it. -/
theorem used_append_le {budget : Nat} (h : (used scope evs).length ≤ budget)
    (he : e.row.scope = scope → counts e.row = true →
      e.row.configId ∈ used scope evs ∨ (used scope evs).length < budget) :
    (used scope (evs ++ [e])).length ≤ budget := by
  have hnodup : (used scope (evs ++ [e])).Nodup := List.nodup_dedup _
  by_cases hsub : used scope (evs ++ [e]) ⊆ used scope evs
  · exact (hnodup.subperm hsub).length_le.trans h
  · obtain ⟨c, hc, hnot⟩ : ∃ c ∈ used scope (evs ++ [e]), c ∉ used scope evs := by
      by_contra hall
      push Not at hall
      exact hsub hall
    rcases used_append hc with hmem | ⟨hscope, hcounts, rfl⟩
    · exact absurd hmem hnot
    · have hroom := (he hscope hcounts).resolve_left hnot
      have hcons : used scope (evs ++ [e]) ⊆ e.row.configId :: used scope evs := by
        intro d hd
        rcases used_append hd with hmem | ⟨-, -, rfl⟩
        · exact List.mem_cons_of_mem _ hmem
        · exact List.mem_cons_self
      exact (hnodup.subperm hcons).length_le.trans hroom

end

section
variable {r row : Row} {evs : List Event} {scope : String}

/-- A row that a counted one carries on counts itself. -/
theorem used_of_carries {id : String} (hr : rowOf evs id = some r) (hc : Carries r row)
    (hstatus : r.status.live = true ∨ row.status = r.status) (hscope : row.scope = scope) (hcounts : counts row = true) :
    row.configId ∈ used scope evs := by
  obtain ⟨p, hp, -, rfl, -⟩ := rowOf_some hr
  refine mem_used.mpr ⟨id, p, hp, hc.scope.symm.trans hscope, ?_, hc.configId.symm⟩
  unfold counts at hcounts ⊢
  rw [hc.stage, hc.objective] at hcounts
  rcases hstatus with hlive | hsame
  · have hcounted : p.row.status ≠ .duplicate ∧ p.row.status ≠ .budgetExhausted := by
      constructor <;> intro hs <;> rw [hs] at hlive <;> cases hlive
    simp only [Bool.and_eq_true] at hcounts ⊢
    exact ⟨⟨⟨decide_eq_true hcounted.1, decide_eq_true hcounted.2⟩, hcounts.1.2⟩, hcounts.2⟩
  · rwa [hsame] at hcounts

end

/-- Reservations of a scope are not exempt, and none has a larger budget. -/
def Within (scope : String) (budget : Nat) : Label → Prop
  | .reserve _ l req _ =>
    l.scope = scope → req.budgetExempt = false ∧ (l.budgetConfigs.any fun b => b ≤ (budget : Int)) = true
  | _ => True

section
variable {rt : Runtime} {s : State} {scope : String} {budget : Nat}

theorem within_reserves {l : Ledger} {req : Request} {id now : String} {evs : List Event} {row : Row}
    (hrow : Reserves rt l req id now evs row)
    (hwithin : l.scope = scope → req.budgetExempt = false ∧ (l.budgetConfigs.any fun b => b ≤ (budget : Int)) = true)
    (hscope : row.scope = scope) (hcounts : counts row = true) :
    row.configId ∈ used scope evs ∨ (used scope evs).length < budget := by
  rcases hrow.status with ⟨hs, -⟩ | hs | ⟨-, hex⟩
  · rw [counts, hs] at hcounts
    cases hcounts
  · rw [counts, hs] at hcounts
    cases hcounts
  · have hl : l.scope = scope := hrow.scope.symm.trans hscope
    obtain ⟨hexempt, hany⟩ := hwithin hl
    unfold exhausts at hex
    rw [hrow.configId]
    by_cases hused : rt.configId req ∈ used scope evs
    · exact .inl hused
    · cases hb : l.budgetConfigs with
      | none =>
        rw [hb] at hany
        cases hany
      | some b =>
        rw [hb] at hany hex
        have hle : b ≤ (budget : Int) := of_decide_eq_true hany
        have hlt : ¬ b ≤ ((used scope evs).length : Int) := by
          intro hfull
          simp [hl, hexempt, hused, hfull] at hex
        right
        omega

theorem Good.within_step (h : Good s) {label : Label} (hwithin : Within scope budget label)
    (hs : (used scope s.committed).length ≤ budget) :
    (used scope ((ledger rt).next s label).committed).length ≤ budget := by
  rcases h.moves rt label with ⟨-, hsame⟩ | ⟨e, he, -, hmore⟩
  · rw [hsame]
    exact hs
  rw [hmore]
  refine used_append_le hs fun hscope hcounts => ?_
  unfold appended at he
  cases label with
  | reserve pid l req now =>
    obtain ⟨row, hrow, rfl⟩ := Option.map_eq_some_iff.mp he
    exact within_reserves (reserveRow_cases hrow) hwithin hscope hcounts
  | mark pid m now =>
    obtain ⟨row, hrow, rfl⟩ := Option.map_eq_some_iff.mp he
    obtain ⟨r, hr, hlive, -, -, hc⟩ := markRow_cases hrow
    exact .inl (used_of_carries hr hc (.inl hlive) hscope hcounts)
  | invalidate pid id cause now =>
    obtain ⟨row, hrow, rfl⟩ := Option.map_eq_some_iff.mp he
    obtain ⟨r, hr, hstatus, -, hc⟩ := invalidateRow_cases hrow
    exact .inl (used_of_carries hr hc (.inr hstatus) hscope hcounts)
  | recover pid runId host alive r measured now =>
    obtain ⟨row, hrow, rfl⟩ := Option.map_eq_some_iff.mp he
    obtain ⟨r, hr, hlive, -, -, hc⟩ := markRow_cases hrow
    exact .inl (used_of_carries hr hc (.inl hlive) hscope hcounts)
  | openLedger | project | crash | rebuild | load | compare | lose => cases he

end

/-! ## The ledger -/

/-- The log is read back, what a reader gets are the latest events, no terminal status was
changed and every duplicate had its original. -/
structure Kept (rt : Runtime) (s : State) : Prop where
  accepted : events s.files = some s.committed
  read : ∀ pid rows, (ledger rt).answer s (.compare pid) = .rows rows → rows = (latest s.committed).values
  steady : Steady s.committed
  pointed : Pointed s.committed

section
variable {rt : Runtime} {s : State}

theorem Good.rebuilt_rows (h : Good s) {rows : List Event} (hrows : s.rebuildProjection.1 = .rows rows) :
    rows = (latest s.committed).values := by
  unfold State.rebuildProjection State.rebuilt at hrows
  cases hw : s.writing with
  | some _ =>
    rw [hw] at hrows
    cases hrows
  | none =>
    rw [hw, h.accepted] at hrows
    cases hrows
    rfl

theorem Good.compare_rows (h : Good s) {pid : Nat} {rows : List Event} (hrows : (s.compare pid).1 = .rows rows) :
    rows = (latest s.committed).values := by
  unfold State.compare at hrows
  cases hl : s.loaded pid with
  | none =>
    rw [hl] at hrows
    cases hrows
  | some frame =>
    rw [hl] at hrows
    cases frame with
    | none => exact h.rebuilt_rows hrows
    | some p =>
      dsimp only at hrows
      by_cases hmark : maxSeq s.files = if p.rows = [] then 0 else p.watermark
      · rw [if_neg (not_not_intro hmark)] at hrows
        cases hrows
        exact (h.loaded pid p hl).current h.numbered hmark
      · rw [if_pos hmark] at hrows
        exact h.rebuilt_rows hrows

theorem Good.kept (h : Good s) : Kept rt s := ⟨h.accepted, fun _ _ => h.compare_rows, h.steady, h.pointed⟩

end

theorem meets_of_mem {P : Label → Prop} {rt : Runtime} {s : State} {run : List Label} (h : ∀ label ∈ run, P label) :
    (ledger rt).Meets (fun _ label => P label) s run := by
  refine Machine.meets_iff_forall_start.mpr fun done label hdone => h label (hdone.subset ?_)
  exact List.mem_append_right _ List.mem_cons_self

/-- An undisturbed run keeps the ledger, and each budget that its reservations are within. -/
theorem ledger_kept (rt : Runtime) {run : List Label} (h : (ledger rt).Meets (Undisturbed rt) .start run)
    {done : List Label} (hdone : done <+: run) :
    Kept rt ((ledger rt).after .start done) ∧
      ∀ scope budget, (∀ label ∈ done, Within scope budget label) →
        (used scope ((ledger rt).after .start done).committed).length ≤ budget := by
  obtain ⟨rest, rfl⟩ := hdone
  have hmeets := (Machine.meets_append.mp h).1
  refine ⟨(Machine.invariant_of_meets (fun _ _ hs hu => hs.step hu) start_good hmeets).kept, fun scope budget hwithin => ?_⟩
  have hboth := Machine.meets_and.mpr ⟨hmeets, meets_of_mem hwithin⟩
  have hinv : Good ((ledger rt).after .start done) ∧
      (used scope ((ledger rt).after .start done).committed).length ≤ budget :=
    Machine.invariant_of_meets (I := fun s => Good s ∧ (used scope s.committed).length ≤ budget)
      (fun s label hs hp => ⟨hs.1.step hp.1, hs.1.within_step hp.2 hs.2⟩) ⟨start_good, Nat.zero_le _⟩ hboth
  exact hinv.2

/-- Ids that count up, and digests that are a text of what is digested. -/
def counting : Runtime where
  uuid n := String.ofList (Text.hexPad 32 n)
  configId req := req.params
  resultHash objective value := objective ++ value.getD ""
  uuid_hex n := by
    simp only [isAttemptId, String.length_ofList, Text.hexPad_length, String.toList_ofList, Bool.and_eq_true,
      List.all_eq_true, decide_eq_true_eq, true_and]
    intro c hc
    exact Text.isLowerHex_iff.mpr (Text.mem_hexPad hc)

def oneBudget (pid : String) : Ledger where
  runId := "r1"
  codeVersion := "c1"
  budgetConfigs := some 1
  scope := "default"
  lineage := ⟨none, none, none, none⟩
  ownerPid := pid
  ownerHost := "h"

def request : Request where
  origin := "gp"
  canonicalHash := none
  params := "p1"
  foldId := "wf0"
  visibleCutoff := some "2024"
  objective := "theta"
  dataManifest := "d"
  seed := 1
  stage := "search"
  parentId := none
  modelVersion := none
  rawInputHash := none
  ruleHash := none
  marketManifest := none
  graphVersion := some "g1"
  backendVersion := none
  cost := "{}"
  recomputeOf := none
  budgetExempt := false
  callerHorizonEnd := none

def completes (attemptId : String) : Marking := ⟨attemptId, .completed, none, none, none, none, none, ""⟩

/-- A process crashes before it writes the projection; another one completes the attempt
and reserves the configuration once more, and a third reads. -/
def crashing : List Label :=
  [.reserve 1 (oneBudget "1") request "t1", .crash 1, .openLedger 2, .mark 2 (completes (counting.uuid 0)) "t2",
    .project 2, .reserve 2 (oneBudget "2") request "t3", .load 3, .project 2, .compare 3]

theorem ledger_kept_crashing :
    Kept counting ((ledger counting).after .start crashing) ∧
      ∀ scope budget, (∀ label ∈ crashing, Within scope budget label) →
        (used scope ((ledger counting).after .start crashing).committed).length ≤ budget :=
  ledger_kept counting (by decide +kernel) (List.prefix_refl _)

/-- An attempt completes and is invalidated, since its graph was withdrawn. -/
def withdrawn : List Label :=
  [.reserve 1 (oneBudget "1") request "t1", .project 1, .mark 1 (completes (counting.uuid 0)) "t2", .project 1,
    .invalidate 1 (counting.uuid 0) "g1" "t3", .project 1]

/-- The row of the reservation after it. -/
def duplicated : Row :=
  { base counting (oneBudget "1") request (counting.uuid 1) "t4" with
    status := .duplicate
    duplicateOf := some (counting.uuid 0)
    finishedAt := some "t4"
    reasonCode := some "DUPLICATE_CONFIG" }

/-- The configuration is then a duplicate of the invalidated attempt. -/
theorem duplicate_of_invalidated :
    let s := (ledger counting).after .start withdrawn
    (ledger counting).Meets (Undisturbed counting) .start withdrawn ∧ s.Room ∧
      counting.uuid s.drawn ∉ s.committed.map (·.row.attemptId) ∧
      ¬ Pointed ((ledger counting).next s (.reserve 1 (oneBudget "1") request "t4")).committed := by
  intro s
  have hrun : ((ledger counting).Meets (Undisturbed counting) .start withdrawn ∧ s.Room ∧
      counting.uuid s.drawn ∉ s.committed.map (·.row.attemptId)) ∧
      ((ledger counting).next s (.reserve 1 (oneBudget "1") request "t4")).committed =
        s.committed ++ [⟨4, "t4", false, duplicated⟩] ∧
      ∀ o ∈ (latest s.committed).values, o.row.invalidatedBy = some "g1" := by decide +kernel
  obtain ⟨hbefore, hcommitted, hinvalidated⟩ := hrun
  refine ⟨hbefore.1, hbefore.2.1, hbefore.2.2, fun hpointed => ?_⟩
  obtain ⟨o, ho, -, -, -, -, -, -, hvalid⟩ := hpointed s.committed _ [] hcommitted rfl rfl
  rw [hinvalidated o ho] at hvalid
  cases hvalid

end TraderBot.ExperimentLedger.Attempts
