import TraderBot.ExperimentLedger.Kept

/-! # Runs of the experiment ledger

Each operation appends one event or none; what it appends is a row of its own attempt,
decided on the log before it. From this the log, the projection and the budget are kept in
every run, except where an operation writes one of the rows that the log cannot take. -/
namespace TraderBot.ExperimentLedger.Attempts
open TraderBot.Lib

section
variable (rt : Runtime) (s : State)

/-- The event that an operation appends when nobody else holds the lock. -/
def appended (label : Label) : Option Event :=
  let seq := maxSeq s.files + 1
  match label with
  | .reserve _ l req now =>
    (reserveRow rt l req (rt.uuid s.drawn) now s.committed).map fun row => ⟨seq, now, false, row⟩
  | .mark _ m now => (markRow rt m now s.committed).map fun row => ⟨seq, now, false, row⟩
  | .invalidate _ attemptId cause now =>
    (invalidateRow s.committed attemptId cause).map fun row => ⟨seq, now, true, row⟩
  | .recover _ runId _ _ row measured now =>
    (markRow rt (recovery runId row measured) now s.committed).map fun row => ⟨seq, now, false, row⟩
  | _ => none

/-- No operation writes a row that the log cannot take, and `uuid4` draws an id that no
attempt has. -/
def Undisturbed : Label → Prop
  | .reserve _ l req now =>
    s.Room ∧ rt.uuid s.drawn ∉ s.committed.map (·.row.attemptId) ∧
      (req.recomputeOf = none →
        ∀ dup ∈ (inScope l.scope s.committed).find? (repeats (base rt l req (rt.uuid s.drawn) now)),
          dup.invalidatedBy = none)
  | .mark _ m _ =>
    s.Room ∧ (m.status = .duplicate → ∀ row ∈ rowOf s.committed m.attemptId, row.status.live = false)
  | .invalidate _ attemptId cause _ => s.Room ∧ (cause = "" → rowOf s.committed attemptId = none)
  | .recover _ _ _ _ _ _ _ => s.Room
  | _ => True

instance : (label : Label) → Decidable (Undisturbed rt s label)
  | .openLedger _ | .project _ | .crash _ | .rebuild _ | .load _ | .compare _ | .lose => isTrue trivial
  | .reserve _ l req now =>
    inferInstanceAs (Decidable (s.Room ∧ rt.uuid s.drawn ∉ s.committed.map (·.row.attemptId) ∧
      (req.recomputeOf = none →
        ∀ dup ∈ (inScope l.scope s.committed).find? (repeats (base rt l req (rt.uuid s.drawn) now)),
          dup.invalidatedBy = none)))
  | .mark _ _ _ => inferInstanceAs (Decidable (_ ∧ (_ → _)))
  | .invalidate _ _ _ _ => inferInstanceAs (Decidable (_ ∧ (_ → _)))
  | .recover _ _ _ _ _ _ _ => inferInstanceAs (Decidable s.Room)

end

/-! ## The rows that are written -/

/-- A row that keeps its attempt, its owner and what the budget counts. -/
structure Carries (r row : Row) : Prop where
  attemptId : row.attemptId = r.attemptId
  owner : sameOwner r row = true
  scope : row.scope = r.scope
  stage : row.stage = r.stage
  objective : row.objective = r.objective

theorem Carries.configId {r row : Row} (h : Carries r row) : row.configId = r.configId := by
  have howner := h.owner
  unfold sameOwner at howner
  simp only [Bool.and_eq_true, decide_eq_true_eq] at howner
  exact howner.2

theorem carries_of_fields {r row : Row} (hid : row.attemptId = r.attemptId) (hrun : row.runId = r.runId)
    (hpid : row.ownerPid = r.ownerPid) (hhost : row.ownerHost = r.ownerHost) (hconfig : row.configId = r.configId)
    (hscope : row.scope = r.scope) (hstage : row.stage = r.stage) (hobjective : row.objective = r.objective) :
    Carries r row :=
  ⟨hid, by simp [sameOwner, hrun, hpid, hhost, hconfig], hscope, hstage, hobjective⟩

section
variable {rt : Runtime} {l : Ledger} {req : Request} {attemptId now : String} {evs : List Event} {row : Row}

theorem markRow_cases {m : Marking} (h : markRow rt m now evs = some row) :
    ∃ r, rowOf evs m.attemptId = some r ∧ r.status.live = true ∧ m.status ≠ .reserved ∧ row.status = m.status ∧
      Carries r row := by
  unfold markRow at h
  cases hr : rowOf evs m.attemptId with
  | none =>
    rw [hr] at h
    cases h
  | some r =>
    rw [hr] at h
    dsimp only at h
    by_cases hbad : (!r.status.live || decide (m.status = .reserved)) = true
    · rw [if_pos hbad] at h
      cases h
    · rw [if_neg hbad] at h
      cases h
      rw [Bool.or_eq_true, not_or, Bool.not_eq_true', Bool.not_eq_false, decide_eq_true_eq] at hbad
      exact ⟨r, rfl, hbad.1, hbad.2, rfl, carries_of_fields rfl rfl rfl rfl rfl rfl rfl rfl⟩

theorem invalidateRow_cases {cause : String} (h : invalidateRow evs attemptId cause = some row) :
    ∃ r, rowOf evs attemptId = some r ∧ row.status = r.status ∧ row.invalidatedBy = some cause ∧ Carries r row := by
  unfold invalidateRow at h
  obtain ⟨r, hr, rfl⟩ := Option.map_eq_some_iff.mp h
  exact ⟨r, hr, rfl, rfl, carries_of_fields rfl rfl rfl rfl rfl rfl rfl rfl⟩

/-- What a reservation writes: a duplicate of the row it repeats, or the configuration it
is for, as far as the budget has it. -/
structure Reserves (rt : Runtime) (l : Ledger) (req : Request) (attemptId now : String) (evs : List Event)
    (row : Row) : Prop where
  id : row.attemptId = attemptId
  scope : row.scope = l.scope
  configId : row.configId = rt.configId req
  status : (row.status = .duplicate ∧ req.recomputeOf = none ∧ ∃ dup,
      (inScope l.scope evs).find? (repeats (base rt l req attemptId now)) = some dup ∧
        row.duplicateOf = some dup.attemptId ∧ row.foldId = req.foldId ∧ row.stage = req.stage ∧
        row.visibleCutoff = req.visibleCutoff) ∨
    row.status = .budgetExhausted ∨ row.status = .reserved ∧ exhausts rt l req evs = false

variable {recomputeOf : Option String}

theorem recomputed_same {b b' : Row} (h : recomputed evs b recomputeOf = some b') :
    b'.attemptId = b.attemptId ∧ b'.scope = b.scope ∧ b'.configId = b.configId ∧ b'.status = b.status := by
  unfold recomputed at h
  cases recomputeOf with
  | none =>
    cases h
    exact ⟨rfl, rfl, rfl, rfl⟩
  | some recomputeOf =>
    dsimp only at h
    cases ho : originalOf evs recomputeOf with
    | none =>
      rw [ho] at h
      cases h
    | some o =>
      rw [ho] at h
      dsimp only at h
      split_ifs at h
      cases h
      exact ⟨rfl, rfl, rfl, rfl⟩

theorem reserves_of_recomputed
    (h : ((recomputed evs (base rt l req attemptId now) recomputeOf).map fun b =>
      if exhausts rt l req evs then
        { b with status := .budgetExhausted, finishedAt := some now, reasonCode := some "BUDGET_CONFIGS" }
      else b) = some row) : Reserves rt l req attemptId now evs row := by
  obtain ⟨b, hb, hrow⟩ := Option.map_eq_some_iff.mp h
  obtain ⟨hid, hscope, hconfig, hstatus⟩ := recomputed_same hb
  subst hrow
  by_cases hex : exhausts rt l req evs = true
  · rw [if_pos hex]
    exact ⟨hid, hscope, hconfig, .inr (.inl rfl)⟩
  · rw [if_neg hex]
    exact ⟨hid, hscope, hconfig, .inr (.inr ⟨hstatus, Bool.eq_false_iff.mpr hex⟩)⟩

theorem reserveRow_cases (h : reserveRow rt l req attemptId now evs = some row) :
    Reserves rt l req attemptId now evs row := by
  unfold reserveRow repeated at h
  dsimp only at h
  cases hdup : (inScope l.scope evs).find? (repeats (base rt l req attemptId now)) with
  | none =>
    rw [hdup] at h
    exact reserves_of_recomputed h
  | some dup =>
    rw [hdup] at h
    cases hre : req.recomputeOf with
    | none =>
      rw [hre] at h
      cases h
      exact ⟨rfl, rfl, rfl, .inl ⟨rfl, hre, dup, hdup, rfl, rfl, rfl, rfl⟩⟩
    | some recomputeOf =>
      rw [hre] at h
      exact reserves_of_recomputed h

end

/-! ## What is appended -/

section
variable {rt : Runtime} {s : State} {seq : Nat} {now : String} {r row : Row}

variable {id : String}

theorem Good.row_id (h : Good s) (hr : rowOf s.committed id = some r) :
    r.attemptId = id ∧ isAttemptId r.attemptId = true := by
  obtain ⟨p, -, hmem, rfl, hid⟩ := rowOf_some hr
  exact ⟨hid, h.ids p hmem⟩

theorem Good.row_prior (h : Good s) (hr : rowOf s.committed id = some r) (hc : Carries r row) :
    ∃ p, (latest s.committed).get? row.attemptId = some p ∧ p.row = r := by
  obtain ⟨p, hp, -, hrow, hid⟩ := rowOf_some hr
  rw [hc.attemptId, hid]
  exact ⟨p, hp, hrow⟩

theorem Good.row_steady (h : Good s) (hr : rowOf s.committed id = some r) :
    ∀ f ∈ s.committed, f.row.attemptId = id → f.row.status.live = false → r.status = f.row.status := by
  obtain ⟨p, hp, -, rfl, -⟩ := rowOf_some hr
  exact h.steady.latest hp

/-- The next row of a live attempt may be appended, other than as a duplicate. -/
theorem Good.appends_next (h : Good s) (hr : rowOf s.committed id = some r)
    (hlive : r.status.live = true) (hc : Carries r row) (hreserved : row.status ≠ .reserved)
    (hdup : row.status ≠ .duplicate) : Appends s ⟨seq, now, false, row⟩ := by
  have hid := h.row_id hr
  constructor
  · rw [hc.attemptId]
    exact hid.2
  · obtain ⟨p, hp, rfl⟩ := h.row_prior hr hc
    dsimp only
    rw [hp]
    simp [valid, hlive, hreserved, hc.owner]
  · intro f hf hfid hterminal
    have hsame := h.row_steady hr f hf (hfid.trans (hc.attemptId.trans hid.1)) hterminal
    rw [← hsame, hlive] at hterminal
    cases hterminal
  · exact fun hd => absurd hd hdup

/-- An attempt may be invalidated with a cause. -/
theorem Good.appends_invalidated (h : Good s) {cause : String} (hr : rowOf s.committed id = some r)
    (hc : Carries r row) (hstatus : row.status = r.status) (hby : row.invalidatedBy = some cause)
    (hcause : cause ≠ "") : Appends s ⟨seq, now, true, row⟩ := by
  have hid := h.row_id hr
  constructor
  · rw [hc.attemptId]
    exact hid.2
  · obtain ⟨p, hp, rfl⟩ := h.row_prior hr hc
    dsimp only
    rw [hp]
    simp [valid, hstatus, hby, hcause, hc.owner]
  · intro f hf hfid hterminal
    rw [hstatus]
    exact h.row_steady hr f hf (hfid.trans (hc.attemptId.trans hid.1)) hterminal
  · exact fun _ hfresh => nomatch hfresh

theorem latest_none {evs : List Event} (h : id ∉ evs.map (·.row.attemptId)) :
    (latest evs).get? id = none := by
  rw [Option.eq_none_iff_forall_ne_some]
  intro p hp
  obtain ⟨hmem, hid⟩ := latest_mem hp
  exact h (List.mem_map.mpr ⟨p, hmem, hid⟩)

theorem Good.appends_reserved (h : Good s) {l : Ledger} {req : Request}
    (hid : isAttemptId id = true) (hnew : id ∉ s.committed.map (·.row.attemptId))
    (hsound : req.recomputeOf = none →
      ∀ dup ∈ (inScope l.scope s.committed).find? (repeats (base rt l req id now)), dup.invalidatedBy = none)
    (hrow : Reserves rt l req id now s.committed row) : Appends s ⟨seq, now, false, row⟩ := by
  constructor
  · show isAttemptId row.attemptId = true
    rw [hrow.id]
    exact hid
  · dsimp only
    rw [hrow.id, latest_none hnew]
    unfold valid
    rcases hrow.status with ⟨hs, -⟩ | hs | ⟨hs, -⟩ <;> simp [hs]
  · intro f hf hfid
    exact absurd (List.mem_map.mpr ⟨f, hf, hfid.trans hrow.id⟩) hnew
  · intro hdup _
    dsimp only at hdup ⊢
    rcases hrow.status with ⟨-, hre, dup, hfind, hof, hfold, hstage, hcutoff⟩ | hs | ⟨hs, -⟩
    · obtain ⟨o, ho, rfl⟩ := List.mem_map.mp (List.mem_filter.mp (List.mem_of_find?_eq_some hfind)).1
      have hrep := List.find?_some hfind
      unfold repeats at hrep
      simp only [Bool.and_eq_true, decide_eq_true_eq] at hrep
      obtain ⟨⟨⟨⟨⟨⟨hconfig, hofold⟩, hostage⟩, -, hocutoff⟩, hcompleted⟩, -⟩, -⟩ := hrep
      exact ⟨o, ho, hof, hconfig.trans hrow.configId.symm, hofold.trans hfold.symm, hostage.trans hstage.symm,
        hocutoff.trans hcutoff.symm, hcompleted, hsound hre _ hfind⟩
    · rw [hs] at hdup
      cases hdup
    · rw [hs] at hdup
      cases hdup

/-- An undisturbed operation appends what the log may take. -/
theorem Good.appends (h : Good s) {label : Label} (hu : Undisturbed rt s label) {e : Event}
    (he : appended rt s label = some e) : s.Room ∧ Appends s e := by
  unfold appended at he
  cases label with
  | reserve pid l req now =>
    obtain ⟨row, hrow, rfl⟩ := Option.map_eq_some_iff.mp he
    obtain ⟨hroom, hnew, hsound⟩ := hu
    exact ⟨hroom, h.appends_reserved (rt.uuid_hex _) hnew hsound (reserveRow_cases hrow)⟩
  | mark pid m now =>
    obtain ⟨row, hrow, rfl⟩ := Option.map_eq_some_iff.mp he
    obtain ⟨hroom, hdup⟩ := hu
    obtain ⟨r, hr, hlive, hreserved, hstatus, hc⟩ := markRow_cases hrow
    refine ⟨hroom, h.appends_next hr hlive hc (hstatus ▸ hreserved) fun hd => ?_⟩
    have hterminal := hdup (hstatus.symm.trans hd) r hr
    rw [hlive] at hterminal
    cases hterminal
  | invalidate pid id cause now =>
    obtain ⟨row, hrow, rfl⟩ := Option.map_eq_some_iff.mp he
    obtain ⟨hroom, hcause⟩ := hu
    obtain ⟨r, hr, hstatus, hby, hc⟩ := invalidateRow_cases hrow
    refine ⟨hroom, h.appends_invalidated hr hc hstatus hby fun hempty => ?_⟩
    rw [hcause hempty] at hr
    cases hr
  | recover pid runId host alive r measured now =>
    obtain ⟨row, hrow, rfl⟩ := Option.map_eq_some_iff.mp he
    obtain ⟨r, hr, hlive, -, hstatus, hc⟩ := markRow_cases hrow
    have hinterrupted : row.status = .interrupted := hstatus
    refine ⟨hu, h.appends_next hr hlive hc ?_ ?_⟩
    · rw [hinterrupted]
      exact fun heq => nomatch heq
    · rw [hinterrupted]
      exact fun heq => nomatch heq
  | openLedger | project | crash | rebuild | load | compare | lose => cases he

end

/-! ## Runs -/

section
variable {rt : Runtime} {s : State}

/-- An operation ends in a state with the same log, or appends its event. -/
inductive Moves (rt : Runtime) (s : State) (label : Label) (t : State) : Prop where
  | same (good : Good t) (committed : t.committed = s.committed)
  | appends (e : Event) (event : appended rt s label = some e) (good : s.Room → Appends s e → Good t)
      (committed : t.committed = s.committed ++ [e])

variable {label : Label}

/-- A critical section that was entered with the log of `s`. -/
theorem Good.write_moves {t : State} (h : Good t) (hfiles : t.files = s.files) {pid : Nat}
    {invalidated : Bool} {now : String} {rows : List Event → Option Row}
    (happended : appended rt s label = (rows s.committed).map fun row => ⟨maxSeq s.files + 1, now, invalidated, row⟩) :
    Moves rt s label (t.write pid invalidated now rows).2 := by
  have hcommitted : t.committed = s.committed := congrArg (List.map _) hfiles
  rcases write_cases h rows with hsame | ⟨row, hrow, hcommit⟩
  · rw [hsame]
    exact .same h hcommitted
  · rw [hcommit]
    rw [← hcommitted, hrow] at happended
    rw [← hfiles] at happended
    refine .appends _ happended (fun hroom he => h.commit ?_ ?_) ?_
    · rw [State.Room, hfiles]
      exact hroom
    · exact ⟨he.id, hcommitted ▸ he.valid, hcommitted ▸ he.steady, hcommitted ▸ he.pointed⟩
    · rw [h.committed_commit, hcommitted]

theorem rebuilt_files (s : State) : s.rebuilt.2.files = s.files := by
  unfold State.rebuilt
  cases events s.files <;> rfl

theorem rebuildProjection_files (s : State) : s.rebuildProjection.2.files = s.files := by
  unfold State.rebuildProjection
  cases s.writing with
  | some _ => rfl
  | none => exact rebuilt_files s

theorem Good.rebuildProjection_moves (h : Good s) (label : Label) : Moves rt s label s.rebuildProjection.2 :=
  .same h.rebuildProjection (congrArg (List.map _) (rebuildProjection_files s))

/-- What one operation of a process does. -/
theorem Good.moves (rt : Runtime) (h : Good s) (label : Label) : Moves rt s label ((ledger rt).next s label) := by
  cases label with
  | openLedger pid =>
    refine .same { h with next := fun q => ?_ } rfl
    show Function.update s.seq pid (maxSeq s.files + 1) q ≤ maxSeq s.files + 1
    by_cases hq : q = pid
    · rw [hq, Function.update_self]
    · rw [Function.update_of_ne hq]
      exact h.next q
  | reserve pid l req now =>
    show Moves rt s _ (s.reserve rt pid l req now).2
    unfold State.reserve
    split_ifs with hbad
    · exact .same h rfl
    · cases s.writing with
      | some _ => exact .same h rfl
      | none =>
        have hnext : Good { s.rebuilt.2 with drawn := s.drawn + 1 } := { h.rebuilt with }
        show Moves rt s _ (State.write { s.rebuilt.2 with drawn := s.drawn + 1 } pid false now
          (reserveRow rt l req (rt.uuid s.drawn) now)).2
        exact hnext.write_moves (rebuilt_files s) rfl
  | mark pid m now => exact h.write_moves rfl rfl
  | invalidate pid id cause now => exact h.write_moves rfl rfl
  | recover pid runId host alive row measured now =>
    show Moves rt s _ (if recoverable runId host alive row then
      s.write pid false now (markRow rt (recovery runId row measured) now) else (.done, s)).2
    split_ifs
    · exact h.write_moves rfl rfl
    · exact .same h rfl
  | project pid =>
    show Moves rt s _ (if s.writing = some pid then (Answer.done, { s.rebuilt.2 with writing := none }) else (.done, s)).2
    split_ifs
    · exact .same { h.rebuilt with } (congrArg (List.map _) (rebuilt_files s))
    · exact .same h rfl
  | crash pid =>
    refine .same { h with loaded := fun q p hp => ?_ } rfl
    replace hp : Function.update s.loaded pid none q = some (some p) := hp
    by_cases hq : q = pid
    · rw [hq, Function.update_self] at hp
      cases hp
    · rw [Function.update_of_ne hq] at hp
      exact h.loaded q p hp
  | rebuild pid => exact h.rebuildProjection_moves _
  | load pid =>
    have hnext : (ledger rt).next s (.load pid) =
        { s with loaded := Function.update s.loaded pid (some s.projection) } := by
      simp only [ledger, Machine.next, h.accepted]
    rw [hnext]
    refine .same { h with loaded := fun q p hp => ?_ } rfl
    replace hp : Function.update s.loaded pid (some s.projection) q = some (some p) := hp
    by_cases hq : q = pid
    · rw [hq, Function.update_self] at hp
      exact h.projection p (Option.some.inj hp)
    · rw [Function.update_of_ne hq] at hp
      exact h.loaded q p hp
  | compare pid =>
    show Moves rt s _ (s.compare pid).2
    unfold State.compare
    cases s.loaded pid with
    | none => exact .same h rfl
    | some frame =>
      cases frame with
      | none => exact h.rebuildProjection_moves _
      | some p =>
        dsimp only
        split_ifs
        · exact h.rebuildProjection_moves _
        · exact .same h rfl
        · exact h.rebuildProjection_moves _
        · exact .same h rfl
  | lose => exact .same { h with projection := fun p hp => by cases hp } rfl

theorem Good.step (h : Good s) (hu : Undisturbed rt s label) : Good ((ledger rt).next s label) := by
  rcases h.moves rt label with ⟨good, -⟩ | ⟨e, he, good, -⟩
  · exact good
  · obtain ⟨hroom, hae⟩ := h.appends hu he
    exact good hroom hae

theorem start_good : Good .start where
  accepted := rfl
  numbered := by constructor <;> simp [State.start]
  next _ := Nat.le_refl _
  ids _ he := absurd he List.not_mem_nil
  steady := List.Pairwise.nil
  pointed before e after heq := absurd heq.symm (by simp [State.committed, State.start])
  projection _ hp := nomatch hp
  loaded _ _ hp := nomatch hp

end
end TraderBot.ExperimentLedger.Attempts
