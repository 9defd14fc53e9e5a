import TraderBot.ExperimentLedger.History

/-! # What the experiment ledger keeps

Every event is appended with the next number after the row of its attempt was read from
the log itself, so an operation keeps the log accepted, terminal and pointed as long as
the row it writes is one the log may take. The rows that are not are known: a duplicate
of an invalidated attempt, a duplicate that an attempt is marked as, and an invalidation
without a cause. -/
namespace TraderBot.ExperimentLedger.Attempts
open TraderBot.Lib

/-! ## The properties of a log -/

/-- The committed events. -/
def State.committed (s : State) : List Event := s.files.map (·.event)

/-- A terminal status is never changed. -/
def Steady (evs : List Event) : Prop :=
  evs.Pairwise fun e f =>
    e.row.attemptId = f.row.attemptId → e.row.status.live = false → f.row.status = e.row.status

/-- A row names an attempt as the one it duplicates that is the same computation, completed
and not invalidated. -/
def Original (evs : List Event) (r : Row) : Prop :=
  ∃ o ∈ (latest evs).values,
    r.duplicateOf = some o.row.attemptId ∧ o.row.configId = r.configId ∧ o.row.foldId = r.foldId ∧
      o.row.stage = r.stage ∧ o.row.visibleCutoff = r.visibleCutoff ∧ o.row.status = .completed ∧
      o.row.invalidatedBy = none

/-- Each attempt that was recorded as a duplicate had an original at that moment. -/
def Pointed (evs : List Event) : Prop :=
  ∀ before e after, evs = before ++ e :: after → e.row.status = .duplicate → e.invalidated = false →
    Original before e.row

section
variable {evs : List Event} {e p : Event}

theorem steady_append :
    Steady (evs ++ [e]) ↔
      Steady evs ∧
        ∀ f ∈ evs, f.row.attemptId = e.row.attemptId → f.row.status.live = false → e.row.status = f.row.status := by
  unfold Steady
  rw [List.pairwise_append]
  simp [List.pairwise_singleton]

theorem Steady.latest (h : Steady evs) {id : String} (hp : (latest evs).get? id = some p) :
    ∀ f ∈ evs, f.row.attemptId = id → f.row.status.live = false → p.row.status = f.row.status := by
  induction evs using List.reverseRecOn with
  | nil => exact fun f hf => nomatch hf
  | append_singleton evs e ih =>
    obtain ⟨hbefore, hlast⟩ := steady_append.mp h
    rw [latest_append, OrderedDict.get?_set] at hp
    intro f hf hid hlive
    rcases List.mem_append.mp hf with hold | hnew
    · split_ifs at hp with heq
      · cases hp
        exact hlast f hold (hid.trans heq) hlive
      · exact ih hbefore hp f hold hid hlive
    · have hfe : f = e := List.mem_singleton.mp hnew
      subst hfe
      rw [if_pos hid.symm] at hp
      cases hp
      rfl

theorem pointed_append (h : Pointed evs)
    (hlast : e.row.status = .duplicate → e.invalidated = false → Original evs e.row) : Pointed (evs ++ [e]) := by
  intro before f after heq hdup hfresh
  rcases List.eq_nil_or_concat after with rfl | ⟨after', g, rfl⟩
  · obtain ⟨rfl, hef⟩ := List.append_inj' heq rfl
    cases hef
    exact hlast hdup hfresh
  · rw [List.concat_eq_append, ← List.cons_append, ← List.append_assoc] at heq
    obtain ⟨hevs, -⟩ := List.append_inj' heq rfl
    exact h before f after' hevs hdup hfresh

end

/-! ## Projections -/

/-- A frame shows what was committed up to some moment. -/
def Shows (s : State) (p : Projection) : Prop := ∃ evs, evs <+: s.committed ∧ p = projectionOf evs

theorem Shows.mono {s t : State} {p : Projection} (h : s.committed <+: t.committed) (hp : Shows s p) : Shows t p := by
  obtain ⟨evs, hevs, rfl⟩ := hp
  exact ⟨evs, hevs.trans h, rfl⟩

/-- A frame whose watermark is the last number shows the whole log. -/
theorem Shows.current {s : State} {p : Projection} (hs : Numbered s.files) (hp : Shows s p)
    (hmark : maxSeq s.files = if p.rows = [] then 0 else p.watermark) : p.rows = (latest s.committed).values := by
  obtain ⟨evs, ⟨rest, hrest⟩, rfl⟩ := hp
  cases rest with
  | nil =>
    rw [← hrest, List.append_nil]
    rfl
  | cons e rest =>
    exfalso
    have hsorted : (evs ++ e :: rest).Pairwise fun f g => f.seq < g.seq := by
      rw [hrest]
      exact List.pairwise_map.mpr hs.increasing
    have hmem : e ∈ s.committed := hrest ▸ List.mem_append_right _ List.mem_cons_self
    obtain ⟨f, hf, rfl⟩ := List.mem_map.mp hmem
    have hpos := hs.positive f hf
    have hle := le_maxSeq hf
    have hbefore : (projectionOf evs).watermark ≤ f.event.seq - 1 := by
      refine foldl_max_le.mpr ⟨Nat.zero_le _, fun x hx => ?_⟩
      obtain ⟨g, hg, rfl⟩ := List.mem_map.mp hx
      have := (List.pairwise_append.mp hsorted).2.2 g hg f.event List.mem_cons_self
      omega
    split_ifs at hmark <;> omega

/-! ## The invariant -/

structure Good (s : State) : Prop where
  accepted : events s.files = some s.committed
  numbered : Numbered s.files
  next : ∀ pid, s.seq pid ≤ maxSeq s.files + 1
  ids : ∀ e ∈ s.committed, isAttemptId e.row.attemptId = true
  steady : Steady s.committed
  pointed : Pointed s.committed
  projection : ∀ p, s.projection = some p → Shows s p
  loaded : ∀ pid p, s.loaded pid = some (some p) → Shows s p

/-- An event may be appended. -/
structure Appends (s : State) (e : Event) : Prop where
  id : isAttemptId e.row.attemptId = true
  valid : valid ((latest s.committed).get? e.row.attemptId) e = true
  steady : ∀ f ∈ s.committed, f.row.attemptId = e.row.attemptId → f.row.status.live = false → e.row.status = f.row.status
  pointed : e.row.status = .duplicate → e.invalidated = false → Original s.committed e.row

/-- The log has room for another number of twelve digits. -/
def State.Room (s : State) : Prop := maxSeq s.files + 1 < 10 ^ 12

instance (s : State) : Decidable s.Room := inferInstanceAs (Decidable (_ < _))

section
variable {s : State} {pid : Nat} {invalidated : Bool} {now : String} {row : Row}

theorem Good.committed_commit (h : Good s) :
    (s.commit pid invalidated now row).committed = s.committed ++ [⟨maxSeq s.files + 1, now, invalidated, row⟩] := by
  unfold State.committed State.commit
  dsimp only
  rw [List.map_append, max_eq_right (h.next pid)]
  rfl

theorem foldl_max_append (xs : List Nat) (a x : Nat) : (xs ++ [x]).foldl max a = max (xs.foldl max a) x := by
  rw [List.foldl_append]
  rfl

theorem Good.commit (h : Good s) (hroom : s.Room)
    (he : Appends s ⟨maxSeq s.files + 1, now, invalidated, row⟩) : Good (s.commit pid invalidated now row) := by
  have hcommitted : (s.commit pid invalidated now row).committed =
      s.committed ++ [⟨maxSeq s.files + 1, now, invalidated, row⟩] := h.committed_commit
  have hgrows : s.committed <+: (s.commit pid invalidated now row).committed := hcommitted ▸ List.prefix_append _ _
  have hfiles : (s.commit pid invalidated now row).files =
      s.files ++ [⟨fileName ⟨maxSeq s.files + 1, now, invalidated, row⟩, ⟨maxSeq s.files + 1, now, invalidated, row⟩⟩] := by
    unfold State.commit
    dsimp only
    rw [max_eq_right (h.next pid)]
  have hnumbered : Numbered (s.commit pid invalidated now row).files := by
    rw [hfiles]
    exact h.numbered.append rfl hroom rfl
  constructor
  case accepted =>
    have hbefore := h.accepted
    unfold events at hbefore ⊢
    rw [hnumbered.listing, hfiles, hcommitted]
    rw [h.numbered.listing] at hbefore
    refine checkFrom_append hbefore (Nat.succ_ne_zero _) rfl ⟨List.not_mem_nil, fun hmem => ?_⟩ ?_ he.valid
    · obtain ⟨f, hf, hseq⟩ := List.mem_map.mp hmem
      have hle := le_maxSeq hf
      rw [hseq] at hle
      exact absurd hle (Nat.not_succ_le_self _)
    · exact he.id
  case numbered => exact hnumbered
  case next =>
    intro q
    have hmax : maxSeq (s.commit pid invalidated now row).files = maxSeq s.files + 1 := by
      unfold maxSeq
      rw [hfiles, List.map_append, List.map_singleton, foldl_max_append]
      exact max_eq_right (Nat.le_succ _)
    rw [hmax]
    show Function.update s.seq pid (max (s.seq pid) (maxSeq s.files + 1) + 1) q ≤ _
    rw [max_eq_right (h.next pid)]
    by_cases hq : q = pid
    · rw [hq, Function.update_self]
    · rw [Function.update_of_ne hq]
      exact (h.next q).trans (Nat.le_succ _)
  case ids =>
    intro e hmem
    rw [hcommitted] at hmem
    rcases List.mem_append.mp hmem with hmem | hmem
    · exact h.ids e hmem
    · rw [List.mem_singleton.mp hmem]
      exact he.id
  case steady =>
    rw [hcommitted]
    exact steady_append.mpr ⟨h.steady, he.steady⟩
  case pointed =>
    rw [hcommitted]
    exact pointed_append h.pointed he.pointed
  case projection => exact fun p hp => (h.projection p hp).mono hgrows
  case loaded => exact fun q p hp => (h.loaded q p hp).mono hgrows

/-- A critical section appends the row it decides on, or leaves everything. -/
theorem write_cases (h : Good s) (rows : List Event → Option Row) :
    (s.write pid invalidated now rows).2 = s ∨
      ∃ row, rows s.committed = some row ∧ (s.write pid invalidated now rows).2 = s.commit pid invalidated now row := by
  unfold State.write
  cases s.writing with
  | some _ => exact .inl rfl
  | none =>
    rw [h.accepted, Option.bind_some]
    cases hr : rows s.committed with
    | none => exact .inl rfl
    | some row => exact .inr ⟨row, rfl, rfl⟩

theorem Good.rebuilt (h : Good s) : Good s.rebuilt.2 := by
  unfold State.rebuilt
  rw [h.accepted]
  refine { h with projection := fun p hp => ?_, loaded := fun q p hp => h.loaded q p hp }
  cases hp
  exact ⟨s.committed, List.prefix_refl _, rfl⟩

theorem Good.rebuildProjection (h : Good s) : Good s.rebuildProjection.2 := by
  unfold State.rebuildProjection
  cases s.writing with
  | some _ => exact h
  | none => exact h.rebuilt

end
end TraderBot.ExperimentLedger.Attempts
