import TraderBot.Commands.Model

/-! # The status of a command

A roll-up reads the acknowledgements before it locks the command's row, so the
status it writes may be of rows that others have changed by the time it commits.
The stored status of every command is that of its rows throughout a run if and
only if each transaction commits what the rows still roll up to
(`current_throughout_iff`). -/
namespace TraderBot.Commands
open TraderBot.Lib

/-- The stored status of every command is the one `_recompute` derives. -/
def Current (t : Tables) : Prop :=
  ∀ row ∈ t.commands.rows, row.status = recompute (t.statuses row.commandId)

instance (t : Tables) : Decidable (Current t) := inferInstanceAs (Decidable (∀ row ∈ t.commands.rows, _))

def Tables.commandIds (t : Tables) : List String := t.commands.rows.map CommandRow.commandId

/-! ## What an update changes -/

section
variable {t : Tables} {commandId : String}

/-- An update of other commands' rows leaves the statuses. -/
theorem statuses_updateAcks {p : AckRow → Bool} {f : AckRow → AckRow} {hf : ∀ r, (f r).key = r.key}
    (h : ∀ row, p row = true → row.key.commandId ≠ commandId) :
    (t.updateAcks p f hf).statuses commandId = t.statuses commandId := by
  show ((t.acks.rows.map fun r => if p r then f r else r).filter _).map _ = (t.acks.rows.filter _).map _
  induction t.acks.rows with
  | nil => rfl
  | cons row rows ih =>
    rw [List.map_cons]
    by_cases hp : p row = true
    · have hne := h row hp
      simpa [hp, hf, hne] using ih
    · by_cases hid : row.key.commandId = commandId
      · simpa [hp, hid] using ih
      · simpa [hp, hid] using ih

variable {status : CommandStatus}

@[simp] theorem setStatus_commandIds {now : Nat} :
    (t.setStatus commandId status now).commandIds = t.commandIds := by
  show (t.commands.rows.map fun r => if decide (r.commandId = commandId) then r.rolledUp status now
    else r).map CommandRow.commandId = _
  rw [List.map_map]
  refine List.map_congr_left fun r _ => ?_
  by_cases h : r.commandId = commandId <;> simp [h, CommandRow.rolledUp]

theorem mem_setStatus {now : Nat} {row : CommandRow} :
    row ∈ (t.setStatus commandId status now).commands.rows ↔ ∃ r ∈ t.commands.rows,
      row = if r.commandId = commandId then r.rolledUp status now else r := by
  show row ∈ t.commands.rows.map _ ↔ _
  simp [eq_comm]

end

/-! ## What a transaction has written -/

/-- The writes of a transaction with commands left to roll up and some rolled up:
no other command, and for each rolled up the status of what was read. -/
structure Writes (known : List String) (w : Tables → Tables) (todo : List String)
    (rolled : List (String × List AckStatus)) : Prop where
  commandIds : ∀ t, (w t).commandIds = t.commandIds
  nodup : (rolled.map Prod.fst ++ todo).Nodup
  known : ∀ c ∈ rolled.map Prod.fst ++ todo, c ∈ known
  statuses : ∀ c, c ∉ rolled.map Prod.fst ++ todo → ∀ t, (w t).statuses c = t.statuses c
  rows : ∀ c, c ∉ rolled.map Prod.fst → ∀ t, ∀ row, row.commandId = c →
    (row ∈ (w t).commands.rows ↔ row ∈ t.commands.rows)
  status : ∀ p ∈ rolled, ∀ t, ∀ row ∈ (w t).commands.rows, row.commandId = p.1 →
    row.status = recompute p.2

/-- What a transaction has written at the point where it is. -/
def Shape (known : List String) (x : Txn Tables Lock Point) : Prop :=
  match x.point with
  | none | some .raise => ∀ t, (x.writes t).commandIds = t.commandIds
  | some .update => ∀ t, x.writes t = t
  | some (.rollUp todo rolled) => Writes known x.writes todo rolled
  | some (.write commandId _ todo rolled) => Writes known x.writes (commandId :: todo) rolled

/-- At its commit a transaction commits what the rows it commits to roll up to. -/
def RollsUpWhatItCommits {ι : Type} (s : Database ι Tables Lock Point) : Move ι → Prop
  | .abort _ => True
  | .run i => ∀ rolled, (s.txns i).point = some (.rollUp [] rolled) →
    ∀ p ∈ rolled, recompute p.2 = recompute ((s.view i).statuses p.1)

instance {ι : Type} (s : Database ι Tables Lock Point) : DecidablePred (RollsUpWhatItCommits s)
  | .abort _ => isTrue trivial
  | .run i =>
    match h : (s.txns i).point with
    | some (.rollUp [] rolled) =>
      decidable_of_iff (∀ p ∈ rolled, recompute p.2 = recompute ((s.view i).statuses p.1))
        ⟨fun hall rolled' hp => by cases h.symm.trans hp; exact hall, fun hall => hall rolled h⟩
    | none | some .update | some (.rollUp (_ :: _) _) | some (.write _ _ _ _) | some .raise =>
      isTrue fun _ hp => by cases h.symm.trans hp

section
variable {known : List String} {w : Tables → Tables} {todo : List String} {c : String}
  {rolled : List (String × List AckStatus)}

theorem Writes.rollUp (h : Writes known w (c :: todo) rolled) (statuses : List AckStatus) (now : Nat) :
    Writes known ((fun t => t.setStatus c (recompute statuses) now) ∘ w) todo
      (rolled ++ [(c, statuses)]) := by
  have hkeys : (rolled ++ [(c, statuses)]).map Prod.fst ++ todo = rolled.map Prod.fst ++ c :: todo := by
    simp
  constructor
  case commandIds =>
    intro t
    rw [Function.comp_apply, setStatus_commandIds, h.commandIds]
  case nodup =>
    rw [hkeys]
    exact h.nodup
  case known =>
    rw [hkeys]
    exact h.known
  case statuses =>
    rw [hkeys]
    exact h.statuses
  case rows =>
    intro d hd t row hrow
    have hdc : d ≠ c ∧ d ∉ rolled.map Prod.fst := by
      simp only [List.map_append, List.map_cons, List.map_nil, List.mem_append, List.mem_singleton,
        not_or] at hd
      exact ⟨hd.2, hd.1⟩
    rw [Function.comp_apply, mem_setStatus, ← h.rows d hdc.2 t row hrow]
    constructor
    · rintro ⟨r, hr, heq⟩
      split_ifs at heq with hrc
      · have hid : row.commandId = c := by rw [heq]; exact hrc
        exact absurd (hrow.symm.trans hid) hdc.1
      · exact heq ▸ hr
    · intro hr
      exact ⟨row, hr, by rw [if_neg (by rw [hrow]; exact hdc.1)]⟩
  case status =>
    intro p hp t row hrow hid
    obtain ⟨r, hr, rfl⟩ := mem_setStatus.mp hrow
    rcases List.mem_append.mp hp with hp | hp
    · -- a command rolled up before is another one
      have hne : r.commandId ≠ c := by
        intro heq
        have hc : p.1 = c := by
          rw [← hid, ← heq]
          split_ifs <;> rfl
        have hnot := (List.nodup_append.mp h.nodup).2.2 p.1 (List.mem_map_of_mem hp) c (by simp)
        exact hnot hc
      rw [if_neg hne] at hid ⊢
      exact h.status p hp t r hr hid
    · rw [List.mem_singleton] at hp
      subst hp
      have hc : r.commandId = c := by
        by_contra hne
        rw [if_neg hne] at hid
        exact hne hid
      rw [if_pos hc]
      rfl

/-- The own update of a transaction. -/
theorem Writes.update {p : AckRow → Bool} {f : AckRow → AckRow} {hf : ∀ r, (f r).key = r.key}
    (hw : ∀ t, w t = t) (hnodup : todo.Nodup) (hknown : ∀ c ∈ todo, c ∈ known)
    (hp : ∀ row, p row = true → row.key.commandId ∈ todo) :
    Writes known ((fun t => t.updateAcks p f hf) ∘ w) todo [] := by
  constructor
  case commandIds =>
    intro t
    show (w t).commands.rows.map _ = _
    rw [hw t]
    rfl
  case nodup => exact hnodup
  case known => exact hknown
  case statuses =>
    intro c hc t
    rw [Function.comp_apply, hw t]
    refine statuses_updateAcks fun row hrow heq => hc ?_
    rw [← heq]
    exact hp row hrow
  case rows =>
    intro c _ t row _
    rw [Function.comp_apply, hw t]
    rfl
  case status =>
    intro p hp
    cases hp

end

theorem commandsOf_nodup (keys : List AckKey) : (commandsOf keys).Nodup :=
  (List.perm_insertionSort _ _).nodup_iff.mpr (List.nodup_dedup _)

theorem mem_commandsOf {keys : List AckKey} {c : String} :
    c ∈ commandsOf keys ↔ ∃ key ∈ keys, key.commandId = c := by
  simp [commandsOf, List.mem_insertionSort]

/-- The commands of acknowledgements there are exist. -/
theorem commandId_mem {t : Tables} {row : AckRow} (h : row ∈ t.acks.rows) :
    row.key.commandId ∈ t.commandIds := t.references row h

/-! ## Runs -/

section
variable {ι : Type} {known : List String} {s : Database ι Tables Lock Point}

variable {r : Request} {x : Txn Tables Lock Point} {p : Point}

/-- **A statement keeps the shape.** -/
theorem Shape.statement {locks : Tables → List Lock} {write : Tables → Tables → Tables}
    {next : Tables → Point} (h : Shape known x) (hp : x.point = some p)
    (ha : r.action p = .statement locks write next) {v : Tables} (hv : v.commandIds = known) :
    Shape known { point := some (next v), writes := write v ∘ x.writes, held := x.held ++ locks v } := by
  unfold Shape at h
  rw [hp] at h
  cases p with
  | update =>
    cases r with
    | recordAck key status detail now =>
      cases ha
      by_cases hkey : v.acks.has key = true
      · -- the row is there, so its command is
        obtain ⟨row, hrow⟩ := Option.isSome_iff_exists.mp hkey
        have hid : key.commandId ∈ known := by
          rw [← hv, ← Table.key_of_find? hrow]
          exact commandId_mem (List.mem_of_find?_eq_some hrow)
        unfold Shape
        simp only [hkey, if_true]
        refine Writes.update h (List.nodup_singleton _) (by simpa using hid) fun row hrow => ?_
        simp [show row.key = key by simpa using hrow]
      · unfold Shape
        simp only [hkey, Bool.false_eq_true, if_false]
        intro t
        show (x.writes t).commandIds = t.commandIds
        rw [h t]
    | expireTimeouts now =>
      cases ha
      refine Writes.update h (commandsOf_nodup _) ?_ ?_
      · intro c hc
        obtain ⟨key, hkey, rfl⟩ := mem_commandsOf.mp hc
        obtain ⟨row, hrow, rfl⟩ := List.mem_map.mp hkey
        rw [← hv]
        exact commandId_mem (List.mem_of_mem_filter hrow)
      · intro row hrow
        exact mem_commandsOf.mpr ⟨row.key, by simpa using hrow, rfl⟩
  | rollUp todo rolled =>
    cases todo with
    | nil => cases ha
    | cons c todo =>
      cases ha
      exact h
  | write c statuses todo rolled =>
    cases ha
    exact h.rollUp statuses r.now
  | raise => cases ha

theorem Shape.commandIds (h : Shape known x) (t : Tables) :
    (x.writes t).commandIds = t.commandIds := by
  unfold Shape at h
  split at h
  · exact h t
  · exact h t
  · rw [h t]
  · exact Writes.commandIds h t
  · exact Writes.commandIds h t

/-- The commands there are, and what each transaction has written. -/
structure Written (known : List String) (s : Database ι Tables Lock Point) : Prop where
  commandIds : s.store.commandIds = known
  shape : ∀ i, Shape known (s.txns i)

theorem Written.view (h : Written known s) (i : ι) : (s.view i).commandIds = known :=
  ((h.shape i).commandIds s.store).trans h.commandIds

theorem written_init (requests : ι → Request) (t : Tables) :
    Written t.commandIds ((code requests).init t) := by
  refine ⟨rfl, fun i => ?_⟩
  show Shape t.commandIds { point := some (requests i).start }
  cases requests i with
  | recordAck key status detail now =>
    show Shape t.commandIds { point := some (if _ then _ else _) }
    split_ifs
    · exact fun _ => rfl
    · exact fun _ => rfl
  | expireTimeouts now => exact fun _ => rfl

variable [DecidableEq ι] [Fintype ι] {requests : ι → Request}

theorem Written.move (h : Written known s) (m : Move ι) : Written known ((code requests).move s m) := by
  constructor
  · rcases Code.move_store (c := code requests) s m with hs | ⟨i, -, -, -, -, hs⟩
    · rw [hs]
      exact h.commandIds
    · rw [hs]
      exact h.view i
  · refine Code.forall_txn (S := fun v => v.commandIds = known) (fun _ _ => rfl) ?_ h.shape h.view m
    intro i x p locks write next hx hp ha v hv
    exact hx.statement hp ha hv

/-- **A commit keeps the statuses exactly when it commits what it rolls up to.** -/
theorem Writes.current_iff {w : Tables → Tables} {rolled : List (String × List AckStatus)} {t : Tables}
    (h : Writes t.commandIds w [] rolled) (hcurrent : Current t) :
    Current (w t) ↔ ∀ p ∈ rolled, recompute p.2 = recompute ((w t).statuses p.1) := by
  constructor
  · intro hw p hp
    have hknown : p.1 ∈ (w t).commandIds := by
      rw [h.commandIds]
      exact h.known p.1 (List.mem_append_left _ (List.mem_map_of_mem hp))
    obtain ⟨row, hrow, hid⟩ := List.mem_map.mp hknown
    rw [← h.status p hp t row hrow hid, ← hid]
    exact hw row hrow
  · intro hfresh row hrow
    by_cases hmem : row.commandId ∈ rolled.map Prod.fst
    · obtain ⟨p, hp, hid⟩ := List.mem_map.mp hmem
      rw [h.status p hp t row hrow hid.symm, hfresh p hp, hid]
    · rw [h.statuses _ (by simpa using hmem)]
      exact hcurrent row ((h.rows _ hmem t row rfl).mp hrow)

/-- Only a transaction with nothing left to roll up commits. -/
theorem action_commit (h : r.action p = .commit) : ∃ rolled, p = .rollUp [] rolled := by
  cases p with
  | update => cases r <;> cases h
  | rollUp todo rolled =>
    cases todo with
    | nil => exact ⟨rolled, rfl⟩
    | cons c todo => cases h
  | write c statuses todo rolled => cases h
  | raise => cases h

theorem current_move_iff (h : Written known s) (hcurrent : Current s.store) (m : Move ι) :
    Current ((code requests).move s m).store ↔ RollsUpWhatItCommits s m := by
  cases m with
  | abort i => exact iff_of_true hcurrent trivial
  | run i =>
    have hshape := h.shape i
    by_cases hcommit : ∃ rolled, (s.txns i).point = some (.rollUp [] rolled)
    · obtain ⟨rolled, hpoint⟩ := hcommit
      have hstore : ((code requests).move s (.run i)).store = s.view i := by
        show ((code requests).step s i).store = _
        unfold Code.step
        rw [hpoint]
        rfl
      unfold Shape at hshape
      rw [hpoint, ← h.commandIds] at hshape
      rw [hstore]
      refine (Writes.current_iff hshape hcurrent).trans ⟨fun hfresh rolled' hp => ?_, fun hfresh => ?_⟩
      · rw [hpoint] at hp
        cases hp
        exact hfresh
      · exact hfresh rolled hpoint
    · have hstore : ((code requests).move s (.run i)).store = s.store := by
        rcases Code.move_store (c := code requests) s (.run i) with hs | ⟨j, p, hj, hp, ha, -⟩
        · exact hs
        · cases hj
          obtain ⟨rolled, rfl⟩ := action_commit ha
          exact absurd ⟨rolled, hp⟩ hcommit
      have hmet : RollsUpWhatItCommits s (.run i) :=
        fun rolled hp => absurd ⟨rolled, hp⟩ hcommit
      rw [hstore]
      exact iff_of_true hcurrent hmet

/-- **The stored statuses are current throughout a run exactly when each
transaction commits what the rows still roll up to.** -/
theorem current_throughout_iff (requests : ι → Request) {t : Tables} (ht : Current t)
    (schedule : List (Move ι)) :
    (∀ moves, moves <+: schedule →
      Current ((code requests).machine.after ((code requests).init t) moves).store) ↔
    (code requests).machine.Meets RollsUpWhatItCommits ((code requests).init t) schedule :=
  Machine.throughout_iff (m := (code requests).machine) (I := Written t.commandIds)
    (fun _ m _ h _ => h.move m) (fun _ m _ h hc => current_move_iff h hc m) (written_init requests t) ht

end

/-! ## Two nodes answer at the same time -/

/-- A command for two nodes, on empty tables. -/
def twoTargets : Tables :=
  ((⟨Table.empty, Table.empty, by simp [Table.empty]⟩ : Tables).issue "cmd" ["a", "b"] 0 30).getD
    ⟨Table.empty, Table.empty, by simp [Table.empty]⟩

def bothAck (i : Bool) : Request := .recordAck ⟨"cmd", if i then "a" else "b"⟩ .acked none 1

def oneAfterTheOther : List (Move Bool) := List.replicate 4 (.run true) ++ List.replicate 4 (.run false)

/-- Both read before either commits. -/
def bothReadFirst : List (Move Bool) :=
  [.run true, .run false, .run true, .run false, .run true, .run true, .run false, .run false]

def afterBoth (schedule : List (Move Bool)) : Database Bool Tables Lock Point :=
  (code bothAck).machine.after ((code bothAck).init twoTargets) schedule

theorem current_one_after_the_other :
    Current twoTargets ∧ Current (afterBoth oneAfterTheOther).store := by
  have ht : Current twoTargets := by decide +kernel
  refine ⟨ht, ?_⟩
  refine (current_throughout_iff bothAck ht oneAfterTheOther).mpr ?_ _ (List.prefix_refl _)
  decide +kernel

/-- Every node has acknowledged and the command is not completed. -/
theorem stale_when_both_read_first :
    Current twoTargets ∧ (∀ i, ((afterBoth bothReadFirst).txns i).point = none) ∧
      (afterBoth bothReadFirst).store.statuses "cmd" = [.acked, .acked] ∧
      recompute [.acked, .acked] = .completed ∧
      (afterBoth bothReadFirst).store.commands.rows = [⟨"cmd", .acknowledged, none⟩] ∧
      ¬ Current (afterBoth bothReadFirst).store := by
  decide +kernel

end TraderBot.Commands
