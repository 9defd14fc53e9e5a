import TraderBot.Commands.NodeRuns
import TraderBot.Execution.JobRuns

/-! # The history of command runs

Calls lock the run they advance, and a new run takes its place in the unique index
before anyone else can. So the status of a run goes along the lifecycle whatever
calls are under way at once; but it is the newest run of a request that moves,
whichever node it is for. -/
namespace TraderBot.Commands.NodeRuns
open TraderBot.Lib TraderBot.Lib.Text TraderBot.Lib.Json TraderBot.Execution

/-! ## The lifecycle -/

def Edge (a b : RunStatus) : Prop := (a, b) ∈ transitions

instance (a b : RunStatus) : Decidable (Edge a b) := inferInstanceAs (Decidable (_ ∈ _))

/-- No edge leaves a terminal status, none stays where it is, and only what is
verifying is completed. -/
theorem Edge.legal {a b : RunStatus} (hedge : Edge a b) :
    a.isTerminal = false ∧ a ≠ b ∧ (b = .completed → a = .verifying) := by
  revert hedge
  cases a <;> cases b <;> decide

theorem edge_of_legal {a b : RunStatus} (hne : a ≠ b) (hlegal : legalTransition a b = true) :
    Edge a b := by
  simp only [legalTransition, Bool.or_eq_true, Bool.and_eq_true, decide_eq_true_eq] at hlegal
  rcases hlegal with heq | ⟨-, hmem⟩
  · exact absurd heq hne
  · simpa [Edge] using hmem

/-! ## The rules -/

section Rules
variable {ι : Type} (env : Env) (calls : ι → Call)

/-- The columns that stay. -/
def kept (r : NodeRun) :=
  (r.toSlot, r.nodeCommandRunId, r.commandId, r.commandType, r.requestId, r.startedAt, r.createdAt)

/-- What can become of a run. -/
structure Becomes (a b : NodeRun) : Prop where
  kept : kept b = kept a
  path : Relation.ReflTransGen Edge a.status b.status

/-- The run is the one of this slot. -/
def Occupies (slot : Slot) (id : String) (s : Runs) : Prop := ∃ r, s.find? id = some r ∧ r.toSlot = slot

def Same : Lock → Runs → Runs → Prop
  | .run id, s, t => s.find? id = t.find? id
  | .slot slot, s, t => ∀ id, Occupies slot id s ↔ Occupies slot id t

def RowEvolves : Lock → Runs → Runs → Prop
  | .run id, s, t => ∀ a, s.find? id = some a → ∃ b, t.find? id = some b ∧ Becomes a b
  | .slot _, _, _ => True

/-- What a call may do to a run: make it for its slot, or advance it by one edge to
the status it is for. -/
inductive Steps (calls : ι → Call) (i : ι) (id : String) (s t : Runs) : Prop where
  | same (h : s.find? id = t.find? id)
  | made (b : NodeRun) (hs : s.find? id = none) (ht : t.find? id = some b)
      (hopens : (calls i).opens = some b.toSlot) (haccepted : b.status = .accepted)
  | advanced (a b : NodeRun) (requestId : String) (hs : s.find? id = some a) (ht : t.find? id = some b)
      (hadvances : (calls i).advances = some (requestId, b.status))
      (hrequest : a.requestId = some requestId) (hedge : Edge a.status b.status)
      (hkept : kept b = kept a)

def RowDoes (i : ι) : Lock → Runs → Runs → Prop
  | .run id, s, t => Steps calls i id s t
  | .slot _, _, _ => True

def RowGood : Lock → Runs → Prop
  | .slot slot, s => ∀ id id', Occupies slot id s → Occupies slot id' s → id = id'
  | .run _, _ => True

variable {env calls} {i : ι}

theorem opens_of_advances {x : String × RunStatus} (h : (calls i).advances = some x) :
    (calls i).opens = none := by
  cases hcall : calls i with
  | request c =>
    rw [hcall] at h
    cases h
  | running | verifying | terminal => rfl

theorem Steps.trans {id : String} {s t u : Runs} (hst : Steps calls i id s t)
    (htu : Steps calls i id t u) : Steps calls i id s u := by
  cases hst with
  | same h =>
    cases htu with
    | same h' => exact .same (h.trans h')
    | made b hs ht hopens haccepted => exact .made b (h.trans hs) ht hopens haccepted
    | advanced a b q hs ht hadvances hrequest hedge hkept =>
      exact .advanced a b q (h.trans hs) ht hadvances hrequest hedge hkept
  | made b hs ht hopens haccepted =>
    cases htu with
    | same h' => exact .made b hs (h'.symm.trans ht) hopens haccepted
    | made b' hs' => cases ht.symm.trans hs'
    | advanced a b' q hs' ht' hadvances => cases (opens_of_advances hadvances).symm.trans hopens
  | advanced a b q hs ht hadvances hrequest hedge hkept =>
    cases htu with
    | same h' => exact .advanced a b q hs (h'.symm.trans ht) hadvances hrequest hedge hkept
    | made b' hs' => cases ht.symm.trans hs'
    | advanced a' b' q' hs' ht' hadvances' hrequest' hedge' hkept' =>
      -- the call is for one status, which the first step has reached
      cases ht.symm.trans hs'
      have hstatus : b.status = b'.status :=
        congrArg Prod.snd (Option.some.inj (hadvances.symm.trans hadvances'))
      exact absurd hstatus hedge'.legal.2.1

theorem evolves_of_steps {id : String} {s t : Runs} (hst : Steps calls i id s t) :
    RowEvolves (.run id) s t := by
  intro x hx
  cases hst with
  | same h => exact ⟨x, h.symm.trans hx, rfl, .refl⟩
  | made b hs => cases hs.symm.trans hx
  | advanced a b q hs ht hadvances hrequest hedge hkept =>
    cases hs.symm.trans hx
    exact ⟨b, ht, hkept, .single hedge⟩

theorem same_equivalence (k : Lock) : Equivalence (Same k) := by
  cases k with
  | run id => exact ⟨fun _ => rfl, fun h => h.symm, fun h h' => h.trans h'⟩
  | slot slot =>
    exact ⟨fun _ _ => Iff.rfl, fun h id => (h id).symm, fun h h' id => (h id).trans (h' id)⟩

theorem rowEvolves_trans {k : Lock} {s t u : Runs} (hst : RowEvolves k s t) (htu : RowEvolves k t u) :
    RowEvolves k s u := by
  cases k with
  | run id =>
    intro a ha
    obtain ⟨b, hb, hab⟩ := hst a ha
    obtain ⟨c, hc, hbc⟩ := htu b hb
    exact ⟨c, hc, hbc.kept.trans hab.kept, hab.path.trans hbc.path⟩
  | slot => trivial

variable (calls) in
def runRules : Rules ι Runs Lock where
  same := Same
  evolves := RowEvolves
  does := RowDoes calls
  good := RowGood
  later _ _ := True
  instant _ _ := True
  equivalence := same_equivalence
  evolves_of_same {k s t} hst := by
    cases k with
    | run id => exact fun a ha => ⟨a, (show s.find? id = t.find? id from hst).symm.trans ha, rfl, .refl⟩
    | slot => trivial
  evolves_trans := rowEvolves_trans
  does_of_same {i k s t} hst := by
    cases k with
    | run id => exact .same hst
    | slot => trivial
  does_trans {i k s t u} hst htu := by
    cases k with
    | run id => exact Steps.trans hst htu
    | slot => trivial
  evolves_of_does {i k s t} hst := by
    cases k with
    | run id => exact evolves_of_steps hst
    | slot => trivial
  later_refl _ := trivial
  later_trans _ _ := trivial
  instant_refl _ := trivial
  instant_trans _ _ := trivial
  later_of_instant _ := trivial
  good_of_evolves {k s t} hs _ hsame := by
    cases k with
    | run => trivial
    | slot slot => exact fun id id' hid hid' => hs id id' ((hsame id).mpr hid) ((hsame id').mpr hid')

/-! ## The statements -/

theorem occupies_put {slot : Slot} {id : String} {s : Runs} {r : NodeRun} :
    Occupies slot id (s.put r) ↔
      if id = r.nodeCommandRunId then r.toSlot = slot else Occupies slot id s := by
  unfold Occupies
  rw [Table.find?_put]
  split_ifs with hid
  · simp
  · rfl

theorem local_put (r : NodeRun) : (runRules calls).Local fun s => s.put r where
  same := by
    intro k s t hst
    cases k with
    | run id =>
      show (s.put r).find? id = (t.put r).find? id
      have hrow : s.find? id = t.find? id := hst
      rw [Table.find?_put, Table.find?_put, hrow]
    | slot slot =>
      intro id
      have hrow : Occupies slot id s ↔ Occupies slot id t := hst id
      rw [occupies_put, occupies_put, hrow]
  later _ := trivial
  now _ := trivial

variable {held : List Lock} {v : Runs} {r : NodeRun}

/-- A new run, where neither its identifier nor its slot is taken. -/
theorem fits_made (hv : (runRules calls).Good v) (hid : v.find? r.nodeCommandRunId = none)
    (hslot : v.slot? r.toSlot = none) (hopens : (calls i).opens = some r.toSlot)
    (haccepted : r.status = .accepted) (hrun : .run r.nodeCommandRunId ∈ held)
    (hheld : .slot r.toSlot ∈ held) : (runRules calls).Fits i held v fun s => s.put r where
  local_ := local_put r
  does k := by
    cases k with
    | run id =>
      by_cases h : id = r.nodeCommandRunId
      · subst h
        exact .made r hid (by rw [Table.find?_put, if_pos rfl]) hopens haccepted
      · exact .same (by rw [Table.find?_put, if_neg h])
    | slot => trivial
  good k := by
    have hfree : ∀ id, ¬Occupies r.toSlot id v := by
      rintro id ⟨x, hx, hxslot⟩
      have hnot := List.find?_eq_none.mp hslot x (List.mem_of_find?_eq_some hx)
      simp [hxslot] at hnot
    cases k with
    | run => trivial
    | slot slot =>
      intro id id' h h'
      rw [occupies_put] at h h'
      split_ifs at h h' with heq heq' heq'
      · exact heq.trans heq'.symm
      · exact absurd (h ▸ h') (hfree id')
      · exact absurd (h' ▸ h) (hfree id)
      · exact hv (.slot slot) id id' h h'
  frame t ht k hk := by
    have hnone : t.find? r.nodeCommandRunId = none :=
      (show v.find? r.nodeCommandRunId = t.find? r.nodeCommandRunId from ht _ hrun).symm.trans hid
    cases k with
    | run id =>
      show t.find? id = (t.put r).find? id
      rw [Table.find?_put, if_neg]
      rintro rfl
      exact hk hrun
    | slot slot =>
      intro id
      rw [occupies_put]
      split_ifs with h
      · refine ⟨fun ⟨x, hx, _⟩ => ?_, fun h' => absurd (h' ▸ hheld) hk⟩
        rw [h, hnone] at hx
        cases hx
      · rfl

/-- A run that is advanced. -/
theorem fits_advanced {b : NodeRun} {requestId : String} (hv : (runRules calls).Good v)
    (hr : v.find? r.nodeCommandRunId = some r) (hkept : kept b = kept r)
    (hadvances : (calls i).advances = some (requestId, b.status))
    (hrequest : r.requestId = some requestId) (hedge : Edge r.status b.status)
    (hrun : .run r.nodeCommandRunId ∈ held) : (runRules calls).Fits i held v fun s => s.put b := by
  have hkept' := hkept
  simp only [kept, Prod.mk.injEq] at hkept'
  obtain ⟨hslot, hid, -⟩ := hkept'
  have hoccupies : ∀ t : Runs, t.find? r.nodeCommandRunId = some r → ∀ slot id,
      Occupies slot id t ↔ Occupies slot id (t.put b) := by
    intro t ht slot id
    rw [occupies_put]
    split_ifs with h
    · rw [h, hid, hslot]
      exact ⟨fun ⟨x, hx, hxslot⟩ => by cases ht.symm.trans hx; exact hxslot, fun hs => ⟨r, ht, hs⟩⟩
    · rfl
  refine ⟨local_put b, fun k => ?_, fun k => ?_, fun t ht k hk => ?_⟩
  · cases k with
    | run id =>
      by_cases h : id = b.nodeCommandRunId
      · refine .advanced r b requestId ?_ (by rw [Table.find?_put, if_pos h]) hadvances hrequest hedge hkept
        rw [h, hid]
        exact hr
      · exact .same (by rw [Table.find?_put, if_neg h])
    | slot => trivial
  · cases k with
    | run => trivial
    | slot slot =>
      exact fun id id' h h' => hv (.slot slot) id id' ((hoccupies v hr slot id).mpr h)
        ((hoccupies v hr slot id').mpr h')
  · have hat : t.find? r.nodeCommandRunId = some r :=
      (show v.find? r.nodeCommandRunId = t.find? r.nodeCommandRunId from ht _ hrun).symm.trans hr
    cases k with
    | run id =>
      show t.find? id = (t.put b).find? id
      rw [Table.find?_put, if_neg]
      rintro rfl
      exact hk (hid ▸ hrun)
    | slot slot => exact fun id => hoccupies t hat slot id

/-! ## The calls -/

/-- What is shown of a statement of a call that advances a request: the run it locks
is a newest one of the request, it is the only one, and it changes no other. -/
structure Aimed (requestId : String) (held held' : List Lock) (v w : Runs) : Prop where
  newest : ∀ id, .run id ∈ held' → .run id ∉ held → ∃ r ∈ v.latest requestId, r.nodeCommandRunId = id
  one : ∀ id id', .run id ∈ held' → .run id' ∈ held' → id = id'
  changes : ∀ id, w.find? id ≠ v.find? id → .run id ∈ held

variable (calls i) in
def Aims (held held' : List Lock) (v w : Runs) : Prop :=
  ∀ requestId target, (calls i).advances = some (requestId, target) → Aimed requestId held held' v w

/-- The call keeps the rules. -/
abbrev Keeps {α : Type} (calls : ι → Call) (i : ι) (K : List Lock → Runs → Prop) (p : Transaction α)
    (Q : α → List Lock → Runs → Prop) : Prop :=
  (runRules calls).Triple i (Aims calls i) K p Q

theorem mem_latest_of_newest {requestId : String} {choice : Nat} {r : NodeRun}
    (hr : v.newest requestId choice = some r) : r ∈ v.latest requestId :=
  List.mem_of_getElem? hr

theorem mem_latest {requestId : String} {r : NodeRun} (hr : r ∈ v.latest requestId) :
    v.find? r.nodeCommandRunId = some r ∧ r.requestId = some requestId ∧
      ∀ x ∈ v.rows, x.requestId = some requestId → x.createdAt ≤ r.createdAt := by
  simp only [Runs.latest, List.mem_filter, decide_eq_true_eq, List.all_eq_true] at hr
  obtain ⟨⟨hmem, hrequest⟩, hall⟩ := hr
  exact ⟨Table.find?_of_mem hmem, hrequest, fun x hx hxr => hall x ⟨hx, hxr⟩⟩

/-- A run of the request is locked, the only lock there is. -/
def Found (requestId : String) (r : NodeRun) (held : List Lock) (v : Runs) : Prop :=
  held = [.run r.nodeCommandRunId] ∧ v.find? r.nodeCommandRunId = some r ∧ r.requestId = some requestId

theorem stable_found (requestId : String) (r : NodeRun) :
    (runRules calls).Stable (Found requestId r) := by
  rintro held v w hrely ⟨rfl, hr, hrequest⟩
  have hsame : v.find? r.nodeCommandRunId = w.find? r.nodeCommandRunId :=
    hrely.kept _ List.mem_cons_self
  exact ⟨rfl, hsame.symm.trans hr, hrequest⟩

theorem advanceRow_keeps {c : Advance} {requestId : String} {status : RunStatus}
    (hadvances : (calls i).advances = some (requestId, status)) (row : NodeRun) :
    Keeps calls i (Found requestId row) (advanceRow env c requestId status row) fun _ _ _ => True := by
  unfold advanceRow
  split_ifs with hdone hlegal
  · exact fun _ _ _ _ => trivial
  · exact Rules.triple_raised
  have hne : row.status ≠ status := fun h => hdone (.inl h)
  have hedge : Edge row.status status := edge_of_legal hne (Bool.eq_true_of_not_eq_false hlegal)
  refine Rules.triple_perform (stable_found requestId row) ?_ ?_ fun _ _ _ _ _ _ => trivial
  · rintro held v hv ⟨rfl, hr, hrequest⟩
    simp only [hr, Option.isSome_some, if_true]
    split_ifs
    · exact fits_advanced hv hr rfl hadvances hrequest hedge (by simp)
    · exact .id hv
  · rintro held v hv ⟨rfl, hr, hrequest⟩ q target hq
    simp only [hr, Option.isSome_some, if_true]
    refine ⟨fun id hid hnot => ?_, fun id id' hid hid' => ?_, fun id hid => ?_⟩
    · simp_all
    · simp_all
    · split_ifs at hid
      · rw [Table.find?_put] at hid
        split_ifs at hid with h
        · simp [h, NodeRun.advanced]
        · exact absurd rfl hid
      · exact absurd rfl hid

theorem transition_keeps {c : Advance} {status : RunStatus}
    (hadvances : (calls i).advances = (required c.requestId).map (·, status)) :
    Keeps calls i (fun held _ => held = []) (transition env c status) fun _ _ _ => True := by
  unfold transition
  cases hrequired : required c.requestId with
  | none => exact Rules.triple_raised
  | some requestId =>
    rw [hrequired] at hadvances
    dsimp only
    have hstart : (runRules calls).Stable fun held _ => held = [] := fun _ _ _ _ h => h
    refine Rules.Triple.bind (Q := fun row held v => ∀ r, row = some r → Found requestId r held v)
      (Rules.triple_perform hstart (fun held v hv _ => .id hv) ?_ ?_) fun row => ?_
    · rintro held v hv rfl q target hq
      rw [hadvances] at hq
      cases hq
      refine ⟨fun id hid _ => ?_, fun id id' hid hid' => ?_, fun id hid => absurd rfl hid⟩
      · cases hnew : v.newest requestId c.choice with
        | none => simp [hnew] at hid
        | some r =>
          refine ⟨r, mem_latest_of_newest hnew, ?_⟩
          simpa [hnew, eq_comm] using hid
      · cases hnew : v.newest requestId c.choice with
        | none => simp [hnew] at hid
        | some r => simp_all
    · rintro held v row hv rfl hrow r rfl
      have hnew : v.newest requestId c.choice = some r := Option.some.inj hrow
      obtain ⟨hr, hrequest, -⟩ := mem_latest (mem_latest_of_newest hnew)
      exact ⟨by simp [hnew], hr, hrequest⟩
    · cases row with
      | none => exact Rules.triple_raised
      | some row => exact (advanceRow_keeps hadvances row).weaken fun held v _ hk => hk row rfl

theorem requestCommandRun_keeps {c : RunRequest} (hcall : calls i = .request c) :
    Keeps calls i (fun held _ => held = []) (requestCommandRun env c) fun _ _ _ => True := by
  have hany : ∀ held held' v w, Aims calls i held held' v w := by
    intro held held' v w q target hq
    rw [hcall] at hq
    cases hq
  have htrue : (runRules calls).Stable fun _ _ => True := fun _ _ _ _ _ => trivial
  unfold requestCommandRun
  split
  · next requestId _ _ hrequired =>
    refine Rules.Triple.bind (Q := fun _ _ _ => True) (Rules.triple_perform (fun _ _ _ _ h => h)
      (fun _ _ hv _ => .id hv) (fun _ _ _ _ => hany _ _ _ _) fun _ _ _ _ _ _ => trivial) fun existing => ?_
    cases existing with
    | some r => exact fun _ _ _ _ => trivial
    | none =>
      refine Rules.Triple.bind (Q := fun _ _ _ => True) (Rules.triple_perform htrue
        (fun held v hv _ => ?_) (fun _ _ _ _ => hany _ _ _ _) fun _ _ _ _ _ _ => trivial)
          fun _ _ _ _ _ => trivial
      split_ifs with hrefused
      · exact .id hv
      · simp only [Bool.or_eq_true, not_or, Bool.not_eq_true, Option.isSome_eq_false_iff,
          Option.isNone_iff_eq_none] at hrefused
        have hopens : (calls i).opens = some (c.row env requestId).toSlot := by
          rw [hcall]
          exact congrArg (Option.map c.slot) hrequired
        exact fits_made hv hrefused.1 hrefused.2 hopens rfl (by simp) (by simp)
  · exact Rules.triple_raised

/-- **Every call keeps the rules.** -/
theorem call_keeps (i : ι) :
    Keeps calls i (fun held _ => held = []) ((calls i).program env) fun _ _ _ => True := by
  have hdone : ∀ {α : Type} {p : Transaction α},
      Keeps calls i (fun held _ => held = []) p (fun _ _ _ => True) →
        Keeps calls i (fun held _ => held = []) (p >>= fun _ => pure ()) fun _ _ _ => True :=
    fun hp => hp.bind fun _ _ _ _ _ => trivial
  cases hcall : calls i with
  | request c => exact hdone (requestCommandRun_keeps hcall)
  | running c =>
    exact hdone (transition_keeps (c := { c with error := none }) (by rw [hcall]; rfl))
  | verifying c =>
    exact hdone (transition_keeps (c := { c with error := none }) (by rw [hcall]; rfl))
  | terminal c status =>
    refine hdone ?_
    unfold markTerminal
    cases htarget : RunStatus.terminalStatuses.find? fun s => s.text = status with
    | none => exact Rules.triple_raised
    | some target =>
      refine transition_keeps ?_
      rw [hcall]
      simp only [Call.advances, htarget, Option.bind_eq_bind, Option.bind_some]
      cases required c.requestId <;> rfl

end Rules

/-! ## Runs -/

section Runs
variable {ι : Type} [DecidableEq ι] [Fintype ι] {env : Env} {calls : ι → Call}

/-- What an event does to the table: a call that commits makes or advances runs as it
may, and nothing else changes anything. -/
def Moves (calls : ι → Call) (s t : Runs) (e : RunEvent ι) : Prop :=
  ∀ id, s.find? id = t.find? id ∨ ∃ i, e = .move (.run i) ∧ Steps calls i id s t

/-- What an event aims at, where it is a statement of a call that advances a request. -/
def AimsAt (calls : ι → Call) (s : RunState ι) (e : RunEvent ι) : Prop :=
  ∀ i locks write next, e = .move (.run i) → (s.txns i).point = some (.statement locks write next) →
    s.blocked i (locks (s.view i)) = false → Aims calls i (s.txns i).held
      ((s.txns i).held ++ locks (s.view i)) (s.view i) (write (s.view i) (s.view i))

abbrev RunsHeld (calls : ι → Call) (s : RunState ι) : Prop := (runRules calls).Held (Aims calls) s

variable (env) in
theorem RunsHeld.next {s : RunState ι} (hs : RunsHeld calls s) (e : RunEvent ι) :
    RunsHeld calls ((machine env calls).next s e) := hs.step nofun e

theorem runsHeld_of_run (env : Env) (calls : ι → Call) (es : List (RunEvent ι)) :
    (machine env calls).Meets (fun s e => RunsHeld calls s ∧ Rules.Shown (Aims calls) s e)
        (initial env calls) es ∧ RunsHeld calls ((machine env calls).after (initial env calls) es) := by
  refine Rules.held_of_run (fun i => call_keeps i) nofun (fun k => ?_) es
  cases k with
  | run => trivial
  | slot slot =>
    rintro id id' ⟨r, hr, -⟩
    cases hr

variable (env) in
theorem RunsHeld.moves {s : RunState ι} (hs : RunsHeld calls s) (e : RunEvent ι) :
    Moves calls s.store ((machine env calls).next s e).store e := by
  intro id
  rcases Rules.store_next (fun i => (calls i).program env) Empty.elim s e with
    hs' | ⟨i, a, rfl, -, hs'⟩ | ⟨o, -, -⟩
  · change ((machine env calls).next s e).store = s.store at hs'
    exact .inl (by rw [hs'])
  · change ((machine env calls).next s _).store = s.view i at hs'
    refine .inr ⟨i, rfl, ?_⟩
    rw [hs']
    exact (hs.sound i).does (.run id)
  · exact o.elim

/-- The statuses of a run in the states that a run of the machine goes through. -/
def history (env : Env) (calls : ι → Call) (id : String) : RunState ι → List (RunEvent ι) → List RunStatus
  | s, [] => ((s.store.find? id).map (·.status)).toList
  | s, e :: es =>
    ((s.store.find? id).map (·.status)).toList ++ history env calls id ((machine env calls).next s e) es

/-- One status after the other: the same, or along an edge of the lifecycle, which
leaves no terminal status and reaches `completed` only from `verifying`. -/
def Follows (a b : RunStatus) : Prop :=
  a = b ∨ (Edge a b ∧ a.isTerminal = false ∧ (b = .completed → a = .verifying))

omit [DecidableEq ι] [Fintype ι] in
theorem follows_of_moves {s t : Runs} {e : RunEvent ι} {id : String} {r : NodeRun}
    (hmoves : Moves calls s t e) (hr : s.find? id = some r) :
    ∃ r', t.find? id = some r' ∧ Follows r.status r'.status := by
  rcases hmoves id with hsame | ⟨i, -, hstep⟩
  · exact ⟨r, hsame.symm.trans hr, .inl rfl⟩
  · cases hstep with
    | same h => exact ⟨r, h.symm.trans hr, .inl rfl⟩
    | made b hs => cases hs.symm.trans hr
    | advanced a b q hs ht hadvances hrequest hedge hkept =>
      cases hs.symm.trans hr
      exact ⟨b, ht, .inr ⟨hedge, hedge.legal.1, hedge.legal.2.2⟩⟩

variable (env) in
/-- The history of a run is a path, from the status the run has or, where it is yet
to be made, from `accepted`. -/
theorem history_path {s : RunState ι} (hs : RunsHeld calls s) (id : String) (es : List (RunEvent ι)) :
    (history env calls id s es).IsChain Follows ∧
      ∀ first ∈ (history env calls id s es).head?,
        ((s.store.find? id).map (·.status)).getD .accepted = first := by
  induction es generalizing s with
  | nil =>
    cases hr : s.store.find? id with
    | none => exact ⟨by simp [history, hr], by simp [history, hr]⟩
    | some r => exact ⟨by simp [history, hr], by simp [history, hr]⟩
  | cons e es ih =>
    obtain ⟨hchain, hfirst⟩ := ih (hs.next env e)
    have hmoves := hs.moves env e
    cases hr : s.store.find? id with
    | none =>
      simp only [history, hr, Option.map_none, Option.toList_none, List.nil_append]
      refine ⟨hchain, fun first hmem => ?_⟩
      rw [← hfirst first hmem]
      rcases hmoves id with hsame | ⟨i, -, hstep⟩
      · rw [← hsame, hr]
        rfl
      · cases hstep with
        | same h =>
          rw [← h, hr]
          rfl
        | made b _ ht _ haccepted =>
          rw [ht]
          exact haccepted.symm
        | advanced a b q hs' => cases hs'.symm.trans hr
    | some r =>
      simp only [history, hr, Option.map_some, Option.toList_some, List.singleton_append]
      refine ⟨List.isChain_cons.mpr ⟨fun b hb => ?_, hchain⟩, fun first hmem => ?_⟩
      · obtain ⟨r', hr', hfollows⟩ := follows_of_moves hmoves hr
        have hb' := hfirst b hb
        rw [hr'] at hb'
        exact hb' ▸ hfollows
      · exact Option.some.inj hmem

/-- **Command runs are legal.** Whatever calls are under way at once: a run begins as
accepted and its status follows the lifecycle; there is one run for each node and
idempotency key; a call that commits makes a run for its own slot or advances runs
of its own request by one edge; and it has locked a newest run of that request, no
other, and changes no other. -/
theorem runs_are_legal (env : Env) (calls : ι → Call) (es : List (RunEvent ι)) :
    (machine env calls).Meets (fun s e =>
        Moves calls s.store ((machine env calls).next s e).store e ∧ AimsAt calls s e)
        (initial env calls) es ∧
      (∀ id, (history env calls id (initial env calls) es).IsChain Follows ∧
        ∀ first ∈ (history env calls id (initial env calls) es).head?, first = .accepted) ∧
      ∀ r ∈ ((machine env calls).after (initial env calls) es).store.rows,
        ∀ x ∈ ((machine env calls).after (initial env calls) es).store.rows,
          r.toSlot = x.toSlot → r = x := by
  obtain ⟨hmeets, hheld⟩ := runsHeld_of_run env calls es
  refine ⟨?_, fun id => ?_, fun r hr x hx hslot => ?_⟩
  · refine Machine.meets_of_meets (I := fun _ => True) (fun s e _ hs => ⟨?_, trivial⟩) trivial hmeets
    exact ⟨hs.1.moves env e, hs.2⟩
  · obtain ⟨hchain, hfirst⟩ := history_path env (runsHeld_of_run env calls []).2 id es
    exact ⟨hchain, fun first hmem => (hfirst first hmem).symm⟩
  · have hr' := Table.find?_of_mem hr
    have hx' := Table.find?_of_mem hx
    have hid := hheld.good (.slot r.toSlot) _ _ ⟨r, hr', rfl⟩ ⟨x, hx', hslot.symm⟩
    rw [hid] at hr'
    exact Option.some.inj (hr'.symm.trans hx')

end Runs

section Sample

/-- A command for two nodes under one request, and the start of a run of it. -/
def fanOut : Fin 3 → Call
  | 0 => .request { nodeId := "n1", commandType := "halt", requestId := "req", runId := "run1"
                    drawnTrace := "t", now := 0 }
  | 1 => .request { nodeId := "n2", commandType := "halt", requestId := "req", runId := "run2"
                    drawnTrace := "t", now := 1 }
  | 2 => .running { requestId := "req", drawnTrace := "t", now := 2 }

/-- The table after the calls, one after the other. -/
def fanOutTable (calls : List (Fin 3)) : Runs :=
  ((machine plainEnv fanOut).after (initial plainEnv fanOut)
    (calls.flatMap fun i => List.replicate 5 (.move (.run i)))).store

/-- The transition that is requested for the run of the first node changes the run of
the second, which carries the same request id. -/
theorem fan_out_advances_other_node :
    (((fanOutTable [0]).find? "run1").map (·.nodeId)) = some "n1" ∧
      (((fanOutTable [0, 1, 2]).find? "run1").map (·.status)) = some .accepted ∧
      (((fanOutTable [0, 1, 2]).find? "run2").map fun r => (r.nodeId, r.status)) =
        some ("n2", .running) := by decide +kernel

end Sample
end TraderBot.Commands.NodeRuns
