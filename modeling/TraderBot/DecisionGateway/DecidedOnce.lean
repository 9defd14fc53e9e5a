import TraderBot.DecisionGateway.Workers

/-! # Deciding once, and on full approval

A decision that is locked is not looked at again: the query found it undecided on its
snapshot, and the lock comes later. As long as no risk decision for it was committed
in between, each decision gets one risk decision and one intent at most; and an intent
is written on full approval in any case. -/
namespace TraderBot.DecisionGateway
open TraderBot.Lib TraderBot.Lib.Text

section
variable {α β : Type}

/-! ## Full approval -/

section
variable (g : Gateway α β) (row : HermesDecision) (rd : Readings)

/-- An opening action of an account that the rollouts gate. -/
def Gated : Prop :=
  isOpening row.action = true ∧ gatedAccounts.contains (strip (rd.verdict.accountId.getD "")) = true

/-- The decision came from hermes, fits the schema and is fresh. -/
structure Admitted (clock : Int) : Prop where
  provider : row.modelProvider = "hermes"
  schema : g.schemaProblem row = none
  fresh : g.freshnessProblem clock row = none

/-- The governor approved, on a projection that a node kept fresh. -/
structure Live : Prop extends Admitted g row rd.clock where
  verdict : rd.verdict.status = .approved
  heartbeat : ∃ now last, rd.heartbeat = some (now, last) ∧ now - last ≤ 60000000

/-- What an intent is written on. -/
structure Approved : Prop extends Live g row rd where
  rollout : Gated row rd → ∃ r, rd.rollout = some r ∧ strip r.phase = "fleet_complete"

/-- The rollout that was read is still the latest, and nobody can change it. -/
def Stands (t : Tables α β) (locked : Bool) : Prop :=
  Gated row rd → locked = true ∧ latestRollout t.rollouts = rd.rollout

end

section
variable {g : Gateway α β} {row : HermesDecision} {clock : Int} {rd : Readings} {outcome : RiskDecision}

theorem admitted_of_earlyOutcome (h : earlyOutcome g clock row = none) : Admitted g row clock := by
  unfold earlyOutcome at h
  split_ifs at h with hprovider
  rw [not_not] at hprovider
  split at h
  · cases h
  · rename_i hschema
    split at h
    · cases h
    · rename_i hfresh
      exact ⟨hprovider, hschema, hfresh⟩

theorem fresh_of_projection {now : Int} {lastSeenAt : Option Int} (h : projectionIsStale now lastSeenAt = false) :
    ∃ last, lastSeenAt = some last ∧ now - last ≤ 60000000 := by
  cases lastSeenAt with
  | none => cases h
  | some last => exact ⟨last, rfl, not_lt.mp (of_decide_eq_false h)⟩

/-- An outcome that the gate leaves approved was read at a rollout of the whole fleet. -/
theorem applyGate_approved {latest : Option Rollout} {found : Option LiveOpenGate}
    (hfound : currentLiveOpenGate latest = .ok found) (h : (applyGate outcome found).1.status = .approved) :
    ∃ r, latest = some r ∧ strip r.phase = "fleet_complete" := by
  cases latest with
  | none =>
    cases hfound
    cases h
  | some r =>
    refine ⟨r, rfl, ?_⟩
    unfold currentLiveOpenGate at hfound
    dsimp only at hfound
    split_ifs at hfound with habort _ hphase
    · cases hfound
      cases h
    · exact hphase
    · cases hfound
      cases h

end

/-! ## What a worker is at -/

/-- The decision that a worker is at. -/
def Point.row : Point α β → Option HermesDecision
  | .check row | .account row _ | .positions row _ | .riskState row _ _ | .heartbeat row _ _
  | .lockRollouts row _ _ | .rollout row _ _ | .record row _ _ | .findIntent row _ _ _ | .insertIntent row _ _ _ =>
    some row
  | .select | .lock _ | .commit => none

/-- What the checks that a worker has behind it say. -/
def Backed (g : Gateway α β) (t : Tables α β) (w : Worker α β) : Point α β → Prop
  | .account row clock | .positions row clock | .riskState row clock _ => Admitted g row clock
  | .heartbeat row clock verdict => Admitted g row clock ∧ verdict.status = .approved
  | .lockRollouts row rd outcome => Live g row rd ∧ outcome = rd.verdict
  | .rollout row rd outcome => Live g row rd ∧ outcome = rd.verdict ∧ w.rolloutLock = true
  | .record row outcome evaluated => ∀ e, evaluated = some e → outcome.status = .approved →
      Approved g row e.readings ∧ Stands row e.readings t w.rolloutLock
  | .findIntent row _ e _ | .insertIntent row _ e _ =>
      (Approved g row e.readings ∧ Stands row e.readings t w.rolloutLock) ∧
        ∃ r, w.risk = some r ∧ r.hermesDecisionId = row.decisionId
  | .select | .lock _ => w.risk = none ∧ w.intent = none
  | .check _ | .commit => True

/-- A worker among the committed tables: it has locked the decision it is at, which is
undecided, and has written for that one only. -/
structure Proper (g : Gateway α β) (t : Tables α β) (w : Worker α β) : Prop where
  row : ∀ row, w.point.row = some row → w.rowLock = some row.decisionId
  undecided : ∀ d, w.rowLock = some d → ∀ r ∈ t.riskDecisions, r.hermesDecisionId ≠ d
  risk : ∀ r, w.risk = some r → w.rowLock = some r.hermesDecisionId
  intent : ∀ x, w.intent = some x → (∃ r, w.risk = some r ∧ r.hermesDecisionId = x.decision.decisionId) ∧
    Approved g x.decision x.readings ∧ Stands x.decision x.readings t w.rolloutLock
  backed : Backed g t w w.point

/-- Each decision has one risk decision and one intent at most. -/
structure Once (t : Tables α β) : Prop where
  risk : (t.riskDecisions.map (·.hermesDecisionId)).Nodup
  intent : (t.tradeIntents.map (·.decision.decisionId)).Nodup
  decided : ∀ x ∈ t.tradeIntents, ∃ r ∈ t.riskDecisions, r.hermesDecisionId = x.decision.decisionId

theorem proper_fresh (g : Gateway α β) (t : Tables α β) : Proper g t (.fresh : Worker α β) where
  row _ h := by simp [Worker.fresh, Point.row] at h
  undecided _ h := by simp [Worker.fresh] at h
  risk _ h := by simp [Worker.fresh] at h
  intent _ h := by simp [Worker.fresh] at h
  backed := by simp [Worker.fresh, Backed]

section
variable {g : Gateway α β} {t t' : Tables α β} {w : Worker α β}

variable {point : Point α β}

/-- A worker that goes on to another statement of the same decision. -/
theorem Proper.goto (h : Proper g t w) (hrow : ∀ row, point.row = some row → w.point.row = some row)
    (hbacked : Backed g t w point) : Proper g t { w with point := point } where
  row r hr := h.row r (hrow r hr)
  undecided := h.undecided
  risk := h.risk
  intent := h.intent
  backed := by cases point <;> exact hbacked

theorem Backed.tables (hrollouts : w.rolloutLock = true → t'.rollouts = t.rollouts)
    (h : Backed g t w point) : Backed g t' w point := by
  have stands : ∀ {row rd}, Stands row rd t w.rolloutLock → Stands row rd t' w.rolloutLock := by
    intro row rd hs hgated
    rw [hrollouts (hs hgated).1]
    exact hs hgated
  cases point with
  | record row outcome evaluated =>
    intro e he happroved
    exact ⟨(h e he happroved).1, stands (h e he happroved).2⟩
  | findIntent row outcome e id => exact ⟨⟨h.1.1, stands h.1.2⟩, h.2⟩
  | insertIntent row outcome e id => exact ⟨⟨h.1.1, stands h.1.2⟩, h.2⟩
  | _ => exact h

/-- Other tables, where the decision is undecided as well and a rollout that is locked is the same. -/
theorem Proper.tables (h : Proper g t w)
    (hundecided : ∀ d, w.rowLock = some d → ∀ r ∈ t'.riskDecisions, r.hermesDecisionId ≠ d)
    (hrollouts : w.rolloutLock = true → t'.rollouts = t.rollouts) : Proper g t' w where
  row := h.row
  undecided := hundecided
  risk := h.risk
  intent x hx := by
    obtain ⟨hrisk, happroved, hstands⟩ := h.intent x hx
    refine ⟨hrisk, happroved, fun hgated => ?_⟩
    rw [hrollouts (hstands hgated).1]
    exact hstands hgated
  backed := h.backed.tables hrollouts

end

/-! ## A statement -/

section
variable {ι : Type} [Fintype ι] [DecidableEq ι] {g : Gateway α β} {s : State ι α β} {i : ι}

/-- The decision whose lock a worker asks for next. -/
def Point.asks : Point α β → Option String
  | .lock (row :: _) => some row.decisionId
  | _ => none

/-- A lock that is granted is of a decision that is still undecided. -/
def Undecided (s : State ι α β) : Label ι α β → Prop
  | .run i _ _ => (s.workers i).point.asks.all (fun d =>
      s.locked i d || s.tables.riskDecisions.all fun r => r.hermesDecisionId ≠ d) = true
  | _ => True

instance (s : State ι α β) : (label : Label ι α β) → Decidable (Undecided s label)
  | .run _ _ _ => inferInstanceAs (Decidable (_ = _))
  | .abort _ | .decided _ | .positions _ | .riskState _ | .heartbeat _ | .rollouts _ => isTrue trivial

/-- What a statement makes of a worker that is proper: the same of it, with no lock that another holds. -/
def Keeps (g : Gateway α β) (s : State ι α β) (i : ι) (s' : State ι α β) : Prop :=
  ∃ w, s' = s.put i w ∧ Proper g s.tables w ∧
    ∀ d, w.rowLock = some d → (s.workers i).rowLock = some d ∨ s.locked i d = false

theorem Keeps.same (h : Proper g s.tables (s.workers i)) : Keeps g s i s := by
  refine ⟨s.workers i, ?_, h, fun d hd => .inl hd⟩
  rw [State.put, Function.update_eq_self]

variable {point : Point α β} {t : Tables α β} {w : Worker α β} {row : HermesDecision} {clock : Int}

theorem Keeps.goto (h : Proper g s.tables (s.workers i))
    (hrow : ∀ row, point.row = some row → (s.workers i).point.row = some row)
    (hbacked : Backed g s.tables (s.workers i) point) : Keeps g s i (s.goto i point) :=
  ⟨_, rfl, h.goto hrow hbacked, fun _ hd => .inl hd⟩

/-- The next statement is not one about a decision. -/
theorem Keeps.leave (h : Proper g s.tables (s.workers i)) (hrow : point.row = none)
    (hbacked : Backed g s.tables (s.workers i) point) : Keeps g s i (s.goto i point) :=
  .goto h (fun row hr => by rw [hrow] at hr; cases hr) hbacked

theorem Keeps.fresh : Keeps g s i (s.put i .fresh) :=
  ⟨_, rfl, proper_fresh g s.tables, fun _ hd => by cases hd⟩

/-- The verdict of the governor, and what comes after it. -/
theorem backed_afterVerdict (h : Admitted g row clock) (verdict : RiskDecision) :
    Backed g t w (State.afterVerdict row clock verdict) := by
  unfold State.afterVerdict
  split_ifs with hstatus
  · exact ⟨h, hstatus⟩
  · intro e _ happroved
    exact absurd happroved hstatus

theorem row_afterVerdict (row : HermesDecision) (clock : Int) (verdict : RiskDecision) :
    (State.afterVerdict row clock verdict : Point α β).row = some row := by
  unfold State.afterVerdict
  split_ifs <;> rfl

theorem backed_afterHeartbeat {rd : Readings} (h : Live g row rd) :
    Backed g t w (State.afterHeartbeat row rd rd.verdict) := by
  unfold State.afterHeartbeat
  split_ifs with hgated
  · exact ⟨h, rfl⟩
  · intro e he _
    cases he
    have hnot : ¬ Gated row rd := by
      rintro ⟨hopening, hcontains⟩
      apply hgated
      unfold isGated
      rw [h.verdict, hopening, hcontains]
      rfl
    exact ⟨⟨h, fun hg => absurd hg hnot⟩, fun hg => absurd hg hnot⟩

theorem row_afterHeartbeat (row : HermesDecision) (rd : Readings) (outcome : RiskDecision) :
    (State.afterHeartbeat row rd outcome : Point α β).row = some row := by
  unfold State.afterHeartbeat
  split_ifs <;> rfl

theorem run_keeps (h : Proper g s.tables (s.workers i)) {uuid : String}
    (hcurrent : Undecided s (.run i clock uuid)) :
    s.run g i clock uuid = s.commit i ∨ Keeps g s i (s.run g i clock uuid) := by
  have hbacked := h.backed
  have hcurrent : (s.workers i).point.asks.all (fun d =>
      s.locked i d || s.tables.riskDecisions.all fun r => r.hermesDecisionId ≠ d) = true := hcurrent
  unfold State.run
  dsimp only
  cases hpt : (s.workers i).point with
  | select =>
    rw [hpt] at hbacked
    exact .inr (.leave h rfl hbacked)
  | lock candidates =>
    cases candidates with
    | nil => exact .inl rfl
    | cons row rest =>
      dsimp only
      rw [hpt] at hbacked hcurrent
      split_ifs with hlocked
      · exact .inr (.leave h rfl hbacked)
      · have hfree : s.locked i row.decisionId = false := by simpa using hlocked
        simp only [Point.asks, Option.all_some, hfree, Bool.false_or, List.all_eq_true, decide_eq_true_eq]
          at hcurrent
        refine .inr ⟨_, rfl, ⟨fun r hr => ?_, fun d hd => ?_, fun r hr => ?_, fun x hx => ?_, trivial⟩, fun d hd => ?_⟩
        · cases hr
          rfl
        · cases hd
          exact hcurrent
        · cases hbacked.1.symm.trans hr
        · cases hbacked.2.symm.trans hx
        · cases hd
          exact .inr hfree
  | check row =>
    have hrow : ∀ r, some row = some r → (s.workers i).point.row = some r := fun r hr => by rw [hpt]; exact hr
    dsimp only
    split
    · exact .inr (.goto h hrow fun e he => by cases he)
    · rename_i hearly
      exact .inr (.goto h hrow (admitted_of_earlyOutcome hearly))
  | account row started =>
    have hrow : ∀ r, some row = some r → (s.workers i).point.row = some r := fun r hr => by rw [hpt]; exact hr
    rw [hpt] at hbacked
    dsimp only
    split
    · split_ifs
      · exact .inr (.same h)
      · refine .inr ⟨_, rfl, ⟨fun r hr => h.row r (hrow r hr), h.undecided, h.risk, h.intent, hbacked⟩,
          fun d hd => .inl hd⟩
      · exact .inr (.goto h hrow hbacked)
    · exact .inr (.goto h hrow hbacked)
  | positions row started =>
    have hrow : ∀ r, some row = some r → (s.workers i).point.row = some r := fun r hr => by rw [hpt]; exact hr
    rw [hpt] at hbacked
    exact .inr (.goto h hrow hbacked)
  | riskState row started positions =>
    have hrow : ∀ r, some row = some r → (s.workers i).point.row = some r := fun r hr => by rw [hpt]; exact hr
    rw [hpt] at hbacked
    refine .inr (.goto h (fun r hr => hrow r ?_) (backed_afterVerdict hbacked _))
    rwa [row_afterVerdict] at hr
  | heartbeat row started verdict =>
    have hrow : ∀ r, some row = some r → (s.workers i).point.row = some r := fun r hr => by rw [hpt]; exact hr
    rw [hpt] at hbacked
    dsimp only
    split_ifs with hstale
    · refine .inr (.goto h hrow fun e _ happroved => ?_)
      cases happroved
    · obtain ⟨last, hlast, hfresh⟩ := fresh_of_projection (by simpa using hstale)
      rw [hlast]
      have hlive : Live g row ⟨started, verdict, some (clock, last), none⟩ :=
        ⟨hbacked.1, hbacked.2, clock, last, rfl, hfresh⟩
      refine .inr (.goto h (fun r hr => hrow r ?_) (backed_afterHeartbeat hlive))
      rwa [row_afterHeartbeat] at hr
  | lockRollouts row rd outcome =>
    have hrow : ∀ r, some row = some r → (s.workers i).point.row = some r := fun r hr => by rw [hpt]; exact hr
    rw [hpt] at hbacked
    refine .inr ⟨_, rfl, ⟨fun r hr => h.row r (hrow r hr), h.undecided, h.risk, fun x hx => ?_,
      hbacked.1, hbacked.2, rfl⟩, fun d hd => .inl hd⟩
    obtain ⟨hrisk, happroved, hstands⟩ := h.intent x hx
    exact ⟨hrisk, happroved, fun hgated => ⟨rfl, (hstands hgated).2⟩⟩
  | rollout row rd outcome =>
    have hrow : ∀ r, some row = some r → (s.workers i).point.row = some r := fun r hr => by rw [hpt]; exact hr
    rw [hpt] at hbacked
    dsimp only
    split
    · exact .inr .fresh
    · rename_i found hfound
      refine .inr (.goto h hrow fun e he happroved => ?_)
      cases he
      obtain ⟨r, hr, hphase⟩ := applyGate_approved hfound happroved
      exact ⟨⟨⟨⟨hbacked.1.provider, hbacked.1.schema, hbacked.1.fresh⟩, hbacked.1.verdict, hbacked.1.heartbeat⟩,
        fun _ => ⟨r, hr, hphase⟩⟩, fun _ => ⟨hbacked.2.2, rfl⟩⟩
  | record row outcome evaluated =>
    have hrow : ∀ r, some row = some r → (s.workers i).point.row = some r := fun r hr => by rw [hpt]; exact hr
    have hlock := h.row row (by rw [hpt]; rfl)
    rw [hpt] at hbacked
    -- what the transaction wrote before was for the same decision
    have hkept : ∀ (r : RiskDecisionRow), r.hermesDecisionId = row.decisionId → ∀ x, (s.workers i).intent = some x →
        (∃ r', some r = some r' ∧ r'.hermesDecisionId = x.decision.decisionId) ∧
          Approved g x.decision x.readings ∧ Stands x.decision x.readings s.tables (s.workers i).rolloutLock := by
      intro r hr x hx
      obtain ⟨⟨old, hold, hid⟩, hrest⟩ := h.intent x hx
      have hsame := Option.some.inj (hlock.symm.trans (h.risk old hold))
      exact ⟨⟨r, rfl, hr.trans (hsame.trans hid)⟩, hrest⟩
    dsimp only
    split
    · rename_i e hstatus
      refine .inr ⟨_, rfl, ⟨fun r hr => h.row r (hrow r hr), h.undecided, fun r hr => ?_, fun x hx => ?_,
        hbacked e rfl hstatus, _, rfl, rfl⟩, fun d hd => .inl hd⟩
      · cases hr
        exact hlock
      · exact hkept _ rfl x hx
    · refine .inr ⟨_, rfl, ⟨fun r hr => ?_, h.undecided, fun r hr => ?_, fun x hx => ?_, trivial⟩,
        fun d hd => .inl hd⟩
      · cases hr
      · cases hr
        exact hlock
      · exact hkept _ rfl x hx
  | findIntent row outcome e riskDecisionId =>
    have hrow : ∀ r, some row = some r → (s.workers i).point.row = some r := fun r hr => by rw [hpt]; exact hr
    rw [hpt] at hbacked
    dsimp only
    split_ifs
    · exact .inr (.leave h rfl trivial)
    · exact .inr (.goto h hrow hbacked)
  | insertIntent row outcome e riskDecisionId =>
    rw [hpt] at hbacked
    dsimp only
    split_ifs
    · exact .inr (.same h)
    · exact .inr .fresh
    · refine .inr ⟨_, rfl, ⟨fun r hr => ?_, h.undecided, h.risk, fun x hx => ?_, trivial⟩, fun d hd => .inl hd⟩
      · cases hr
      · cases hx
        exact ⟨hbacked.2, hbacked.1⟩
  | commit => exact .inl rfl

/-! ## A run -/

/-- Every worker is proper, no two have locked a decision, and what is committed was
decided once and on full approval. -/
structure Kept (g : Gateway α β) (start : Tables α β) (s : State ι α β) : Prop where
  once : Once s.tables
  approved : ∀ x ∈ s.tables.tradeIntents, x ∈ start.tradeIntents ∨ Approved g x.decision x.readings
  proper : ∀ i, Proper g s.tables (s.workers i)
  apart : ∀ i j d, (s.workers i).rowLock = some d → (s.workers j).rowLock = some d → i = j

variable {start : Tables α β}

omit [Fintype ι] [DecidableEq ι] in
theorem Kept.begun (hs : Once start) : Kept g start (begun start : State ι α β) where
  once := hs
  approved x hx := .inl hx
  proper i := proper_fresh g start
  apart i j d hi := by cases hi

/-- One worker changes, and locks no decision that another has locked. -/
theorem Kept.put (h : Kept g start s) (hw : Proper g s.tables w)
    (hlock : ∀ d, w.rowLock = some d → (s.workers i).rowLock = some d ∨ s.locked i d = false) :
    Kept g start (s.put i w) where
  once := h.once
  approved := h.approved
  proper j := by
    by_cases hj : j = i
    · subst hj
      simpa [State.put] using hw
    · simpa [State.put, Function.update_of_ne hj] using h.proper j
  apart := by
    have other : ∀ j d, j ≠ i → (s.workers j).rowLock = some d → w.rowLock ≠ some d := by
      intro j d hj hjd hwd
      rcases hlock d hwd with hi | hfree
      · exact hj (h.apart j i d hjd hi)
      · have hlocked : s.locked i d = true := decide_eq_true ⟨j, hj, hjd⟩
        exact absurd (hfree.symm.trans hlocked) nofun
    intro j k d hjd hkd
    by_cases hj : j = i
    · by_cases hk : k = i
      · rw [hj, hk]
      · subst hj
        simp only [State.put, Function.update_self, Function.update_of_ne hk] at hjd hkd
        exact absurd hjd (other k d hk hkd)
    · by_cases hk : k = i
      · subst hk
        simp only [State.put, Function.update_self, Function.update_of_ne hj] at hjd hkd
        exact absurd hkd (other j d hj hjd)
      · simp only [State.put, Function.update_of_ne hj, Function.update_of_ne hk] at hjd hkd
        exact h.apart j k d hjd hkd

omit [Fintype ι] [DecidableEq ι] in
/-- Others commit to tables that the workers do not write. -/
theorem Kept.tables (h : Kept g start s) (hrisk : t.riskDecisions = s.tables.riskDecisions)
    (hintents : t.tradeIntents = s.tables.tradeIntents)
    (hrollouts : ∀ i, (s.workers i).rolloutLock = true → t.rollouts = s.tables.rollouts) :
    Kept g start { s with tables := t } where
  once := by
    obtain ⟨h1, h2, h3⟩ := h.once
    rw [← hrisk] at h1 h3
    rw [← hintents] at h2 h3
    exact ⟨h1, h2, h3⟩
  approved x hx := h.approved x (hintents ▸ hx)
  proper i := (h.proper i).tables (fun d hd r hr => (h.proper i).undecided d hd r (hrisk ▸ hr)) (hrollouts i)
  apart := h.apart

omit [Fintype ι] in
/-- A commit adds one risk decision at most, for the decision that was locked, and the intent on it. -/
theorem Kept.commit (h : Kept g start s) : Kept g start (s.commit i) := by
  have hi := h.proper i
  -- the decision that is committed had none before, and nobody else has locked it
  have hnew : ∀ r, (s.workers i).risk = some r →
      (∀ r' ∈ s.tables.riskDecisions, r'.hermesDecisionId ≠ r.hermesDecisionId) ∧
        ∀ j, j ≠ i → (s.workers j).rowLock ≠ some r.hermesDecisionId := by
    intro r hr
    have hlock := hi.risk r hr
    exact ⟨hi.undecided _ hlock, fun j hj hjlock => hj (h.apart j i _ hjlock hlock)⟩
  have hrollouts : (s.commit i).tables.rollouts = s.tables.rollouts := rfl
  refine ⟨⟨?_, ?_, ?_⟩, ?_, fun j => ?_, fun j k d hj hk => ?_⟩
  · show ((s.tables.riskDecisions ++ (s.workers i).risk.toList).map (·.hermesDecisionId)).Nodup
    cases hrisk : (s.workers i).risk with
    | none => simpa using h.once.risk
    | some r =>
      rw [Option.toList_some, List.map_append]
      refine List.Nodup.append h.once.risk (List.nodup_singleton _) fun d hd hd' => ?_
      obtain ⟨r', hr', rfl⟩ := List.mem_map.mp hd
      exact (hnew r hrisk).1 r' hr' (List.mem_singleton.mp hd')
  · show ((s.tables.tradeIntents ++ (s.workers i).intent.toList).map (·.decision.decisionId)).Nodup
    cases hintent : (s.workers i).intent with
    | none => simpa using h.once.intent
    | some x =>
      obtain ⟨⟨r, hr, hid⟩, -⟩ := hi.intent x hintent
      rw [Option.toList_some, List.map_append]
      refine List.Nodup.append h.once.intent (List.nodup_singleton _) fun d hd hd' => ?_
      obtain ⟨y, hy, rfl⟩ := List.mem_map.mp hd
      obtain ⟨r', hr', hid'⟩ := h.once.decided y hy
      exact (hnew r hr).1 r' hr' (hid'.trans ((List.mem_singleton.mp hd').trans hid.symm))
  · intro x hx
    rcases List.mem_append.mp hx with hx | hx
    · obtain ⟨r, hr, hid⟩ := h.once.decided x hx
      exact ⟨r, List.mem_append_left _ hr, hid⟩
    · obtain ⟨⟨r, hr, hid⟩, -⟩ := hi.intent x (Option.mem_toList.mp hx)
      exact ⟨r, List.mem_append_right _ (Option.mem_toList.mpr hr), hid⟩
  · intro x hx
    rcases List.mem_append.mp hx with hx | hx
    · exact h.approved x hx
    · exact .inr (hi.intent x (Option.mem_toList.mp hx)).2.1
  · by_cases hj : j = i
    · subst hj
      rw [show (s.commit j).workers j = .fresh from Function.update_self _ _ _]
      exact proper_fresh g _
    · rw [show (s.commit i).workers j = s.workers j from Function.update_of_ne hj _ _]
      refine (h.proper j).tables (fun d hd r hr => ?_) fun _ => hrollouts
      rcases List.mem_append.mp hr with hr | hr
      · exact (h.proper j).undecided d hd r hr
      · intro heq
        exact (hnew r (Option.mem_toList.mp hr)).2 j hj (heq ▸ hd)
  · have back : ∀ l, ((s.commit i).workers l).rowLock = some d → (s.workers l).rowLock = some d := by
      intro l hl
      by_cases hli : l = i
      · subst hli
        rw [show (s.commit l).workers l = .fresh from Function.update_self _ _ _] at hl
        cases hl
      · rwa [show (s.commit i).workers l = s.workers l from Function.update_of_ne hli _ _] at hl
    exact h.apart j k d (back j hj) (back k hk)

theorem Kept.next (h : Kept g start s) {label : Label ι α β} (hcurrent : Undecided s label) :
    Kept g start (s.next g label) := by
  cases label with
  | run i clock uuid =>
    show Kept g start (s.run g i clock uuid)
    rcases run_keeps (h.proper i) hcurrent with hrun | ⟨w, hrun, hw, hlock⟩
    · rw [hrun]
      exact h.commit
    · rw [hrun]
      exact h.put hw hlock
  | abort i => exact h.put (proper_fresh g s.tables) fun d hd => by cases hd
  | decided row => exact h.tables rfl rfl fun _ _ => rfl
  | positions positions => exact h.tables rfl rfl fun _ _ => rfl
  | riskState riskState => exact h.tables rfl rfl fun _ _ => rfl
  | heartbeat lastSeenAt => exact h.tables rfl rfl fun _ _ => rfl
  | rollouts rollouts =>
    show Kept g start (if s.rolloutsLocked then s else _)
    split_ifs with hlocked
    · exact h
    · refine h.tables rfl rfl fun i hi => ?_
      exact absurd (decide_eq_true ⟨i, hi⟩) hlocked

/-- What the claim of one decision and of full approval says of a state that a run reached. -/
structure Sound (g : Gateway α β) (start : Tables α β) (s : State ι α β) : Prop where
  once : Once s.tables
  approved : ∀ x ∈ s.tables.tradeIntents, x ∈ start.tradeIntents ∨ Approved g x.decision x.readings
  written : ∀ i x, (s.workers i).intent = some x → Approved g x.decision x.readings ∧
    (Gated x.decision x.readings → latestRollout s.tables.rollouts = x.readings.rollout)

/-- **While no decision is locked that was decided since the snapshot, each is decided
once; and every intent is written on full approval.** -/
theorem decided_once (g : Gateway α β) {start : Tables α β} (hstart : Once start) {labels : List (Label ι α β)}
    (hcurrent : (workers ι g).Meets Undecided (begun start) labels) :
    ∀ done, done <+: labels → Sound g start ((workers ι g).after (begun start) done) := by
  rintro done ⟨rest, rfl⟩
  have hkept : Kept g start ((workers ι g).after (begun start) done) :=
    Machine.invariant_of_meets
      (fun s label (h : Kept g start s) hc => show Kept g start ((workers ι g).next s label) from h.next hc)
      (Kept.begun hstart) (Machine.meets_append.mp hcurrent).1
  refine ⟨hkept.once, hkept.approved, fun i x hx => ?_⟩
  obtain ⟨-, happroved, hstands⟩ := (hkept.proper i).intent x hx
  exact ⟨happroved, fun hgated => (hstands hgated).2⟩

end
end

/-! ## Two workers -/

/-- A gateway whose governor approves opening positions and holds the rest. -/
def openGateway : Gateway Unit Unit where
  defaultAccountId := some "account-a"
  schemaProblem _ := none
  freshnessProblem _ _ := none
  evaluate row _ _ :=
    if row.action = "open_position" then
      ⟨.approved, some "account-a", row.instrumentSymbol, .obj [], "all checks passed", []⟩
    else ⟨.needsReview, none, row.instrumentSymbol, .obj [], "ambiguous or non-actionable decision",
      [⟨"actionable", false, some "ambiguous or non-actionable decision"⟩]⟩
  sha256 text := text

def openingDecision : HermesDecision := ⟨"d-1", 0, "hermes", "open_position", some "BTCUSDT", none, .null⟩

/-- One decision to open, a node that just sent a heartbeat, a rollout of the whole fleet. -/
def oneDecision : Tables Unit Unit where
  decisions := [openingDecision]
  riskDecisions := []
  tradeIntents := []
  positions _ := ()
  riskState _ _ := ()
  lastSeenAt := some 0
  rollouts := [⟨"r-1", "fleet_complete", 3, 0⟩]

theorem once_oneDecision : Once oneDecision where
  risk := List.nodup_nil
  intent := List.nodup_nil
  decided x hx := by cases hx

/-- Statements of a worker, with the id that it draws. -/
def statements (i : Fin 2) (uuid : String) (n : Nat) : List (Label (Fin 2) Unit Unit) :=
  List.replicate n (.run i 0 uuid)

/-- One worker after the other. -/
def inTurn : List (Label (Fin 2) Unit Unit) := statements 0 "a" 13 ++ statements 1 "b" 2

theorem decided_once_inTurn :
    Sound openGateway oneDecision ((workers (Fin 2) openGateway).after (begun oneDecision) inTurn) :=
  decided_once openGateway once_oneDecision (by decide +kernel) inTurn (List.prefix_refl _)

/-- Both workers take their snapshot before the first of them locks the decision. -/
def bothLooked : List (Label (Fin 2) Unit Unit) :=
  statements 0 "a" 1 ++ statements 1 "b" 1 ++ statements 0 "a" 12 ++ statements 1 "b" 11

def decisionsOnceBothLooked : List String :=
  ((workers (Fin 2) openGateway).after (begun oneDecision) bothLooked).tables.riskDecisions.map (·.hermesDecisionId)

/-- The second worker locks the decision after the first one committed, and decides it again. -/
theorem decided_twice : Once oneDecision ∧ decisionsOnceBothLooked = ["d-1", "d-1"] ∧
    ¬ Once ((workers (Fin 2) openGateway).after (begun oneDecision) bothLooked).tables := by
  have htwice : decisionsOnceBothLooked = ["d-1", "d-1"] := by decide +kernel
  refine ⟨once_oneDecision, htwice, fun h => ?_⟩
  have hnodup : decisionsOnceBothLooked.Nodup := h.risk
  rw [htwice] at hnodup
  exact absurd hnodup (by decide)

end TraderBot.DecisionGateway
