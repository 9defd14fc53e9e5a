import TraderBot.Lifecycle.Model

/-! # What a replay keeps

A plan that was cancelled or has expired is never active again,
  and a closed claim stays closed. A deadline is
another matter: its expiry is an event that is sorted in by its own clock, and where it stands before the
proposal it finds no plan to expire. The plan that the proposal then opens stays open. -/
namespace TraderBot.Lifecycle

/-! ## One step -/

theorem transition_still {plan : PlanState} {claim : ClaimState} {kind : Kind}
    (h : (transition plan claim kind).2.2 ≠ .moves) :
    (transition plan claim kind).1 = plan ∧ (transition plan claim kind).2.1 = claim := by
  unfold transition at h ⊢
  split
  · exact ⟨rfl, rfl⟩
  · split
    all_goals first
      | exact ⟨rfl, rfl⟩
      | simp_all

/-- The two tracks. -/
abbrev Tracks := PlanState × ClaimState

/-- What an event of a kind does to the tracks. -/
def advance (s : Tracks) (kind : Kind) : Tracks :=
  ((transition s.1 s.2 kind).1, (transition s.1 s.2 kind).2.1)

/-- A plan that is over. -/
def PlanState.Ended (plan : PlanState) : Prop := plan = .cancelled ∨ plan = .expired

theorem advance_ended {s : Tracks} (h : s.1.Ended) (kind : Kind) : (advance s kind).1 = s.1 := by
  obtain ⟨plan, claim⟩ := s
  rcases h with h | h
  all_goals
    cases h
    cases claim <;> cases kind <;> rfl

theorem advance_closed {s : Tracks} (h : s.2 = .claimedClosed) (kind : Kind) :
    (advance s kind).2 = .claimedClosed := by
  obtain ⟨plan, claim⟩ := s
  cases h
  cases plan <;> cases kind <;> rfl

/-- Tracks that no event makes active: a claim came before any plan, or the plan is over. -/
def Barred (s : Tracks) : Prop := s.1 ≠ .active ∧ s ≠ (.none, .unknown)

theorem advance_barred {s : Tracks} (h : Barred s) (kind : Kind) : Barred (advance s kind) := by
  obtain ⟨plan, claim⟩ := s
  obtain ⟨hactive, hfresh⟩ := h
  cases plan with
  | none =>
    cases claim with
    | unknown => exact absurd rfl hfresh
    | claimedOpen => cases kind <;> exact ⟨by decide, by decide⟩
    | claimedClosed => cases kind <;> exact ⟨by decide, by decide⟩
  | active => exact absurd rfl hactive
  | cancelled => cases claim <;> cases kind <;> exact ⟨by decide, by decide⟩
  | expired => cases claim <;> cases kind <;> exact ⟨by decide, by decide⟩

/-! ## A run of kinds -/

def run (s : Tracks) (kinds : List Kind) : Tracks := kinds.foldl advance s

/-- An active plan whose claim is not closed. -/
def IsOpen (s : Tracks) : Prop := s.1 = .active ∧ s.2 ≠ .claimedClosed

/-- The kinds that end an open plan or close its claim. -/
def Kind.Ends (kind : Kind) : Prop := kind = .cancel ∨ kind = .expire ∨ kind = .closeClaimed

/-- The kinds that settle what the first plan can be. -/
def Kind.Settles (kind : Kind) : Prop := kind = .entryProposal ∨ kind = .entryClaimed ∨ kind = .closeClaimed

theorem run_barred {s : Tracks} (h : Barred s) (kinds : List Kind) : Barred (run s kinds) := by
  induction kinds generalizing s with
  | nil => exact h
  | cons kind kinds ih => exact ih (advance_barred h kind)

theorem run_ended {s : Tracks} (h : s.1.Ended) (kinds : List Kind) : (run s kinds).1 = s.1 := by
  induction kinds generalizing s with
  | nil => rfl
  | cons kind kinds ih =>
    have hsame := advance_ended h kind
    have hended : (advance s kind).1.Ended := by rwa [hsame]
    exact (ih hended).trans hsame

theorem run_closed {s : Tracks} (h : s.2 = .claimedClosed) (kinds : List Kind) :
    (run s kinds).2 = .claimedClosed := by
  induction kinds generalizing s with
  | nil => exact h
  | cons kind kinds ih => exact ih (advance_closed h kind)

/-- An open plan stays open exactly under the kinds that do not end it. -/
theorem advance_isOpen {s : Tracks} (h : IsOpen s) (kind : Kind) :
    (¬ kind.Ends → IsOpen (advance s kind)) ∧
      (kind.Ends → (advance s kind).1.Ended ∨ (advance s kind).2 = .claimedClosed) := by
  obtain ⟨plan, claim⟩ := s
  obtain ⟨hactive, hclaim⟩ := h
  cases hactive
  cases claim with
  | claimedClosed => exact absurd rfl hclaim
  | _ => cases kind <;> simp [Kind.Ends, IsOpen, PlanState.Ended, advance, transition, Kind.column, table, row]

theorem run_isOpen_iff {s : Tracks} (h : IsOpen s) (kinds : List Kind) :
    IsOpen (run s kinds) ↔ ∀ kind ∈ kinds, ¬ kind.Ends := by
  induction kinds generalizing s with
  | nil => exact iff_of_true h nofun
  | cons kind kinds ih =>
    obtain ⟨hstays, hends⟩ := advance_isOpen h kind
    rw [List.forall_mem_cons]
    by_cases hkind : kind.Ends
    · refine iff_of_false (fun hopen => ?_) fun hall => hall.1 hkind
      rcases hends hkind with hended | hclosed
      · have hsame := run_ended hended kinds
        rcases hended with hover | hover
        all_goals
          have hactive := hopen.1
          change (run (advance s kind) kinds).1 = .active at hactive
          rw [hsame, hover] at hactive
          cases hactive
      · exact hopen.2 (run_closed hclosed kinds)
    · exact (ih (hstays hkind)).trans (and_iff_right hkind).symm

/-- The first kind that settles anything is a proposal, and nothing after it ends the plan. -/
def StaysOpen (kinds : List Kind) : Prop :=
  ∃ before after, kinds = before ++ .entryProposal :: after ∧ (∀ kind ∈ before, ¬ kind.Settles) ∧
    ∀ kind ∈ after, ¬ kind.Ends

theorem staysOpen_cons {kind : Kind} {kinds : List Kind} (h : ¬ kind.Settles) :
    StaysOpen (kind :: kinds) ↔ StaysOpen kinds := by
  constructor
  · rintro ⟨before, after, heq, hbefore, hafter⟩
    cases before with
    | nil =>
      cases heq
      exact absurd (.inl rfl) h
    | cons first before =>
      cases heq
      exact ⟨before, after, rfl, fun k hk => hbefore k (List.mem_cons_of_mem _ hk), hafter⟩
  · rintro ⟨before, after, rfl, hbefore, hafter⟩
    exact ⟨kind :: before, after, rfl, List.forall_mem_cons.mpr ⟨h, hbefore⟩, hafter⟩

/-- **When a replay ends with an open plan.** -/
theorem run_start_iff (kinds : List Kind) : IsOpen (run (.none, .unknown) kinds) ↔ StaysOpen kinds := by
  induction kinds with
  | nil =>
    refine iff_of_false (fun h => absurd h.1 (by decide)) ?_
    rintro ⟨before, after, heq, -⟩
    cases before <;> cases heq
  | cons kind kinds ih =>
    by_cases hsettles : kind.Settles
    · -- from a settled start only a proposal opens the plan
      have hsplit : StaysOpen (kind :: kinds) ↔ kind = .entryProposal ∧ ∀ k ∈ kinds, ¬ k.Ends := by
        constructor
        · rintro ⟨before, after, heq, hbefore, hafter⟩
          cases before with
          | nil =>
            cases heq
            exact ⟨rfl, hafter⟩
          | cons first before =>
            cases heq
            exact absurd hsettles (hbefore kind List.mem_cons_self)
        · rintro ⟨rfl, hafter⟩
          exact ⟨[], kinds, rfl, nofun, hafter⟩
      rw [hsplit]
      rcases hsettles with rfl | rfl | rfl
      · exact (@run_isOpen_iff (.active, .unknown) ⟨rfl, by decide⟩ kinds).trans (and_iff_right rfl).symm
      all_goals
        refine iff_of_false (fun h => ?_) fun h => absurd h.1 (by decide)
        refine (run_barred (?_ : Barred _) kinds).1 h.1
        exact ⟨by decide, by decide⟩
    · rw [staysOpen_cons hsettles, ← ih]
      have hsame : advance (.none, .unknown) kind = (.none, .unknown) := by
        cases kind <;> first | rfl | exact absurd (by simp [Kind.Settles]) hsettles
      show IsOpen (run (advance (.none, .unknown) kind) kinds) ↔ _
      rw [hsame]

/-! ## The replay -/

section
variable (source : Source) (eventId : String → Kind → Nat → String)

def Replay.tracks (s : Replay) : Tracks := (s.plan, s.claim)

/-- Whatever a turn does with corrections, its tracks are those of the table. -/
theorem replayEvent_tracks (s : Replay) (e : Event) :
    (replayEvent source eventId s e).tracks = advance s.tracks (source.kindOf e) := by
  have hstill := @transition_still s.plan s.claim (source.kindOf e)
  unfold replayEvent Replay.tracks advance
  generalize transition s.plan s.claim (source.kindOf e) = t at *
  obtain ⟨plan, claim, action⟩ := t
  dsimp only at hstill ⊢
  by_cases hmoves : action = .moves
  · subst hmoves
    simp
  · obtain ⟨rfl, rfl⟩ := hstill hmoves
    rw [ite_self, ite_self]

theorem replay_append (before after : List Event) : replay source eventId (before ++ after) =
    after.foldl (replayEvent source eventId) (replay source eventId before) := List.foldl_append

theorem foldl_tracks (s : Replay) (events : List Event) :
    (events.foldl (replayEvent source eventId) s).tracks = run s.tracks (events.map source.kindOf) := by
  induction events generalizing s with
  | nil => rfl
  | cons e events ih =>
    rw [List.foldl_cons, ih, replayEvent_tracks]
    rfl

/-- The rows whose payload says that the transition is invalid. -/
def Replay.invalidRows (s : Replay) : List Row := s.rows.filter (·.payload.invalidTransition)

/-- Superseding a row leaves its payload as it is. -/
theorem supersede_payload (targets : List (Field × String)) (at' : Option Int) (r : Row) :
    (supersede targets at' r).payload = r.payload := by
  unfold supersede
  split_ifs <;> rfl

theorem length_filter_supersede (targets : List (Field × String)) (at' : Option Int) (rows : List Row) :
    ((rows.map (supersede targets at')).filter (·.payload.invalidTransition)).length =
      (rows.filter (·.payload.invalidTransition)).length := by
  rw [List.filter_map, List.length_map]
  congr 2
  funext r
  rw [Function.comp_apply, supersede_payload]

theorem replayEvent_invalid {s : Replay} (h : s.nInvalid = s.invalidRows.length) (e : Event) :
    (replayEvent source eventId s e).nInvalid = (replayEvent source eventId s e).invalidRows.length := by
  unfold Replay.invalidRows at h ⊢
  unfold replayEvent
  generalize transition s.plan s.claim (source.kindOf e) = t
  obtain ⟨plan, claim, action⟩ := t
  dsimp only
  generalize (if action = .corrects then corrections source e s else ([], [])) = found
  obtain ⟨fields, targets⟩ := found
  dsimp only
  generalize (if action = .corrects ∧ (fields = [] ∨ targets.length ≠ fields.length) then Action.ignored else action) =
    action'
  rw [List.filter_append, List.length_append]
  have hrows : ∀ corrects : Prop, ∀ _ : Decidable corrects,
      ((if corrects then s.rows.map (supersede targets e.edgeAvailableAt) else s.rows).filter
        (·.payload.invalidTransition)).length = s.nInvalid := by
    intro corrects _
    split_ifs
    · rw [length_filter_supersede, h]
    · exact h.symm
  rw [hrows]
  by_cases hignored : action' = .ignored
  · simp [hignored]
  · simp [hignored]

theorem replay_invalid (events : List Event) :
    (replay source eventId events).nInvalid = (replay source eventId events).invalidRows.length := by
  unfold replay
  suffices h : ∀ s : Replay, s.nInvalid = s.invalidRows.length →
      (events.foldl (replayEvent source eventId) s).nInvalid =
        (events.foldl (replayEvent source eventId) s).invalidRows.length from h _ rfl
  induction events with
  | nil => exact fun s hs => hs
  | cons e events ih => exact fun s hs => ih _ (replayEvent_invalid source eventId hs e)

/-! ## Deadlines -/

/-- The events stand in the order of their keys. -/
theorem events_sorted : source.events.Pairwise fun a b => source.eventKey a ≤ source.eventKey b := by
  have : Std.Total fun a b : Event => source.eventKey a ≤ source.eventKey b := ⟨fun _ _ => le_total _ _⟩
  have : IsTrans Event fun a b => source.eventKey a ≤ source.eventKey b := ⟨fun _ _ _ => le_trans⟩
  exact List.pairwise_insertionSort _ _

theorem mem_events (e : Event) : e ∈ source.events ↔ e ∈ source.unsorted := List.mem_insertionSort _

/-- **A deadline no earlier than the root's own clock is honoured**: the expiry stands behind the root. -/
theorem on_time_closes {deadline available : Int} (horphan : source.orphan = false)
    (hzero : source.root.expiresAfterS ≠ some 0) (hdeadline : source.deadline = some deadline)
    (hend : deadline ≤ source.observationEnd) (hroot : source.root.availableAt = some available)
    (hle : available ≤ deadline) : ¬ StaysOpen (source.events.map source.kindOf) := by
  rintro ⟨before, after, heq, hbefore, hafter⟩
  obtain ⟨evs, rest, hsplit, rfl, hrest⟩ := List.map_eq_append_iff.mp heq
  obtain ⟨first, later, rfl, hfirst, rfl⟩ := List.map_eq_cons_iff.mp hrest
  have hexpire : source.expireAt = some deadline := by
    unfold Source.expireAt
    rw [horphan, hdeadline]
    simp [hzero, hend]
  have hexpiry : source.expiryEvent deadline ∈ source.events := by
    rw [mem_events, Source.unsorted, hexpire]
    simp
  have hrootMem : source.rootEvent ∈ source.events := by
    rw [mem_events, Source.unsorted]
    simp
  have hrootKind : source.kindOf source.rootEvent = .entryProposal := by
    simp [Source.kindOf, Source.rootEvent, horphan]
  have hexpiryKind : source.kindOf (source.expiryEvent deadline) = .expire := by
    simp [Source.kindOf, Source.expiryEvent]
  rw [hsplit] at hexpiry hrootMem
  have hbehind : source.rootEvent ∈ first :: later := by
    refine (List.mem_append.mp hrootMem).resolve_left fun hmem => ?_
    exact hbefore _ (List.mem_map_of_mem hmem) (.inl hrootKind)
  have hahead : source.expiryEvent deadline ∈ evs := by
    refine (List.mem_append.mp hexpiry).resolve_right fun hmem => ?_
    rcases List.mem_cons.mp hmem with hhead | htail
    · rw [← hhead, hexpiryKind] at hfirst
      cases hfirst
    · exact hafter _ (List.mem_map_of_mem htail) (.inr (.inl hexpiryKind))
  have hsorted := events_sorted source
  rw [hsplit, List.pairwise_append] at hsorted
  have hkeys := hsorted.2.2 _ hahead _ hbehind
  unfold Source.eventKey at hkeys
  rw [Prod.Lex.le_iff, Prod.Lex.le_iff] at hkeys
  simp [Source.expiryEvent, Source.rootEvent, hroot] at hkeys
  omega

/-- The episode has reached its deadline before the observation ended. -/
def DeadlineReached : Prop := ∃ deadline, source.deadline = some deadline ∧ deadline ≤ source.observationEnd

/-- **What an episode keeps, and when it honours its deadline.** Over every list of events a plan that is over is
not active again, a closed claim stays closed,
  the invalid transitions are counted as the payloads say and the
censoring is what it says; a deadline that was reached is honoured exactly where the events,
  in their order, do
not open the plan behind its expiry. -/
theorem episode_honours {horizonS : Int} {episode : Episode}
    (h : buildEpisode source eventId horizonS = some episode) :
    (∀ before later after, source.events = before ++ later ++ after →
      ((replay source eventId before).plan.Ended → (replay source eventId (before ++ later)).plan ≠ .active) ∧
      ((replay source eventId before).claim = .claimedClosed →
        (replay source eventId (before ++ later)).claim = .claimedClosed)) ∧
    episode.nInvalidTransitions = (episode.rows.filter (·.payload.invalidTransition)).length ∧
    (episode.rightCensored = true ↔ source.root.availableAt.isSome ∧
      (episode.authorPlanState = .none ∨ episode.authorPlanState = .active) ∧
        episode.authorClaimState ≠ .claimedClosed) ∧
    ((DeadlineReached source → episode.authorPlanState ≠ .active ∨ episode.authorClaimState = .claimedClosed) ↔
      (DeadlineReached source → ¬ StaysOpen (source.events.map source.kindOf))) := by
  unfold buildEpisode at h
  split_ifs at h
  cases h
  refine ⟨?_, replay_invalid source eventId _, ?_, ?_⟩
  · intro before later after _
    rw [replay_append]
    have htracks := foldl_tracks source eventId (replay source eventId before) later
    refine ⟨fun hended hactive => ?_, fun hclosed => ?_⟩
    · have hsame := run_ended (s := (replay source eventId before).tracks) hended (later.map source.kindOf)
      rw [← htracks] at hsame
      change (later.foldl (replayEvent source eventId) (replay source eventId before)).plan =
        (replay source eventId before).plan at hsame
      rw [hsame] at hactive
      rcases hended with hover | hover
      all_goals
        rw [hover] at hactive
        cases hactive
    · have hstays := run_closed (s := (replay source eventId before).tracks) hclosed (later.map source.kindOf)
      rw [← htracks] at hstays
      exact hstays
  · rw [decide_eq_true_eq, Option.isSome_map]
    constructor
    · exact fun ⟨hplan, hclaim, hclock⟩ => ⟨hclock, hplan, hclaim⟩
    · exact fun ⟨hclock, hplan, hclaim⟩ => ⟨hplan, hclaim, hclock⟩
  · have hopen := run_start_iff (source.events.map source.kindOf)
    rw [← show Replay.start.tracks = (.none, .unknown) from rfl, ← foldl_tracks source eventId] at hopen
    rw [← hopen]
    refine imp_congr_right fun _ => ?_
    rw [IsOpen, not_and_or, not_not]
    rfl

end

/-! ## An hour's plan -/

/-- A proposal of an hour, written at the start of a day and known at the given time; three hours are observed. -/
def hourPlan (known : Int) : Source where
  versions := fun _ => none
  observationEnd := 10800000000
  orphan := false
  root :=
    { planId := "root"
      sourceVersionId := "v0"
      kind := .entryProposal
      availableAt := some known
      eventTime := some 0
      expiresAfterS := some 3600
      entry := true
      stop := false
      tps := false }
  rootReplyTo := none
  members := []

/-- Event ids by their place. -/
def placeId (_ : String) (_ : Kind) (i : Nat) : String := if i = 0 then "first" else "later"

/-- Known at once, the plan expires. -/
theorem episode_honours_knownAtOnce : ∃ episode, buildEpisode (hourPlan 0) placeId 604800 = some episode ∧
    DeadlineReached (hourPlan 0) ∧
    (episode.authorPlanState ≠ .active ∨ episode.authorClaimState = .claimedClosed) := by
  have hreached : DeadlineReached (hourPlan 0) := ⟨3600000000, rfl, by decide⟩
  obtain ⟨episode, hepisode⟩ : ∃ episode, buildEpisode (hourPlan 0) placeId 604800 = some episode :=
    ⟨_, rfl⟩
  obtain ⟨-, -, -, hdeadline⟩ := episode_honours (hourPlan 0) placeId hepisode
  have hcloses := @on_time_closes (hourPlan 0) 3600000000 0 rfl (by decide) rfl (by decide) rfl (by decide)
  exact ⟨episode, hepisode, hreached, hdeadline.mpr (fun _ => hcloses) hreached⟩

/-- Known two hours later, it is active at the end: the expiry found no plan. -/
theorem late_plan_stays_active :
    ∃ episode, buildEpisode (hourPlan 7200000000) placeId 604800 = some episode ∧
    DeadlineReached (hourPlan 7200000000) ∧ episode.authorPlanState = .active ∧
    episode.authorClaimState = .unknown ∧ episode.nInvalidTransitions = 1 :=
  ⟨_, rfl, ⟨3600000000, rfl, by decide⟩, rfl, rfl, rfl⟩

end TraderBot.Lifecycle
