import TraderBot.NodeCommands.CloseAll

/-! # What a flat verdict says

When `close_all` is completed, every row of the last listing that is under a
target's key has a quantity that reads zero. -/
namespace TraderBot.NodeCommands.CloseAll
open TraderBot.Lib TraderBot.Lib.Text TraderBot.Lib.Json
open TraderBot.Lib.Component (Rules)
open TraderBot.Orders (Failure canonicalAccountId venueSymbol)

/-- One call alone: nothing is assumed of an effect, and nothing asked. -/
def rules : Rules World Effect where
  C _ _ := True
  A _ _ := True
  I _ := True
  R := Eq
  refl _ := rfl
  trans := Eq.trans

abbrev Triple {α : Type} (K : World → Prop) (p : Code α) (Q : α → World → Prop) : Prop :=
  rules.Triple component K p Q

section
variable {α β : Type}

theorem stable (K : World → Prop) : rules.Stable K := by
  rintro s t - - rfl hk
  exact hk

/-- The effects that list nothing. -/
def Effect.quiet : Effect → Prop
  | .listOpenPositions _ => False
  | .closeOne _ _ | .sleep _ => True

theorem quiet_triple {p : Code α} (hp : p.Only Effect.quiet) (K : World → Prop) : Triple K p fun _ => K := by
  refine Rules.triple_of_only (stable K) (fun _ _ _ _ _ _ => trivial) (fun e w x he _ hk _ => ?_) hp
  cases e with
  | listOpenPositions => cases he
  | closeOne => exact ⟨trivial, hk⟩
  | sleep => exact ⟨trivial, hk⟩

theorem pauseWhen_quiet (more : Bool) (seconds : ℚ) : (pauseWhen more seconds).Only Effect.quiet := by
  refine Routine.only_ite (Routine.only_ite ?_ ?_) ?_
  · exact ⟨trivial, fun _ => trivial⟩
  · trivial
  · trivial

variable (str : Value → String) (settings : CloseAllSettings) {K : World → Prop}

theorem closeAttempts_quiet (position : MergedPosition) (attempts left : Nat) (lastError : String) :
    (closeAttempts str settings position attempts left lastError).Only Effect.quiet := by
  induction left generalizing lastError with
  | zero => trivial
  | succ left ih =>
    refine Routine.only_bind ?_ fun raw => ?_
    · refine Routine.only_call trivial fun raw => ?_
      cases raw with
      | ok answer => trivial
      | error raised =>
        refine Routine.only_ite ?_ ?_
        · exact ⟨trivial, fun _ => trivial⟩
        · trivial
    · cases attemptResult str raw with
      | ok result => trivial
      | error text => exact Routine.only_bind (pauseWhen_quiet _ _) fun _ => ih text

theorem closeEach_quiet (positions : List MergedPosition) :
    (closeEach str settings positions).Only Effect.quiet := by
  induction positions with
  | nil => trivial
  | cons position positions ih =>
    refine Routine.only_bind (closeAttempts_quiet str settings position _ _ _) fun closed => ?_
    refine Routine.only_bind (pauseWhen_quiet _ _) fun _ => ?_
    exact Routine.only_bind ih fun _ => trivial

theorem orEnd_triple {x : Except Failure α} : Triple K (orEnd x) fun a w => K w ∧ x = .ok a := by
  cases x with
  | ok a => exact fun w _ hk => ⟨hk, rfl⟩
  | error e => exact Rules.triple_raised

theorem perform_list (account : Option String) (x : Reading) (w : World) :
    perform (.listOpenPositions account) x w = match x.raises with
      | none => (some (some x.positions), ⟨x.positions :: w.listings⟩)
      | some raised => (if raised.typeError then some none else none, w) := rfl

/-- A listing that comes back is the last one. -/
theorem listOpenPositions_triple (accountId : String) {L : List Snapshot → World → Prop}
    (hL : ∀ w listing, K w → L listing ⟨listing :: w.listings⟩) :
    Triple K (listOpenPositions accountId) L := by
  let After : Option (List Snapshot) → World → Prop := fun answer w => answer.elim (K w) fun listing => L listing w
  have hcall : ∀ account, ∀ w x answer, K w →
      (perform (.listOpenPositions account) x w).1 = some answer →
        After answer (perform (.listOpenPositions account) x w).2 := by
    intro account w x answer hk hanswer
    rw [perform_list] at hanswer ⊢
    rcases hraises : x.raises with _ | ⟨_ | _, text⟩ <;> rw [hraises] at hanswer
    · cases hanswer
      exact hL w x.positions hk
    · cases hanswer
    · cases hanswer
      exact hk
  refine Rules.triple_call (L := After) (stable K) (fun _ _ _ _ => trivial) (fun _ _ _ _ _ => trivial)
    (fun w x answer _ hk _ hanswer => hcall _ w x answer hk hanswer) fun answer => ?_
  cases answer with
  | some listing => exact fun _ _ hl => hl
  | none =>
    refine Rules.triple_call (L := After) (stable K) (fun _ _ _ _ => trivial) (fun _ _ _ _ _ => trivial)
      (fun w x answer _ hk _ hanswer => hcall _ w x answer hk hanswer) fun answer => ?_
    cases answer with
    | some listing => exact fun _ _ hl => hl
    | none => exact Rules.triple_raised

end

section
variable (unicode : Unicode) (str : Value → String) (settings : CloseAllSettings) (accountId : String)

/-- The positions to close: those of the call, or the first listing. -/
def Given (positions : Option (List Snapshot)) (given : List Snapshot) (w : World) : Prop :=
  match positions with
  | some positions => given = positions
  | none => w.listings.getLast? = some given

theorem Given.listed {positions : Option (List Snapshot)} {given : List Snapshot} {w : World}
    (h : Given positions given w) (listing : List Snapshot) : Given positions given ⟨listing :: w.listings⟩ := by
  cases positions with
  | some positions => exact h
  | none =>
    show (listing :: w.listings).getLast? = some given
    have hlast : w.listings.getLast? = some given := h
    rw [List.getLast?_cons, hlast]
    rfl

/-- The last listing shows none of the targets. -/
def LastClear (targetKeys : List String) (w : World) : Prop :=
  ∃ listing, w.listings.head? = some listing ∧ residualPositions unicode accountId targetKeys listing = .ok []

theorem verify_triple {targetKeys : List String} {K : World → Prop}
    (hK : ∀ w listing, K w → K ⟨listing :: w.listings⟩) {left : Nat} {residual : List MergedPosition}
    (hleft : left ≠ 0 ∨ residual ≠ []) :
    Triple K (verifyAttempts unicode settings accountId targetKeys left residual)
      fun residual w => K w ∧ (residual = [] → LastClear unicode accountId targetKeys w) := by
  induction left generalizing residual with
  | zero =>
    intro w _ hk
    exact ⟨hk, fun hnil => absurd hnil (hleft.resolve_left fun h => h rfl)⟩
  | succ left ih =>
    refine (listOpenPositions_triple accountId (L := fun listing w => K w ∧ w.listings.head? = some listing)
      fun w listing hk => ⟨hK w listing hk, rfl⟩).bind fun listing => ?_
    refine orEnd_triple.bind fun residual => ?_
    by_cases hnil : residual = []
    · rw [if_pos hnil]
      rintro w - ⟨⟨hk, hhead⟩, hresidual⟩
      exact ⟨hk, fun _ => ⟨listing, hhead, hnil ▸ hresidual⟩⟩
    · rw [if_neg hnil]
      refine ((quiet_triple (pauseWhen_quiet _ _) K).weaken fun _ _ hk => hk.1.1).bind fun _ => ?_
      exact ih (.inr hnil)

/-- What a call comes back with: the targets are the keys of what was to be closed,
and it is completed only where the last listing shows none of them. -/
structure Answers (positions : Option (List Snapshot)) (result : CloseAllResult) (w : World) : Prop where
  targets : ∃ given openPositions, Given positions given w ∧
    mergePositionSnapshots unicode accountId given = .ok openPositions ∧
    result.targetPositionKeys = openPositions.map MergedPosition.positionKey
  clear : result.status = .completed → LastClear unicode accountId result.targetPositionKeys w

theorem closeAll_triple (positions : Option (List Snapshot)) :
    Triple (fun w => w.listings = []) (closeAll unicode str settings accountId positions)
      (Answers unicode accountId positions) := by
  unfold closeAll
  have hgiven : Triple (fun w => w.listings = []) (positionsToClose accountId positions)
      (Given positions) := by
    cases positions with
    | some positions => exact fun _ _ _ => rfl
    | none =>
      refine listOpenPositions_triple accountId fun w listing hempty => ?_
      show (listing :: w.listings).getLast? = some listing
      rw [hempty]
      rfl
  refine hgiven.bind fun given => orEnd_triple.bind fun openPositions => ?_
  refine ((quiet_triple (closeEach_quiet str settings openPositions) _)).bind fun results => ?_
  refine Rules.Triple.bind (verify_triple unicode settings accountId
    (fun w listing hk => ⟨hk.1.listed listing, hk.2⟩) (.inl (by omega))) fun residual => ?_
  rintro w - ⟨⟨hfirst, hmerged⟩, hclear⟩
  refine ⟨⟨given, openPositions, hfirst, hmerged, rfl⟩, fun hcompleted => hclear ?_⟩
  by_contra hleft
  simp [hleft] at hcompleted

/-- **A flat verdict** says of the last listing that every row under a target's key reads
zero, and a merged listing has for each key the largest quantity of its rows. -/
theorem flat_verdict_sound :
    (∀ positions readings result w,
      component.finish (closeAll unicode str settings accountId positions) readings ⟨[]⟩ = (.returned result, w) →
      result.status = .completed →
        (∃ listing, w.listings.head? = some listing ∧
          Clear unicode accountId result.targetPositionKeys listing) ∧
        ∃ given, Given positions given w ∧ ∀ row ∈ given, ∀ key q, Reports unicode accountId key row q →
          key ∈ result.targetPositionKeys) ∧
    (∀ targetKeys venuePositions dbPositions,
      closeBoundaryFlat unicode accountId targetKeys venuePositions dbPositions = .ok true →
        Clear unicode accountId targetKeys venuePositions ∧
          ∀ listing, dbPositions = some listing → Clear unicode accountId targetKeys listing) ∧
    ∀ snapshots positions, mergePositionSnapshots unicode accountId snapshots = .ok positions →
      (positions.map MergedPosition.positionKey).Nodup ∧
        (∀ e ∈ positions, StandsFor unicode accountId snapshots e.positionKey e) ∧
        ∀ row ∈ snapshots, ∀ key q, Reports unicode accountId key row q →
          key ∈ positions.map MergedPosition.positionKey := by
  refine ⟨fun positions readings result w hreturned hcompleted => ?_, fun _ _ _ h => clear_of_boundary h,
    fun _ _ h => merge_stands h⟩
  have hsafe : rules.Safe component (Answers unicode accountId positions)
      (closeAll unicode str settings accountId positions) ⟨[]⟩ :=
    closeAll_triple unicode str settings accountId positions ⟨[]⟩ trivial rfl
  obtain ⟨-, -, hanswers⟩ := Rules.finish_safe (fun _ _ => trivial) trivial hsafe readings
  rw [hreturned] at hanswers
  obtain ⟨⟨given, openPositions, hgiven, hmerged, htargets⟩, hclear⟩ := hanswers result rfl
  refine ⟨?_, given, hgiven, ?_⟩
  · obtain ⟨listing, hlast, hresidual⟩ := hclear hcompleted
    exact ⟨listing, hlast, clear_of_residual hresidual⟩
  · rw [htargets]
    exact (merge_stands hmerged).2.2

end

/-! ## What a flat verdict does not say -/

/-- A row of an account's listing. -/
def rowOf (fields : List (String × String)) : Snapshot where
  fields := fields.foldl (fun d p => d.set p.1 (Field.str p.2)) Dict.empty

def openRow : Snapshot := rowOf [("instrument_id", "BTCUSDT"), ("quantity", "1")]

/-- The quantity is no number. -/
def unreadableRow : Snapshot := rowOf [("instrument_id", "BTCUSDT"), ("quantity", "1,5")]

/-- The row brings a key text of its own. -/
def namedRow : Snapshot := rowOf [("position_key", "live"), ("instrument_id", "BTCUSDT"), ("quantity", "1")]

/-- The quantity has more digits than the context keeps. -/
def longRow : Snapshot := rowOf [("instrument_id", "BTCUSDT"), ("quantity", "1.00000000000000000000000000001")]

/-- What a call with one open position, which is closed, comes to when the venue then lists a row. -/
def verdictOn (row : Snapshot) : Option (Status × List String) :=
  match (component.finish (closeAll Unicode.ascii (fun _ => "") {} "acct-1" (some [openRow]))
    [{}, { positions := [row] }] ⟨[]⟩).1 with
  | .returned result => some (result.status, result.targetPositionKeys)
  | .raised | .cut => none

/-- The verdict is flat over a row of the target whose quantity is no number, and over one of
its symbol with a quantity and a key text of its own; and a merged quantity is rounded. -/
theorem flat_over_open_rows :
    (verdictOn unreadableRow = some (.completed, ["acct-1:BTCUSDT"]) ∧
      positionKeyForSnapshot Unicode.ascii "acct-1" unreadableRow = .ok "acct-1:BTCUSDT" ∧
      Decimal.ofText Unicode.ascii "1,5".toList = none) ∧
    (verdictOn namedRow = some (.completed, ["acct-1:BTCUSDT"]) ∧
      symbolOf Unicode.ascii namedRow = "BTCUSDT" ∧
      (magnitude Unicode.ascii namedRow).toOption.map Decimal.truthy = some true) ∧
    (mergePositionSnapshots Unicode.ascii "acct-1" [longRow]).toOption.map
      (fun l => l.map MergedPosition.quantity) = some ["1"] := by
  decide +kernel

end TraderBot.NodeCommands.CloseAll
