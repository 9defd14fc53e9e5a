import TraderBot.EntryBatch.Fills
import TraderBot.Lib.Returns

/-! # Rejected reports

`record_fill` makes the row of an order before it reads the report's quantity, and keeps
the trade before it reads the cumulative quantity. A report that is rejected after that
leaves the row or the trade behind. -/
namespace TraderBot.EntryBatch
open TraderBot.Lib

section
variable (unicode : Text.Unicode) (state : FillState) (r : FillReport)

/-- A rejected report leaves the state as it was. -/
def LeavesNoTrace : Prop :=
  ∀ message, (recordFill unicode state r).2 =
    .error (.invalid message) → (recordFill unicode state r).1 = state

/-- A text that `positive` takes. -/
def Fit (text : String) : Prop := ∃ q, positive unicode text = .ok q

/-- Trades whose sum does not overflow. -/
def Summed (trades : OrderedDict String Amount) : Prop :=
  ∃ total, (trades.values.map Amount.number).foldlM Decimal.add .zero = some total

/-- A report that is not rejected once the state was changed. -/
structure Traceless : Prop where
  /-- An order without a row. -/
  new : ∀ role, FillRole.ofText? r.role = some role → ¬ (r.tradeId = "" ∧ r.cumulative = none) →
    state.get? r.clientId = none →
    (r.tradeId ≠ "" → Fit unicode r.lastQuantity) ∧ ∀ c, r.cumulative = some c → ¬ Fit unicode c →
      ∃ q, r.tradeId ≠ "" ∧ positive unicode r.lastQuantity = .ok q ∧
        ¬ Summed (OrderedDict.empty.set r.tradeId (.format q))
  /-- A trade that goes in with a cumulative quantity that cannot be read. -/
  known : ∀ row, state.get? r.clientId = some row → FillRole.ofText? r.role =
    some row.role → r.tradeId ≠ "" →
    ∀ q, positive unicode r.lastQuantity = .ok q →
      (∀ previous, row.trades.get? r.tradeId = some previous → previous.number.eq q = true) →
      ∀ c, r.cumulative = some c → ¬ Fit unicode c →
        row.trades.get? r.tradeId = some (.format q) ∨ ¬ Summed (row.trades.set r.tradeId (.format q))

end

section
variable {unicode : Text.Unicode} {state : FillState} {r : FillReport} {trades : OrderedDict String Amount}
  {role : FillRole} {row : FillRow}

theorem positive_error {text : String} (h : ¬ Fit unicode text) :
    positive unicode text = .error (.invalid "entry batch requires finite positive numbers") := by
  unfold Fit at h
  unfold positive at h ⊢
  split
  · rename_i d hread
    rw [hread] at h
    dsimp only at h
    split_ifs at h ⊢
    · exact absurd ⟨d, rfl⟩ h
    · rfl
  · rfl
  · rfl
  · rfl

/-- The total is rejected for a cumulative quantity that cannot be read, and only for it. -/
theorem filledTotal_invalid_iff {filled : Amount} :
    (∃ message, filledTotal unicode trades filled r.cumulative = .error (.invalid message)) ↔
      Summed trades ∧ ∃ c, r.cumulative = some c ∧ ¬ Fit unicode c := by
  unfold filledTotal Summed
  cases (trades.values.map Amount.number).foldlM Decimal.add .zero with
  | none => exact iff_of_false nofun fun h => by obtain ⟨⟨_, h⟩, -⟩ := h; cases h
  | some total =>
    cases r.cumulative with
    | none => exact iff_of_false nofun fun h => by obtain ⟨-, _, h, -⟩ := h; cases h
    | some c =>
      dsimp only
      by_cases hfit : Fit unicode c
      · obtain ⟨q, hq⟩ := hfit
        rw [hq]
        refine iff_of_false nofun fun h => ?_
        obtain ⟨-, c', hc, hunfit⟩ := h
        cases hc
        exact hunfit ⟨q, hq⟩
      · rw [positive_error hfit]
        exact iff_of_true ⟨_, rfl⟩ ⟨⟨total, rfl⟩, c, rfl, hfit⟩

/-- What an accepted trade makes of the trades. -/
theorem addTrade_ok {trades' : OrderedDict String Amount} (h : addTrade unicode trades r = .ok trades') :
    (r.tradeId = "" ∧ trades' = trades) ∨ ∃ q, r.tradeId ≠ "" ∧ positive unicode r.lastQuantity = .ok q ∧
      (∀ previous, trades.get? r.tradeId = some previous → previous.number.eq q = true) ∧
      trades' = trades.set r.tradeId (.format q) := by
  unfold addTrade at h
  split_ifs at h with hid
  · cases h
    exact .inl ⟨hid, rfl⟩
  · obtain ⟨q, hq, h⟩ := bind_ok h
    refine .inr ⟨q, hid, hq, ?_⟩
    split at h
    · rename_i previous hprevious
      split_ifs at h with heq
      cases h
      refine ⟨fun other hother => ?_, rfl⟩
      cases hprevious.symm.trans hother
      exact heq
    · rename_i hnone
      cases h
      refine ⟨fun other hother => ?_, rfl⟩
      cases hnone.symm.trans hother

theorem addTrade_of {q : FiniteDecimal} (hid : r.tradeId ≠ "")
    (hq : positive unicode r.lastQuantity = .ok q)
    (hsame : ∀ previous, trades.get? r.tradeId = some previous → previous.number.eq q = true) :
    addTrade unicode trades r = .ok (trades.set r.tradeId (.format q)) := by
  rw [addTrade, if_neg hid, hq, ok_bind]
  cases hprevious : trades.get? r.tradeId with
  | none => rfl
  | some previous => exact if_pos (hsame previous hprevious)

/-- A new order's trade is rejected for a quantity that cannot be read. -/
theorem addTrade_empty (h : r.tradeId ≠ "" → Fit unicode r.lastQuantity) :
    (r.tradeId = "" ∧ addTrade unicode .empty r = .ok .empty) ∨ ∃ q, r.tradeId ≠ "" ∧
      positive unicode r.lastQuantity = .ok q ∧
      addTrade unicode .empty r = .ok (OrderedDict.empty.set r.tradeId (.format q)) := by
  by_cases hid : r.tradeId = ""
  · exact .inl ⟨hid, if_pos hid⟩
  · obtain ⟨q, hq⟩ := h hid
    refine .inr ⟨q, hid, hq, addTrade_of hid hq fun previous hprevious => ?_⟩
    rw [OrderedDict.get?_empty] at hprevious
    cases hprevious

theorem map_error {x : Except FillError FiniteDecimal} {f : FiniteDecimal → Unit} {e : FillError}
    (h : x.map f = .error e) : x = .error e := by
  cases x with
  | error e' =>
    cases h
    rfl
  | ok _ => cases h

theorem summed_empty : Summed .empty := ⟨.zero, rfl⟩

/-! ## What a report leaves -/

theorem recordFill_known (hrow : state.get? r.clientId = some row)
    (hrole : FillRole.ofText? r.role = some row.role)
    (hspeaks : ¬ (r.tradeId = "" ∧ r.cumulative = none)) :
    recordFill unicode state r =
      match addTrade unicode row.trades r with
      | .error e => (state, .error e)
      | .ok trades =>
        match filledTotal unicode trades row.filled r.cumulative with
        | .error e => (state.set r.clientId { row with trades }, .error e)
        | .ok total =>
          ((state.set r.clientId { row with trades }).set r.clientId { row with trades, filled := .format total },
            .ok ()) := by
  have hdefault : state.setDefault r.clientId { role := row.role } = state := by
    rw [OrderedDict.setDefault, if_pos (by rw [hrow]; rfl)]
  unfold recordFill
  rw [hrole]
  dsimp only
  rw [if_neg hspeaks, hrow, Option.getD_some, if_neg (not_not.mpr rfl), hdefault] <;> rfl

/-- The row of a report that names a role and says something is there, rejected or not. -/
theorem recordFill_row (hrole : FillRole.ofText? r.role = some role)
    (hspeaks : ¬ (r.tradeId = "" ∧ r.cumulative = none)) :
    ((recordFill unicode state r).1.get? r.clientId).isSome = true := by
  have hdefault : ((state.setDefault r.clientId { role }).get? r.clientId).isSome = true := by
    rw [OrderedDict.get?_setDefault, if_pos rfl]
    rfl
  unfold recordFill
  rw [hrole]
  dsimp only
  rw [if_neg hspeaks]
  split_ifs
  · exact hdefault
  · split
    · exact hdefault
    · split
      · rw [OrderedDict.get?_set_self]
        rfl
      · rw [OrderedDict.get?_set_self]
        rfl

theorem recordFill_new (hnone : state.get? r.clientId = none) (hrole : FillRole.ofText? r.role = some role)
    (hspeaks : ¬ (r.tradeId = "" ∧ r.cumulative = none)) :
    (recordFill unicode state r).2 =
      match addTrade unicode .empty r with
      | .error e => .error e
      | .ok trades => (filledTotal unicode trades (.format .zero) r.cumulative).map fun _ => () := by
  unfold recordFill
  rw [hrole]
  dsimp only
  rw [if_neg hspeaks, hnone, Option.getD_none, if_neg (not_not.mpr rfl)]
  dsimp only
  cases addTrade unicode .empty r with
  | error e => rfl
  | ok trades =>
    dsimp only
    cases filledTotal unicode trades (.format .zero) r.cumulative with
    | error e => rfl
    | ok total => rfl

/-- A report of an order without a row leaves no trace unless it is rejected. -/
theorem new_leavesNoTrace_iff (hnone : state.get? r.clientId = none)
    (hrole : FillRole.ofText? r.role = some role)
    (hspeaks : ¬ (r.tradeId = "" ∧ r.cumulative = none)) :
    LeavesNoTrace unicode state r ↔
      ∀ message, (recordFill unicode state r).2 ≠ .error (.invalid message) := by
  refine forall_congr' fun message => imp_congr_right fun _ => iff_of_false (fun hsame => ?_) id
  have hrow := @recordFill_row unicode state _ _ hrole hspeaks
  rw [hsame, hnone] at hrow
  cases hrow

theorem new_traceless_iff (hnone : state.get? r.clientId = none)
    (hrole : FillRole.ofText? r.role = some role)
    (hspeaks : ¬ (r.tradeId = "" ∧ r.cumulative = none)) :
    LeavesNoTrace unicode state r ↔ Traceless unicode state r := by
  rw [new_leavesNoTrace_iff hnone hrole hspeaks, recordFill_new hnone hrole hspeaks]
  constructor
  · intro haccepted
    have hfit : r.tradeId ≠ "" → Fit unicode r.lastQuantity := by
      intro hid
      by_contra hunfit
      refine haccepted "entry batch requires finite positive numbers" ?_
      rw [addTrade, if_neg hid, positive_error hunfit]
      rfl
    refine ⟨fun _ _ _ _ => ⟨hfit, fun c hc hunfit => ?_⟩, fun row hrow => ?_⟩
    · rcases addTrade_empty hfit with ⟨-, hadd⟩ | ⟨q, hid, hq, hadd⟩
      · obtain ⟨message, hinvalid⟩ := (@filledTotal_invalid_iff _ _ _ (.format .zero)).mpr
          ⟨summed_empty, c, hc, hunfit⟩
        refine absurd ?_ (haccepted message)
        rw [hadd]
        dsimp only
        rw [hinvalid]
        rfl
      · refine ⟨q, hid, hq, fun hsummed => ?_⟩
        obtain ⟨message, hinvalid⟩ :=
          (@filledTotal_invalid_iff _ _ _ (.format .zero)).mpr ⟨hsummed, c, hc, hunfit⟩
        refine absurd ?_ (haccepted message)
        rw [hadd]
        dsimp only
        rw [hinvalid]
        rfl
    · rw [hnone] at hrow
      cases hrow
  · intro htraceless message hrejected
    obtain ⟨hfit, hcumulative⟩ := htraceless.new role hrole hspeaks hnone
    rcases addTrade_empty hfit with ⟨hid, hadd⟩ | ⟨q, hid, hq, hadd⟩
    · rw [hadd] at hrejected
      obtain ⟨-, c, hc, hunfit⟩ := filledTotal_invalid_iff.mp ⟨message, map_error hrejected⟩
      obtain ⟨q, hid', -⟩ := hcumulative c hc hunfit
      exact hid' hid
    · rw [hadd] at hrejected
      obtain ⟨hsummed, c, hc, hunfit⟩ := filledTotal_invalid_iff.mp ⟨message, map_error hrejected⟩
      obtain ⟨q', -, hq', hnot⟩ := hcumulative c hc hunfit
      cases hq.symm.trans hq'
      exact hnot hsummed

theorem known_traceless_iff (hrow : state.get? r.clientId = some row)
    (hrole : FillRole.ofText? r.role = some row.role)
    (hspeaks : ¬ (r.tradeId = "" ∧ r.cumulative = none)) :
    LeavesNoTrace unicode state r ↔ Traceless unicode state r := by
  have hnew : Traceless unicode state r ↔ r.tradeId ≠ "" → ∀ q, positive unicode r.lastQuantity = .ok q →
      (∀ previous, row.trades.get? r.tradeId = some previous → previous.number.eq q = true) →
      ∀ c, r.cumulative = some c → ¬ Fit unicode c →
        row.trades.get? r.tradeId = some (.format q) ∨ ¬ Summed (row.trades.set r.tradeId (.format q)) := by
    refine ⟨fun h => h.known row hrow hrole, fun h => ⟨fun _ _ _ hnone => ?_, fun row' hrow' _ => ?_⟩⟩
    · rw [hrow] at hnone
      cases hnone
    · cases hrow.symm.trans hrow'
      exact h
  rw [hnew, LeavesNoTrace, recordFill_known hrow hrole hspeaks]
  cases hadd : addTrade unicode row.trades r with
  | error e =>
    refine iff_of_true (fun _ _ => rfl) fun hid q hq hsame => ?_
    rw [addTrade_of hid hq hsame] at hadd
    cases hadd
  | ok trades =>
    dsimp only
    rcases addTrade_ok hadd with ⟨hid, rfl⟩ | ⟨q, hid, hq, hsame, rfl⟩
    · refine iff_of_true (fun message hrejected => ?_) fun hid' => absurd hid hid'
      have hkept : state.set r.clientId row = state := OrderedDict.set_eq_self_iff.mpr hrow
      cases htotal : filledTotal unicode row.trades row.filled r.cumulative with
      | error e => exact hkept
      | ok total =>
        rw [htotal] at hrejected
        cases hrejected
    · have hkept : state.set r.clientId { row with trades := row.trades.set r.tradeId (.format q) } =
      state ↔
          row.trades.get? r.tradeId = some (.format q) := by
        rw [OrderedDict.set_eq_self_iff, hrow]
        refine ⟨fun h => ?_, fun h => ?_⟩
        · have htrades := congrArg FillRow.trades (Option.some.inj h)
          exact OrderedDict.set_eq_self_iff.mp htrades.symm
        · rw [OrderedDict.set_eq_self_iff.mpr h]
      have hrejects : (∃ message, filledTotal unicode (row.trades.set r.tradeId (.format q)) row.filled r.cumulative =
          .error (.invalid message)) ↔ _ := filledTotal_invalid_iff
      constructor
      · intro hsilent _ q' hq' _ c hc hunfit
        cases hq.symm.trans hq'
        by_cases hsummed : Summed (row.trades.set r.tradeId (.format q))
        · obtain ⟨message, hinvalid⟩ := hrejects.mpr ⟨hsummed, c, hc, hunfit⟩
          specialize hsilent message
          rw [hinvalid] at hsilent
          exact .inl (hkept.mp (hsilent rfl))
        · exact .inr hsummed
      · intro htraceless message hrejected
        cases htotal : filledTotal unicode (row.trades.set r.tradeId (.format q)) row.filled r.cumulative with
        | ok total =>
          rw [htotal] at hrejected
          cases hrejected
        | error e =>
          rw [htotal] at hrejected
          cases Except.error.inj hrejected
          obtain ⟨hsummed, c, hc, hunfit⟩ := hrejects.mp ⟨message, htotal⟩
          rcases htraceless hid q hq hsame c hc hunfit with hold | hnot
          · exact hkept.mpr hold
          · exact absurd hsummed hnot

/-- **A report leaves no trace when it is rejected exactly if** it is rejected before the state is
changed, or what is changed is as it was. -/
theorem recordFill_traceless_iff (unicode : Text.Unicode) (state : FillState) (r : FillReport) :
    LeavesNoTrace unicode state r ↔ Traceless unicode state r := by
  cases hrole : FillRole.ofText? r.role with
  | none =>
    have hstate : (recordFill unicode state r).1 = state := by unfold recordFill; rw [hrole]
    refine iff_of_true (fun _ _ => hstate) ⟨fun role h => ?_, fun row _ h => ?_⟩
    · rw [hrole] at h
      cases h
    · rw [hrole] at h
      cases h
  | some role =>
    by_cases hspeaks : r.tradeId = "" ∧ r.cumulative = none
    · have hstate : (recordFill unicode state r).1 = state := by
        unfold recordFill
        rw [hrole]
        dsimp only
        rw [if_pos hspeaks]
      exact iff_of_true (fun _ _ => hstate)
        ⟨fun _ _ h => absurd hspeaks h, fun _ _ _ hid => absurd hspeaks.1 hid⟩
    cases hrow : state.get? r.clientId with
    | none => exact new_traceless_iff hrow hrole hspeaks
    | some row =>
      by_cases hsame : row.role = role
      · exact known_traceless_iff hrow (hsame ▸ hrole) hspeaks
      · have hstate : (recordFill unicode state r).1 = state := by
          unfold recordFill
          rw [hrole]
          dsimp only
          rw [if_neg hspeaks, hrow, Option.getD_some, if_pos hsame, OrderedDict.setDefault, if_pos (by rw [hrow]; rfl)]
        refine iff_of_true (fun _ _ => hstate) ⟨fun _ _ _ hnone => ?_, fun row' hrow' hrole' => ?_⟩
        · rw [hrow] at hnone
          cases hnone
        · cases hrow.symm.trans hrow'
          cases hrole.symm.trans hrole'
          exact absurd rfl hsame

/-- A report of an exit that gives no quantity leaves the row of an exit: the entry that the order
then fills is rejected. -/
theorem rejected_exit_remains : ∃ (rejected correct : FillReport),
    (recordFill Text.Unicode.ascii .empty rejected).2 =
      .error (.invalid "entry batch requires finite positive numbers") ∧
    rejected.clientId = correct.clientId ∧ (recordFill Text.Unicode.ascii .empty correct).2 = .ok () ∧
    (recordFill Text.Unicode.ascii (recordFill Text.Unicode.ascii .empty rejected).1 correct).2 =
      .error (.invalid "batch order role changed") ∧
    ¬ LeavesNoTrace Text.Unicode.ascii .empty rejected := by
  refine ⟨{ clientId := "order", role := "exit", tradeId := "1" },
    { clientId := "order", role := "entry", tradeId := "1", lastQuantity := "2" }, rfl, rfl, rfl, rfl, ?_⟩
  intro hsilent
  have hkeys := congrArg (fun state => state.keys) (hsilent _ rfl)
  cases hkeys

end
end TraderBot.EntryBatch
