import TraderBot.Inbox.Operations

/-! # What an operation can write

A call either leaves the file as it is or replaces it by a payload that differs
from the one it read in one of a few ways (`Change`). Everything later about
whole runs is derived from this list and never looks into an operation again. -/
namespace TraderBot.Inbox
open TraderBot.Lib TraderBot.Lib.Text TraderBot.Lib.Dict TraderBot.Lib.Json

/-- How a `mark_` operation changes one record. -/
inductive Marks : IntentExecutionRecord → IntentExecutionRecord → Prop where
  | confirmAll {r : IntentExecutionRecord} {utcNow : String} (hstate : r.state = .dispatched) :
      Marks r { r with
        state := .exchangeConfirmed
        exchangeConfirmedClientOrderIds := r.clientOrderIds
        updatedAt := utcNow }
  | confirmLeg {r : IntentExecutionRecord} {target utcNow : String}
      (hstate : r.state = .dispatched ∨ r.state = .rejected) (hmem : target ∈ r.clientOrderIds) :
      Marks r (confirmOne r target utcNow)
  | terminal {r : IntentExecutionRecord} {ids : List String} {utcNow : String} :
      Marks r { r with terminalClientOrderIds := ids, updatedAt := utcNow }
  | reject {r : IntentExecutionRecord} {reason utcNow : String}
      (hstate : r.state ≠ .exchangeConfirmed) : Marks r (reject r reason utcNow)

/-- The operations that mark one record. -/
def Op.marks : Op → Bool
  | .markExchangeConfirmed _ _ => true
  | .markExchangeConfirmedByClientOrderId _ _ => true
  | .markCloseOrderTerminal _ _ => true
  | .markRejected _ _ _ => true
  | .markRejectedByClientOrderId _ _ _ => true
  | _ => false

/-- How an operation changes the payload. -/
inductive Change (inbox : JsonIntentExecutionInbox) (p : Payload) : Op → Payload → Prop where
  /-- A receipt that binds to no book. -/
  | receipt {raw identity : IntentExecutionIdentity} {payload : JsonObject} {utcNow : String}
      (hnorm : raw.normalized inbox.unicode = .ok identity)
      (hnew : p.records.get? (recordKey identity) = none)
      (hside : receiptSide inbox identity payload = "") :
      Change inbox p (.registerReceived raw (some payload) utcNow)
        (p.setRecord (recordKey identity) (receiptRecord identity payload utcNow))
  /-- A receipt bound to the current generation of its book. -/
  | bound {raw identity : IntentExecutionIdentity} {payload : JsonObject} {utcNow book : String}
      (hnorm : raw.normalized inbox.unicode = .ok identity)
      (hnew : p.records.get? (recordKey identity) = none)
      (hside : receiptSide inbox identity payload ≠ "")
      (hbook : positionBookKey inbox.unicode identity.accountId identity.instrumentId
        (receiptSide inbox identity payload) = .ok book) :
      Change inbox p (.registerReceived raw (some payload) utcNow)
        ((p.setBook book (p.book book)).setRecord (recordKey identity)
          (bindRecord (receiptRecord identity payload utcNow) (receiptSide inbox identity payload)
            (p.book book).generation))
  /-- A record handed out for dispatch. -/
  | dispatch {raw identity : IntentExecutionIdentity} {r : IntentExecutionRecord}
      {rawIds ids : List String} {utcNow : String}
      (hnorm : raw.normalized inbox.unicode = .ok identity)
      (hget : p.records.get? (recordKey identity) = some r) (hident : r.identity = identity)
      (hstate : r.state = .received)
      (hids : stableClientOrderIds inbox.unicode identity.intentId rawIds = .ok ids) :
      Change inbox p (.beginDispatch raw rawIds utcNow) (p.setRecord (recordKey identity)
        { r with state := .dispatched, clientOrderIds := ids, updatedAt := utcNow })
  /-- One record is marked. -/
  | mark {op : Op} {key : String} {r r' : IntentExecutionRecord} (hop : op.marks = true)
      (hget : p.records.get? key = some r) (hmarks : Marks r r') :
      Change inbox p op (p.setRecord key r')
  /-- Repair rejects dispatched records. -/
  | repair {now : DateTime × Option Int} {candidates : List IntentExecutionRecord}
      {repairTime : String}
      (hmem : ∀ r ∈ candidates, (∃ key, p.records.get? key = some r) ∧ r.state = .dispatched) :
      Change inbox p (.repairDispatchedManagement now) (rejectAll candidates repairTime p)
  /-- One book moves on. -/
  | invalidate {accountId instrumentId side operationId book operation : String}
      (hbook : positionBookKey inbox.unicode accountId instrumentId side = .ok book)
      (hop : positionOperationId operationId = .ok operation)
      (hnew : (p.book book).invalidations.get? operation = none) :
      Change inbox p (.invalidatePosition accountId instrumentId side operationId)
        (p.setBook book (invalidateBook (p.book book) operation))
  /-- The books of a scope move on. -/
  | scope {accountId operationId operation : String} {instrumentIds : List String}
      (hop : positionOperationId operationId = .ok operation) :
      Change inbox p (.invalidatePositionScope accountId operationId instrumentIds)
        (p.invalidateScope accountId (instrumentIds.map (positionSymbol inbox.unicode)) operation)

section Inversion
variable {inbox : JsonIntentExecutionInbox}

/-! ## Arguments -/

variable {identity : IntentExecutionIdentity} {p : Payload} {record : IntentExecutionRecord}
  {α : Type} (file : File) {body : Payload → Except Failure (α × Option Payload)}

theorem normalized_ok {u : Unicode} {raw : IntentExecutionIdentity}
    (h : raw.normalized u = .ok identity) :
    strip identity.accountId = identity.accountId ∧ identity.accountId ≠ "" ∧
      ∃ x : Uuid, identity.intentId = x.str ∧ Uuid.parse u raw.intentId = some x := by
  unfold IntentExecutionIdentity.normalized at h
  cases hx : Uuid.parse u raw.intentId with
  | none => simp [hx] at h
  | some x =>
    simp only [hx] at h
    split_ifs at h with h1 h2 h3 h4
    cases h
    exact ⟨strip_strip _, h1, x, rfl, rfl⟩

theorem positionOperationId_ok {value operation : String}
    (h : positionOperationId value = .ok operation) :
    operation = strip value ∧ strip operation = operation ∧ operation ≠ "" := by
  unfold positionOperationId at h
  simp only at h
  split_ifs at h with h0
  cases h
  exact ⟨rfl, strip_strip _, h0⟩

theorem requiredRecord_ok (h : requiredRecord p identity = .ok record) :
    p.records.get? (recordKey identity) = some record ∧ record.identity = identity := by
  unfold requiredRecord recordForIdentity at h
  cases hg : p.records.get? (recordKey identity) with
  | none => simp [hg] at h
  | some r =>
    simp only [hg] at h
    split_ifs at h with hi
    cases h
    exact ⟨rfl, not_not.mp hi⟩

theorem recordEntry_some {id key : String}
    (h : recordEntryForClientOrderId p id = some (key, record)) :
    p.records.get? key = some record ∧ id ∈ record.clientOrderIds := by
  unfold recordEntryForClientOrderId at h
  have hin := List.find?_some h
  exact ⟨Dict.mem_items.mp (List.mem_of_find?_eq_some h), of_decide_eq_true hin⟩

/-! ## Reading and writing -/

theorem requireSize_ok {n : Nat} (h : requireSizeWithinLimit inbox n = .ok ()) :
    n ≤ inbox.maxBytes := by
  unfold requireSizeWithinLimit at h
  split_ifs at h with hn
  exact hn

theorem loadPayload_some {q : Payload} (h : loadPayload inbox (some p) = .ok q) : q = p := by
  unfold loadPayload at h
  simp only at h
  split at h
  · cases h
  · split at h
    · cases h
    · cases h; rfl

/-- What `mutate` leaves: the file as it was, or the payload the body changed. -/
theorem mutate_cases (body : Payload → Except Failure (α × Option Payload)) :
    (mutate inbox file body).2 = file ∨
      ∃ p a changed, loadPayload inbox file = .ok p ∧ body p = .ok (a, some changed) ∧
        payloadBytes changed ≤ inbox.maxBytes ∧
        mutate inbox file body = (.ok a, some changed) := by
  unfold mutate
  cases hl : loadPayload inbox file with
  | error e => exact .inl rfl
  | ok p =>
    simp only
    cases hb : body p with
    | error e => exact .inl rfl
    | ok x =>
      obtain ⟨a, changed⟩ := x
      cases changed with
      | none => exact .inl rfl
      | some changed =>
        simp only
        cases hs : requireSizeWithinLimit inbox (payloadBytes changed) with
        | error e => exact .inl rfl
        | ok _ => exact .inr ⟨p, a, changed, rfl, hb, requireSize_ok hs, rfl⟩

/-- What `mutate` answered tells what its body did. -/
theorem mutate_ok {file : File} {a : α} (h : (mutate inbox file body).1 = .ok a) :
    ∃ p changed, loadPayload inbox file = .ok p ∧ body p = .ok (a, changed) ∧
      (mutate inbox file body).2 = (changed <|> file) := by
  unfold mutate at h ⊢
  cases hl : loadPayload inbox file with
  | error e => simp [hl] at h
  | ok p =>
    simp only [hl] at h ⊢
    cases hb : body p with
    | error e => simp [hb] at h
    | ok x =>
      obtain ⟨b, changed⟩ := x
      cases changed with
      | none =>
        simp only [hb] at h ⊢
        cases h
        exact ⟨p, none, rfl, hb, rfl⟩
      | some changed =>
        simp only [hb] at h ⊢
        cases hs : requireSizeWithinLimit inbox (payloadBytes changed) with
        | error e => simp [hs] at h
        | ok _ =>
          simp only [hs] at h ⊢
          cases h
          exact ⟨p, some changed, rfl, hb, rfl⟩

/-! ## The bodies -/

section Bodies
variable {p p' : Payload} {op : Op}

variable {identity : IntentExecutionIdentity} {utcNow : String} {now : DateTime × Option Int}

theorem registerBody_change {raw : IntentExecutionIdentity} {payload : JsonObject}
    {a : IntentRegisterResult} (hnorm : raw.normalized inbox.unicode = .ok identity)
    (h : registerBody inbox identity payload utcNow p = .ok (a, some p')) :
    Change inbox p (.registerReceived raw (some payload) utcNow) p' := by
  unfold registerBody recordForIdentity at h
  cases hg : p.records.get? (recordKey identity) with
  | some r =>
    simp only [hg] at h
    split_ifs at h
    all_goals cases h
  | none =>
    simp only [hg] at h
    split at h
    · cases h
    · split_ifs at h with hside
      · cases h
        exact .receipt hnorm hg hside
      · split at h
        · cases h
        · rename_i book hbook
          cases h
          exact .bound hnorm hg hside hbook

theorem beginDispatchBody_change {raw : IntentExecutionIdentity} {rawIds ids : List String}
    {a : IntentDispatchResult} {changed : Option Payload}
    (hnorm : raw.normalized inbox.unicode = .ok identity)
    (hids : stableClientOrderIds inbox.unicode identity.intentId rawIds = .ok ids)
    (h : beginDispatchBody identity ids utcNow p = .ok (a, changed)) :
    (a ≠ .ready ∧ changed = none) ∨
      ∃ r, a = .ready ∧ p.records.get? (recordKey identity) = some r ∧ r.state = .received ∧
        changed = some (p.setRecord (recordKey identity)
          { r with state := .dispatched, clientOrderIds := ids, updatedAt := utcNow }) ∧
        Change inbox p (.beginDispatch raw rawIds utcNow) (p.setRecord (recordKey identity)
          { r with state := .dispatched, clientOrderIds := ids, updatedAt := utcNow }) := by
  unfold beginDispatchBody at h
  cases hr : requiredRecord p identity with
  | error e => simp [hr] at h
  | ok r =>
    obtain ⟨hget, hident⟩ := requiredRecord_ok hr
    simp only [hr] at h
    cases hs : r.state with
    | exchangeConfirmed =>
      simp only [hs] at h
      cases h
      exact .inl ⟨nofun, rfl⟩
    | rejected =>
      simp only [hs] at h
      cases h
      exact .inl ⟨nofun, rfl⟩
    | dispatched =>
      simp only [hs] at h
      split_ifs at h
      cases h
      exact .inl ⟨nofun, rfl⟩
    | received =>
      simp only [hs] at h
      cases h
      exact .inr ⟨r, rfl, hget, hs, rfl, .dispatch hnorm hget hident hs hids⟩

theorem markExchangeConfirmedBody_change {a : Unit} (hop : op.marks = true)
    (h : markExchangeConfirmedBody identity utcNow p = .ok (a, some p')) :
    Change inbox p op p' := by
  unfold markExchangeConfirmedBody at h
  cases hr : requiredRecord p identity with
  | error e => simp [hr] at h
  | ok r =>
    obtain ⟨hget, -⟩ := requiredRecord_ok hr
    simp only [hr] at h
    cases hs : r.state with
    | exchangeConfirmed => simp [hs] at h
    | rejected => simp [hs] at h
    | received => simp [hs] at h
    | dispatched =>
      simp only [hs] at h
      cases h
      exact .mark hop hget (.confirmAll hs)

theorem confirmByClientOrderIdBody_change {target : String} {a : Bool} (hop : op.marks = true)
    (h : confirmByClientOrderIdBody target utcNow p = .ok (a, some p')) : Change inbox p op p' := by
  unfold confirmByClientOrderIdBody at h
  cases he : recordEntryForClientOrderId p target with
  | none => simp [he] at h
  | some entry =>
    obtain ⟨key, r⟩ := entry
    obtain ⟨hget, hmem⟩ := recordEntry_some he
    simp only [he] at h
    split_ifs at h with h1 h2 h3
    · cases h
    · cases h
    · cases h
      refine .mark hop hget (.confirmLeg ?_ hmem)
      by_contra hs
      exact h2 (not_or.mp hs)

theorem closeOrderTerminalBody_change {id : String} {a : Bool} (hop : op.marks = true)
    (h : closeOrderTerminalBody id utcNow p = .ok (a, some p')) : Change inbox p op p' := by
  unfold closeOrderTerminalBody at h
  cases he : recordEntryForClientOrderId p id with
  | none => simp [he] at h
  | some entry =>
    obtain ⟨key, r⟩ := entry
    obtain ⟨hget, -⟩ := recordEntry_some he
    simp only [he] at h
    split_ifs at h
    all_goals cases h
    exact .mark hop hget .terminal

theorem markRejectedBody_change {reason : String} {a : Unit} (hop : op.marks = true)
    (h : markRejectedBody identity reason utcNow p = .ok (a, some p')) : Change inbox p op p' := by
  unfold markRejectedBody at h
  cases hr : requiredRecord p identity with
  | error e => simp [hr] at h
  | ok r =>
    obtain ⟨hget, -⟩ := requiredRecord_ok hr
    simp only [hr] at h
    split_ifs at h with h1 h2
    · cases h
    · cases h
      exact .mark hop hget (.reject h1)

theorem rejectByClientOrderIdBody_change {target reason : String} {a : Option IntentExecutionRecord}
    (hop : op.marks = true)
    (h : rejectByClientOrderIdBody target reason utcNow p = .ok (a, some p')) :
    Change inbox p op p' := by
  unfold rejectByClientOrderIdBody at h
  cases he : recordEntryForClientOrderId p target with
  | none => simp [he] at h
  | some entry =>
    obtain ⟨key, r⟩ := entry
    obtain ⟨hget, -⟩ := recordEntry_some he
    simp only [he] at h
    split_ifs at h with h1 h2
    · cases h
    · cases h
    · cases h
      exact .mark hop hget (.reject h1)

theorem repairCandidates_dispatched {records candidates : List IntentExecutionRecord}
    (h : repairCandidates now records = .ok candidates) :
    ∀ r ∈ candidates, r ∈ records ∧ r.state = .dispatched := by
  induction records generalizing candidates with
  | nil => cases h; simp
  | cons record rest ih =>
    rw [repairCandidates] at h
    cases he : managementRepairEligible record now with
    | error e => simp [he] at h
    | ok eligible =>
      cases hc : repairCandidates now rest with
      | error e => simp [he, hc] at h
      | ok cs =>
        simp only [he, hc] at h
        cases h
        have hrest : ∀ r ∈ cs, r ∈ record :: rest ∧ r.state = .dispatched := fun r hr =>
          ⟨List.mem_cons_of_mem _ (ih hc r hr).1, (ih hc r hr).2⟩
        cases eligible with
        | false => simpa using hrest
        | true =>
          intro r hr
          rcases List.mem_cons.mp hr with rfl | hr
          · refine ⟨List.mem_cons_self, ?_⟩
            by_contra hs
            simp [managementRepairEligible, hs] at he
          · exact hrest r hr

theorem repairBody_change {a : List IntentExecutionRecord × Option Payload}
    (h : repairBody now p = .ok (a, some p')) :
    Change inbox p (.repairDispatchedManagement now) p' := by
  unfold repairBody at h
  cases hc : repairCandidates now (p.records.items.map Prod.snd) with
  | error e => simp [hc] at h
  | ok candidates =>
    have hmem := repairCandidates_dispatched hc
    cases candidates with
    | nil => simp [hc] at h
    | cons c cs =>
      simp only [hc] at h
      cases h
      refine .repair fun r hr => ⟨?_, (hmem r hr).2⟩
      obtain ⟨⟨key, r⟩, hin, rfl⟩ := List.mem_map.mp (hmem r hr).1
      exact ⟨key, Dict.mem_items.mp hin⟩

theorem invalidateBody_change {accountId instrumentId side operationId book operation : String}
    {a : Nat} (hbook : positionBookKey inbox.unicode accountId instrumentId side = .ok book)
    (hop : positionOperationId operationId = .ok operation)
    (h : invalidateBody book operation p = .ok (a, some p')) :
    Change inbox p (.invalidatePosition accountId instrumentId side operationId) p' := by
  unfold invalidateBody at h
  simp only at h
  split at h
  · cases h
  · rename_i hnew
    cases h
    exact .invalidate hbook hop hnew

theorem invalidateScopeBody_change {accountId operationId operation : String}
    {instrumentIds : List String} {a : Unit} (hop : positionOperationId operationId = .ok operation)
    (h : invalidateScopeBody accountId (instrumentIds.map (positionSymbol inbox.unicode)) operation
      p = .ok (a, some p')) :
    Change inbox p (.invalidatePositionScope accountId operationId instrumentIds) p' := by
  unfold invalidateScopeBody at h
  simp only at h
  split_ifs at h
  · cases h
    exact .scope hop
  · cases h

end Bodies

/-! ## One call -/

/-- What a call leaves: the file as it was or, with a normal answer, a changed
payload within the byte budget. -/
def Wrote (inbox : JsonIntentExecutionInbox) (file : File) (op : Op) (x : Answer × File) : Prop :=
  x.2 = file ∨ ∃ p p', loadPayload inbox file = .ok p ∧ Change inbox p op p' ∧
    payloadBytes p' ≤ inbox.maxBytes ∧ x.2 = some p' ∧ x.1.isOk = true

theorem mutate_wrote {file : File} {op : Op} {f : Except Failure α → Answer}
    (hf : ∀ a, (f (.ok a)).isOk = true)
    (hbody : ∀ p a p', body p = .ok (a, some p') → Change inbox p op p') :
    Wrote inbox file op (answering f (mutate inbox file body)) := by
  rcases mutate_cases file body with h | h
  · exact .inl h
  · obtain ⟨p, a, p', hload, hb, hsize, hmut⟩ := h
    refine .inr ⟨p, p', hload, hbody p a p' hb, hsize, ?_, ?_⟩
    · rw [hmut]; rfl
    · rw [hmut]; exact hf a

variable (inbox) in
/-- **Every operation writes a `Change` or nothing.** -/
theorem step_wrote (op : Op) : Wrote inbox file op (step inbox file op) := by
  cases op with
  | registerReceived identity intentPayload utcNow =>
    simp only [step, registerReceived]
    split
    · exact .inl rfl
    · rename_i normalized hnorm
      split
      · exact .inl rfl
      · exact mutate_wrote (fun _ => rfl) fun p a p' h => registerBody_change hnorm h
  | beginDispatch identity clientOrderIds utcNow =>
    simp only [step, beginDispatch]
    split
    · exact .inl rfl
    · rename_i normalized hnorm
      split
      · exact .inl rfl
      · rename_i ids hids
        refine mutate_wrote (fun _ => rfl) fun p a p' h => ?_
        rcases beginDispatchBody_change hnorm hids h with ⟨-, h0⟩ | ⟨r, -, -, -, h1, hchange⟩
        · cases h0
        · cases h1
          exact hchange
  | markExchangeConfirmed identity utcNow =>
    simp only [step, markExchangeConfirmed]
    split
    · exact .inl rfl
    · exact mutate_wrote (fun _ => rfl) fun p a p' h => markExchangeConfirmedBody_change rfl h
  | markExchangeConfirmedByClientOrderId clientOrderId utcNow =>
    simp only [step, markExchangeConfirmedByClientOrderId]
    split_ifs
    · exact .inl rfl
    · exact .inl rfl
    · exact mutate_wrote (fun _ => rfl) fun p a p' h => confirmByClientOrderIdBody_change rfl h
  | markCloseOrderTerminal clientOrderId utcNow =>
    exact mutate_wrote (fun _ => rfl) fun p a p' h => closeOrderTerminalBody_change rfl h
  | markRejected identity reason utcNow =>
    simp only [step, markRejected]
    split
    · exact .inl rfl
    · split_ifs
      · exact .inl rfl
      · exact mutate_wrote (fun _ => rfl) fun p a p' h => markRejectedBody_change rfl h
  | markRejectedByClientOrderId clientOrderId reason utcNow =>
    simp only [step, markRejectedByClientOrderId]
    split_ifs
    · exact .inl rfl
    · exact .inl rfl
    · exact mutate_wrote (fun _ => rfl) fun p a p' h => rejectByClientOrderIdBody_change rfl h
  | repairDispatchedManagement now =>
    exact mutate_wrote (fun _ => rfl) fun p a p' h => repairBody_change h
  | invalidatePosition accountId instrumentId positionSide operationId =>
    simp only [step, invalidatePosition]
    split
    · exact .inl rfl
    · rename_i book hbook
      split
      · exact .inl rfl
      · rename_i operation hop
        exact mutate_wrote (fun _ => rfl) fun p a p' h => invalidateBody_change hbook hop h
  | invalidatePositionScope accountId operationId instrumentIds =>
    simp only [step, invalidatePositionScope]
    split
    · exact .inl rfl
    · rename_i operation hop
      exact mutate_wrote (fun _ => rfl) fun p a p' h => invalidateScopeBody_change hop h

end Inversion
end TraderBot.Inbox
