import TraderBot.Inbox.Denial

/-! # Replaying an account-wide close

An account-wide close puts its operation id on the books that exist. A book
created afterwards does not have it, so the same call made again moves that
book on and shuts out the entries bound to it in the meantime. The replay is
harmless exactly when no such entry is there. -/
namespace TraderBot.Inbox
open TraderBot.Lib TraderBot.Lib.Text TraderBot.Lib.Dict TraderBot.Lib.Json

/-! ## Record keys -/

/-- The key of a record gives its account and its intent back. -/
theorem recordKey_injective {a b : String} {x y : Uuid}
    (h : a ++ ":" ++ x.str = b ++ ":" ++ y.str) : a = b ∧ x = y := by
  have hlist := congrArg String.toList h
  simp only [String.toList_append] at hlist
  have hlen : x.str.toList.length = y.str.toList.length := by
    rw [Uuid.str_length, Uuid.str_length]
  obtain ⟨hfront, hback⟩ := List.append_inj' hlist hlen
  obtain ⟨hacc, -⟩ := List.append_inj' hfront rfl
  exact ⟨String.toList_injective hacc, Uuid.str_injective (String.toList_injective hback)⟩

section Replay
variable (inbox : JsonIntentExecutionInbox)

/-! ## The intents a run received -/

/-- The account and intent of a call that answered `REGISTERED`. -/
def registeredKey (file : File) : Op → List (String × String)
  | .registerReceived identity intentPayload utcNow =>
    match identity.normalized inbox.unicode,
      (registerReceived inbox identity intentPayload utcNow file).1 with
    | .ok normalized, .ok .registered => [(normalized.accountId, normalized.intentId)]
    | _, _ => []
  | _ => []

/-- The accounts and intents that a run registered. -/
def registeredKeys : File → List Op → List (String × String)
  | _, [] => []
  | file, op :: ops => registeredKey inbox file op ++ registeredKeys ((machine inbox).next file op) ops

variable {inbox}

variable {file : File} {p : Payload} {symbols : List String}

theorem registeredKey_intent {op : Op} {account intent : String}
    (h : (account, intent) ∈ registeredKey inbox file op) : ∃ x : Uuid, intent = x.str := by
  cases op with
  | registerReceived identity intentPayload utcNow =>
    simp only [registeredKey] at h
    split at h
    · rename_i normalized hnorm _
      obtain ⟨rfl, rfl⟩ := Prod.mk.inj (List.mem_singleton.mp h)
      obtain ⟨-, -, x, hx, -⟩ := normalized_ok hnorm
      exact ⟨x, hx⟩
    · cases h
  | _ => cases h

theorem registeredKeys_intent {ops : List Op} {account intent : String}
    (h : (account, intent) ∈ registeredKeys inbox file ops) : ∃ x : Uuid, intent = x.str := by
  induction ops generalizing file with
  | nil => cases h
  | cons op ops ih =>
    rcases List.mem_append.mp h with h | h
    · exact registeredKey_intent h
    · exact ih h

/-! ## The replay -/

variable (inbox) in
/-- The file before the call is made again. -/
def beforeReplay (first : List Op) (call : Op) (middle : List Op) : File :=
  (machine inbox).after none (first ++ call :: middle)

variable (inbox) in
/-- The replay changes the answer for no intent registered since the first call. -/
def ReplayNeutral (first : List Op) (call : Op) (middle : List Op) : Prop :=
  ∀ account intent, (account, intent) ∈
      registeredKeys inbox ((machine inbox).after none (first ++ [call])) middle →
    ∀ intentText instrument side requireBinding,
      (Uuid.parse inbox.unicode intentText).map Uuid.str = some intent →
      addPositionDenial inbox account intentText instrument side requireBinding
          ((machine inbox).next (beforeReplay inbox first call middle) call) =
        addPositionDenial inbox account intentText instrument side requireBinding
          (beforeReplay inbox first call middle)

variable (inbox) in
/-- Every book of the scope that an intent registered since is still currently
bound to has the operation on record. -/
def ReplayRecorded (first : List Op) (accountId operationId : String) (instrumentIds : List String)
    (middle : List Op) : Prop :=
  let call := Op.invalidatePositionScope accountId operationId instrumentIds
  ∀ account intent, (account, intent) ∈
      registeredKeys inbox ((machine inbox).after none (first ++ [call])) middle →
    ∀ r (b : PositionBook), recordAt (beforeReplay inbox first call middle) (account ++ ":" ++ intent) = some r →
      BoundTo inbox r b.key (bookAt (beforeReplay inbox first call middle) b.key).generation →
      b.account = accountId →
      (instrumentIds = [] ∨ b.symbol ∈ instrumentIds.map (positionSymbol inbox.unicode)) →
      (bookAt (beforeReplay inbox first call middle) b.key).invalidations.get?
        (strip operationId) ≠ none

/-- What a scope call that returned did to the file. -/
theorem scope_returned {accountId operationId : String} {instrumentIds : List String}
    (h : (step inbox file
      (.invalidatePositionScope accountId operationId instrumentIds)).1.isOk = true) :
    ∃ p, loadPayload inbox file = .ok p ∧
      ((machine inbox).next file (.invalidatePositionScope accountId operationId instrumentIds) =
          file ∨
        file = some p ∧
        (machine inbox).next file (.invalidatePositionScope accountId operationId instrumentIds) =
          some (p.invalidateScope accountId (instrumentIds.map (positionSymbol inbox.unicode))
            (strip operationId))) := by
  simp only [Machine.next, machine, step, answering, invalidatePositionScope, Answer.isOk] at h ⊢
  cases hop : positionOperationId operationId with
  | error e => simp [hop, Except.isOk, Except.toBool] at h
  | ok operation =>
    obtain rfl := (positionOperationId_ok hop).1
    simp only [hop] at h ⊢
    cases hm : (mutate inbox file (invalidateScopeBody accountId
        (instrumentIds.map (positionSymbol inbox.unicode)) (strip operationId))).1 with
    | error e => simp [hm, Except.isOk, Except.toBool] at h
    | ok n =>
      obtain ⟨p, changed, hload, hbody, hfile⟩ := mutate_ok hm
      refine ⟨p, hload, ?_⟩
      rw [hfile]
      unfold invalidateScopeBody at hbody
      split_ifs at hbody with hany
      · cases hbody
        rcases loadPayload_file hload with hsome | ⟨-, rfl⟩
        · exact .inr ⟨hsome, rfl⟩
        · cases hany
      · cases hbody
        exact .inl rfl

/-- A file that could be read can be read after a scope call. -/
theorem load_invalidateScope {accountId operation : String}
    (hload : loadPayload inbox (some p) = .ok p)
    (hwf : FileWf inbox (some (p.invalidateScope accountId symbols operation))) :
    loadPayload inbox (some (p.invalidateScope accountId symbols operation)) =
      .ok (p.invalidateScope accountId symbols operation) := by
  refine loadPayload_ok.mpr ⟨hwf.size _ rfl, fun key s hget => ?_⟩
  refine ⟨?_, (hwf.barrier _ rfl).recorded key s hget⟩
  rw [get?_invalidateScope] at hget
  obtain ⟨s₀, hs₀, -⟩ := Option.map_eq_some_iff.mp hget
  exact ((loadPayload_ok.mp hload).2 key s₀ hs₀).canonical

/-- The answers before and after agree when the call moves no book that the
record is currently bound to. -/
theorem denialBody_invalidateScope {key book accountId operation : String} {requireBinding : Bool}
    (hwf : BarrierWf inbox p)
    (hquiet : ∀ r own s, p.records.get? key = some r → p.positionGenerations.get? own = some s →
      BoundTo inbox r own s.generation → scopeHits accountId symbols operation own s = false) :
    denialBody inbox key book requireBinding (p.invalidateScope accountId symbols operation) =
      denialBody inbox key book requireBinding p := by
  have hrecords : (p.invalidateScope accountId symbols operation).records = p.records := rfl
  cases hget : p.records.get? key with
  | none => simp only [denialBody, hrecords, hget]
  | some r =>
    cases hg : r.localPositionGeneration with
    | none => simp only [denialBody, hrecords, hget, hg]
    | some g =>
      obtain ⟨own, s, hb, hs, hle⟩ := hwf.bound key r g hget hg
      have hs' := get?_invalidateScope p accountId symbols operation own
      rw [hs, Option.map_some] at hs'
      rw [denialBody_bound hget hb hs, denialBody_bound (hrecords ▸ hget) hb hs']
      cases hhit : scopeHits accountId symbols operation own s with
      | false => rfl
      | true =>
        -- a binding the call passes over was behind its book already
        have hne : g ≠ s.generation := by
          rintro rfl
          rw [hquiet r own s hget hs hb] at hhit
          cases hhit
        have hne' : g ≠ (invalidateBook s operation).generation := by
          change g ≠ s.generation + 1
          omega
        simp only [if_true, if_pos hne, if_pos hne']

section Iff
variable {first middle : List Op} {accountId operationId : String} {instrumentIds : List String}

theorem scopeHits_key {b : PositionBook} {s : PositionGeneration} :
    scopeHits accountId (instrumentIds.map (positionSymbol inbox.unicode)) (strip operationId) b.key
        s = true ↔
      (b.account = accountId ∧
        (instrumentIds = [] ∨ b.symbol ∈ instrumentIds.map (positionSymbol inbox.unicode))) ∧
        s.invalidations.get? (strip operationId) = none := by
  simp only [scopeHits, Bool.and_eq_true, inScope_key, List.map_eq_nil_iff,
    Option.isNone_iff_eq_none]

/-- **An account-wide close can be replayed exactly when** every book in its
scope with a current binding made since has the operation on record. -/
theorem replayNeutral_iff (inbox : JsonIntentExecutionInbox) (first middle : List Op)
    (accountId operationId : String) (instrumentIds : List String)
    (hreplay : (step inbox (beforeReplay inbox first
        (.invalidatePositionScope accountId operationId instrumentIds) middle)
      (.invalidatePositionScope accountId operationId instrumentIds)).1.isOk = true) :
    ReplayNeutral inbox first (.invalidatePositionScope accountId operationId instrumentIds)
        middle ↔
      ReplayRecorded inbox first accountId operationId instrumentIds middle := by
  set call := Op.invalidatePositionScope accountId operationId instrumentIds with hcall
  have hwf : FileWf inbox (beforeReplay inbox first call middle) := after_fileWf inbox _
  have hwf' := next_fileWf inbox _ call hwf
  obtain ⟨p, hload, hnext⟩ := scope_returned hreplay
  set file := beforeReplay inbox first call middle with hfile
  constructor
  · intro hneutral account intent hmem r b hget hb hacc hsym hnone
    obtain ⟨x, rfl⟩ := registeredKeys_intent hmem
    have hparse : Uuid.parse inbox.unicode x.str = some x := Uuid.parse_str _ x
    cases hf : file with
    | none => rw [← hfile, hf] at hget; cases hget
    | some q =>
      rw [← hfile, hf] at hget hb hnone
      obtain ⟨own, s, hown, hs, -⟩ := (hwf.barrier q hf).bound _ r _ hget hb.generation
      obtain rfl : b.key = own := Except.ok.inj (hb.book_eq.symm.trans hown.book_eq)
      have haccount : r.accountId = account := by
        obtain ⟨y, hy⟩ := ((hwf.records q hf) _ r hget).intent
        have hkey := ((hwf.records q hf) _ r hget).key_eq
        simp only [recordKey, IntentExecutionRecord.identity, hy] at hkey
        exact (recordKey_injective hkey).1.symm
      have hbefore := denial_of_current false hparse (haccount ▸ hb.book_eq)
        (hf ▸ hload) hget hb ⟨s, hs⟩
      -- the replay finds the operation missing and moves the book
      have heff : Effective inbox b (some q) call := ⟨⟨hacc, hsym⟩, ⟨s, hs⟩, hnone, hf ▸ hreplay⟩
      have hgen := (next_generation inbox b (some q) call).1 heff
      obtain ⟨r', hget', ha⟩ := next_advances inbox (some q) call (hf ▸ hwf.records) hget
      have hafter := denial_of_moved r.instrumentId r.localPositionSide false hparse hget' (hb.advances ha.identity ha.generation ha.side)
        (next_hasBook inbox call ⟨s, hs⟩) (by omega)
      have hsame := hneutral account x.str hmem x.str r.instrumentId r.localPositionSide false
        (by rw [hparse]; rfl)
      rw [← hfile, hf, hbefore] at hsame
      exact hafter hsame
  · intro hrecorded account intent hmem intentText instrument side requireBinding hparse
    obtain ⟨x, hx, rfl⟩ := Option.map_eq_some_iff.mp hparse
    rcases hnext with hsame | ⟨hsome, hmoved⟩
    · rw [← hfile, hsame]
    · rw [← hfile, hmoved, hsome]
      rw [hsome] at hload hwf
      rw [hmoved] at hwf'
      unfold addPositionDenial
      cases hkey : positionBookKey inbox.unicode account instrument side with
      | error e => rfl
      | ok book =>
        simp only [hx, readLocked, hload, load_invalidateScope hload hwf']
        refine denialBody_invalidateScope (hwf.barrier p rfl) fun r own s hget hs hb => ?_
        obtain ⟨b, rfl, -⟩ := ((loadPayload_ok.mp hload).2 own s hs).canonical
        have hbook : bookAt file b.key = s := by
          rw [hsome]
          simp [bookAt, Payload.book, hs]
        by_contra hhit
        obtain ⟨⟨hacc, hsym⟩, hnone⟩ := scopeHits_key.mp ((Bool.not_eq_false _).mp hhit)
        refine hrecorded account x.str hmem r b ?_ ?_ hacc hsym ?_
        · rw [← hfile, hsome]; exact hget
        · rw [← hfile, hbook]; exact hb
        · rw [← hfile, hbook]; exact hnone

end Iff
end Replay

/-! ## A book created between the two calls -/

def sampleCloseAll : Op := .invalidatePositionScope "binance-main" "close-all-1" []

theorem replayNeutral_sample :
    (step sampleInbox (beforeReplay sampleInbox [] sampleCloseAll
        [sampleReceipt "BTCUSDT-PERP.BINANCE"]) sampleCloseAll).1.isOk = true ∧
      (ReplayNeutral sampleInbox [] sampleCloseAll [sampleReceipt "BTCUSDT-PERP.BINANCE"] ↔
        ReplayRecorded sampleInbox [] "binance-main" "close-all-1" []
          [sampleReceipt "BTCUSDT-PERP.BINANCE"]) := by
  have hok : (step sampleInbox (beforeReplay sampleInbox [] sampleCloseAll
      [sampleReceipt "BTCUSDT-PERP.BINANCE"]) sampleCloseAll).1.isOk = true := by decide +kernel
  exact ⟨hok, replayNeutral_iff sampleInbox [] [sampleReceipt "BTCUSDT-PERP.BINANCE"]
    "binance-main" "close-all-1" [] hok⟩

/-- An entry received after an account-wide close is shut out by its replay. -/
theorem not_replayNeutral_new_book :
    ¬ ReplayNeutral sampleInbox [] sampleCloseAll [sampleReceipt "BTCUSDT-PERP.BINANCE"] := by
  intro h
  have hsame := h "binance-main" "6f1c2a7e-5b0d-4c3e-9a8f-7b6c5d4e3f21" (by decide +kernel)
    "6f1c2a7e-5b0d-4c3e-9a8f-7b6c5d4e3f21" "BTCUSDT-PERP.BINANCE" "LONG" false (by decide +kernel)
  revert hsame
  decide +kernel

end TraderBot.Inbox
