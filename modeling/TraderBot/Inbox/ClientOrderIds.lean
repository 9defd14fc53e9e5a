import TraderBot.Inbox.ScopeReplay

/-! # Whose order an exchange event is about

An event names a client order id and the inbox takes the first record that
lists it. An id spells out the intent it is made from, so only records of one
intent can share it, and a record's key has room for one of each account: the
id is unambiguous as long as no two accounts dispatch one intent under one id. -/
namespace TraderBot.Inbox
open TraderBot.Lib TraderBot.Lib.Text TraderBot.Lib.Dict TraderBot.Lib.Json

/-! ## One owner -/

/-- No client order id is listed by two records. -/
def UniqueIds (p : Payload) : Prop :=
  ∀ key r key' r' id, p.records.get? key = some r → p.records.get? key' = some r' →
    id ∈ r.clientOrderIds → id ∈ r'.clientOrderIds → key = key'

/-- Every listed client order id leads to the one record that lists it. -/
structure OneOwner (p : Payload) : Prop where
  unique : UniqueIds p
  found : ∀ key r id, p.records.get? key = some r → id ∈ r.clientOrderIds →
    recordEntryForClientOrderId p id = some (key, r)

theorem oneOwner_of_uniqueIds {p : Payload} (h : UniqueIds p) : OneOwner p := by
  refine ⟨h, fun key r id hget hid => ?_⟩
  cases he : recordEntryForClientOrderId p id with
  | none =>
    have hall := List.find?_eq_none.mp he (key, r) (Dict.mem_items.mpr hget)
    exact absurd (decide_eq_true hid) hall
  | some entry =>
    obtain ⟨key', r'⟩ := entry
    obtain ⟨hget', hid'⟩ := recordEntry_some he
    obtain rfl := h key r key' r' id hget hget' hid hid'
    rw [hget] at hget'
    cases hget'
    rfl

/-- An id is made from one intent only. -/
theorem Derived.intent_eq {intent intent' id : String} (h : Derived intent id)
    (h' : Derived intent' id) : intent = intent' := by
  obtain ⟨x, rfl, hx⟩ := h
  obtain ⟨y, rfl, hy⟩ := h'
  rw [hx, Option.some.injEq] at hy
  rw [Uuid.hex_injective hy]

/-! ## Steps -/

section Steps
variable {inbox : JsonIntentExecutionInbox} {p p' : Payload} {op : Op}

/-- Records that list what they listed before, or nothing, keep ids apart. -/
theorem UniqueIds.of_subset (h : UniqueIds p)
    (hsub : ∀ key r', p'.records.get? key = some r' → r'.clientOrderIds = [] ∨
      ∃ r, p.records.get? key = some r ∧ r'.clientOrderIds = r.clientOrderIds) : UniqueIds p' := by
  intro key r key' r' id hget hget' hid hid'
  rcases hsub key r hget with h0 | ⟨s, hs, hids⟩
  · rw [h0] at hid; cases hid
  · rcases hsub key' r' hget' with h0 | ⟨s', hs', hids'⟩
    · rw [h0] at hid'; cases hid'
    · exact h key s key' s' id hs hs' (hids ▸ hid) (hids' ▸ hid')

theorem Marks.clientOrderIds {r r' : IntentExecutionRecord} (h : Marks r r') :
    r'.clientOrderIds = r.clientOrderIds := by
  cases h with
  | confirmAll => rfl
  | confirmLeg => rfl
  | terminal => rfl
  | reject => rfl

/-- The record a `setRecord` leaves under a key. -/
theorem setRecord_cases {key k : String} {r r' : IntentExecutionRecord}
    (h : (p.setRecord k r).records.get? key = some r') :
    (key = k ∧ r' = r) ∨ (key ≠ k ∧ p.records.get? key = some r') := by
  rw [get?_setRecord] at h
  split_ifs at h with hk
  · exact .inl ⟨hk, (Option.some.inj h).symm⟩
  · exact .inr ⟨hk, h⟩

/-- The records of a file. -/
def fileRecords (file : File) : List IntentExecutionRecord :=
  match file with
  | none => []
  | some p => p.records.items.map Prod.snd

/-- No record of another account lists one of the ids for the intent. -/
def IdsFree (file : File) (identity : IntentExecutionIdentity) (clientOrderIds : List String) :
    Prop :=
  ∀ r ∈ fileRecords file, r.accountId ≠ identity.accountId → r.intentId = identity.intentId →
    ∀ id ∈ clientOrderIds, strip id ∉ r.clientOrderIds

instance (file : File) (identity : IntentExecutionIdentity) (clientOrderIds : List String) :
    Decidable (IdsFree file identity clientOrderIds) :=
  inferInstanceAs (Decidable (∀ r ∈ fileRecords file, _))

variable (inbox) in
/-- The call dispatches no id that a record of another account lists for the
same intent. -/
def dispatchesOwnIds (file : File) : Op → Bool
  | .beginDispatch raw clientOrderIds _ =>
    match raw.normalized inbox.unicode with
    | .ok identity => IdsFree file identity clientOrderIds
    | .error _ => true
  | _ => true

/-- A dispatch under ids that no other account has for the intent. -/
theorem uniqueIds_dispatch {identity : IntentExecutionIdentity} {r : IntentExecutionRecord}
    {rawIds ids : List String} {utcNow : String} (h : UniqueIds p) (hwf : RecordsWf p)
    (hget : p.records.get? (recordKey identity) = some r) (hident : r.identity = identity)
    (hids : stableClientOrderIds inbox.unicode identity.intentId rawIds = .ok ids)
    (hown : IdsFree (some p) identity rawIds) :
    UniqueIds (p.setRecord (recordKey identity)
      { r with state := .dispatched, clientOrderIds := ids, updatedAt := utcNow }) := by
  obtain ⟨x, hx⟩ := (hwf _ r hget).intent
  have hintent : identity.intentId = x.str := (congrArg (·.intentId) hident).symm.trans hx
  rw [hintent] at hids
  obtain ⟨rfl, -, hder⟩ := stableClientOrderIds_ok hids
  -- a record that lists one of the ids has the intent, hence the account, hence the key
  have hother : ∀ key s id, p.records.get? key = some s → id ∈ rawIds.map strip →
      id ∈ s.clientOrderIds → key = recordKey identity := by
    intro key s id hs hid hsid
    have hsame := ((hwf key s hs).derived id hsid).intent_eq (hder id hid)
    obtain ⟨raw, hraw, rfl⟩ := List.mem_map.mp hid
    have hacc : s.accountId = identity.accountId := by
      by_contra hne
      have hin : s ∈ fileRecords (some p) := List.mem_map.mpr ⟨(key, s), Dict.mem_items.mpr hs, rfl⟩
      exact hown s hin hne (hsame.trans hintent.symm) raw hraw hsid
    rw [(hwf key s hs).key_eq]
    simp only [recordKey, IntentExecutionRecord.identity, hacc, hsame, hintent]
  intro key s key' s' id hs hs' hid hid'
  rcases setRecord_cases hs with ⟨rfl, rfl⟩ | ⟨hne, hs⟩
  · rcases setRecord_cases hs' with ⟨rfl, rfl⟩ | ⟨hne', hs'⟩
    · rfl
    · exact (hother key' s' id hs' hid hid').symm
  · rcases setRecord_cases hs' with ⟨rfl, rfl⟩ | ⟨hne', hs'⟩
    · exact hother key s id hs hid' hid
    · exact h key s key' s' id hs hs' hid hid'

theorem Change.uniqueIds (h : Change inbox p op p') (hwf : RecordsWf p) (hp : UniqueIds p)
    (hop : dispatchesOwnIds inbox (some p) op = true) : UniqueIds p' := by
  have hkept : ∀ {k : String} {s s' : IntentExecutionRecord}, p.records.get? k = some s →
      s'.clientOrderIds = s.clientOrderIds → UniqueIds (p.setRecord k s') := by
    intro k s s' hk hids
    refine hp.of_subset fun key r' hget => .inr ?_
    rcases setRecord_cases hget with ⟨rfl, rfl⟩ | ⟨-, hget⟩
    · exact ⟨s, hk, hids⟩
    · exact ⟨r', hget, rfl⟩
  cases h with
  | receipt =>
    refine hp.of_subset fun key r' hget => ?_
    rcases setRecord_cases hget with ⟨rfl, rfl⟩ | ⟨-, hget⟩
    · exact .inl rfl
    · exact .inr ⟨r', hget, rfl⟩
  | bound =>
    refine hp.of_subset fun key r' hget => ?_
    rcases setRecord_cases hget with ⟨rfl, rfl⟩ | ⟨-, hget⟩
    · exact .inl rfl
    · exact .inr ⟨r', hget, rfl⟩
  | dispatch hnorm hget hident hstate hids =>
    simp only [dispatchesOwnIds, hnorm, decide_eq_true_eq] at hop
    exact uniqueIds_dispatch hp hwf hget hident hids hop
  | mark hopm hget hmarks => exact hkept hget hmarks.clientOrderIds
  | repair hmem =>
    refine hp.of_subset fun key r' hget => .inr ?_
    rcases rejectAll_cases hwf hmem key with h | ⟨r, hr, -, h⟩
    · exact ⟨r', h ▸ hget, rfl⟩
    · cases h.symm.trans hget
      exact ⟨r, hr, rfl⟩
  | invalidate => exact hp
  | scope => exact hp

end Steps

/-! ## Every run -/

/-- **Every order has one owner** in every state of a run whose dispatches use
no id that another account has for the same intent. -/
theorem oneOwner_of_ownIds (inbox : JsonIntentExecutionInbox) (ops : List Op)
    (hown : (machine inbox).Meets (fun file op => dispatchesOwnIds inbox file op = true) none ops) :
    ∀ first rest, ops = first ++ rest →
      ∀ p, (machine inbox).after none first = some p → OneOwner p := by
  rintro first rest rfl p hp
  have hinv := Machine.invariant_of_meets (m := machine inbox)
    (I := fun file => FileRecordsWf file ∧ ∀ p, file = some p → UniqueIds p)
    (P := fun file op => dispatchesOwnIds inbox file op = true) ?_ ⟨fileRecordsWf_none, fun p hp => by cases hp⟩ (Machine.meets_append.mp hown).1
  · exact oneOwner_of_uniqueIds (hinv.2 p hp)
  · rintro file op ⟨hwf, huniq⟩ hop
    refine ⟨next_recordsWf inbox file op hwf, ?_⟩
    rcases step_wrote inbox file op with h | ⟨q, q', hload, hchange, -, h, -⟩
    · rw [Machine.next, machine, h]
      exact huniq
    · rw [Machine.next, machine, h]
      intro q'' hq''
      cases hq''
      rcases loadPayload_file hload with rfl | ⟨rfl, rfl⟩
      · exact hchange.uniqueIds (hwf q rfl) (huniq q rfl) hop
      · -- an inbox without a file and one without records read the same
        exact hchange.uniqueIds (fun key r hget => by cases hget) (fun key r key' r' id hget => by cases hget) hop

/-! ## One intent under two accounts -/

/-- The sample intent of one account. -/
def accountIdentity (accountId : String) : IntentExecutionIdentity :=
  { sampleIdentity "BTCUSDT-PERP.BINANCE" with accountId }

def accountReceipt (accountId : String) : Op :=
  .registerReceived (accountIdentity accountId) (some samplePayload) "2025-01-01T00:00:00+00:00"

/-- Its first order. -/
def sampleOrderId : String := "B6f1c2a7e5b0d4c3e9a8f7b6c5d4e3f2101"

def accountDispatch (accountId : String) : Op :=
  .beginDispatch (accountIdentity accountId) [sampleOrderId] "2025-01-01T00:00:01+00:00"

theorem oneOwner_sample :
    (machine sampleInbox).Meets (fun file op => dispatchesOwnIds sampleInbox file op = true) none
        [accountReceipt "binance-main", accountDispatch "binance-main"] ∧
      ∀ first rest, [accountReceipt "binance-main", accountDispatch "binance-main"] = first ++ rest →
        ∀ p, (machine sampleInbox).after none first = some p → OneOwner p := by
  have hown : (machine sampleInbox).Meets
      (fun file op => dispatchesOwnIds sampleInbox file op = true) none
      [accountReceipt "binance-main", accountDispatch "binance-main"] := by decide +kernel
  exact ⟨hown, oneOwner_of_ownIds sampleInbox _ hown⟩

/-- Two accounts receive one intent and dispatch it under the id made from it. -/
def twoAccounts : List Op :=
  [accountReceipt "binance-main", accountReceipt "binance-sub", accountDispatch "binance-main",
    accountDispatch "binance-sub"]

theorem not_oneOwner_two_accounts :
    ¬ ∀ p, (machine sampleInbox).after none twoAccounts = some p → OneOwner p := by
  intro h
  have hlists : ((machine sampleInbox).after none twoAccounts).map (fun p =>
      ((p.records.get? "binance-main:6f1c2a7e-5b0d-4c3e-9a8f-7b6c5d4e3f21").map (·.clientOrderIds),
        (p.records.get? "binance-sub:6f1c2a7e-5b0d-4c3e-9a8f-7b6c5d4e3f21").map
          (·.clientOrderIds))) = some (some [sampleOrderId], some [sampleOrderId]) := by
    decide +kernel
  obtain ⟨p, hp, hboth⟩ := Option.map_eq_some_iff.mp hlists
  obtain ⟨hmain, hsub⟩ := Prod.mk.inj hboth
  obtain ⟨r, hr, hids⟩ := Option.map_eq_some_iff.mp hmain
  obtain ⟨r', hr', hids'⟩ := Option.map_eq_some_iff.mp hsub
  have hkeys := (h p hp).unique _ r _ r' sampleOrderId hr hr' (by rw [hids]; exact List.mem_cons_self)
    (by rw [hids']; exact List.mem_cons_self)
  revert hkeys
  decide

end TraderBot.Inbox
