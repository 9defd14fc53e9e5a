import TraderBot.Inbox.Changes

/-! # The life of a record

A record is received once, dispatched at most once and then confirmed or
rejected for good; it keeps its identity, its payload and its binding, and from
the dispatch on its client order ids. All of it follows from how a `Change`
moves one record (`Advances`) and from what every record satisfies (`RecordWf`). -/
namespace TraderBot.Inbox
open TraderBot.Lib TraderBot.Lib.Text TraderBot.Lib.Dict TraderBot.Lib.Json

/-! ## Steps of one record -/

/-- The moves of a record's state. -/
inductive Edge : IntentExecutionState → IntentExecutionState → Prop where
  | dispatch : Edge .received .dispatched
  | confirm : Edge .dispatched .exchangeConfirmed
  | rejectReceived : Edge .received .rejected
  | rejectDispatched : Edge .dispatched .rejected

/-- What one operation may do to a record. -/
structure Advances (r r' : IntentExecutionRecord) : Prop where
  identity : r'.identity = r.identity
  payload : r'.intentPayload = r.intentPayload
  generation : r'.localPositionGeneration = r.localPositionGeneration
  side : r'.localPositionSide = r.localPositionSide
  state : r'.state = r.state ∨ Edge r.state r'.state
  ids : r.state ≠ .received → r'.clientOrderIds = r.clientOrderIds

theorem Advances.refl (r : IntentExecutionRecord) : Advances r r :=
  ⟨rfl, rfl, rfl, rfl, .inl rfl, fun _ => rfl⟩

variable {r : IntentExecutionRecord} {u : Unicode} {key : String} {p : Payload}

theorem advances_reject (reason utcNow : String) (h : r.state ≠ .exchangeConfirmed) :
    Advances r (reject r reason utcNow) := by
  refine ⟨rfl, rfl, rfl, rfl, ?_, fun _ => rfl⟩
  cases hs : r.state with
  | received => exact .inr .rejectReceived
  | dispatched => exact .inr .rejectDispatched
  | exchangeConfirmed => exact absurd hs h
  | rejected => exact .inl rfl

theorem advances_dispatch (ids : List String) (utcNow : String) (h : r.state = .received) :
    Advances r { r with state := .dispatched, clientOrderIds := ids, updatedAt := utcNow } :=
  ⟨rfl, rfl, rfl, rfl, .inr (h ▸ .dispatch), fun hne => absurd h hne⟩

theorem Marks.advances {r' : IntentExecutionRecord} (h : Marks r r') : Advances r r' := by
  cases h with
  | confirmAll hstate => exact ⟨rfl, rfl, rfl, rfl, .inr (hstate ▸ .confirm), fun _ => rfl⟩
  | confirmLeg hstate _ =>
    refine ⟨rfl, rfl, rfl, rfl, ?_, fun _ => rfl⟩
    unfold confirmOne
    simp only
    split_ifs with hall
    · rw [hall.1]; exact .inr .confirm
    · exact .inl rfl
  | terminal => exact ⟨rfl, rfl, rfl, rfl, .inl rfl, fun _ => rfl⟩
  | reject hstate => exact advances_reject _ _ hstate

/-! ## What every record satisfies -/

/-- The client order id is made from the intent id. -/
def Derived (intentId id : String) : Prop :=
  ∃ x : Uuid, intentId = x.str ∧ (clientOrderIdGroups id.toList).map Prod.fst = some x.hex

/-- A record as the inbox keeps it under a key. -/
structure RecordWf (key : String) (r : IntentExecutionRecord) : Prop where
  key_eq : key = recordKey r.identity
  account : strip r.accountId = r.accountId
  intent : ∃ x : Uuid, r.intentId = x.str
  received : r.state = .received → r.clientOrderIds = []
  dispatched : r.state = .dispatched → r.clientOrderIds ≠ []
  confirmed : r.state = .exchangeConfirmed → r.clientOrderIds ≠ [] ∧
    ∀ id ∈ r.clientOrderIds, id ∈ r.exchangeConfirmedClientOrderIds
  derived : ∀ id ∈ r.clientOrderIds, Derived r.intentId id

theorem stableClientOrderIds_ok {x : Uuid} {raw ids : List String}
    (h : stableClientOrderIds u x.str raw = .ok ids) :
    ids = raw.map strip ∧ ids ≠ [] ∧ ∀ id ∈ ids, Derived x.str id := by
  unfold stableClientOrderIds at h
  simp only [Uuid.parse_str] at h
  split_ifs at h with h1 h2 h3
  cases h
  refine ⟨rfl, h1, fun id hid => ⟨x, rfl, ?_⟩⟩
  exact beq_iff_eq.mp (List.all_eq_true.mp h3 id hid)

theorem mem_sortedSet {xs : List String} {x : String} : x ∈ sortedSet xs ↔ x ∈ xs := by
  rw [sortedSet, List.mem_insertionSort, List.mem_dedup]

theorem dispatch_wf {utcNow : String} {raw ids : List String} (hr : RecordWf key r)
    (hids : stableClientOrderIds u r.intentId raw = .ok ids) :
    RecordWf key { r with state := .dispatched, clientOrderIds := ids, updatedAt := utcNow } := by
  obtain ⟨x, hx⟩ := hr.intent
  rw [hx] at hids
  obtain ⟨-, hne, hder⟩ := stableClientOrderIds_ok hids
  exact ⟨hr.key_eq, hr.account, hr.intent, nofun, fun _ => hne, nofun,
    fun id hid => hx ▸ hder id hid⟩

theorem Marks.wf {r' : IntentExecutionRecord} (h : Marks r r') (hr : RecordWf key r) :
    RecordWf key r' := by
  cases h with
  | confirmAll hstate =>
    exact ⟨hr.key_eq, hr.account, hr.intent, nofun, nofun,
      fun _ => ⟨hr.dispatched hstate, fun id hid => hid⟩, hr.derived⟩
  | confirmLeg hstate hmem =>
    refine ⟨hr.key_eq, hr.account, hr.intent, ?_, ?_, ?_, hr.derived⟩
    · unfold confirmOne
      simp only
      split_ifs
      · nofun
      · exact hr.received
    · exact fun _ => List.ne_nil_of_mem hmem
    · intro hs
      refine ⟨List.ne_nil_of_mem hmem, fun id hid => mem_sortedSet.mpr ?_⟩
      -- a record that was not confirmed before is so because all ids are covered
      unfold confirmOne at hs
      simp only at hs
      split_ifs at hs with hall
      · exact hall.2 id hid
      · rcases hstate with h | h
        · rw [h] at hs; cases hs
        · rw [h] at hs; cases hs
  | terminal =>
    exact ⟨hr.key_eq, hr.account, hr.intent, hr.received, hr.dispatched, hr.confirmed, hr.derived⟩
  | reject hstate =>
    exact ⟨hr.key_eq, hr.account, hr.intent, nofun, nofun, nofun, hr.derived⟩

/-- A receipt is a record without orders. -/
theorem receipt_wf {raw identity : IntentExecutionIdentity} (payload : JsonObject) (utcNow : String)
    (hnorm : raw.normalized u = .ok identity) :
    RecordWf (recordKey identity) (receiptRecord identity payload utcNow) := by
  obtain ⟨hacc, -, x, hx, -⟩ := normalized_ok hnorm
  exact ⟨rfl, hacc, ⟨x, hx⟩, fun _ => rfl, nofun, nofun, nofun⟩

/-! ## Steps of the payload -/

/-- Every record of a payload is well formed. -/
def RecordsWf (p : Payload) : Prop := ∀ key r, p.records.get? key = some r → RecordWf key r

theorem get?_setRecord {k : String} :
    (p.setRecord key r).records.get? k = if k = key then some r else p.records.get? k :=
  Dict.get?_set

/-- After repair a record is what it was, or rejected as a candidate. -/
theorem get?_rejectAll (repairTime : String) (candidates : List IntentExecutionRecord)
    (hkeys : ∀ c ∈ candidates, recordKey c.identity = key → c = r)
    (hget : p.records.get? key = some r ∨ p.records.get? key =
      some (reject r "inbox_repair_stale_management" repairTime)) :
    (rejectAll candidates repairTime p).records.get? key = some r ∨
      (rejectAll candidates repairTime p).records.get? key =
        some (reject r "inbox_repair_stale_management" repairTime) := by
  induction candidates generalizing p with
  | nil => exact hget
  | cons c cs ih =>
    refine ih (fun d hd => hkeys d (List.mem_cons_of_mem _ hd)) ?_
    rw [get?_setRecord]
    split_ifs with hk
    · rw [hkeys c List.mem_cons_self hk.symm]
      exact .inr rfl
    · exact hget

theorem get?_rejectAll_other {repairTime : String} (candidates : List IntentExecutionRecord)
    (hkeys : ∀ c ∈ candidates, recordKey c.identity ≠ key) :
    (rejectAll candidates repairTime p).records.get? key = p.records.get? key := by
  induction candidates generalizing p with
  | nil => rfl
  | cons c cs ih =>
    refine (ih fun d hd => hkeys d (List.mem_cons_of_mem _ hd)).trans ?_
    rw [get?_setRecord, if_neg (hkeys c List.mem_cons_self).symm]

section Payload
variable {inbox : JsonIntentExecutionInbox} {p p' : Payload} {op : Op}

variable {candidates : List IntentExecutionRecord}

/-- The candidates of a repair, each under its own key. -/
theorem candidate_key (hwf : RecordsWf p)
    (hmem : ∀ r ∈ candidates, (∃ key, p.records.get? key = some r) ∧ r.state = .dispatched)
    {c : IntentExecutionRecord} (hc : c ∈ candidates) :
    p.records.get? (recordKey c.identity) = some c := by
  obtain ⟨⟨key, hget⟩, -⟩ := hmem c hc
  rw [← (hwf key c hget).key_eq]
  exact hget

/-- After repair a record is what it was, or a candidate that was rejected. -/
theorem rejectAll_cases {repairTime : String} (hwf : RecordsWf p)
    (hmem : ∀ r ∈ candidates, (∃ key, p.records.get? key = some r) ∧ r.state = .dispatched)
    (key : String) :
    (rejectAll candidates repairTime p).records.get? key = p.records.get? key ∨
      ∃ r, p.records.get? key = some r ∧ r.state = .dispatched ∧
        (rejectAll candidates repairTime p).records.get? key =
          some (reject r "inbox_repair_stale_management" repairTime) := by
  by_cases hin : ∃ c ∈ candidates, recordKey c.identity = key
  · obtain ⟨r, hr, hk⟩ := hin
    have hget : p.records.get? key = some r := hk ▸ candidate_key hwf hmem hr
    have hkeys : ∀ c ∈ candidates, recordKey c.identity = key → c = r := by
      intro c hc hkc
      have hg := candidate_key hwf hmem hc
      rw [hkc, hget] at hg
      exact (Option.some.inj hg).symm
    rcases get?_rejectAll repairTime candidates hkeys (.inl hget) with h | h
    · exact .inl (h.trans hget.symm)
    · exact .inr ⟨r, hget, (hmem r hr).2, h⟩
  · exact .inl (get?_rejectAll_other candidates fun c hc hk => hin ⟨c, hc, hk⟩)

/-- **No record is lost, and each moves by one step.** -/
theorem Change.advances (h : Change inbox p op p') (hwf : RecordsWf p) {key : String}
    {r : IntentExecutionRecord} (hget : p.records.get? key = some r) :
    ∃ r', p'.records.get? key = some r' ∧ Advances r r' := by
  have hset : ∀ {q : Payload} {k : String} {x : IntentExecutionRecord},
      q.records = p.records → p.records.get? k = none →
      ∃ r', (q.setRecord k x).records.get? key = some r' ∧ Advances r r' := by
    intro q k x hq hk
    have hne : key ≠ k := by
      rintro rfl
      rw [hk] at hget
      cases hget
    exact ⟨r, by rw [get?_setRecord, if_neg hne, hq, hget], .refl r⟩
  have hmove : ∀ {k : String} {s s' : IntentExecutionRecord},
      p.records.get? k = some s → Advances s s' →
      ∃ r', (p.setRecord k s').records.get? key = some r' ∧ Advances r r' := by
    intro k s s' hk ha
    by_cases hkey : key = k
    · subst hkey
      rw [hk] at hget
      cases hget
      exact ⟨s', by rw [get?_setRecord, if_pos rfl], ha⟩
    · exact ⟨r, by rw [get?_setRecord, if_neg hkey, hget], .refl r⟩
  cases h with
  | receipt hnorm hnew hside => exact hset rfl hnew
  | bound hnorm hnew hside hbook => exact hset rfl hnew
  | dispatch hnorm hk hident hstate hids => exact hmove hk (advances_dispatch _ _ hstate)
  | mark hop hk hmarks => exact hmove hk hmarks.advances
  | repair hmem =>
    rcases rejectAll_cases hwf hmem key with h | ⟨r₀, h₀, hs, h⟩
    · exact ⟨r, h.trans hget, .refl r⟩
    · cases h₀.symm.trans hget
      exact ⟨_, h, advances_reject _ _ (by rw [hs]; nofun)⟩
  | invalidate => exact ⟨r, hget, .refl r⟩
  | scope => exact ⟨r, hget, .refl r⟩

theorem Change.recordsWf (h : Change inbox p op p') (hwf : RecordsWf p) : RecordsWf p' := by
  have hset : ∀ {q : Payload} {k : String} {x : IntentExecutionRecord},
      q.records = p.records → RecordWf k x → RecordsWf (q.setRecord k x) := by
    intro q k x hq hx key r hget
    rw [get?_setRecord] at hget
    split_ifs at hget with hk
    · cases hget
      exact hk ▸ hx
    · exact hwf key r (hq ▸ hget)
  cases h with
  | receipt hnorm hnew hside => exact hset rfl (receipt_wf _ _ hnorm)
  | @bound raw identity payload utcNow book hnorm hnew hside hbook =>
    have hr := receipt_wf payload utcNow hnorm
    exact hset rfl ⟨hr.key_eq, hr.account, hr.intent, hr.received, hr.dispatched, hr.confirmed,
      hr.derived⟩
  | dispatch hnorm hget hident hstate hids =>
    exact hset rfl (dispatch_wf (hwf _ _ hget) (hident ▸ hids))
  | mark hop hget hmarks => exact hset rfl (hmarks.wf (hwf _ _ hget))
  | repair hmem =>
    intro key r' hget
    rcases rejectAll_cases hwf hmem key with h | ⟨r, hr, hs, h⟩
    · exact hwf key r' (h ▸ hget)
    · cases h.symm.trans hget
      exact (Marks.reject (by rw [hs]; nofun)).wf (hwf key r hr)
  | invalidate => exact hwf
  | scope => exact hwf

end Payload

/-! ## Runs -/

/-- The record a file keeps under a key. -/
def recordAt (file : File) (key : String) : Option IntentExecutionRecord :=
  file.bind fun p => p.records.get? key

/-- Every record of the file is well formed. -/
def FileRecordsWf (file : File) : Prop := ∀ p, file = some p → RecordsWf p

theorem loadPayload_wf {inbox : JsonIntentExecutionInbox} {file : File}
    (h : loadPayload inbox file = .ok p) (hwf : FileRecordsWf file) : RecordsWf p := by
  cases file with
  | none => cases h; intro key r hget; cases hget
  | some q => rw [loadPayload_some h]; exact hwf q rfl

section Runs
variable (inbox : JsonIntentExecutionInbox)

theorem next_recordsWf (file : File) (op : Op) (hwf : FileRecordsWf file) :
    FileRecordsWf ((machine inbox).next file op) := by
  rcases step_wrote inbox file op with h | ⟨p, p', hload, hchange, -, h, -⟩
  · rw [Machine.next, machine, h]; exact hwf
  · rw [Machine.next, machine, h]
    intro q hq
    cases hq
    exact hchange.recordsWf (loadPayload_wf hload hwf)

theorem fileRecordsWf_none : FileRecordsWf none := nofun

variable {key : String} {r : IntentExecutionRecord} {s : IntentExecutionState} (ops : List Op)
  {file : File}

/-- One call moves a record by at most one step. -/
theorem next_advances (file : File) (op : Op) (hwf : FileRecordsWf file)
    (hget : recordAt file key = some r) :
    ∃ r', recordAt ((machine inbox).next file op) key = some r' ∧ Advances r r' := by
  rcases step_wrote inbox file op with h | ⟨p, p', hload, hchange, -, h, -⟩
  · rw [Machine.next, machine, h]; exact ⟨r, hget, .refl r⟩
  · cases file with
    | none => cases hget
    | some q =>
      rw [Machine.next, machine, h]
      rw [loadPayload_some hload] at hchange
      exact hchange.advances (hwf q rfl) hget

/-- What a run of any length may do to a record. -/
structure Outlives (r r' : IntentExecutionRecord) : Prop where
  identity : r'.identity = r.identity
  payload : r'.intentPayload = r.intentPayload
  generation : r'.localPositionGeneration = r.localPositionGeneration
  side : r'.localPositionSide = r.localPositionSide
  unreceived : r.state ≠ .received → r'.state ≠ .received
  confirmed : r.state = .exchangeConfirmed → r'.state = .exchangeConfirmed
  rejected : r.state = .rejected → r'.state = .rejected
  ids : r.state ≠ .received → r'.clientOrderIds = r.clientOrderIds

theorem Outlives.refl (r : IntentExecutionRecord) : Outlives r r :=
  ⟨rfl, rfl, rfl, rfl, id, id, id, fun _ => rfl⟩

theorem not_edge_to_received : ¬ Edge s .received := nofun

theorem not_edge_confirmed : ¬ Edge .exchangeConfirmed s := nofun

theorem not_edge_rejected : ¬ Edge .rejected s := nofun

theorem Advances.outlives {r' : IntentExecutionRecord} (h : Advances r r') : Outlives r r' := by
  refine ⟨h.identity, h.payload, h.generation, h.side, ?_, ?_, ?_, h.ids⟩
  · intro hs hs'
    rcases h.state with he | he
    · exact hs (he ▸ hs')
    · exact not_edge_to_received (hs' ▸ he)
  · intro hs
    rcases h.state with he | he
    · rw [he, hs]
    · exact absurd (hs ▸ he) not_edge_confirmed
  · intro hs
    rcases h.state with he | he
    · rw [he, hs]
    · exact absurd (hs ▸ he) not_edge_rejected

theorem Outlives.trans {a b c : IntentExecutionRecord} (h : Outlives a b) (k : Outlives b c) :
    Outlives a c where
  identity := k.identity.trans h.identity
  payload := k.payload.trans h.payload
  generation := k.generation.trans h.generation
  side := k.side.trans h.side
  unreceived := fun hs => k.unreceived (h.unreceived hs)
  confirmed := fun hs => k.confirmed (h.confirmed hs)
  rejected := fun hs => k.rejected (h.rejected hs)
  ids := fun hs => (k.ids (h.unreceived hs)).trans (h.ids hs)

/-- A run keeps every record, with what is fixed about it. -/
theorem after_outlives (hwf : FileRecordsWf file) (hget : recordAt file key = some r) :
    ∃ r', recordAt ((machine inbox).after file ops) key = some r' ∧ Outlives r r' := by
  have hrel := Machine.related (m := machine inbox) (I := FileRecordsWf)
    (R := fun f g => ∀ key r, recordAt f key = some r →
      ∃ r', recordAt g key = some r' ∧ Outlives r r')
    (fun f key r h => ⟨r, h, .refl r⟩)
    (fun {f g h} hfg hgh key r hr => by
      obtain ⟨r₁, h₁, o₁⟩ := hfg key r hr
      obtain ⟨r₂, h₂, o₂⟩ := hgh key r₁ h₁
      exact ⟨r₂, h₂, o₁.trans o₂⟩)
    (next_recordsWf inbox)
    (fun f op hf key r hr => by
      obtain ⟨r', h', ha⟩ := next_advances inbox f op hf hr
      exact ⟨r', h', ha.outlives⟩)
    hwf ops
  exact hrel key r hget

theorem after_recordsWf : FileRecordsWf ((machine inbox).after none ops) :=
  Machine.invariant (next_recordsWf inbox) fileRecordsWf_none ops

/-! ## Dispatch at most once -/

/-- The account and intent of a call that answered `READY`. -/
def readyKey (file : File) : Op → List (String × String)
  | .beginDispatch identity clientOrderIds utcNow =>
    match identity.normalized inbox.unicode,
      (beginDispatch inbox identity clientOrderIds utcNow file).1 with
    | .ok normalized, .ok .ready => [(normalized.accountId, normalized.intentId)]
    | _, _ => []
  | _ => []

/-- The accounts and intents that were answered `READY` in a run, in order. -/
def readyKeys : File → List Op → List (String × String)
  | _, [] => []
  | file, op :: ops => readyKey inbox file op ++ readyKeys ((machine inbox).next file op) ops

/-- A record is there and no longer waits for its dispatch. -/
def Settled (file : File) (key : String) : Prop :=
  ∃ r, recordAt file key = some r ∧ r.state ≠ .received

variable {inbox}

theorem readyKey_settles {op : Op} {account intent : String}
    (h : (account, intent) ∈ readyKey inbox file op) :
    readyKey inbox file op = [(account, intent)] ∧ ¬ Settled file (account ++ ":" ++ intent) ∧
      Settled ((machine inbox).next file op) (account ++ ":" ++ intent) := by
  cases op with
  | beginDispatch identity clientOrderIds utcNow =>
    simp only [readyKey] at h ⊢
    cases hn : identity.normalized inbox.unicode with
    | error e => simp [hn] at h
    | ok normalized =>
      cases hb : (beginDispatch inbox identity clientOrderIds utcNow file).1 with
      | error e => simp [hn, hb] at h
      | ok result =>
        cases result with
        | ready =>
          simp only [hn, hb, List.mem_singleton, Prod.mk.injEq] at h ⊢
          obtain ⟨rfl, rfl⟩ := h
          refine ⟨rfl, ?_⟩
          unfold beginDispatch at hb
          simp only [hn] at hb
          cases hids : stableClientOrderIds inbox.unicode normalized.intentId clientOrderIds with
          | error e => simp [hids] at hb
          | ok ids =>
            simp only [hids] at hb
            obtain ⟨p, changed, hload, hbody, hfile⟩ := mutate_ok hb
            obtain ⟨h0, -⟩ | ⟨r, -, hget, hstate, rfl, -⟩ := beginDispatchBody_change hn hids hbody
            · exact absurd rfl h0
            constructor
            · rintro ⟨r', hget', hne⟩
              cases file with
              | none => cases hget'
              | some q =>
                cases loadPayload_some hload
                rw [show recordAt (some p) (normalized.accountId ++ ":" ++ normalized.intentId) =
                  some r from hget] at hget'
                cases hget'
                exact hne hstate
            · refine ⟨{ r with state := .dispatched, clientOrderIds := ids, updatedAt := utcNow },
                ?_, nofun⟩
              have hnext : (machine inbox).next file (.beginDispatch identity clientOrderIds utcNow) =
                  (mutate inbox file (beginDispatchBody normalized ids utcNow)).2 := by
                simp only [Machine.next, machine, step, answering, beginDispatch, hn, hids]
              rw [hnext, hfile]
              exact Dict.get?_set_self
        | recoveryRequired => simp [hn, hb] at h
        | exchangeConfirmed => simp [hn, hb] at h
        | rejected => simp [hn, hb] at h
  | _ => simp [readyKey] at h

theorem Settled.next (h : Settled file key) (op : Op) (hwf : FileRecordsWf file) :
    Settled ((machine inbox).next file op) key := by
  obtain ⟨r, hget, hs⟩ := h
  obtain ⟨r', hget', ha⟩ := next_advances inbox file op hwf hget
  exact ⟨r', hget', ha.outlives.unreceived hs⟩

/-- What is answered `READY` in a run was not settled before it. -/
theorem not_settled_of_ready (hwf : FileRecordsWf file) {account intent : String}
    (h : (account, intent) ∈ readyKeys inbox file ops) :
    ¬ Settled file (account ++ ":" ++ intent) := by
  induction ops generalizing file with
  | nil => cases h
  | cons op ops ih =>
    rcases List.mem_append.mp h with h | h
    · exact (readyKey_settles h).2.1
    · exact fun hs => ih (next_recordsWf inbox file op hwf) h (hs.next op hwf)

theorem readyKeys_nodup (hwf : FileRecordsWf file) : (readyKeys inbox file ops).Nodup := by
  induction ops generalizing file with
  | nil => exact List.nodup_nil
  | cons op ops ih =>
    have hrest := ih (next_recordsWf inbox file op hwf)
    rw [readyKeys]
    cases hk : readyKey inbox file op with
    | nil => exact hrest
    | cons k ks =>
      obtain ⟨account, intent⟩ := k
      have hin : (account, intent) ∈ readyKey inbox file op := by rw [hk]; exact List.mem_cons_self
      obtain ⟨hone, -, hsettled⟩ := readyKey_settles hin
      rw [← hk, hone, List.singleton_append, List.nodup_cons]
      refine ⟨fun hmem => ?_, hrest⟩
      exact not_settled_of_ready ops (next_recordsWf inbox file op hwf) hmem hsettled

/-! ## Every run -/

variable (inbox) in
/-- The life of records in a run of an empty inbox: a dispatch is handed out
once, a state moves along an edge or not at all, nothing disappears, the two
final states and the client order ids of a dispatched record are kept, and a
confirmed record has every one of its orders confirmed. -/
structure Lifecycle (ops : List Op) : Prop where
  ready_once : (readyKeys inbox none ops).Nodup
  moves : ∀ (first : List Op) (op : Op) (rest : List Op), ops = first ++ op :: rest →
    ∀ key r, recordAt ((machine inbox).after none first) key = some r →
      ∃ r', recordAt ((machine inbox).after none (first ++ [op])) key = some r' ∧
        (r'.state = r.state ∨ Edge r.state r'.state)
  kept : ∀ first rest : List Op, ops = first ++ rest →
    ∀ key r, recordAt ((machine inbox).after none first) key = some r →
      ∃ r', recordAt ((machine inbox).after none ops) key = some r' ∧
        r'.identity = r.identity ∧
        (r.state = .exchangeConfirmed → r'.state = .exchangeConfirmed) ∧
        (r.state = .rejected → r'.state = .rejected) ∧
        (r.state ≠ .received → r'.clientOrderIds = r.clientOrderIds)
  confirmed : ∀ key r, recordAt ((machine inbox).after none ops) key = some r →
    r.state = .exchangeConfirmed → r.clientOrderIds ≠ [] ∧
      ∀ id ∈ r.clientOrderIds, id ∈ r.exchangeConfirmedClientOrderIds

variable (inbox) in
/-- **Every run of the inbox keeps the life of its records.** -/
theorem lifecycle_of_run (ops : List Op) : Lifecycle inbox ops where
  ready_once := readyKeys_nodup ops fileRecordsWf_none
  moves := by
    intro first op rest _ key r hget
    rw [Machine.after_append]
    obtain ⟨r', hget', ha⟩ :=
      next_advances inbox ((machine inbox).after none first) op (after_recordsWf inbox first) hget
    exact ⟨r', hget', ha.state⟩
  kept := by
    rintro first rest rfl key r hget
    rw [Machine.after_append]
    obtain ⟨r', hget', ho⟩ := after_outlives inbox rest (after_recordsWf inbox first) hget
    exact ⟨r', hget', ho.identity, ho.confirmed, ho.rejected, ho.ids⟩
  confirmed := by
    intro key r hget
    cases hfile : (machine inbox).after none ops with
    | none => rw [hfile] at hget; cases hget
    | some p =>
      rw [hfile] at hget
      exact (after_recordsWf inbox ops p hfile key r hget).confirmed

end Runs
end TraderBot.Inbox
