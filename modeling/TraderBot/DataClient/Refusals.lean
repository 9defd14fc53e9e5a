import TraderBot.DataClient.Effects

/-! # What happens to a refused intent

A refusal on delivery is told to the control plane and moves the cursor; only a
refusal on replay is written into the receipt. So a refused intent is published
later only if its item is delivered again or its receipt was left open, and
that is what the condition here rules out. -/
namespace TraderBot.DataClient
open TraderBot.Lib TraderBot.Lib.Component
open TraderBot.Inbox (IntentExecutionRecord recordAt recordKey FileRecordsWf)

/-! ## Refusals -/

section Refusals
variable (config : Config)

/-- A refusal of the intent, as one of this account, was sent. -/
def refused (s : World) (intentId : Uuid) : Bool :=
  s.acks.any fun ack =>
    ack.intentId = intentId && (ack.status = .rejected || ack.status = .expired) &&
      (ack.about.map (·.accountId)) = some config.accountId

/-- The receipt of the intent is closed. -/
def closed (s : World) (intent : ApprovedTradeIntentV1) : Bool :=
  match Inbox.get config.inbox (intentExecutionIdentity intent) s.inboxFile with
  | .ok (some record) => (durableDetail record.state).isSome
  | .ok none | .error _ => false

/-- What the claim asks of a publication: the intent was not refused before. -/
def NotRefused (e : Effect) (s : World) : Prop :=
  match e with
  | .publish intent => refused config s intent.intentId = false
  | _ => True

/-- An item of a refused intent is delivered again only when its receipt is
closed or it counts as processed, and no record of one is replayed. -/
def Settled (e : Effect) (s : World) : Prop :=
  match e with
  | .turn (.item item) => ∀ intent ∈ validateIntent config item,
    intent.accountId = config.accountId → refused config s intent.intentId = true →
      closed config s intent = true ∨ (s.state.hasProcessed intent).isSome = true
  | .turn (.record record) =>
    ∀ intent ∈ config.contract.validate (.obj record.intentPayload.members),
      record.accountId = config.accountId → refused config s intent.intentId = false
  | _ => True

instance (e : Effect) (s : World) : Decidable (NotRefused config e s) := by
  unfold NotRefused
  split <;> infer_instance

instance (e : Effect) (s : World) : Decidable (Settled config e s) := by
  unfold Settled
  split <;> infer_instance

/-- The rules of the claim about refusals. -/
def refusalRules : Rules World Effect where
  C := Settled config
  A := NotRefused config
  I := fun s => FileRecordsWf s.inboxFile
  R := Interferes config
  refl := Interferes.refl
  trans := Interferes.trans

end Refusals

/-! ## Closed receipts -/

section Closed
variable {config : Config} {s t : World} {intent : ApprovedTradeIntentV1}

theorem closed_iff : closed config s intent = true ↔ ∃ record,
    Inbox.get config.inbox (intentExecutionIdentity intent) s.inboxFile = .ok (some record) ∧
      (durableDetail record.state).isSome = true := by
  unfold closed
  split
  · rename_i record heq
    simp [heq]
  · rename_i heq
    simp [heq]
  · rename_i heq
    simp [heq]

theorem closed_congr (h : t.inboxFile = s.inboxFile) :
    closed config t intent = closed config s intent := by
  simp only [closed, h]

/-- What others do leaves a closed receipt closed for every read that comes back. -/
theorem get_of_closed (hwf : FileRecordsWf s.inboxFile) (h : closed config s intent = true)
    (hst : Interferes config s t) {found : Option IntentExecutionRecord}
    (hget : Inbox.get config.inbox (intentExecutionIdentity intent) t.inboxFile = .ok found) :
    ∃ record, found = some record ∧ (durableDetail record.state).isSome = true := by
  obtain ⟨record, hrecord, hstate⟩ := closed_iff.mp h
  obtain ⟨ops, rfl⟩ := hst
  obtain ⟨normalized, hn, hfound⟩ := get_ok hrecord
  obtain ⟨normalized', hn', hfound'⟩ := get_ok hget
  cases hn.symm.trans hn'
  obtain ⟨hat, hid⟩ := Option.filter_eq_some_iff.mp hfound.symm
  obtain ⟨record', hat', hlives⟩ := Inbox.after_outlives config.inbox ops hwf hat
  refine ⟨record', ?_, ?_⟩
  · rw [hfound', hat', Option.filter_some, if_pos]
    rw [hlives.identity]
    exact hid
  · revert hstate
    cases hs : record.state with
    | received => exact nofun
    | dispatched => exact nofun
    | exchangeConfirmed => simp [hlives.confirmed hs, durableDetail]
    | rejected => simp [hlives.rejected hs, durableDetail]

end Closed

/-! ## The code under the rules -/

section Triples
variable {config : Config} {α : Type} {intentId : Uuid}

theorem refused_congr {s t : World} (h : t.acks = s.acks) :
    refused config t intentId = refused config s intentId := by
  simp only [refused, h]

theorem stable_refused {b : Bool} :
    (refusalRules config).Stable fun s => refused config s intentId = b :=
  fun _ _ _ _ hst hk => (refused_congr hst.acks).trans hk

theorem stable_true : (refusalRules config).Stable fun _ => True := fun _ _ _ _ _ _ => trivial

theorem notRefused_of_noPublish {e : Effect} (he : e.noPublish) (s : World) :
    NotRefused config e s := by
  cases e with
  | publish intent => exact he.elim
  | _ => trivial

theorem keeps_recordsWf (e : Effect) (x : Reading) {s : World} (h : (refusalRules config).I s) :
    (refusalRules config).I ((client config).perform e x s).2 :=
  perform_recordsWf e x h

/-- A routine that publishes nothing. -/
theorem silent_triple {p : Client α} (hp : p.Only Effect.noPublish) :
    (refusalRules config).Triple (client config) (fun _ => True) p fun _ _ => True :=
  Rules.triple_of_only stable_true (fun _ s he _ _ _ => notRefused_of_noPublish he s)
    (fun e _ x _ hs _ _ => ⟨keeps_recordsWf e x hs, trivial⟩) hp

/-- One effect, by what it does when it comes back. -/
theorem refusal_call {e : Effect} {next : e.Answer → Client α} {K : World → Prop}
    {L : e.Answer → World → Prop} (hK : (refusalRules config).Stable K)
    (hA : ∀ s, K s → NotRefused config e s)
    (hL : ∀ s x a, K s → Settled config e s → (act config e x s).1 = some a →
      L a (act config e x s).2)
    (hnext : ∀ a, (refusalRules config).Triple (client config) (L a) (next a) fun _ _ => True) :
    (refusalRules config).Triple (client config) K (effect e >>= next) fun _ _ => True := by
  refine Rules.triple_call hK (fun s _ hk _ => hA s hk) (fun _ x hs _ _ => keeps_recordsWf e x hs)
    ?_ hnext
  intro s x a _ hk hC ha
  have hact : (client config).perform e x s = act config e x s := perform_some ha
  rw [hact] at ha ⊢
  exact hL s x a hk hC ha

/-- Any effect, when the rest publishes nothing. -/
theorem last_call {e : Effect} {next : e.Answer → Client α} {K : World → Prop}
    (hK : (refusalRules config).Stable K) (hA : ∀ s, K s → NotRefused config e s)
    (hnext : ∀ a, (next a).Only Effect.noPublish) :
    (refusalRules config).Triple (client config) K (effect e >>= next) fun _ _ => True :=
  Rules.triple_call (L := fun _ _ => True) hK (fun s _ hk _ => hA s hk)
    (fun _ x hs _ _ => keeps_recordsWf e x hs) (fun _ _ _ _ _ _ _ => trivial)
    fun a => silent_triple (hnext a)

/-- An effect that leaves it open whether the intent was refused. -/
theorem fresh_call {e : Effect} {next : e.Answer → Client α} (hack : e.noAck)
    (hpublish : e.noPublish)
    (hnext : ∀ a, (refusalRules config).Triple (client config)
      (fun s => refused config s intentId = false) (next a) fun _ _ => True) :
    (refusalRules config).Triple (client config) (fun s => refused config s intentId = false)
      (effect e >>= next) fun _ _ => True :=
  Rules.triple_call (L := fun _ s => refused config s intentId = false) stable_refused
    (fun s _ _ _ => notRefused_of_noPublish hpublish s)
    (fun _ x hs _ _ => keeps_recordsWf e x hs)
    (fun s x _ _ hk _ _ => (refused_congr (perform_acks hack x s)).trans hk) hnext

/-! ### Parts that publish nothing -/

theorem advanceCursor_silent (cursor : String) : (advanceCursor cursor).Only Effect.noPublish :=
  Routine.only_call trivial fun _ => Routine.only_perform trivial

theorem answerItem_silent (item : IntentItem) (intent : ApprovedTradeIntentV1)
    (status : IntentAckStatus) (detail : String) :
    (answerItem item intent status detail).Only Effect.noPublish :=
  Routine.only_call trivial fun _ => advanceCursor_silent item.cursor

theorem answerDurable_silent (item : IntentItem) (intent : ApprovedTradeIntentV1)
    (detail : String) : (answerDurable item intent detail).Only Effect.noPublish :=
  Routine.only_call trivial fun _ => Routine.only_bind (advanceCursor_silent item.cursor) fun _ =>
    Routine.only_perform trivial

theorem liveCanaryAck_silent (record : Option LiveCanaryExecutionState) :
    (liveCanaryAck record).Only Effect.noPublish := by
  cases record with
  | none => trivial
  | some state => cases state <;> trivial

theorem ackPublished_silent (intent : ApprovedTradeIntentV1) (canary : Bool)
    (detail : Option String) : (ackPublished intent canary detail).Only Effect.noPublish := by
  unfold ackPublished
  split
  · exact Routine.only_call trivial fun record =>
      Routine.only_bind (liveCanaryAck_silent record) fun _ => Routine.only_perform trivial
  · exact Routine.only_perform trivial

theorem refuseReplay_silent (record : IntentExecutionRecord) (intent : ApprovedTradeIntentV1)
    (status : IntentAckStatus) (detail : String) :
    (refuseReplay record intent status detail).Only Effect.noPublish :=
  Routine.only_call trivial fun _ => Routine.only_call trivial fun _ =>
    Routine.only_call trivial fun _ => Routine.only_call trivial fun _ =>
      Routine.only_call trivial fun _ => trivial

/-! ### Parts that publish one intent -/

variable (intent : ApprovedTradeIntentV1)

/-- The intent was not refused so far. -/
def Fresh (config : Config) (intent : ApprovedTradeIntentV1) (s : World) : Prop :=
  refused config s intent.intentId = false

theorem publishItem_triple (item : IntentItem) (canary : Bool) :
    (refusalRules config).Triple (client config) (Fresh config intent)
      (publishItem item intent canary) fun _ _ => True := by
  refine last_call stable_refused (fun s hk => hk) fun _ => Routine.only_call trivial fun _ => ?_
  exact Routine.only_bind (advanceCursor_silent item.cursor) fun _ => ackPublished_silent _ _ _

theorem publishReplay_triple :
    (refusalRules config).Triple (client config) (Fresh config intent) (publishReplay intent)
      fun _ _ => True := by
  refine last_call stable_refused (fun s hk => hk) fun _ => Routine.only_call trivial fun _ =>
    Routine.only_call trivial fun _ => Routine.only_call trivial fun canary => ?_
  exact Routine.only_bind (ackPublished_silent _ _ _) fun _ =>
    Routine.only_call trivial fun _ => trivial

theorem receiveIntent_triple (item : IntentItem) (canary : Bool) :
    (refusalRules config).Triple (client config) (Fresh config intent)
      (receiveIntent config item intent canary) fun _ _ => True := by
  have hsilent : ∀ {p : Client Unit}, p.Only Effect.noPublish →
      (refusalRules config).Triple (client config) (Fresh config intent) p fun _ _ => True :=
    fun hp => (silent_triple hp).weaken fun _ _ _ => trivial
  refine fresh_call trivial trivial fun result => ?_
  cases result with
  | intentConflict => exact hsilent (answerItem_silent _ _ _ _)
  | idempotencyConflict => exact hsilent (answerItem_silent _ _ _ _)
  | registered => exact publishItem_triple intent item canary
  | replay =>
    refine fresh_call trivial trivial fun record => ?_
    cases record with
    | none => exact Rules.triple_raised
    | some record =>
      dsimp only
      cases durableDetail record.state with
      | some detail => exact hsilent (answerDurable_silent _ _ _)
      | none => exact publishItem_triple intent item canary

theorem claimPermit_triple (item : IntentItem) :
    (refusalRules config).Triple (client config) (Fresh config intent)
      (claimPermit config item intent) fun _ _ => True := by
  refine fresh_call trivial trivial fun canary => ?_
  cases canary with
  | false => exact receiveIntent_triple intent item false
  | true =>
    refine fresh_call trivial trivial fun result => ?_
    show (refusalRules config).Triple (client config) (Fresh config intent)
      (if result = .permitConflict then
        answerItem item intent .rejected "canary_permit_already_claimed"
      else receiveIntent config item intent true) fun _ _ => True
    split
    · exact (silent_triple (answerItem_silent _ _ _ _)).weaken fun _ _ _ => trivial
    · exact receiveIntent_triple intent item true

/-- Before the checks the intent is unrefused, or counts as processed. -/
theorem admitIntent_triple (item : IntentItem) :
    (refusalRules config).Triple (client config)
      (fun s => Fresh config intent s ∨ (s.state.hasProcessed intent).isSome = true)
      (admitIntent config item intent) fun _ _ => True := by
  have hsilent : ∀ {p : Client Unit} {K : World → Prop}, p.Only Effect.noPublish →
      (refusalRules config).Triple (client config) K p fun _ _ => True :=
    fun hp => (silent_triple hp).weaken fun _ _ _ => trivial
  have hstable : (refusalRules config).Stable
      (fun s => Fresh config intent s ∨ (s.state.hasProcessed intent).isSome = true) := by
    rintro s t hs ht hst (hk | hk)
    · exact .inl (stable_refused s t hs ht hst hk)
    · obtain ⟨ops, rfl⟩ := hst
      exact .inr hk
  refine refusal_call (L := fun _ s => Fresh config intent s ∨
    (s.state.hasProcessed intent).isSome = true) hstable (fun _ _ => trivial)
    (fun _ _ _ hk _ _ => hk) fun now => ?_
  split
  · exact hsilent (answerItem_silent _ _ _ _)
  · refine refusal_call (L := fun duplicate s => duplicate = none → Fresh config intent s)
      hstable (fun _ _ => trivial) ?_ fun duplicate => ?_
    · rintro s x a (hk | hk) _ ha hnone
      · exact hk
      · have hprocessed : s.state.hasProcessed intent = a := Option.some.inj ha
        rw [hprocessed, hnone] at hk
        cases hk
    · cases duplicate with
      | some detail => exact hsilent (answerItem_silent _ _ _ _)
      | none =>
        refine Rules.Triple.weaken (K := Fresh config intent) ?_ fun s _ hk => hk rfl
        refine fresh_call trivial trivial fun mode => ?_
        split
        · exact hsilent (answerItem_silent _ _ _ _)
        · refine fresh_call trivial trivial fun denial => ?_
          cases denial with
          | some denial => exact hsilent (answerItem_silent _ _ _ _)
          | none => exact claimPermit_triple intent item

/-- The receipt was closed, and only others worked on the inbox since. -/
def WasClosed (config : Config) (intent : ApprovedTradeIntentV1) (t : World) : Prop :=
  ∃ s, FileRecordsWf s.inboxFile ∧ closed config s intent = true ∧ Interferes config s t

/-- How an intent may come to be delivered. -/
def Deliverable (config : Config) (intent : ApprovedTradeIntentV1) (s : World) : Prop :=
  Fresh config intent s ∨ WasClosed config intent s ∨ (s.state.hasProcessed intent).isSome = true

theorem stable_deliverable : (refusalRules config).Stable (Deliverable config intent) := by
  rintro s t hs ht hst (hk | ⟨u, hu, hclosed, hus⟩ | hk)
  · exact .inl (stable_refused s t hs ht hst hk)
  · exact .inr (.inl ⟨u, hu, hclosed, hus.trans hst⟩)
  · obtain ⟨ops, rfl⟩ := hst
    exact .inr (.inr hk)

theorem processItem_triple (item : IntentItem) :
    (refusalRules config).Triple (client config)
      (fun s => ∀ intent ∈ validateIntent config item, intent.accountId = config.accountId →
        Deliverable config intent s)
      (processItem config item) fun _ _ => True := by
  have hsilent : ∀ {p : Client Unit} {K : World → Prop}, p.Only Effect.noPublish →
      (refusalRules config).Triple (client config) K p fun _ _ => True :=
    fun hp => (silent_triple hp).weaken fun _ _ _ => trivial
  unfold processItem
  cases hvalid : validateIntent config item with
  | none =>
    apply hsilent
    cases extractIntentId config item with
    | none => exact advanceCursor_silent item.cursor
    | some intentId => exact Routine.only_call trivial fun _ => advanceCursor_silent item.cursor
  | some intent =>
    by_cases haccount : intent.accountId = config.accountId
    · simp only [ne_eq, haccount, not_true_eq_false, if_false]
      refine Rules.Triple.weaken (K := Deliverable config intent) ?_
        fun s _ hk => hk intent rfl haccount
      refine refusal_call (L := fun durable s =>
        (durable.bind fun record => durableDetail record.state) = none →
          Fresh config intent s ∨ (s.state.hasProcessed intent).isSome = true)
        (stable_deliverable intent) (fun _ _ => trivial) ?_ fun durable => ?_
      · rintro s x durable (hk | ⟨u, hu, hclosed, hus⟩ | hk) _ ha hnone
        · exact .inl hk
        · simp only [act_inboxGet] at ha
          have hget : Inbox.get config.inbox (intentExecutionIdentity intent) s.inboxFile =
              .ok durable := toOption_some ha
          obtain ⟨record, rfl, hfinal⟩ := get_of_closed hu hclosed hus hget
          have hdetail : durableDetail record.state = none := hnone
          rw [hdetail] at hfinal
          cases hfinal
        · exact .inr hk
      · cases hdetail : (durable.bind fun record => durableDetail record.state) with
        | some detail => exact hsilent (answerDurable_silent _ _ _)
        | none => exact (admitIntent_triple intent item).weaken fun s _ hk => hk rfl
    · simp only [ne_eq, haccount, not_false_eq_true, if_true]
      exact hsilent (answerItem_silent _ _ _ _)

theorem deliver_triple (item : IntentItem) :
    (refusalRules config).Triple (client config) (fun _ => True) (deliver config item)
      fun _ _ => True := by
  refine Rules.triple_call (L := fun _ s => ∀ intent ∈ validateIntent config item,
      intent.accountId = config.accountId → Deliverable config intent s)
    stable_true (fun _ _ _ _ => trivial) (fun _ x hs _ _ => keeps_recordsWf _ x hs) ?_
    fun _ => processItem_triple item
  intro s x a hs _ hC ha intent hvalid haccount
  have hact : (client config).perform (.turn (.item item)) x s = act config (.turn (.item item)) x s :=
    perform_some ha
  rw [hact, act_turn]
  show Deliverable config intent { s with turn := some (.item item), modeRead := none }
  cases hrefused : refused config s intent.intentId with
  | false => exact .inl hrefused
  | true =>
    rcases hC intent hvalid haccount hrefused with hclosed | hprocessed
    · have hsame : closed config { s with turn := some (.item item), modeRead := none } intent =
          closed config s intent := closed_congr rfl
      refine .inr (.inl ⟨_, ?_, ?_, Interferes.refl _⟩)
      · exact hs
      · rw [hsame]
        exact hclosed
    · exact .inr (.inr hprocessed)

theorem replayRecord_triple (record : IntentExecutionRecord) :
    (refusalRules config).Triple (client config) (fun _ => True) (replayRecord config record)
      fun _ _ => True := by
  have hsilent : ∀ {p : Client Nat} {K : World → Prop}, p.Only Effect.noPublish →
      (refusalRules config).Triple (client config) K p fun _ _ => True :=
    fun hp => (silent_triple hp).weaken fun _ _ _ => trivial
  refine refusal_call (L := fun _ s =>
      ∀ intent ∈ config.contract.validate (.obj record.intentPayload.members),
        record.accountId = config.accountId → Fresh config intent s)
    stable_true (fun _ _ => trivial) (fun s x a _ hC _ => hC) fun _ => ?_
  by_cases haccount : record.accountId = config.accountId
  · simp only [ne_eq, haccount, not_true_eq_false, if_false]
    cases hvalid : config.contract.validate (.obj record.intentPayload.members) with
    | none =>
      apply hsilent
      refine Routine.only_call trivial fun now => ?_
      split
      · exact Routine.only_call trivial fun _ => trivial
      · exact Routine.only_call trivial fun _ => trivial
    | some intent =>
      refine Rules.Triple.weaken (K := Fresh config intent) ?_ fun s _ hk => hk intent rfl trivial
      refine fresh_call trivial trivial fun now => ?_
      dsimp only
      split
      · exact hsilent (Routine.only_call trivial fun _ => trivial)
      · split
        · refine Rules.Triple.bind (Q := fun _ => Fresh config intent) ?_ fun rejection => ?_
          · refine Rules.triple_of_only (P := fun e => e.noAck ∧ e.noPublish) stable_refused
              (fun e s he _ _ _ => notRefused_of_noPublish he.2 s) ?_ ?_
            · intro e s x he hs hk _
              exact ⟨keeps_recordsWf e x hs, (refused_congr (perform_acks he.1 x s)).trans hk⟩
            · unfold pendingReceivedRejection
              refine Routine.only_call ⟨trivial, trivial⟩ fun now => ?_
              split
              · trivial
              · refine Routine.only_call ⟨trivial, trivial⟩ fun mode => ?_
                split
                · trivial
                · exact Routine.only_call ⟨trivial, trivial⟩ fun denial => trivial
          · cases rejection with
            | some rejection => exact hsilent (refuseReplay_silent _ _ _ _)
            | none => exact publishReplay_triple intent
        · exact publishReplay_triple intent
  · simp only [ne_eq, haccount, not_false_eq_true, if_true]
    exact hsilent trivial

theorem replayRecords_triple (records : List IntentExecutionRecord) :
    (refusalRules config).Triple (client config) (fun _ => True) (replayRecords config records)
      fun _ _ => True := by
  induction records with
  | nil => exact fun _ _ _ => trivial
  | cons record records ih =>
    refine (replayRecord_triple record).bind fun one => ?_
    exact ih.bind fun others => silent_triple trivial

theorem replayPending_triple :
    (refusalRules config).Triple (client config) (fun _ => True) (replayPending config)
      fun _ _ => True := by
  have hread : ∀ {e : Effect}, e.noPublish → ∀ s, True → NotRefused config e s :=
    fun he s _ => notRefused_of_noPublish he s
  refine refusal_call (L := fun _ _ => True) stable_true (hread trivial)
    (fun _ _ _ _ _ _ => trivial) fun _ => ?_
  refine refusal_call (L := fun _ _ => True) stable_true (hread trivial)
    (fun _ _ _ _ _ _ => trivial) fun records => ?_
  refine (replayRecords_triple records).bind fun replayed => ?_
  exact silent_triple (Routine.only_call trivial fun _ => trivial)

theorem pollItems_triple (items : List IntentItem) :
    (refusalRules config).Triple (client config) (fun _ => True) (pollItems config items)
      fun _ _ => True := by
  induction items with
  | nil => exact fun _ _ _ => trivial
  | cons item items ih =>
    refine Rules.Triple.bind (Q := fun _ _ => True) ?_ fun _ => ih
    unfold pollItem
    cases extractIntentId config item with
    | none => exact deliver_triple item
    | some intentId =>
      refine refusal_call (L := fun _ _ => True) stable_true
        (fun _ _ => trivial) (fun _ _ _ _ _ _ => trivial) fun replayed => ?_
      split
      · exact silent_triple (advanceCursor_silent item.cursor)
      · exact deliver_triple item

theorem pollOnce_triple (limit : Nat) :
    (refusalRules config).Triple (client config) (fun _ => True) (pollOnce config limit)
      fun _ _ => True := by
  have hread : ∀ {e : Effect}, e.noPublish → ∀ s, True → NotRefused config e s :=
    fun he s _ => notRefused_of_noPublish he s
  refine Rules.Triple.bind (Q := fun _ _ => True) ?_ fun replayed => ?_
  · refine refusal_call (L := fun _ _ => True) stable_true (hread trivial)
      (fun _ _ _ _ _ _ => trivial) fun done => ?_
    split
    · exact silent_triple trivial
    · exact replayPending_triple.bind fun replayed =>
        silent_triple (Routine.only_call trivial fun _ => trivial)
  · refine refusal_call (L := fun _ _ => True) stable_true (hread trivial)
      (fun _ _ _ _ _ _ => trivial) fun items => ?_
    exact (pollItems_triple items).bind fun _ => silent_triple trivial

variable (config) in
theorem refusalRules_kept : (refusalRules config).Kept (client config) where
  calls call := by
    cases call with
    | pollOnce limit => exact (pollOnce_triple limit).bind fun _ => silent_triple trivial
    | replayPending => exact replayPending_triple.bind fun _ => silent_triple trivial
  others op s hs :=
    ⟨Inbox.next_recordsWf config.inbox s.inboxFile op hs, [op], rfl⟩
  restart s hs := hs

end Triples

/-! ## Runs -/

/-- **A run in which no refused intent is taken up again publishes none.** -/
theorem unpublished_of_settled (config : Config)
    (inputs : List (Component.Input Call Reading Inbox.Op))
    (h : (client config).machine.Meets (At (Settled config)) (init {}) inputs) :
    (client config).machine.Meets (At (NotRefused config)) (init {}) inputs :=
  ((refusalRules_kept config).run (w := {}) Inbox.fileRecordsWf_none h).1

/-! ### Two runs -/

section Sample

/-- The members of an intent other than its id. -/
def sampleFields (intentId : Uuid) (members : List (String × Json.Value)) :
    Option ApprovedTradeIntentV1 :=
  match Dict.lookup "account_id" members, Dict.lookup "action" members,
    Dict.lookup "idempotency_key" members, Dict.lookup "instrument_id" members,
    Dict.lookup "order_plan" members, Dict.lookup "valid_until" members with
  | some (.str accountId), some (.str action), some (.str idempotencyKey),
    some (.str instrumentId), some (.obj plan), some (.str validUntil) =>
    match [.openPosition, .addPosition, .partialClose, .closePosition, .moveStopLoss,
        .moveStopToEntry, .replaceTakeProfits, .cancelOrder].find? (·.value = action),
      DateTime.fromisoformat (DateTime.replaceZulu validUntil) with
    | some action, some validUntil =>
      if hplan : Json.canonical (.obj plan) = true then
        some { intentId, accountId, instrumentId, action, orderPlan := ⟨plan, hplan⟩, validUntil,
               idempotencyKey }
      else none
    | _, _ => none
  | _, _, _, _, _, _ => none

theorem sampleFields_intentId {intentId : Uuid} {members : List (String × Json.Value)}
    {i : ApprovedTradeIntentV1} (h : sampleFields intentId members = some i) :
    i.intentId = intentId := by
  unfold sampleFields at h
  split at h
  · split at h
    · split_ifs at h
      cases h
      rfl
    · cases h
  · cases h

def sampleDump (i : ApprovedTradeIntentV1) : Json.JsonObject where
  members := [("account_id", .str i.accountId), ("action", .str i.action.value),
    ("idempotency_key", .str i.idempotencyKey), ("instrument_id", .str i.instrumentId),
    ("intent_id", .str i.intentId.str), ("order_plan", .obj i.orderPlan.members),
    ("valid_until", .str (DateTime.isoText i.validUntil))]
  canonical := by
    have hplan := i.orderPlan.canonical
    simp only [Json.canonical, Json.canonicalMembers, Bool.and_true, Bool.true_and]
    rw [Json.canonical] at hplan
    rw [hplan, Bool.and_true]
    rw [Dict.sortedKeys, decide_eq_true_iff]
    simp only [List.map]
    decide

/-- A model class of the fields the client reads. -/
def sampleContract : Contract .ascii where
  validate
    | .obj members =>
      ((Dict.lookup "intent_id" members).bind (uuidOfValue .ascii)).bind
        fun intentId => sampleFields intentId members
    | _ => none
  dump := sampleDump
  validate_intentId := by
    intro v i h
    cases v with
    | obj members =>
      obtain ⟨intentId, hid, hfields⟩ := Option.bind_eq_some_iff.mp h
      obtain ⟨raw, hraw, huuid⟩ := Option.bind_eq_some_iff.mp hid
      exact ⟨members, raw, rfl, hraw, by rw [huuid, sampleFields_intentId hfields]⟩
    | _ => cases h
  dump_intentId _ := rfl

theorem maxBytes_pos : 0 < 16 * 1024 * 1024 := by decide

def sampleConfig : Config where
  accountId := "account-a"
  inbox := { unicode := .ascii, payloadEq := fun a b => decide (a = b), maxBytes := 16 * 1024 * 1024,
             maxBytes_pos := maxBytes_pos }
  contract := sampleContract

/-- An entry of the account, good for the whole of 2026. -/
def sampleIntent (int : Nat) (h : int < 2 ^ 128) : ApprovedTradeIntentV1 where
  intentId := ⟨int, h⟩
  accountId := "account-a"
  instrumentId := "BTCUSDT-PERP.BINANCE"
  action := .openPosition
  orderPlan := ⟨[], rfl⟩
  validUntil := (⟨2026, 12, 31, 0, 0, 0, 0, by decide⟩, some 0)
  idempotencyKey := Nat.repr int

def sampleItem (int : Nat) (h : int < 2 ^ 128) : IntentItem :=
  ⟨Nat.repr int, .model (sampleIntent int h)⟩

/-- What a poll meets that is handed one item. -/
def sampleReading (mode : NodeRuntime.TradingState) (item : IntentItem) : Reading :=
  { now := (⟨2026, 1, 1, 0, 0, 0, 0, by decide⟩, some 0), tradingState := mode, batch := [item] }

/-- A poll and as many effects of it. -/
def samplePoll (effects : Nat) (x : Reading) : List (Component.Input Call Reading Inbox.Op) :=
  .begin (.pollOnce 100) :: List.replicate effects (.go x)

/-- One intent is refused while the node is halted; after a restart another one
is published. -/
def sampleRun : List (Component.Input Call Reading Inbox.Op) :=
  samplePoll 15 (sampleReading .halted (sampleItem 1 (by decide))) ++ [.crash] ++
    samplePoll 20 (sampleReading .active (sampleItem 2 (by decide)))

theorem unpublished_sample :
    (client sampleConfig).machine.Meets (At (Settled sampleConfig)) (init {}) sampleRun ∧
      (client sampleConfig).machine.Meets (At (NotRefused sampleConfig)) (init {}) sampleRun := by
  have hsettled : (client sampleConfig).machine.Meets (At (Settled sampleConfig)) (init {})
      sampleRun := by decide +kernel
  exact ⟨hsettled, unpublished_of_settled sampleConfig sampleRun hsettled⟩

/-- The publisher fails, so the receipt stays open; the item is then refused,
because the node is halted by now, and acknowledged so. After a restart the
replay publishes the intent. -/
theorem refused_is_replayed :
    ¬ (client sampleConfig).machine.Meets (At (NotRefused sampleConfig)) (init {})
      (samplePoll 15 (sampleReading .active (sampleItem 1 (by decide))) ++
        [.go { sampleReading .active (sampleItem 1 (by decide)) with outcome := .notDone }] ++
        samplePoll 10 (sampleReading .halted (sampleItem 1 (by decide))) ++ [.crash] ++
        samplePoll 9 (sampleReading .active (sampleItem 1 (by decide)))) := by
  decide +kernel

end Sample
end TraderBot.DataClient
