import TraderBot.DataClient.Effects

/-! # No intent is lost

The saved cursor only moves past items that were answered or whose intent the
inbox holds; a replay that returns has published or rejected every receipt it
found undispatched; and an entry is published only after its turn has read that
the node is not halted. -/
namespace TraderBot.DataClient
open TraderBot.Lib TraderBot.Lib.Component
open TraderBot.Inbox (IntentExecutionRecord IntentExecutionIdentity recordAt recordKey FileRecordsWf)
open TraderBot.NodeRuntime (TradingState)

/-! ## What is claimed -/

section Claims
variable (config : Config)

/-- The inbox of the account holds the intent of this id: a record has the id,
or is the receipt of an intent that has it. -/
def InInbox (file : Inbox.File) (intentId : String) : Prop :=
  ∃ key r, recordAt file key = some r ∧ r.accountId = Text.strip config.accountId ∧
    (r.intentId = intentId ∨
      ∃ i ∈ config.contract.validate (.obj r.intentPayload.members), i.intentId.str = intentId)

/-- Answers after which nothing more is owed for an intent. -/
def IntentAckStatus.settles (status : IntentAckStatus) : Prop :=
  status = .rejected ∨ status = .expired ∨ status = .duplicate

/-- The item is no valid intent of this account, or its intent was answered, or
the inbox holds it. -/
def Accounted (item : IntentItem) (s : World) : Prop :=
  ∀ intent ∈ validateIntent config item, intent.accountId = config.accountId →
    (∃ ack ∈ s.acks, ack.intentId = intent.intentId ∧ ack.status.settles) ∨
      InInbox config s.inboxFile intent.intentId.str

/-- The receipt was published since the replay read it, or is rejected. -/
def Answered (r : IntentExecutionRecord) (s : World) : Prop :=
  (∃ i ∈ s.publishedSince, config.contract.validate (.obj r.intentPayload.members) = some i) ∨
    ∃ r', recordAt s.inboxFile (recordKey r.identity) = some r' ∧ r'.state = .rejected

/-- The turn is about an item, or about a receipt that was never dispatched. -/
def Turn.undispatched : Option Turn → Prop
  | some (.item _) => True
  | some (.record r) => r.state = .received
  | none => False

/-- The turn has read a trading state, and the node is not halted. -/
def ReadNotHalted (s : World) : Prop := ∃ mode, s.modeRead = some mode ∧ mode ≠ .halted

/-- What is claimed of an effect: a replay returns when every receipt of this
account it found received is answered, and an entry that was never dispatched is
published on a trading state other than halted. The inbox keeps account ids
stripped; a receipt is of this account when that is the id the client has. -/
def Delivers (e : Effect) (s : World) : Prop :=
  match e with
  | .replayed => ∀ key r, recordAt s.replayedFrom key = some r → r.accountId = config.accountId →
    r.state = .received → Answered config r s
  | .publish intent => intent.action.isNewPosition = true → Turn.undispatched s.turn →
    ReadNotHalted s
  | _ => True

end Claims

/-! ## What grows -/

/-- What every effect and everything others do leaves: the inbox moves by its
own calls, and what was acknowledged stays so. -/
structure Keeps (config : Config) (s t : World) : Prop where
  inbox : ∃ ops, t.inboxFile = (Inbox.machine config.inbox).after s.inboxFile ops
  acks : ∀ ack ∈ s.acks, ack ∈ t.acks

/-- What the effects inside a batch or a replay leave. -/
structure Grows (config : Config) (s t : World) : Prop extends Keeps config s t where
  replayedIds : ∀ id ∈ s.startupReplayedIntentIds, id ∈ t.startupReplayedIntentIds
  replayedFrom : t.replayedFrom = s.replayedFrom
  publishedSince : ∀ i ∈ s.publishedSince, i ∈ t.publishedSince
  batch : t.batch = s.batch

/-- The turn and what it has read. -/
def SameTurn (s t : World) : Prop := t.turn = s.turn ∧ t.modeRead = s.modeRead

/-- Effects inside a batch or a replay. -/
def Effect.inside : Effect → Prop
  | .inboxPending | .fetchIntents _ | .clearReplayed => False
  | _ => True

/-- Effects inside a turn, once its trading state is read. -/
def Effect.inTurn : Effect → Prop
  | .turn _ | .tradingState => False
  | e => e.inside

section Grows
variable {config : Config} {s t : World}

theorem Interferes.grows (h : Interferes config s t) : Grows config s t := by
  obtain ⟨ops, rfl⟩ := h
  exact ⟨⟨⟨ops, rfl⟩, fun _ h => h⟩, fun _ h => h, rfl, fun _ h => h, rfl⟩

theorem Interferes.sameTurn (h : Interferes config s t) : SameTurn s t := by
  obtain ⟨ops, rfl⟩ := h
  exact ⟨rfl, rfl⟩

theorem act_keeps (e : Effect) (x : Reading) (s : World) : Keeps config s (act config e x s).2 := by
  have hinbox : ∃ ops, (act config e x s).2.inboxFile =
      (Inbox.machine config.inbox).after s.inboxFile ops := by
    rcases act_inboxFile config e x s with h | ⟨op, h⟩
    · exact ⟨[], h⟩
    · exact ⟨[op], h⟩
  refine ⟨hinbox, ?_⟩
  cases e with
  | ack about intentId status detail => exact fun ack hack => List.mem_cons_of_mem _ hack
  | inboxPending =>
    simp only [act]
    cases Inbox.pending config.inbox s.inboxFile <;> exact fun _ h => h
  | _ => simp only [act, imp_self, implies_true]

variable {e : Effect} {r : IntentExecutionRecord}

theorem act_grows (he : e.inside) (x : Reading) (s : World) :
    Grows config s (act config e x s).2 := by
  refine ⟨act_keeps e x s, ?_, ?_, ?_, ?_⟩
  · cases e with
    | inboxPending | fetchIntents | clearReplayed => exact he.elim
    | addReplayed intentId => exact fun id hid => List.mem_insert_of_mem hid
    | _ => simp only [act, imp_self, implies_true]
  · cases e with
    | inboxPending | fetchIntents | clearReplayed => exact he.elim
    | _ => simp only [act]
  · cases e with
    | inboxPending | fetchIntents | clearReplayed => exact he.elim
    | publish intent => exact fun i hi => List.mem_cons_of_mem _ hi
    | _ => simp only [act, imp_self, implies_true]
  · cases e with
    | inboxPending | fetchIntents | clearReplayed => exact he.elim
    | _ => simp only [act]

theorem Effect.inTurn.inside (he : e.inTurn) : e.inside := by
  cases e <;> first | exact he | trivial

theorem act_sameTurn (he : e.inTurn) (x : Reading) (s : World) :
    SameTurn s (act config e x s).2 := by
  cases e with
  | turn _ | tradingState | inboxPending => exact he.elim
  | _ => simp only [SameTurn, act, and_self]

/-! ### What grows stays -/

/-- A record outlives what the inbox does, with its identity, its payload and a
rejection. -/
theorem Keeps.record (h : Keeps config s t) (hwf : FileRecordsWf s.inboxFile) {key : String}
    (hget : recordAt s.inboxFile key = some r) :
    ∃ r', recordAt t.inboxFile key = some r' ∧ Inbox.Outlives r r' := by
  obtain ⟨ops, hops⟩ := h.inbox
  rw [hops]
  exact Inbox.after_outlives config.inbox ops hwf hget

theorem Keeps.inInbox (h : Keeps config s t) (hwf : FileRecordsWf s.inboxFile) {intentId : String}
    (hin : InInbox config s.inboxFile intentId) : InInbox config t.inboxFile intentId := by
  obtain ⟨key, r, hget, haccount, hid⟩ := hin
  obtain ⟨r', hget', hlives⟩ := h.record hwf hget
  have hident := hlives.identity
  refine ⟨key, r', hget', ?_, ?_⟩
  · rw [← haccount]
    exact congrArg IntentExecutionIdentity.accountId hident
  · rw [hlives.payload]
    rcases hid with hid | hid
    · exact .inl ((congrArg IntentExecutionIdentity.intentId hident).trans hid)
    · exact .inr hid

theorem Keeps.accounted (h : Keeps config s t) (hwf : FileRecordsWf s.inboxFile) {item : IntentItem}
    (hitem : Accounted config item s) : Accounted config item t := by
  intro intent hvalid haccount
  rcases hitem intent hvalid haccount with ⟨ack, hack, hsettles⟩ | hin
  · exact .inl ⟨ack, h.acks ack hack, hsettles⟩
  · exact .inr (h.inInbox hwf hin)

theorem Grows.answered (h : Grows config s t) (hwf : FileRecordsWf s.inboxFile)
    (hr : Answered config r s) : Answered config r t := by
  rcases hr with ⟨i, hi, hvalid⟩ | ⟨r', hget, hstate⟩
  · exact .inl ⟨i, h.publishedSince i hi, hvalid⟩
  · obtain ⟨r'', hget', hlives⟩ := h.toKeeps.record hwf hget
    exact .inr ⟨r'', hget', hlives.rejected hstate⟩

end Grows

/-! ## The invariant -/

section Invariant
variable {config : Config}

variable (config) in
/-- The items the cursors have moved past are accounted for, and the inbox holds
what the replay has dealt with. -/
structure Held (s : World) : Prop where
  records : FileRecordsWf s.inboxFile
  passed : ∀ item ∈ s.passed, Accounted config item s
  reached : ∀ item ∈ s.reached, Accounted config item s
  replayed : ∀ id ∈ s.startupReplayedIntentIds, InInbox config s.inboxFile id

theorem Held.of_keeps {s t : World} (h : Held config s) (k : Keeps config s t)
    (hrecords : FileRecordsWf t.inboxFile) (hpassed : ∀ item ∈ t.passed, item ∈ s.passed ∨ item ∈ s.reached)
    (hreached : ∀ item ∈ t.reached, item ∈ s.reached ∨ Accounted config item t)
    (hids : ∀ id ∈ t.startupReplayedIntentIds, id ∈ s.startupReplayedIntentIds ∨
      InInbox config t.inboxFile id) : Held config t where
  records := hrecords
  passed item hitem := by
    rcases hpassed item hitem with hin | hin
    · exact k.accounted h.records (h.passed item hin)
    · exact k.accounted h.records (h.reached item hin)
  reached item hitem := by
    rcases hreached item hitem with hin | hdone
    · exact k.accounted h.records (h.reached item hin)
    · exact hdone
  replayed id hid := by
    rcases hids id hid with hin | hin
    · exact k.inInbox h.records (h.replayed id hin)
    · exact hin

/-- Moving the cursor and noting a replayed intent take an argument of their own. -/
def Effect.plain : Effect → Prop
  | .setCursor _ | .addReplayed _ => False
  | _ => True

theorem act_held {e : Effect} (he : e.plain) (x : Reading) {s : World} (h : Held config s) :
    Held config (act config e x s).2 := by
  refine h.of_keeps (act_keeps e x s) (act_recordsWf e x h.records) ?_ ?_ ?_
  · cases e with
    | inboxPending =>
      simp only [act]
      cases Inbox.pending config.inbox s.inboxFile <;> exact fun item hitem => .inl hitem
    | saveOffsets => exact fun item hitem => .inr hitem
    | _ => simp +contextual only [act, true_or, implies_true]
  · cases e with
    | setCursor _ => exact he.elim
    | inboxPending =>
      simp only [act]
      cases Inbox.pending config.inbox s.inboxFile <;> exact fun item hitem => .inl hitem
    | _ => simp +contextual only [act, true_or, implies_true]
  · cases e with
    | addReplayed _ => exact he.elim
    | clearReplayed => exact fun id hid => absurd hid List.not_mem_nil
    | inboxPending =>
      simp only [act]
      cases Inbox.pending config.inbox s.inboxFile <;> exact fun item hitem => .inl hitem
    | _ => simp +contextual only [act, true_or, implies_true]

end Invariant

/-! ## The code under the rules -/

section Triples
variable {config : Config} {α : Type}

variable (config) in
/-- The rules of the claim about deliveries. -/
def deliveryRules : Rules World Effect where
  C := fun _ _ => True
  A := Delivers config
  I := Held config
  R := Interferes config
  refl := Interferes.refl
  trans := Interferes.trans

variable (config) in
/-- An assertion that lasts through a turn. -/
def Lasts (K : World → Prop) : Prop :=
  ∀ s t, FileRecordsWf s.inboxFile → Grows config s t → SameTurn s t → K s → K t

variable {K : World → Prop} {e : Effect} {next : e.Answer → Client α} {Q : α → World → Prop}
  {s t : World} {normalized : IntentExecutionIdentity} {r : IntentExecutionRecord} {x : Reading}
  (identity : IntentExecutionIdentity) {intentId : String}

theorem Lasts.stable (hK : Lasts config K) : (deliveryRules config).Stable K :=
  fun s t hs _ hst hk => hK s t hs.records hst.grows hst.sameTurn hk

/-- One effect, by what it does when it is done. -/
theorem delivery_call {L : e.Answer → World → Prop} (hK : Lasts config K)
    (hA : ∀ s, K s → Delivers config e s)
    (hI : ∀ s x, Held config s → K s → Held config (act config e x s).2)
    (hL : ∀ s x a, Held config s → K s → (act config e x s).1 = some a → L a (act config e x s).2)
    (hnext : ∀ a, (deliveryRules config).Triple (client config) (L a) (next a) Q) :
    (deliveryRules config).Triple (client config) K (effect e >>= next) Q := by
  refine Rules.triple_call hK.stable (fun s _ hk _ => hA s hk) ?_ ?_ hnext
  · intro s x hs hk _
    show Held config (perform config e x s).2
    rcases perform_world config e x s with hsame | hact
    · rw [hsame]
      exact hs
    · rw [hact]
      exact hI s x hs hk
  · intro s x a hs hk _ ha
    have hact : (client config).perform e x s = act config e x s := perform_some ha
    rw [hact] at ha ⊢
    exact hL s x a hs hk ha

/-- Effects inside a turn of which nothing is claimed. -/
def Effect.quiet : Effect → Prop
  | .setCursor _ | .addReplayed _ | .publish _ | .replayed => False
  | e => e.inTurn

theorem Effect.quiet.inTurn (he : e.quiet) : e.inTurn := by
  cases e <;> first | exact he | exact he.elim

theorem Effect.quiet.plain (he : e.quiet) : e.plain := by
  cases e <;> first | exact he | trivial

theorem Effect.quiet.delivers (he : e.quiet) (s : World) : Delivers config e s := by
  cases e <;> first | exact he.elim | trivial

/-- A quiet effect keeps what lasts. -/
theorem quiet_call (he : e.quiet) (hK : Lasts config K)
    (hnext : ∀ a, (deliveryRules config).Triple (client config) K (next a) Q) :
    (deliveryRules config).Triple (client config) K (effect e >>= next) Q :=
  delivery_call (L := fun _ => K) hK (fun s _ => he.delivers s)
    (fun _ x hs _ => act_held he.plain x hs)
    (fun s x _ hs hk _ => hK s _ hs.records (act_grows he.inTurn.inside x s)
      (act_sameTurn he.inTurn x s) hk) hnext

/-- A routine of quiet effects keeps what lasts. -/
theorem quiet_triple {p : Client α} (hp : p.Only Effect.quiet) (hK : Lasts config K) :
    (deliveryRules config).Triple (client config) K p fun _ => K := by
  induction p with
  | done a => exact fun _ _ hk => hk
  | raised => exact Rules.triple_raised
  | call e next ih => exact quiet_call hp.1 hK fun a => ih a (hp.2 a)

/-! ### An item -/

variable (config) in
/-- Of the batch under way these items are accounted for and those are to come. -/
def Handled (done rest : List IntentItem) (s : World) : Prop :=
  s.batch = done ++ rest ∧ ∀ item ∈ done, Accounted config item s

/-- An entry is published on a mode that is not halted. -/
def ModeFits (intent : ApprovedTradeIntentV1) (s : World) : Prop :=
  intent.action.isNewPosition = true → ReadNotHalted s

variable {done rest : List IntentItem} {item : IntentItem} {intent : ApprovedTradeIntentV1}

theorem Handled.grows (h : Handled config done rest s) (hwf : FileRecordsWf s.inboxFile)
    (k : Grows config s t) : Handled config done rest t :=
  ⟨k.batch.trans h.1, fun item hitem => k.toKeeps.accounted hwf (h.2 item hitem)⟩

theorem ModeFits.sameTurn (h : ModeFits intent s) (k : SameTurn s t) : ModeFits intent t := by
  intro hentry
  obtain ⟨mode, hread, hmode⟩ := h hentry
  exact ⟨mode, k.2.trans hread, hmode⟩

/-- The item counts as handled once it is accounted for. -/
theorem Handled.account (h : Handled config done (item :: rest) s) (hitem : Accounted config item s) :
    Handled config (done ++ [item]) rest s := by
  refine ⟨by rw [h.1, List.append_assoc]; rfl, fun x hx => ?_⟩
  rcases List.mem_append.mp hx with hx | hx
  · exact h.2 x hx
  · exact List.mem_singleton.mp hx ▸ hitem

/-- An item that is no intent of this account is accounted for as it is. -/
theorem Handled.skip (h : Handled config done (item :: rest) s)
    (hother : ∀ i, validateIntent config item = some i → i.accountId ≠ config.accountId) :
    Handled config (done ++ [item]) rest s :=
  h.account fun i hi haccount => absurd haccount (hother i hi)

/-- The record was read from the inbox and is still there. -/
structure Found (r : IntentExecutionRecord) (s : World) : Prop where
  wf : Inbox.RecordWf (recordKey r.identity) r
  record : ∃ r', recordAt s.inboxFile (recordKey r.identity) = some r' ∧ Inbox.Outlives r r'

variable (config) in
/-- A replay under way: of the records it read, these are dealt with and those
are to come. -/
structure Replaying (done rest : List IntentExecutionRecord) (s : World) : Prop where
  read : ∀ key r, recordAt s.replayedFrom key = some r → r.state = .received → r ∈ done ++ rest
  waiting : ∀ r ∈ rest, Found r s
  answered : ∀ r ∈ done, r.accountId = config.accountId → r.state = .received →
    Answered config r s

variable {dealt waiting : List IntentExecutionRecord} {record : IntentExecutionRecord}

theorem Found.keeps (h : Found r s) (hwf : FileRecordsWf s.inboxFile) (k : Keeps config s t) :
    Found r t := by
  obtain ⟨r', hget, hlives⟩ := h.record
  obtain ⟨r'', hget', hlives'⟩ := k.record hwf hget
  exact ⟨h.wf, r'', hget', hlives.trans hlives'⟩

theorem Replaying.grows (h : Replaying config dealt waiting s) (hwf : FileRecordsWf s.inboxFile)
    (k : Grows config s t) : Replaying config dealt waiting t where
  read := k.replayedFrom ▸ h.read
  waiting r hr := (h.waiting r hr).keeps hwf k.toKeeps
  answered r hr haccount hstate := k.answered hwf (h.answered r hr haccount hstate)

/-- The inbox of the account holds a record of it that was found there. -/
theorem Found.inInbox (h : Found record s) (haccount : record.accountId = config.accountId)
    (hid : record.intentId = intentId ∨
      ∃ i ∈ config.contract.validate (.obj record.intentPayload.members), i.intentId.str = intentId) :
    InInbox config s.inboxFile intentId := by
  obtain ⟨r', hget, hlives⟩ := h.record
  have hident := hlives.identity
  refine ⟨_, r', hget, ?_, ?_⟩
  · rw [← haccount, h.wf.account]
    exact congrArg IntentExecutionIdentity.accountId hident
  · rw [hlives.payload]
    rcases hid with hid | hid
    · exact .inl ((congrArg IntentExecutionIdentity.intentId hident).trans hid)
    · exact .inr hid

/-- In the turn of the record, an entry is published on a mode that fits it,
unless the record was dispatched before. -/
def RecordFits (record : IntentExecutionRecord) (intent : ApprovedTradeIntentV1) (s : World) : Prop :=
  s.turn = some (.record record) ∧ (record.state = .received → ModeFits intent s)

theorem RecordFits.sameTurn (h : RecordFits record intent s) (k : SameTurn s t) :
    RecordFits record intent t :=
  ⟨k.1.trans h.1, fun hstate => (h.2 hstate).sameTurn k⟩

end Triples

/-! ## Runs -/

variable (config : Config)

end TraderBot.DataClient
