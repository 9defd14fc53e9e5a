import TraderBot.Inbox.Barrier

/-! # Who is let in

`add_position_denial` of a bound intent: denied once its book moved on, let in
while it did not and the file can be read. The second half needs every book
written to have a symbol that names itself. -/
namespace TraderBot.Inbox
open TraderBot.Lib TraderBot.Lib.Text TraderBot.Lib.Dict TraderBot.Lib.Json

section Denial
variable {inbox : JsonIntentExecutionInbox}

/-! ## One question -/

variable {p : Payload} {book account : String} {r : IntentExecutionRecord} {file : File} {x : Uuid}

/-- The answer for a bound record of a file that can be read. -/
theorem denialBody_bound {key recordBook : String} {requireBinding : Bool} {g : Nat}
    {s : PositionGeneration} (hget : p.records.get? key = some r)
    (hr : BoundTo inbox r recordBook g) (hs : p.positionGenerations.get? recordBook = some s) :
    denialBody inbox key book requireBinding p =
      .ok (if recordBook ≠ book then some .bookMismatch
        else if g ≠ s.generation then some .stale else none) := by
  unfold denialBody
  simp only [hget, hr.entry, hr.generation, hr.book_eq]
  by_cases hb : recordBook = book
  · subst hb
    simp only [hs]
    by_cases hg : g = s.generation
    · simp [hg]
    · simp [hg]
  · simp [hb]

/-- A bound record whose book moved on is not let in, whatever the arguments. -/
theorem denial_of_moved {intentText : String} (instrument side : String) (requireBinding : Bool)
    {g : Nat} (hparse : Uuid.parse inbox.unicode intentText = some x)
    (hget : recordAt file (account ++ ":" ++ x.str) = some r) (hr : BoundTo inbox r book g)
    (hhas : hasBook file book) (hmoved : g ≠ (bookAt file book).generation) :
    addPositionDenial inbox account intentText instrument side requireBinding file ≠ .ok none := by
  unfold addPositionDenial
  cases hkey : positionBookKey inbox.unicode account instrument side with
  | error e =>
    intro h
    cases h
  | ok asked =>
    simp only [hparse, readLocked]
    cases hload : loadPayload inbox file with
    | error e =>
      intro h
      cases h
    | ok p =>
      cases file with
      | none => cases hget
      | some q =>
        obtain rfl : p = q := loadPayload_some hload
        obtain ⟨s, hs⟩ := hhas
        have hbook : bookAt (some p) book = s := by
          change p.positionGenerations.get? book = some s at hs
          simp [bookAt, Payload.book, hs]
        rw [hbook] at hmoved
        simp only [denialBody_bound hget hr hs, if_pos hmoved]
        split_ifs
        · intro h
          cases h
        · intro h
          cases h

/-- A bound record whose book did not move is let in, when the file can be read. -/
theorem denial_of_current {intentText instrument side : String} (requireBinding : Bool)
    (hparse : Uuid.parse inbox.unicode intentText = some x)
    (hasked : positionBookKey inbox.unicode account instrument side = .ok book)
    (hload : loadPayload inbox file = .ok p)
    (hget : recordAt file (account ++ ":" ++ x.str) = some r)
    (hr : BoundTo inbox r book (bookAt file book).generation) (hhas : hasBook file book) :
    addPositionDenial inbox account intentText instrument side requireBinding file = .ok none := by
  unfold addPositionDenial
  simp only [hasked, hparse, readLocked, hload]
  cases file with
  | none => cases hget
  | some q =>
    obtain rfl : p = q := loadPayload_some hload
    obtain ⟨s, hs⟩ := hhas
    have hbook : bookAt (some p) book = s := by
      change p.positionGenerations.get? book = some s at hs
      simp [bookAt, Payload.book, hs]
    rw [hbook] at hr
    rw [denialBody_bound hget hr hs]
    simp

/-! ## Receipt -/

variable (inbox) in
/-- The call received an entry of the account and intent and bound it to the book. -/
def Binds (b : PositionBook) (account : String) (x : Uuid) (file : File) : Op → Prop
  | .registerReceived raw (some payload) utcNow =>
    (registerReceived inbox raw (some payload) utcNow file).1 = .ok .registered ∧
      ∃ identity, raw.normalized inbox.unicode = .ok identity ∧ identity.accountId = account ∧
        identity.intentId = x.str ∧ receiptSide inbox identity payload ≠ "" ∧
        positionBookKey inbox.unicode account identity.instrumentId
          (receiptSide inbox identity payload) = .ok b.key
  | _ => False

theorem registerBody_bound {identity : IntentExecutionIdentity} {payload : JsonObject}
    {utcNow : String} {changed : Option Payload}
    (h : registerBody inbox identity payload utcNow p = .ok (.registered, changed))
    (hside : receiptSide inbox identity payload ≠ "")
    (hbook : positionBookKey inbox.unicode identity.accountId identity.instrumentId
      (receiptSide inbox identity payload) = .ok book) :
    changed = some ((p.setBook book (p.book book)).setRecord (recordKey identity)
      (bindRecord (receiptRecord identity payload utcNow) (receiptSide inbox identity payload)
        (p.book book).generation)) := by
  unfold registerBody at h
  split at h
  · split_ifs at h
    all_goals cases h
  · split at h
    · cases h
    · simp only [if_neg hside, hbook] at h
      cases h
      rfl

/-- After a binding receipt the record stands at the current generation. -/
theorem next_of_binds {b : PositionBook} {op : Op} (h : Binds inbox b account x file op) :
    bookAt ((machine inbox).next file op) b.key = bookAt file b.key ∧
      hasBook ((machine inbox).next file op) b.key ∧
      ∃ r, recordAt ((machine inbox).next file op) (account ++ ":" ++ x.str) = some r ∧
        BoundTo inbox r b.key (bookAt file b.key).generation := by
  cases op with
  | registerReceived raw intentPayload utcNow =>
    cases intentPayload with
    | none => cases h
    | some payload =>
      obtain ⟨hans, identity, hnorm, rfl, hintent, hside, hbook⟩ := h
      have hnext : (machine inbox).next file (.registerReceived raw (some payload) utcNow) =
          (mutate inbox file (registerBody inbox identity payload utcNow)).2 := by
        simp only [Machine.next, machine, step, answering, registerReceived, hnorm]
      simp only [registerReceived, hnorm] at hans
      obtain ⟨p, changed, hload, hbody, hfile⟩ := mutate_ok hans
      have hchanged := registerBody_bound hbody hside hbook
      have hkey : identity.accountId ++ ":" ++ x.str = recordKey identity := by
        rw [recordKey, hintent]
      rw [hnext, hfile, bookAt_load hload, hchanged, hkey]
      refine ⟨book_setBook.trans (if_pos rfl), ⟨p.book b.key, get?_setBook.trans (if_pos rfl)⟩,
        bindRecord (receiptRecord identity payload utcNow) (receiptSide inbox identity payload)
          (p.book b.key).generation, Dict.get?_set_self, ?_⟩
      exact ⟨receiptSide_entry hside, hbook, rfl⟩
  | _ => cases h

/-! ## Readable files -/

variable (inbox) in
/-- The call writes no book whose symbol does not name itself: an entry that
binds on receipt and a single-book barrier name a stable instrument. -/
def writesStableBook (op : Op) : Bool :=
  match op with
  | .registerReceived raw (some payload) _ =>
    match raw.normalized inbox.unicode with
    | .ok identity =>
      receiptSide inbox identity payload = "" || StableSymbol inbox.unicode identity.instrumentId
    | .error _ => true
  | .invalidatePosition _ instrumentId _ _ => StableSymbol inbox.unicode instrumentId
  | _ => true

/-- Every book has the key its own parts give. -/
def CanonicalBooks (inbox : JsonIntentExecutionInbox) (p : Payload) : Prop :=
  ∀ key s, p.positionGenerations.get? key = some s →
    ∃ b : PositionBook, key = b.key ∧
      positionBookKey inbox.unicode b.account b.symbol b.side = .ok key

theorem Change.canonicalBooks {p' : Payload} {op : Op} (h : Change inbox p op p')
    (hop : writesStableBook inbox op = true) (hp : CanonicalBooks inbox p) :
    CanonicalBooks inbox p' := by
  have hset : ∀ {book : String} {s : PositionGeneration},
      (∃ b : PositionBook, book = b.key ∧
        positionBookKey inbox.unicode b.account b.symbol b.side = .ok book) →
      CanonicalBooks inbox (p.setBook book s) := by
    intro book s hb key s' hget
    rw [get?_setBook] at hget
    split_ifs at hget with hk
    · exact hk ▸ hb
    · exact hp key s' hget
  cases h with
  | receipt => exact hp
  | bound hnorm hnew hside hbook =>
    simp only [writesStableBook, hnorm, decide_eq_false hside, Bool.false_or,
      decide_eq_true_eq] at hop
    exact hset (positionBookKey_again hbook hop)
  | dispatch => exact hp
  | mark => exact hp
  | repair hmem =>
    intro key s hget
    rw [rejectAll_books] at hget
    exact hp key s hget
  | invalidate hbook hopid hnew =>
    simp only [writesStableBook, decide_eq_true_eq] at hop
    exact hset (positionBookKey_again hbook hop)
  | scope hopid =>
    intro key s hget
    rw [get?_invalidateScope] at hget
    obtain ⟨s₀, hs₀, -⟩ := Option.map_eq_some_iff.mp hget
    exact hp key s₀ hs₀

/-- The file can be read. -/
def Readable (inbox : JsonIntentExecutionInbox) (file : File) : Prop :=
  ∃ p, loadPayload inbox file = .ok p

theorem readable_of_canonical (hwf : FileWf inbox file)
    (hbooks : ∀ p, file = some p → CanonicalBooks inbox p) : Readable inbox file := by
  cases file with
  | none => exact ⟨.empty, rfl⟩
  | some p =>
    refine ⟨p, loadPayload_ok.mpr ⟨hwf.size p rfl, fun key s hget => ?_⟩⟩
    exact ⟨hbooks p rfl key s hget, (hwf.barrier p rfl).recorded key s hget⟩

theorem after_readable {ops : List Op}
    (h : (machine inbox).Meets (fun _ op => writesStableBook inbox op = true) none ops) :
    Readable inbox ((machine inbox).after none ops) := by
  refine readable_of_canonical (after_fileWf inbox ops) ?_
  refine Machine.invariant_of_meets (m := machine inbox)
    (I := fun file => ∀ p, file = some p → CanonicalBooks inbox p) ?_ (fun p hp => by cases hp) h
  intro file op hinv hop
  rcases step_wrote inbox file op with h | ⟨p, p', hload, hchange, -, h, -⟩
  · rw [Machine.next, machine, h]
    exact hinv
  · rw [Machine.next, machine, h]
    intro q hq
    cases hq
    refine hchange.canonicalBooks hop ?_
    rcases loadPayload_file hload with rfl | ⟨rfl, rfl⟩
    · exact hinv p rfl
    · intro key s hget
      cases hget

/-! ## Every run -/

variable (inbox) in
/-- The close barrier over a run of an empty inbox. -/
structure CloseBarrier (ops : List Op) : Prop where
  /-- A bound entry is shut out for good by an effective invalidation of its book. -/
  denied : ∀ first bind middle close rest b account x,
    ops = first ++ bind :: (middle ++ close :: rest) →
    Binds inbox b account x ((machine inbox).after none first) bind →
    Effective inbox b ((machine inbox).after none (first ++ bind :: middle)) close →
    ∀ intentText instrument side requireBinding,
      Uuid.parse inbox.unicode intentText = some x →
      addPositionDenial inbox account intentText instrument side requireBinding
        ((machine inbox).after none ops) ≠ .ok none
  /-- Without one since its receipt it is let in. -/
  admitted : ∀ first bind rest b account x, ops = first ++ bind :: rest →
    Binds inbox b account x ((machine inbox).after none first) bind →
    (machine inbox).Meets (fun file op => ¬ Effective inbox b file op)
      ((machine inbox).after none (first ++ [bind])) rest →
    ∀ intentText instrument side requireBinding,
      Uuid.parse inbox.unicode intentText = some x →
      positionBookKey inbox.unicode account instrument side = .ok b.key →
      addPositionDenial inbox account intentText instrument side requireBinding
        ((machine inbox).after none ops) = .ok none
  /-- A counter is never behind an invalidation it recorded. -/
  recorded : ∀ key operation v,
    (bookAt ((machine inbox).after none ops) key).invalidations.get? operation = some v →
      v ≤ (bookAt ((machine inbox).after none ops) key).generation
  /-- A counter moves by one with each effective invalidation and never otherwise. -/
  counted : ∀ first op rest b, ops = first ++ op :: rest →
    (Effective inbox b ((machine inbox).after none first) op →
      (bookAt ((machine inbox).after none (first ++ [op])) b.key).generation =
        (bookAt ((machine inbox).after none first) b.key).generation + 1) ∧
    (¬ Effective inbox b ((machine inbox).after none first) op →
      (bookAt ((machine inbox).after none (first ++ [op])) b.key).generation =
        (bookAt ((machine inbox).after none first) b.key).generation)

variable (inbox) in
/-- **The close barrier holds over every run that writes stable books only.** -/
theorem closeBarrier_of_stable (ops : List Op)
    (hstable : (machine inbox).Meets (fun _ op => writesStableBook inbox op = true) none ops) :
    CloseBarrier inbox ops where
  denied := by
    rintro first bind middle close rest b account x rfl hbinds heff intentText instrument side
      requireBinding hparse
    obtain ⟨hsame, hhas, r, hget, hr⟩ := next_of_binds hbinds
    have hwf : FileRecordsWf ((machine inbox).after none (first ++ [bind])) :=
      after_recordsWf inbox _
    simp only [Machine.after_append, Machine.after_cons, Machine.after_nil] at heff hwf ⊢
    set bound := (machine inbox).next ((machine inbox).after none first) bind
    set before := (machine inbox).after bound middle
    -- the record lives on with its binding while the counter passes it
    obtain ⟨r', hget', ho⟩ := after_outlives inbox (middle ++ close :: rest) hwf hget
    have hr' := hr.advances ho.identity ho.generation ho.side
    have hhas' := after_hasBook inbox (middle ++ close :: rest) hhas
    simp only [Machine.after_append, Machine.after_cons] at hget' hhas'
    refine denial_of_moved instrument side requireBinding hparse hget' hr' hhas' ?_
    have h1 : (bookAt bound b.key).generation ≤ (bookAt before b.key).generation :=
      (after_grows inbox bound middle b.key).generation
    have h2 := (next_generation inbox b before close).1 heff
    have h3 := (after_grows inbox ((machine inbox).next before close) rest b.key).generation
    rw [hsame] at h1
    omega
  admitted := by
    rintro first bind rest b account x rfl hbinds hquiet intentText instrument side requireBinding
      hparse hasked
    obtain ⟨hsame, hhas, r, hget, hr⟩ := next_of_binds hbinds
    obtain ⟨p, hload⟩ := after_readable hstable
    have hwf : FileRecordsWf ((machine inbox).after none (first ++ [bind])) :=
      after_recordsWf inbox _
    simp only [Machine.after_append, Machine.after_cons, Machine.after_nil] at hload hquiet hwf ⊢
    obtain ⟨r', hget', ho⟩ := after_outlives inbox rest hwf hget
    refine denial_of_current requireBinding hparse hasked hload hget' ?_ (after_hasBook inbox rest hhas)
    rw [after_book_unchanged inbox hquiet, hsame]
    exact hr.advances ho.identity ho.generation ho.side
  recorded := by
    intro key operation v hv
    have hwf := after_fileWf inbox ops
    cases hfile : (machine inbox).after none ops with
    | none => rw [hfile] at hv; cases hv
    | some p =>
      rw [hfile] at hv hwf
      simp only [bookAt, Payload.book] at hv ⊢
      cases hget : p.positionGenerations.get? key with
      | none => rw [hget] at hv; cases hv
      | some s =>
        rw [hget] at hv
        exact ((hwf.barrier p rfl).recorded key s hget operation v hv).2.2
  counted := by
    intro first op rest b _
    rw [Machine.after_append]
    exact next_generation inbox b _ op

end Denial

/-! ## A book that cannot be read again -/

/-- An inbox with ASCII tables and the default byte budget. -/
def sampleInbox : JsonIntentExecutionInbox :=
  { unicode := .ascii, payloadEq := fun a b => decide (a = b), maxBytes := 16 * 1024 * 1024,
    maxBytes_pos := by decide }

def samplePayload : JsonObject := ⟨[("order_plan", .obj [("side", .str "buy")])], by decide⟩

def sampleIntent : Uuid := ⟨0x6f1c2a7e5b0d4c3e9a8f7b6c5d4e3f21, by decide⟩

/-- An entry of one account for an instrument. -/
def sampleIdentity (instrumentId : String) : IntentExecutionIdentity :=
  { accountId := "binance-main", intentId := "6f1c2a7e-5b0d-4c3e-9a8f-7b6c5d4e3f21",
    idempotencyKey := "signal-1", instrumentId, action := "open_position" }

def sampleReceipt (instrumentId : String) : Op :=
  .registerReceived (sampleIdentity instrumentId) (some samplePayload) "2025-01-01T00:00:00+00:00"

def sampleClose (instrumentId : String) : Op :=
  .invalidatePosition "binance-main" instrumentId "LONG" "close-1"

theorem closeBarrier_sample :
    (machine sampleInbox).Meets (fun _ op => writesStableBook sampleInbox op = true) none
        [sampleReceipt "BTCUSDT-PERP.BINANCE", sampleClose "BTCUSDT-PERP.BINANCE"] ∧
      CloseBarrier sampleInbox
        [sampleReceipt "BTCUSDT-PERP.BINANCE", sampleClose "BTCUSDT-PERP.BINANCE"] := by
  have hstable : (machine sampleInbox).Meets (fun _ op => writesStableBook sampleInbox op = true)
      none [sampleReceipt "BTCUSDT-PERP.BINANCE", sampleClose "BTCUSDT-PERP.BINANCE"] := by
    decide +kernel
  exact ⟨hstable, closeBarrier_of_stable sampleInbox _ hstable⟩

/-- A blank before the dash stays in the symbol and is stripped when the key is
checked: the entry is received and bound, and then nothing can be read. -/
theorem not_closeBarrier_blank_symbol :
    ¬ CloseBarrier sampleInbox [sampleReceipt "BTCUSDT -PERP"] := by
  intro h
  have hbinds : Binds sampleInbox ⟨"binance-main", "BTCUSDT ", "LONG"⟩ "binance-main" sampleIntent
      none (sampleReceipt "BTCUSDT -PERP") :=
    ⟨by decide +kernel, sampleIdentity "BTCUSDT -PERP", by decide +kernel, rfl, by decide +kernel,
      by decide, by decide +kernel⟩
  have hnone := h.admitted [] _ [] _ _ sampleIntent rfl hbinds trivial
    "6f1c2a7e-5b0d-4c3e-9a8f-7b6c5d4e3f21" "BTCUSDT -PERP" "LONG" false (by decide +kernel)
    (by decide +kernel)
  revert hnone
  decide +kernel

end TraderBot.Inbox
