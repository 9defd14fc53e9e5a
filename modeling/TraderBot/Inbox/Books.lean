import TraderBot.Inbox.Lifecycle
import TraderBot.Lib.JsonRoundTrip

/-! # Position books

A book is kept under the JSON text of its account, symbol and side. The text
gives the three back, so distinct books never share a counter; whether the file
can be read again is whether every key is the text its own parts give. A call
moves the counter of a book by one (`Effective`) or leaves the whole entry as it
is. -/
namespace TraderBot.Inbox
open TraderBot.Lib TraderBot.Lib.Text TraderBot.Lib.Dict TraderBot.Lib.Json

/-! ## Keys -/

/-- A position book. -/
structure PositionBook where
  account : String
  symbol : String
  side : String
  deriving DecidableEq, Repr

def PositionBook.key (b : PositionBook) : String := bookText b.account b.symbol b.side

theorem loads_bookText (account symbol side : String) :
    loads (bookText account symbol side).toList =
      some (.arr [.str account, .str symbol, .str side]) := by
  rw [bookText, String.toList_ofList]
  exact loads_render rfl

theorem inScope_key (b : PositionBook) (accountId : String) (symbols : List String) :
    inScope accountId symbols b.key = true ↔
      b.account = accountId ∧ (symbols = [] ∨ b.symbol ∈ symbols) := by
  simp [inScope, PositionBook.key, loads_bookText]

variable {u : Unicode} {key : String} {inbox : JsonIntentExecutionInbox} {s : PositionGeneration}
  {p : Payload} {file : File}

/-- The book that a checked key names. -/
theorem positionBookKey_ok {accountId instrumentId side : String}
    (h : positionBookKey u accountId instrumentId side = .ok key) :
    key = bookText (strip accountId) (positionSymbol u instrumentId) (u.upper (strip side)) ∧
      strip accountId ≠ "" ∧ positionSymbol u instrumentId ≠ "" ∧
      (u.upper (strip side) = "LONG" ∨ u.upper (strip side) = "SHORT") := by
  unfold positionBookKey at h
  simp only at h
  split_ifs at h with hbad
  rw [not_or, not_or, not_not] at hbad
  exact ⟨(Except.ok.inj h).symm, hbad⟩

theorem upper_strip_side {side : String} (h : side = "LONG" ∨ side = "SHORT") :
    u.upper (strip side) = side := by
  rcases h with rfl | rfl
  · rw [show strip "LONG" = "LONG" by decide, u.upper_ascii _ (by decide)]
    decide
  · rw [show strip "SHORT" = "SHORT" by decide, u.upper_ascii _ (by decide)]
    decide

/-- The symbol of an instrument names itself. -/
def StableSymbol (u : Unicode) (instrumentId : String) : Prop :=
  positionSymbol u (positionSymbol u instrumentId) = positionSymbol u instrumentId

instance (u : Unicode) (instrumentId : String) : Decidable (StableSymbol u instrumentId) :=
  inferInstanceAs (Decidable (_ = _))

/-- A key is found again from its own parts when its symbol names itself. -/
theorem positionBookKey_again {accountId instrumentId side : String}
    (h : positionBookKey u accountId instrumentId side = .ok key)
    (hstable : StableSymbol u instrumentId) :
    ∃ b : PositionBook, key = b.key ∧ positionBookKey u b.account b.symbol b.side = .ok key := by
  obtain ⟨hkey, hacc, hsym, hside⟩ := positionBookKey_ok h
  refine ⟨⟨strip accountId, positionSymbol u instrumentId, u.upper (strip side)⟩, hkey, ?_⟩
  unfold StableSymbol at hstable
  simp only [positionBookKey, strip_strip, upper_strip_side hside, hstable]
  rw [if_neg (by simp only [hacc, hsym, hside, not_true_eq_false, or_self, not_false_eq_true]), hkey]

/-! ## Reading the file -/

theorem forM_ok {α ε : Type} {f : α → Except ε Unit} {l : List α} :
    l.forM f = .ok () ↔ ∀ x ∈ l, f x = .ok () := by
  induction l with
  | nil => simp [pure, Except.pure]
  | cons a l ih =>
    change (f a >>= fun _ => l.forM f) = .ok () ↔ _
    cases ha : f a with
    | error e => simp [bind, Except.bind, ha]
    | ok x => simpa [bind, Except.bind, ha] using ih

/-- A book that `_load_payload` accepts. -/
structure ValidBook (inbox : JsonIntentExecutionInbox) (key : String) (s : PositionGeneration) :
    Prop where
  canonical : ∃ b : PositionBook, key = b.key ∧
    positionBookKey inbox.unicode b.account b.symbol b.side = .ok key
  recorded : ∀ operation v, s.invalidations.get? operation = some v →
    strip operation ≠ "" ∧ 0 < v ∧ v ≤ s.generation

theorem validateInvalidation_ok {operation : String} {v generation : Nat} :
    (match positionOperationId operation with
      | .error e => .error e
      | .ok _ => if 0 < v ∧ v ≤ generation then .ok ()
        else .error (.inboxError "position generation is invalid") : Except Failure Unit) =
        .ok () ↔ strip operation ≠ "" ∧ 0 < v ∧ v ≤ generation := by
  unfold positionOperationId
  by_cases h : strip operation = ""
  · simp [h]
  · by_cases hv : 0 < v ∧ v ≤ generation
    · simp [h, hv]
    · simp [h, hv]

theorem validateBook_ok : validateBook inbox key s = .ok () ↔ ValidBook inbox key s := by
  constructor
  · intro h
    unfold validateBook at h
    simp only at h
    split at h
    · rename_i account symbol side hload
      split at h
      · cases h
      · rename_i canonicalKey hkey
        split_ifs at h with hne
        have heq : canonicalKey = key := not_not.mp hne
        obtain ⟨hk, -⟩ := positionBookKey_ok hkey
        -- the key is a text of three parts, and they are the ones read from it
        have hparts := loads_bookText (strip account) (positionSymbol inbox.unicode symbol)
          (inbox.unicode.upper (strip side))
        rw [← hk, heq, hload] at hparts
        simp only [Option.some.injEq, Value.arr.injEq, List.cons.injEq, Value.str.injEq,
          and_true] at hparts
        refine ⟨⟨⟨account, symbol, side⟩, ?_, heq ▸ hkey⟩, ?_⟩
        · rw [PositionBook.key, ← heq, hk, ← hparts.1, ← hparts.2.1, ← hparts.2.2]
        · intro operation v hv
          have hall := forM_ok.mp h (operation, v) (Dict.mem_items.mpr hv)
          exact validateInvalidation_ok.mp hall
    · cases h
  · rintro ⟨⟨b, rfl, hkey⟩, hrec⟩
    unfold validateBook
    simp only [PositionBook.key] at hkey ⊢
    rw [loads_bookText]
    simp only [hkey, ne_eq, not_true_eq_false, if_false]
    refine forM_ok.mpr fun x hx => ?_
    exact validateInvalidation_ok.mpr (hrec x.1 x.2 (Dict.mem_items.mp hx))

/-- **What the file must satisfy to be read**: the byte budget and valid books. -/
theorem loadPayload_ok :
    loadPayload inbox (some p) = .ok p ↔ payloadBytes p ≤ inbox.maxBytes ∧
      ∀ key s, p.positionGenerations.get? key = some s → ValidBook inbox key s := by
  have hbooks : (p.positionGenerations.items.forM fun x => validateBook inbox x.1 x.2) = .ok () ↔
      ∀ key s, p.positionGenerations.get? key = some s → ValidBook inbox key s := by
    rw [forM_ok]
    constructor
    · intro h key s hget
      exact validateBook_ok.mp (h (key, s) (Dict.mem_items.mpr hget))
    · intro h x hx
      exact validateBook_ok.mpr (h x.1 x.2 (Dict.mem_items.mp hx))
  rw [← hbooks]
  unfold loadPayload requireSizeWithinLimit
  by_cases hsize : payloadBytes p ≤ inbox.maxBytes
  · simp only [hsize, if_true, true_and]
    split
    · rename_i e he
      change (p.positionGenerations.items.forM fun x => validateBook inbox x.1 x.2) = _ at he
      simp [he]
    · rename_i he
      change (p.positionGenerations.items.forM fun x => validateBook inbox x.1 x.2) = _ at he
      simp [he]
  · simp [hsize]

theorem loadPayload_file (h : loadPayload inbox file = .ok p) :
    file = some p ∨ (file = none ∧ p = .empty) := by
  cases file with
  | none => cases h; exact .inr ⟨rfl, rfl⟩
  | some q => rw [loadPayload_some h]; exact .inl rfl

/-! ## Counters -/

/-- The entry of a book, a new one where there is none. -/
def bookAt (file : File) (key : String) : PositionGeneration :=
  match file with
  | none => newBook
  | some p => p.book key

/-- The file has an entry for the book. -/
def hasBook (file : File) (key : String) : Prop :=
  ∃ s, (file.bind fun p => p.positionGenerations.get? key) = some s

theorem bookAt_load (h : loadPayload inbox file = .ok p) (key : String) :
    bookAt file key = p.book key := by
  rcases loadPayload_file h with rfl | ⟨rfl, rfl⟩
  · rfl
  · rfl

theorem book_setBook {book : String} :
    (p.setBook book s).book key = if key = book then s else p.book key := by
  unfold Payload.book Payload.setBook
  simp only [Dict.get?_set]
  split_ifs
  · rfl
  · rfl

theorem rejectAll_books (candidates : List IntentExecutionRecord) (repairTime : String)
    (p : Payload) : (rejectAll candidates repairTime p).positionGenerations =
      p.positionGenerations := by
  induction candidates generalizing p with
  | nil => rfl
  | cons c cs ih => exact ih _

/-- The entry of a book after the barrier passed over a scope. -/
theorem get?_invalidateScope (p : Payload) (accountId : String) (symbols : List String)
    (operation key : String) :
    (p.invalidateScope accountId symbols operation).positionGenerations.get? key =
      (p.positionGenerations.get? key).map fun s =>
        if scopeHits accountId symbols operation key s then invalidateBook s operation else s :=
  Dict.get?_mapItems _

section Steps
variable (inbox : JsonIntentExecutionInbox)

/-- The call returned and found its operation id not yet on the book: for one
book, or for a scope that the book is in and already has an entry for. -/
def Effective (b : PositionBook) (file : File) : Op → Prop
  | .invalidatePosition accountId instrumentId side operationId =>
    positionBookKey inbox.unicode accountId instrumentId side = .ok b.key ∧
      (bookAt file b.key).invalidations.get? (strip operationId) = none ∧
      (step inbox file (.invalidatePosition accountId instrumentId side operationId)).1.isOk = true
  | .invalidatePositionScope accountId operationId instrumentIds =>
    (b.account = accountId ∧
      (instrumentIds = [] ∨ b.symbol ∈ instrumentIds.map (positionSymbol inbox.unicode))) ∧
      hasBook file b.key ∧
      (bookAt file b.key).invalidations.get? (strip operationId) = none ∧
      (step inbox file (.invalidatePositionScope accountId operationId instrumentIds)).1.isOk = true
  | _ => False

variable {b : PositionBook} {file : File}

/-- A call that is not effective on a book leaves its entry as it is. -/
theorem next_book_unchanged {op : Op} (h : ¬ Effective inbox b file op) :
    bookAt ((machine inbox).next file op) b.key = bookAt file b.key := by
  rcases step_wrote inbox file op with hsame | ⟨p, p', hload, hchange, -, hfile, hok⟩
  · rw [Machine.next, machine, hsame]
  · rw [Machine.next, machine, hfile, bookAt_load hload]
    change p'.book b.key = p.book b.key
    cases hchange with
    | receipt => rfl
    | bound hnorm hnew hside hbook =>
      refine book_setBook.trans ?_
      split_ifs with hk
      · rw [hk]
      · rfl
    | dispatch => rfl
    | mark => rfl
    | repair hmem =>
      unfold Payload.book
      rw [rejectAll_books]
    | invalidate hbook hop hnew =>
      rw [book_setBook, if_neg]
      intro hk
      refine h ⟨hk ▸ hbook, ?_, hok⟩
      rw [bookAt_load hload, hk, ← (positionOperationId_ok hop).1]
      exact hnew
    | scope hop =>
      unfold Payload.book
      rw [get?_invalidateScope]
      cases hget : p.positionGenerations.get? b.key with
      | none => rfl
      | some s =>
        simp only [Option.map_some, Option.getD_some]
        rw [if_neg]
        intro hhit
        simp only [scopeHits, Bool.and_eq_true, Option.isNone_iff_eq_none] at hhit
        obtain ⟨hacc, hsym⟩ := (inScope_key b _ _).mp hhit.1
        rcases loadPayload_file hload with rfl | ⟨rfl, rfl⟩
        · refine h ⟨⟨hacc, hsym.imp (by simp) id⟩, ⟨s, hget⟩, ?_, hok⟩
          rw [bookAt, Payload.book, hget, ← (positionOperationId_ok hop).1]
          exact hhit.2
        · cases hget

/-- An effective call moves the counter on and records its operation. -/
theorem next_book_effective {op : Op} (h : Effective inbox b file op) :
    ∃ operation, bookAt ((machine inbox).next file op) b.key =
      invalidateBook (bookAt file b.key) operation := by
  cases op with
  | invalidatePosition accountId instrumentId side operationId =>
    obtain ⟨hbook, hnew, hok⟩ := h
    simp only [step, answering, invalidatePosition, hbook, Answer.isOk] at hok
    cases hop : positionOperationId operationId with
    | error e => simp [hop, Except.isOk, Except.toBool] at hok
    | ok operation =>
      simp only [hop] at hok
      cases hm : (mutate inbox file (invalidateBody b.key operation)).1 with
      | error e => simp [hm, Except.isOk, Except.toBool] at hok
      | ok n =>
        obtain ⟨p, changed, hload, hbody, hfile⟩ := mutate_ok hm
        rw [bookAt_load hload, ← (positionOperationId_ok hop).1] at hnew
        simp only [invalidateBody, hnew] at hbody
        cases hbody
        refine ⟨operation, ?_⟩
        have hnext : (machine inbox).next file
            (.invalidatePosition accountId instrumentId side operationId) =
              (mutate inbox file (invalidateBody b.key operation)).2 := by
          simp only [Machine.next, machine, step, answering, invalidatePosition, hbook, hop]
        rw [hnext, hfile, bookAt_load hload]
        exact book_setBook.trans (if_pos rfl)
  | invalidatePositionScope accountId operationId instrumentIds =>
    obtain ⟨hscope, ⟨s, hget⟩, hnew, hok⟩ := h
    simp only [step, answering, invalidatePositionScope, Answer.isOk] at hok
    cases hop : positionOperationId operationId with
    | error e => simp [hop, Except.isOk, Except.toBool] at hok
    | ok operation =>
      simp only [hop] at hok
      cases hm : (mutate inbox file (invalidateScopeBody accountId
          (instrumentIds.map (positionSymbol inbox.unicode)) operation)).1 with
      | error e => simp [hm, Except.isOk, Except.toBool] at hok
      | ok n =>
        obtain ⟨p, changed, hload, hbody, hfile⟩ := mutate_ok hm
        cases file with
        | none => cases hget
        | some q =>
          obtain rfl : p = q := loadPayload_some hload
          change p.positionGenerations.get? b.key = some s at hget
          have hbook : bookAt (some p) b.key = s := by simp [bookAt, Payload.book, hget]
          have hhit : scopeHits accountId (instrumentIds.map (positionSymbol inbox.unicode))
              operation b.key s = true := by
            rw [hbook, ← (positionOperationId_ok hop).1] at hnew
            simp only [scopeHits, hnew, Option.isNone_none, Bool.and_true]
            exact (inScope_key b _ _).mpr ⟨hscope.1, hscope.2.imp (by simp) id⟩
          have hany : (p.positionGenerations.items.any fun x =>
              scopeHits accountId (instrumentIds.map (positionSymbol inbox.unicode)) operation x.1 x.2) = true :=
            List.any_eq_true.mpr ⟨(b.key, s), Dict.mem_items.mpr hget, hhit⟩
          unfold invalidateScopeBody at hbody
          rw [if_pos hany] at hbody
          cases hbody
          refine ⟨operation, ?_⟩
          have hnext : (machine inbox).next (some p)
              (.invalidatePositionScope accountId operationId instrumentIds) =
                (mutate inbox (some p) (invalidateScopeBody accountId
                  (instrumentIds.map (positionSymbol inbox.unicode)) operation)).2 := by
            simp only [Machine.next, machine, step, answering, invalidatePositionScope, hop]
          have hmoved : bookAt (some (p.invalidateScope accountId
              (instrumentIds.map (positionSymbol inbox.unicode)) operation)) b.key =
                invalidateBook s operation := by
            simp only [bookAt, Payload.book, get?_invalidateScope, hget, Option.map_some, hhit,
              if_true, Option.getD_some]
          rw [hnext, hfile, hbook]
          exact hmoved
  | _ => cases h

/-- The counter after a call: one more when the call is effective, else the same. -/
theorem next_generation (b : PositionBook) (file : File) (op : Op) :
    (Effective inbox b file op → (bookAt ((machine inbox).next file op) b.key).generation =
      (bookAt file b.key).generation + 1) ∧
    (¬ Effective inbox b file op → (bookAt ((machine inbox).next file op) b.key).generation =
      (bookAt file b.key).generation) := by
  constructor
  · intro h
    obtain ⟨operation, he⟩ := next_book_effective inbox h
    rw [he]
    rfl
  · intro h
    rw [next_book_unchanged inbox h]

end Steps
end TraderBot.Inbox
