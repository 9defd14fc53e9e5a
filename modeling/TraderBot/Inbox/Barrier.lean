import TraderBot.Inbox.Books

/-! # The close barrier

An entry binds on receipt to the counter of its book; whatever moves the
counter later shuts the entry out for good. Conversely a bound entry is let in
as long as nothing moved its counter, provided the file can still be read: a
book whose symbol does not name itself makes every later read fail. -/
namespace TraderBot.Inbox
open TraderBot.Lib TraderBot.Lib.Text TraderBot.Lib.Dict TraderBot.Lib.Json

/-! ## What every file satisfies -/

/-- The record is bound at generation `g` to the book under `book`. -/
structure BoundTo (inbox : JsonIntentExecutionInbox) (r : IntentExecutionRecord) (book : String)
    (g : Nat) : Prop where
  entry : isEntryAction r.action = true
  book_eq : positionBookKey inbox.unicode r.accountId r.instrumentId r.localPositionSide = .ok book
  generation : r.localPositionGeneration = some g

/-- Books record their own past, and no binding is ahead of its book. -/
structure BarrierWf (inbox : JsonIntentExecutionInbox) (p : Payload) : Prop where
  recorded : ∀ key s, p.positionGenerations.get? key = some s →
    ∀ operation v, s.invalidations.get? operation = some v →
      strip operation ≠ "" ∧ 0 < v ∧ v ≤ s.generation
  bound : ∀ key r g, p.records.get? key = some r → r.localPositionGeneration = some g →
    ∃ book s, BoundTo inbox r book g ∧ p.positionGenerations.get? book = some s ∧
      g ≤ s.generation

/-- What a call may do to the entry of a book. -/
structure Grows (s s' : PositionGeneration) : Prop where
  generation : s.generation ≤ s'.generation
  recorded : ∀ operation, s.invalidations.get? operation ≠ none →
    s'.invalidations.get? operation ≠ none

variable (s : PositionGeneration)

theorem Grows.refl : Grows s s := ⟨Nat.le_refl _, fun _ h => h⟩

theorem Grows.trans {a b c : PositionGeneration} (h : Grows a b) (k : Grows b c) : Grows a c :=
  ⟨Nat.le_trans h.generation k.generation, fun op ho => k.recorded op (h.recorded op ho)⟩

theorem grows_invalidateBook (operation : String) : Grows s (invalidateBook s operation) := by
  refine ⟨Nat.le_succ _, fun op h => ?_⟩
  unfold invalidateBook
  simp only [Dict.get?_set]
  split_ifs
  · nofun
  · exact h

theorem recorded_invalidateBook {s : PositionGeneration} {operation : String}
    (hs : ∀ op v, s.invalidations.get? op = some v → strip op ≠ "" ∧ 0 < v ∧ v ≤ s.generation)
    (hop : strip operation ≠ "") :
    ∀ op v, (invalidateBook s operation).invalidations.get? op = some v →
      strip op ≠ "" ∧ 0 < v ∧ v ≤ (invalidateBook s operation).generation := by
  intro op v hv
  unfold invalidateBook at hv ⊢
  simp only [Dict.get?_set] at hv ⊢
  split_ifs at hv with h
  · cases hv
    exact ⟨h ▸ hop, Nat.succ_pos _, Nat.le_refl _⟩
  · obtain ⟨h1, h2, h3⟩ := hs op v hv
    exact ⟨h1, h2, Nat.le_succ_of_le h3⟩

section Payload
variable {inbox : JsonIntentExecutionInbox} {p p' : Payload} {op : Op}

variable {key : String} {s : PositionGeneration}

theorem get?_setBook {book : String} :
    (p.setBook book s).positionGenerations.get? key =
      if key = book then some s else p.positionGenerations.get? key := Dict.get?_set

/-- The entry of a book that exists stays and grows. -/
theorem Change.grows (h : Change inbox p op p') (hget : p.positionGenerations.get? key = some s) :
    ∃ s', p'.positionGenerations.get? key = some s' ∧ Grows s s' := by
  have hbook : p.book key = s := by simp [Payload.book, hget]
  cases h with
  | receipt => exact ⟨s, hget, .refl s⟩
  | @bound _ _ _ _ book hnorm hnew hside hb =>
    refine ⟨s, get?_setBook.trans ?_, .refl s⟩
    split_ifs with hk
    · rw [← hk, hbook]
    · exact hget
  | dispatch => exact ⟨s, hget, .refl s⟩
  | mark => exact ⟨s, hget, .refl s⟩
  | repair hmem => exact ⟨s, by rw [rejectAll_books]; exact hget, .refl s⟩
  | @invalidate _ _ _ _ book operation hb hop hnew =>
    by_cases hk : key = book
    · refine ⟨invalidateBook s operation, ?_, grows_invalidateBook s operation⟩
      rw [get?_setBook, if_pos hk, ← hk, hbook]
    · exact ⟨s, by rw [get?_setBook, if_neg hk]; exact hget, .refl s⟩
  | scope hop =>
    simp only [get?_invalidateScope, hget, Option.map_some, Option.some.injEq, exists_eq_left']
    split_ifs
    · exact grows_invalidateBook s _
    · exact .refl s

/-- Entries stay well formed. -/
theorem Change.recorded (h : Change inbox p op p') (hwf : BarrierWf inbox p) :
    ∀ key s, p'.positionGenerations.get? key = some s →
      ∀ operation v, s.invalidations.get? operation = some v →
        strip operation ≠ "" ∧ 0 < v ∧ v ≤ s.generation := by
  have hbook : ∀ key operation v, (p.book key).invalidations.get? operation = some v →
      strip operation ≠ "" ∧ 0 < v ∧ v ≤ (p.book key).generation := by
    intro key
    unfold Payload.book
    cases hget : p.positionGenerations.get? key with
    | none => intro operation v hv; cases hv
    | some s => exact hwf.recorded key s hget
  intro key s hget
  cases h with
  | receipt => exact hwf.recorded key s hget
  | @bound _ _ _ _ book hnorm hnew hside hb =>
    have hget' : (p.setBook book (p.book book)).positionGenerations.get? key = some s := hget
    rw [get?_setBook] at hget'
    split_ifs at hget'
    · cases hget'
      exact hbook book
    · exact hwf.recorded key s hget'
  | dispatch => exact hwf.recorded key s hget
  | mark => exact hwf.recorded key s hget
  | repair hmem =>
    rw [rejectAll_books] at hget
    exact hwf.recorded key s hget
  | @invalidate _ _ _ _ book operation hb hop hnew =>
    obtain ⟨-, hstrip, hne⟩ := positionOperationId_ok hop
    rw [get?_setBook] at hget
    split_ifs at hget
    · cases hget
      exact recorded_invalidateBook (hbook book) (by rw [hstrip]; exact hne)
    · exact hwf.recorded key s hget
  | scope hop =>
    obtain ⟨-, hstrip, hne⟩ := positionOperationId_ok hop
    rw [get?_invalidateScope] at hget
    obtain ⟨s₀, hs₀, he⟩ := Option.map_eq_some_iff.mp hget
    have h₀ := hwf.recorded key s₀ hs₀
    rw [← he]
    split_ifs
    · exact recorded_invalidateBook h₀ (by rw [hstrip]; exact hne)
    · exact h₀

theorem receiptSide_entry {identity : IntentExecutionIdentity} {payload : JsonObject}
    (h : receiptSide inbox identity payload ≠ "") : isEntryAction identity.action = true := by
  unfold receiptSide at h
  split_ifs at h with he
  · exact he
  · exact absurd rfl h

/-- A record is there after a change because it was there before, or because
the call received it: unbound, or bound to its book as it stands. -/
theorem Change.origin (h : Change inbox p op p') (hwf : RecordsWf p) {r' : IntentExecutionRecord}
    (hget : p'.records.get? key = some r') :
    (∃ r, p.records.get? key = some r ∧ Advances r r') ∨
      r'.localPositionGeneration = none ∨
      ∃ book, BoundTo inbox r' book (p.book book).generation ∧
        p'.positionGenerations.get? book = some (p.book book) := by
  cases hold : p.records.get? key with
  | some r =>
    obtain ⟨r₁, h₁, ha⟩ := h.advances hwf hold
    rw [hget] at h₁
    cases h₁
    exact .inl ⟨r, rfl, ha⟩
  | none =>
    refine .inr ?_
    have hmove : ∀ {k : String} {s s' : IntentExecutionRecord}, p.records.get? k = some s →
        (p.setRecord k s').records.get? key ≠ some r' := by
      intro k s s' hk hget
      rw [get?_setRecord] at hget
      split_ifs at hget with hkey
      · rw [hkey, hk] at hold; cases hold
      · rw [hold] at hget; cases hget
    cases h with
    | receipt hnorm hnew hside =>
      rw [get?_setRecord] at hget
      split_ifs at hget
      · cases hget
        exact .inl rfl
      · exact absurd (hold.symm.trans hget) nofun
    | @bound raw identity payload utcNow book hnorm hnew hside hb =>
      rw [get?_setRecord] at hget
      split_ifs at hget
      · cases hget
        refine .inr ⟨book, ⟨receiptSide_entry hside, hb, rfl⟩, ?_⟩
        exact get?_setBook.trans (if_pos rfl)
      · exact absurd (hold.symm.trans hget) nofun
    | dispatch hnorm hk hident hstate hids => exact absurd hget (hmove hk)
    | mark hop hk hmarks => exact absurd hget (hmove hk)
    | repair hmem =>
      rcases rejectAll_cases hwf hmem key with h | ⟨r, hr, -, -⟩
      · exact absurd (hold.symm.trans (h.symm.trans hget)) nofun
      · exact absurd (hold.symm.trans hr) nofun
    | invalidate => exact absurd (hold.symm.trans hget) nofun
    | scope => exact absurd (hold.symm.trans hget) nofun

theorem BoundTo.advances {r r' : IntentExecutionRecord} {book : String} {g : Nat}
    (h : BoundTo inbox r book g) (hident : r'.identity = r.identity)
    (hgen : r'.localPositionGeneration = r.localPositionGeneration)
    (hside : r'.localPositionSide = r.localPositionSide) : BoundTo inbox r' book g := by
  have hacc : r'.accountId = r.accountId := congrArg (·.accountId) hident
  have hins : r'.instrumentId = r.instrumentId := congrArg (·.instrumentId) hident
  have hact : r'.action = r.action := congrArg (·.action) hident
  exact ⟨hact ▸ h.entry, by rw [hacc, hins, hside]; exact h.book_eq, hgen.trans h.generation⟩

theorem Change.barrierWf (h : Change inbox p op p') (hrec : RecordsWf p) (hwf : BarrierWf inbox p) :
    BarrierWf inbox p' := by
  refine ⟨h.recorded hwf, fun key r' g hget hg => ?_⟩
  rcases h.origin hrec hget with ⟨r, hr, ha⟩ | hnone | ⟨book, hb, hs⟩
  · obtain ⟨book, s, hb, hs, hle⟩ := hwf.bound key r g hr (ha.generation ▸ hg)
    obtain ⟨s', hs', hgrow⟩ := h.grows hs
    exact ⟨book, s', hb.advances ha.identity ha.generation ha.side, hs',
      Nat.le_trans hle hgrow.generation⟩
  · rw [hnone] at hg
    cases hg
  · obtain rfl : g = (p.book book).generation := Option.some.inj (hg.symm.trans hb.generation)
    exact ⟨book, _, hb, hs, Nat.le_refl _⟩

end Payload

/-! ## Runs -/

/-- The file holds well-formed records and books within the byte budget. -/
structure FileWf (inbox : JsonIntentExecutionInbox) (file : File) : Prop where
  records : FileRecordsWf file
  barrier : ∀ p, file = some p → BarrierWf inbox p
  size : ∀ p, file = some p → payloadBytes p ≤ inbox.maxBytes

theorem fileWf_none (inbox : JsonIntentExecutionInbox) : FileWf inbox none := ⟨nofun, nofun, nofun⟩

section Runs
variable (inbox : JsonIntentExecutionInbox)

variable {file : File} (ops : List Op) {key : String}

theorem loadPayload_barrier {p : Payload} (h : loadPayload inbox file = .ok p)
    (hwf : FileWf inbox file) : BarrierWf inbox p := by
  rcases loadPayload_file h with rfl | ⟨rfl, rfl⟩
  · exact hwf.barrier p rfl
  · exact ⟨nofun, nofun⟩

theorem next_fileWf (file : File) (op : Op) (hwf : FileWf inbox file) :
    FileWf inbox ((machine inbox).next file op) := by
  have hrec := next_recordsWf inbox file op hwf.records
  rcases step_wrote inbox file op with h | ⟨p, p', hload, hchange, hsize, h, -⟩
  · rw [Machine.next, machine, h] at hrec ⊢
    exact ⟨hrec, hwf.barrier, hwf.size⟩
  · rw [Machine.next, machine, h] at hrec ⊢
    refine ⟨hrec, fun q hq => ?_, fun q hq => ?_⟩
    · cases hq
      exact hchange.barrierWf (loadPayload_wf hload hwf.records) (loadPayload_barrier inbox hload hwf)
    · cases hq
      exact hsize

theorem after_fileWf : FileWf inbox ((machine inbox).after none ops) :=
  Machine.invariant (next_fileWf inbox) (fileWf_none inbox) ops

theorem next_hasBook (op : Op) (h : hasBook file key) :
    hasBook ((machine inbox).next file op) key := by
  obtain ⟨s, hget⟩ := h
  rcases step_wrote inbox file op with h | ⟨p, p', hload, hchange, -, h, -⟩
  · rw [Machine.next, machine, h]
    exact ⟨s, hget⟩
  · cases file with
    | none => cases hget
    | some q =>
      rw [loadPayload_some hload] at hchange
      obtain ⟨s', hs', -⟩ := hchange.grows hget
      rw [Machine.next, machine, h]
      exact ⟨s', hs'⟩

theorem next_grows (file : File) (op : Op) (key : String) :
    Grows (bookAt file key) (bookAt ((machine inbox).next file op) key) := by
  rcases step_wrote inbox file op with h | ⟨p, p', hload, hchange, -, h, -⟩
  · rw [Machine.next, machine, h]
    exact .refl _
  · rw [Machine.next, machine, h, bookAt_load hload]
    cases hget : p.positionGenerations.get? key with
    | none =>
      have hnew : p.book key = newBook := by simp [Payload.book, hget]
      rw [hnew]
      exact ⟨Nat.zero_le _, fun op h => absurd rfl h⟩
    | some s =>
      obtain ⟨s', hs', hg⟩ := hchange.grows hget
      have h1 : p.book key = s := by simp [Payload.book, hget]
      have h2 : bookAt (some p') key = s' := by simp [bookAt, Payload.book, hs']
      rw [h1, h2]
      exact hg

/-- The entry of a book only grows along a run. -/
theorem after_grows (file : File) (ops : List Op) (key : String) :
    Grows (bookAt file key) (bookAt ((machine inbox).after file ops) key) :=
  Machine.related (m := machine inbox) (I := fun _ => True)
    (R := fun f g => Grows (bookAt f key) (bookAt g key)) (fun _ => .refl _)
    (fun h k => h.trans k) (fun _ _ _ => trivial) (fun f op _ => next_grows inbox f op key)
    trivial ops

theorem after_hasBook (h : hasBook file key) : hasBook ((machine inbox).after file ops) key :=
  Machine.invariant (m := machine inbox) (I := fun f => hasBook f key)
    (fun _ op hf => next_hasBook inbox op hf) h ops

/-- A run without an effective call leaves the entry of the book as it is. -/
theorem after_book_unchanged {b : PositionBook} {ops : List Op}
    (h : (machine inbox).Meets (fun f op => ¬ Effective inbox b f op) file ops) :
    bookAt ((machine inbox).after file ops) b.key = bookAt file b.key := by
  induction ops generalizing file with
  | nil => rfl
  | cons op ops ih => exact (ih h.2).trans (next_book_unchanged inbox h.1)

end Runs
end TraderBot.Inbox
