import TraderBot.Lib.Machine
import TraderBot.Lib.Postgres
import TraderBot.Lib.Returns

/-! # Position revisions

A close advances the revision of its book, an account-wide close that of the
account, each once for an operation. A decision made on a snapshot of the
revisions binds only while neither has moved: `bind_captured_iff`, over every
history between the snapshot and the bind. Calls for an account are serialised by
the caller's lock, and one that raises is rolled back by the caller. -/
namespace TraderBot.Positions
open TraderBot.Lib TraderBot.Lib.Text TraderBot.Lib.Json

/-- `ValueError`, `StalePositionRevision`, and a `bigint` out of range. -/
inductive Failure where
  | valueError (message : String)
  | stale (message : String)
  | outOfRange
  deriving DecidableEq, Repr

/-! ## Books -/

inductive PositionSide where
  | long
  | short
  deriving DecidableEq, Repr

def PositionSide.text : PositionSide → String
  | .long => "LONG"
  | .short => "SHORT"

/-- `[A-Z0-9_]`. -/
def isSymbolChar (c : Char) : Bool := c.isUpper || c.isDigit || c == '_'

def isSymbol (s : String) : Bool := s.toList ≠ [] && s.toList.all isSymbolChar

/-- A book as `_book` names it and the tables check it. -/
structure Book where
  symbol : String
  side : PositionSide
  valid : isSymbol symbol = true
  deriving DecidableEq, Repr

/-- What a revision is of: the account, as the wildcard, or one book. -/
inductive Scope where
  | account
  | book (b : Book)
  deriving DecidableEq, Repr

/-- `s.removesuffix(w)`. -/
def removeSuffix (w s : String) : String :=
  if w.toList.isSuffixOf s.toList then String.ofList (s.toList.take (s.length - w.length)) else s

/-- `_book`. -/
def bookOf (unicode : Unicode) (instrumentId positionSide : String) : Except Failure Book :=
  let symbol := removeSuffix "-PERP.BINANCE" (unicode.upper (strip instrumentId))
  let side := unicode.upper (strip positionSide)
  if valid : isSymbol symbol = true then
    if side = "LONG" then .ok { symbol, side := .long, valid }
    else if side = "SHORT" then .ok { symbol, side := .short, valid }
    else .error (.valueError "position revision side must be LONG or SHORT")
  else .error (.valueError "invalid position revision instrument_id")

/-! ## Tables -/

structure RevisionRow where
  accountId : String
  scope : Scope
  revision : Nat
  deriving DecidableEq, Repr

def RevisionRow.key (row : RevisionRow) : String × Scope := (row.accountId, row.scope)

structure InvalidationRow where
  accountId : String
  operationId : String
  scope : Scope
  deriving DecidableEq, Repr

def InvalidationRow.key (row : InvalidationRow) : String × String := (row.accountId, row.operationId)

structure Tables where
  revisions : Table RevisionRow.key
  invalidations : Table InvalidationRow.key

def Tables.empty : Tables := ⟨Table.empty, Table.empty⟩

/-- The revision of a scope; one without a row is at zero. -/
def Tables.revision (t : Tables) (accountId : String) (scope : Scope) : Nat :=
  ((t.revisions.find? (accountId, scope)).map RevisionRow.revision).getD 0

/-! ## Capture and bind -/

/-- What `capture_versions` returns. -/
structure Versions where
  accountId : String
  accountRevision : Nat
  books : Dict Nat

def bookKey (b : Book) : String := b.symbol ++ "|" ++ b.side.text

def captureVersions (t : Tables) (accountId : String) : Versions :=
  (t.revisions.rows.filter fun row => row.accountId = accountId).foldl
    (fun versions row =>
      match row.scope with
      | .account => { versions with accountRevision := row.revision }
      | .book b => { versions with books := versions.books.set (bookKey b) row.revision })
    { accountId, accountRevision := 0, books := Dict.empty }

/-- The dict it is. -/
def Versions.toValue (versions : Versions) : Value :=
  .obj [("account_id", .str versions.accountId), ("account_revision", .int versions.accountRevision),
    ("books", .obj (versions.books.items.map fun (k, n) => (k, .int n)))]

structure CurrentRevision where
  accountId : String
  accountRevision : Nat := 0
  bookRevision : Nat := 0
  instrumentId : String
  positionSide : PositionSide
  deriving DecidableEq, Repr

/-- `read_current` of a book. -/
def readCurrent (t : Tables) (accountId : String) (b : Book) : CurrentRevision :=
  (t.revisions.rows.filter fun row =>
      row.accountId = accountId ∧ (row.scope = .account ∨ row.scope = .book b)).foldl
    (fun current row =>
      match row.scope with
      | .account => { current with accountRevision := row.revision }
      | .book _ => { current with bookRevision := row.revision })
    { accountId, instrumentId := b.symbol, positionSide := b.side }

/-- `type(revision) is int` and not negative. -/
def counter : Option Value → Option Nat
  | some (.int n) => if 0 ≤ n then some n.toNat else none
  | _ => none

/-- The current revisions where the snapshot, if there is one, has them. -/
def checkExpected (accountId : String) (b : Book) (current : CurrentRevision) :
    Option Value → Except Failure CurrentRevision
  | none | some .null => .ok current
  | some (.obj versions) =>
    if Dict.lookup "account_id" versions ≠ some (.str accountId) then
      .error (.stale "position revision snapshot account mismatch")
    else
      match Dict.lookup "books" versions with
      | some (.obj books) =>
        match counter (Dict.lookup "account_revision" versions),
            counter (some ((Dict.lookup (bookKey b) books).getD (.int 0))) with
        | some accountRevision, some bookRevision =>
          if accountRevision ≠ current.accountRevision ∨ bookRevision ≠ current.bookRevision then
            .error (.stale "position revision changed since snapshot")
          else .ok current
        | _, _ => .error (.stale "invalid position revision snapshot counter")
      | _ => .error (.stale "invalid position revision book snapshot")
  | some _ => .error (.stale "missing position revision snapshot")

/-- `bind_precondition`; `expected` is the snapshot, if there is one. -/
def bindPrecondition (unicode : Unicode) (t : Tables) (accountId instrumentId positionSide : String)
    (expected : Option Value) : Except Failure CurrentRevision := do
  let b ← bookOf unicode instrumentId positionSide
  checkExpected accountId b (readCurrent t accountId b) expected

/-! ## Invalidation -/

/-- The largest `bigint`. -/
def maxRevision : Nat := 2 ^ 63 - 1

/-- `_invalidate`. -/
def invalidate (t : Tables) (accountId : String) (scope : Scope) (operationId : Option String) :
    Except Failure Tables :=
  match operationId with
  | none => .error (.valueError "position revision invalidation requires operation_id")
  | some operationId =>
    if strip operationId = "" then
      .error (.valueError "position revision invalidation requires operation_id")
    else
      match t.invalidations.find? (accountId, operationId) with
      | some row =>
        if row.scope = scope then .ok t
        else .error (.valueError "position revision operation_id reused for another scope")
      | none =>
        let revision := t.revision accountId scope + 1
        if revision ≤ maxRevision then
          .ok
            { revisions := t.revisions.put { accountId, scope, revision }
              invalidations := t.invalidations.insert { accountId, operationId, scope } }
        else .error .outOfRange

def invalidateBook (unicode : Unicode) (t : Tables) (accountId instrumentId positionSide : String)
    (operationId : Option String) : Except Failure Tables := do
  let b ← bookOf unicode instrumentId positionSide
  invalidate t accountId (.book b) operationId

def invalidateAccount (t : Tables) (accountId : String) (operationId : Option String) :
    Except Failure Tables :=
  invalidate t accountId .account operationId

/-! ## Histories -/

inductive Op where
  | capture (accountId : String)
  | bind (accountId instrumentId positionSide : String) (expected : Option Value)
  | invalidateBook (accountId instrumentId positionSide : String) (operationId : Option String)
  | invalidateAccount (accountId : String) (operationId : Option String)

/-- What a call returns. -/
inductive Answer where
  | versions (versions : Versions)
  | current (current : CurrentRevision)
  | done

/-- A call that raises leaves the tables. -/
def settle (t : Tables) : Except Failure Tables → Except Failure Answer × Tables
  | .ok t' => (.ok .done, t')
  | .error failure => (.error failure, t)

def machine (unicode : Unicode) : Machine Tables Op (Except Failure Answer) where
  step t
    | .capture accountId => (.ok (.versions (captureVersions t accountId)), t)
    | .bind accountId instrumentId positionSide expected =>
      ((bindPrecondition unicode t accountId instrumentId positionSide expected).map .current, t)
    | .invalidateBook accountId instrumentId positionSide operationId =>
      settle t (invalidateBook unicode t accountId instrumentId positionSide operationId)
    | .invalidateAccount accountId operationId => settle t (invalidateAccount t accountId operationId)

/-- What an invalidation is of, and its operation. -/
def Op.target (unicode : Unicode) : Op → Option (String × Scope × Option String)
  | .capture _ | .bind _ _ _ _ => none
  | .invalidateBook accountId instrumentId positionSide operationId =>
    match bookOf unicode instrumentId positionSide with
    | .ok b => some (accountId, .book b, operationId)
    | .error _ => none
  | .invalidateAccount accountId operationId => some (accountId, .account, operationId)

/-- An invalidation of the scope that returns, under an operation the account has
not used. -/
def TakesEffect (unicode : Unicode) (t : Tables) (op : Op) (accountId : String) (scope : Scope) : Prop :=
  ∃ operationId, op.target unicode = some (accountId, scope, some operationId) ∧
    t.invalidations.find? (accountId, operationId) = none ∧
    ((machine unicode).answer t op).isOk = true

/-! ## What a snapshot holds -/

theorem bookKey_injective {b c : Book} (h : bookKey b = bookKey c) : b = c := by
  have hsymbol : ∀ d : Book, before '|' (bookKey d) = d.symbol := by
    intro d
    have hno : ∀ x ∈ d.symbol.toList, (x != '|') = true := by
      intro x hx
      have hvalid := d.valid
      simp only [isSymbol, Bool.and_eq_true, List.all_eq_true] at hvalid
      have hchar := hvalid.2 x hx
      by_contra hbar
      rw [show x = '|' by simpa using hbar] at hchar
      exact absurd hchar (by decide)
    rw [before, bookKey, String.toList_append, String.toList_append, List.append_assoc,
      List.takeWhile_append_of_pos hno]
    simp
  have hsame : b.symbol = c.symbol := by rw [← hsymbol b, h, hsymbol c]
  have hside : b.side = c.side := by
    have htext : b.side.text = c.side.text := by
      unfold bookKey at h
      rw [hsame] at h
      exact String.append_right_inj _ |>.mp h
    cases hb : b.side <;> cases hc : c.side <;> rw [hb, hc] at htext <;>
      first | rfl | exact absurd htext (by decide)
  obtain ⟨symbol, side, valid⟩ := b
  obtain ⟨symbol', side', valid'⟩ := c
  cases hsame
  cases hside
  rfl

section
variable (t : Tables) (accountId : String) (b : Book)

theorem key_eq {row : RevisionRow} {scope : Scope} :
    row.key = (accountId, scope) ↔ row.accountId = accountId ∧ row.scope = scope := Prod.mk_inj

theorem captureVersions_accountId : (captureVersions t accountId).accountId = accountId := by
  unfold captureVersions
  refine List.foldlRecOn (motive := fun v : Versions => v.accountId = accountId) _ _ rfl
    fun v hv row _ => ?_
  cases row.scope <;> exact hv

theorem captureVersions_account :
    (captureVersions t accountId).accountRevision = t.revision accountId .account := by
  refine Table.foldl_eq_find? (k := (accountId, Scope.account)) (g := Versions.accountRevision)
    (v := RevisionRow.revision) ?_ ?_ ?_ t.revisions _
  · intro row hkey
    simpa using ((key_eq accountId).mp hkey).1
  · intro s row hkey
    simp only [((key_eq accountId).mp hkey).2]
  · intro s row hrow hkey
    cases hscope : row.scope with
    | account => exact absurd ((key_eq accountId).mpr ⟨by simpa using hrow, hscope⟩) hkey
    | book b => rfl

theorem captureVersions_book :
    ((captureVersions t accountId).books.get? (bookKey b)).getD 0 = t.revision accountId (.book b) := by
  have hget : (captureVersions t accountId).books.get? (bookKey b) =
      ((t.revisions.find? (accountId, .book b)).map fun row => some row.revision).getD none := by
    refine Table.foldl_eq_find? (k := (accountId, Scope.book b))
      (g := fun v : Versions => v.books.get? (bookKey b)) (v := fun row => some row.revision) ?_ ?_ ?_
      t.revisions _
    · intro row hkey
      simpa using ((key_eq accountId).mp hkey).1
    · intro s row hkey
      simp only [((key_eq accountId).mp hkey).2]
      exact Dict.get?_set_self
    · intro s row hrow hkey
      cases hscope : row.scope with
      | account => rfl
      | book c =>
        -- another book is under another key of the dict
        refine Dict.get?_set_ne fun hc => hkey ((key_eq accountId).mpr ⟨by simpa using hrow, ?_⟩)
        rw [hscope, bookKey_injective hc]
  rw [hget, Tables.revision]
  cases t.revisions.find? (accountId, .book b) <;> rfl

theorem readCurrent_account :
    (readCurrent t accountId b).accountRevision = t.revision accountId .account := by
  refine Table.foldl_eq_find? (k := (accountId, Scope.account)) (g := CurrentRevision.accountRevision)
    (v := RevisionRow.revision) ?_ ?_ ?_ t.revisions _
  · intro row hkey
    obtain ⟨hacc, hscope⟩ := (key_eq accountId).mp hkey
    simp [hacc, hscope]
  · intro s row hkey
    simp only [((key_eq accountId).mp hkey).2]
  · intro s row hrow hkey
    obtain ⟨hacc, -⟩ : row.accountId = accountId ∧ _ := by simpa using hrow
    cases hscope : row.scope with
    | account => exact absurd ((key_eq accountId).mpr ⟨hacc, hscope⟩) hkey
    | book c => rfl

theorem readCurrent_book :
    (readCurrent t accountId b).bookRevision = t.revision accountId (.book b) := by
  refine Table.foldl_eq_find? (k := (accountId, Scope.book b)) (g := CurrentRevision.bookRevision)
    (v := RevisionRow.revision) ?_ ?_ ?_ t.revisions _
  · intro row hkey
    obtain ⟨hacc, hscope⟩ := (key_eq accountId).mp hkey
    simp [hacc, hscope]
  · intro s row hkey
    simp only [((key_eq accountId).mp hkey).2]
  · intro s row hrow hkey
    obtain ⟨hacc, hscope⟩ : row.accountId = accountId ∧ (row.scope = .account ∨ row.scope = .book b) := by
      simpa using hrow
    rcases hscope with hscope | hscope
    · simp only [hscope]
    · exact absurd ((key_eq accountId).mpr ⟨hacc, hscope⟩) hkey

end

/-- The check of a captured snapshot compares the revisions it was taken at. -/
theorem checkExpected_captured (t : Tables) (accountId : String) (b : Book) (current : CurrentRevision) :
    checkExpected accountId b current (some (captureVersions t accountId).toValue) =
      if t.revision accountId .account ≠ current.accountRevision ∨
          t.revision accountId (.book b) ≠ current.bookRevision then
        .error (.stale "position revision changed since snapshot")
      else .ok current := by
  have hcounter : ∀ n : Nat, counter (some (.int n)) = some n := by
    intro n
    simp [counter]
  have hlookup : Dict.lookup (bookKey b) ((captureVersions t accountId).books.items.map
      fun (k, n) => (k, Value.int n)) =
      ((captureVersions t accountId).books.get? (bookKey b)).map fun n : Nat => Value.int n := by
    unfold Dict.get? Dict.lookup
    rw [List.find?_map, Option.map_map, Option.map_map]
    rfl
  have hbook : counter (some ((Dict.lookup (bookKey b) ((captureVersions t accountId).books.items.map
      fun (k, n) => (k, Value.int n))).getD (.int 0))) = some (t.revision accountId (.book b)) := by
    rw [hlookup, ← captureVersions_book]
    cases (captureVersions t accountId).books.get? (bookKey b) with
    | none => exact hcounter 0
    | some n => exact hcounter n
  unfold Versions.toValue checkExpected
  simp only [Dict.lookup_cons, if_true, captureVersions_accountId, captureVersions_account, hbook,
    show ("account_id" : String) ≠ "books" by decide, show ("account_revision" : String) ≠ "books" by decide,
    show ("account_id" : String) ≠ "account_revision" by decide, if_false, hcounter, ne_eq,
    not_true_eq_false]

/-- A captured snapshot binds exactly when both revisions are as they were. -/
theorem bind_captured {unicode : Unicode} (t t' : Tables) (accountId instrumentId positionSide : String) :
    (∃ current, bindPrecondition unicode t' accountId instrumentId positionSide
      (some (captureVersions t accountId).toValue) = .ok current) ↔
    ∃ b, bookOf unicode instrumentId positionSide = .ok b ∧
      t'.revision accountId (.book b) = t.revision accountId (.book b) ∧
      t'.revision accountId .account = t.revision accountId .account := by
  unfold bindPrecondition
  cases hb : bookOf unicode instrumentId positionSide with
  | error failure =>
    constructor
    · rintro ⟨current, h⟩
      cases h
    · rintro ⟨b, h, -⟩
      cases h
  | ok b =>
    show (∃ current, checkExpected accountId b (readCurrent t' accountId b)
      (some (captureVersions t accountId).toValue) = .ok current) ↔ _
    rw [checkExpected_captured, readCurrent_account, readCurrent_book]
    constructor
    · rintro ⟨current, h⟩
      split_ifs at h with hmoved
      push Not at hmoved
      exact ⟨b, rfl, hmoved.2.symm, hmoved.1.symm⟩
    · rintro ⟨c, hc, hbook, haccount⟩
      cases hc
      exact ⟨_, if_neg (by rw [hbook, haccount]; simp)⟩

/-! ## What a call does to a revision -/

section
variable {unicode : Unicode} {t t' : Tables} {accountId : String} {scope : Scope} {op : Op}

variable {operationId : Option String}

/-- Everything an invalidation that returns can do. -/
theorem invalidate_ok (h : invalidate t accountId scope operationId = .ok t') :
    ∃ id, operationId = some id ∧
      ((∃ row, t.invalidations.find? (accountId, id) = some row ∧ row.scope = scope ∧ t' = t) ∨
        (t.invalidations.find? (accountId, id) = none ∧
          t' = ⟨t.revisions.put ⟨accountId, scope, t.revision accountId scope + 1⟩,
            t.invalidations.insert ⟨accountId, id, scope⟩⟩)) := by
  unfold invalidate at h
  cases operationId with
  | none => cases h
  | some id =>
    refine ⟨id, rfl, ?_⟩
    dsimp only at h
    by_cases hblank : strip id = ""
    · rw [if_pos hblank] at h
      cases h
    rw [if_neg hblank] at h
    cases hfound : t.invalidations.find? (accountId, id) with
    | some row =>
      rw [hfound] at h
      dsimp only at h
      split_ifs at h with hscope
      cases h
      exact .inl ⟨row, rfl, hscope, rfl⟩
    | none =>
      rw [hfound] at h
      dsimp only at h
      split_ifs at h
      cases h
      exact .inr ⟨rfl, rfl⟩

theorem revision_put {invalidations : Table InvalidationRow.key} {n : Nat} {other : String × Scope} :
    Tables.revision ⟨t.revisions.put ⟨accountId, scope, n⟩, invalidations⟩ other.1 other.2 =
      if other = (accountId, scope) then n else t.revision other.1 other.2 := by
  unfold Tables.revision
  rw [Table.find?_put]
  show ((if other = (accountId, scope) then _ else _ : Option RevisionRow).map _).getD 0 = _
  split_ifs <;> rfl

/-- A call with a target is the invalidation of it. -/
theorem step_of_target (h : op.target unicode = some (accountId, scope, operationId)) :
    (machine unicode).step t op = settle t (invalidate t accountId scope operationId) := by
  cases op with
  | capture accountId => cases h
  | bind accountId instrumentId positionSide expected => cases h
  | invalidateAccount accountId operationId =>
    cases h
    rfl
  | invalidateBook accountId instrumentId positionSide operationId =>
    show settle t (invalidateBook unicode t accountId instrumentId positionSide operationId) = _
    change (match bookOf unicode instrumentId positionSide with
      | .ok b => some (accountId, Scope.book b, operationId)
      | .error _ => none) = _ at h
    unfold invalidateBook
    cases hb : bookOf unicode instrumentId positionSide with
    | error failure =>
      rw [hb] at h
      cases h
    | ok b =>
      rw [hb] at h
      cases h
      rfl

/-- A call without one leaves the tables. -/
theorem next_of_no_target (h : op.target unicode = none) : (machine unicode).next t op = t := by
  cases op with
  | capture accountId => rfl
  | bind accountId instrumentId positionSide expected => rfl
  | invalidateAccount accountId operationId => cases h
  | invalidateBook accountId instrumentId positionSide operationId =>
    show (settle t (invalidateBook unicode t accountId instrumentId positionSide operationId)).2 = t
    change (match bookOf unicode instrumentId positionSide with
      | .ok b => some (accountId, Scope.book b, operationId)
      | .error _ => none) = _ at h
    unfold invalidateBook
    cases hb : bookOf unicode instrumentId positionSide with
    | error failure => rfl
    | ok b =>
      rw [hb] at h
      cases h

theorem answer_isOk (h : op.target unicode = some (accountId, scope, operationId)) :
    ((machine unicode).answer t op).isOk = true ↔
      ∃ t', invalidate t accountId scope operationId = .ok t' := by
  rw [Machine.answer, step_of_target h]
  cases invalidate t accountId scope operationId with
  | error failure => simp [settle, Except.isOk, Except.toBool]
  | ok t' => simp [settle, Except.isOk, Except.toBool]

/-- **A call advances a revision by one where it takes effect, and leaves it elsewhere.** -/
theorem revision_next (t : Tables) (op : Op) (accountId : String) (scope : Scope) :
    (TakesEffect unicode t op accountId scope ∧
        ((machine unicode).next t op).revision accountId scope = t.revision accountId scope + 1) ∨
      (¬ TakesEffect unicode t op accountId scope ∧
        ((machine unicode).next t op).revision accountId scope = t.revision accountId scope) := by
  cases htarget : op.target unicode with
  | none =>
    refine .inr ⟨?_, by rw [next_of_no_target htarget]⟩
    rintro ⟨id, h, -⟩
    rw [htarget] at h
    cases h
  | some target =>
    obtain ⟨accountId', scope', operationId⟩ := target
    rw [Machine.next, step_of_target htarget]
    cases hinv : invalidate t accountId' scope' operationId with
    | error failure =>
      refine .inr ⟨?_, rfl⟩
      rintro ⟨id, h, -, hok⟩
      rw [htarget] at h
      cases h
      obtain ⟨t', h⟩ := (answer_isOk htarget).mp hok
      rw [hinv] at h
      cases h
    | ok t' =>
      show _ ∧ t'.revision accountId scope = _ ∨ _ ∧ t'.revision accountId scope = _
      obtain ⟨id, rfl, ⟨row, hfound, -, rfl⟩ | ⟨hnew, rfl⟩⟩ := invalidate_ok hinv
      · refine .inr ⟨?_, rfl⟩
        rintro ⟨id', h, hnone, -⟩
        rw [htarget] at h
        cases h
        rw [hfound] at hnone
        cases hnone
      · by_cases hsame : (accountId, scope) = (accountId', scope')
        · cases hsame
          refine .inl ⟨⟨id, htarget, hnew, (answer_isOk htarget).mpr ⟨_, hinv⟩⟩, ?_⟩
          have hput := @revision_put t accountId scope
            (t.invalidations.insert ⟨accountId, id, scope⟩) (t.revision accountId scope + 1) (accountId, scope)
          rwa [if_pos rfl] at hput
        · refine .inr ⟨?_, ?_⟩
          · rintro ⟨id', h, -⟩
            rw [htarget] at h
            cases h
            exact hsame rfl
          · have hput := @revision_put t accountId' scope'
              (t.invalidations.insert ⟨accountId', id, scope'⟩) (t.revision accountId' scope' + 1)
              (accountId, scope)
            rwa [if_neg hsame] at hput

/-- Revisions only grow, and stay over a run exactly when nothing in it took effect. -/
theorem revision_after (t : Tables) (ops : List Op) (accountId : String) (scope : Scope) :
    t.revision accountId scope ≤ ((machine unicode).after t ops).revision accountId scope ∧
      (((machine unicode).after t ops).revision accountId scope = t.revision accountId scope ↔
        (machine unicode).Meets (fun t op => ¬ TakesEffect unicode t op accountId scope) t ops) := by
  induction ops generalizing t with
  | nil => exact ⟨le_rfl, by simp [Machine.Meets]⟩
  | cons op ops ih =>
    obtain ⟨hle, hiff⟩ := ih ((machine unicode).next t op)
    rw [Machine.after_cons, Machine.Meets]
    rcases @revision_next unicode t op accountId scope with ⟨heffect, hnext⟩ | ⟨hnone, hnext⟩
    · refine ⟨by omega, ⟨fun h => ?_, fun h => absurd heffect h.1⟩⟩
      omega
    · rw [← hiff, hnext]
      exact ⟨by omega, by simp [hnone]⟩

end

/-- **Fencing.** After any history since the capture, a captured snapshot binds a
book exactly when no invalidation of the book or of the account took effect. An
operation used again for its scope does nothing, for another one it raises; the
tables stay in both cases. -/
theorem bind_captured_iff (unicode : Unicode) (t : Tables) (history : List Op)
    (accountId instrumentId positionSide : String) :
    ((∃ current, bindPrecondition unicode ((machine unicode).after t history) accountId instrumentId
        positionSide (some (captureVersions t accountId).toValue) = .ok current) ↔
      ∃ b, bookOf unicode instrumentId positionSide = .ok b ∧
        (machine unicode).Meets (fun t op => ¬ TakesEffect unicode t op accountId (.book b) ∧
          ¬ TakesEffect unicode t op accountId .account) t history) ∧
    ∀ op scope operationId row, op.target unicode = some (accountId, scope, some operationId) →
      strip operationId ≠ "" →
      ((machine unicode).after t history).invalidations.find? (accountId, operationId) = some row →
      (machine unicode).next ((machine unicode).after t history) op = (machine unicode).after t history ∧
        (((machine unicode).answer ((machine unicode).after t history) op).isOk = true ↔
          row.scope = scope) := by
  constructor
  · rw [bind_captured]
    refine exists_congr fun b => and_congr_right fun _ => ?_
    rw [Machine.meets_and, (revision_after t history accountId (.book b)).2,
      (revision_after t history accountId .account).2]
  · intro op scope operationId row htarget hid hrow
    set now := (machine unicode).after t history
    have hinv : invalidate now accountId scope (some operationId) =
        if row.scope = scope then .ok now
        else .error (.valueError "position revision operation_id reused for another scope") := by
      unfold invalidate
      simp only [if_neg hid, hrow]
    rw [answer_isOk htarget, Machine.next, step_of_target htarget, hinv]
    split_ifs with hscope
    · exact ⟨rfl, by simp [hscope]⟩
    · exact ⟨rfl, by simp [hscope]⟩

end TraderBot.Positions
