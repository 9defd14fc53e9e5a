import TraderBot.Venue.Evidence

/-! # The exchange mirror as the control plane reads it

`open_books_from_mirror_payload` lists the open books of a mirrored snapshot. It
reads the rows the ledger of the node reads, takes the first row of a book where
the ledger adds rows up, knows the amount under other names and cuts a symbol at
its first dot or dash. -/
namespace TraderBot.Venue
open TraderBot.Lib TraderBot.Lib.Text TraderBot.Lib.Json TraderBot.Lib.Keyed
open TraderBot.Lib.Decimal (InContext limit)

structure MirrorBook where
  accountId : String
  instrumentId : Option String
  instrumentSymbol : String
  side : PositionSide
  positionId : Option String
  quantity : String
  entryPrice : Option Value
  markPrice : Option Value
  unrealizedPnl : Option Value
  leverage : Option Value

/-- What a book is known by; the account is the same throughout. -/
def MirrorBook.key (book : MirrorBook) : LookupKey := (book.instrumentSymbol, some book.side)

section
variable (py : Interpreter)

def canonicalInstrumentKey (raw : String) : String :=
  py.unicode.upper (strip (before '-' (before '.' (strip raw))))

/-- `_signed_decimal`; only a text can be blank. -/
def signedDecimal (v : Option Value) : FiniteDecimal :=
  match v with
  | some (.str s) => if strip s = "" then .zero else (toDecimal py (some (.str s))).getD .zero
  | v => (toDecimal py v).getD .zero

def hedgeBook (side : String) (quantity : FiniteDecimal) : Option PositionSide :=
  match normalizeSide py side with
  | some side => some side
  | none =>
    if quantity.isPositive then some .long
    else if quantity.isNegative then some .short
    else none

def nautilusInstrumentId (raw : String) : Option String :=
  let text := strip raw
  if text = "" then none
  else if '.' ∈ text.toList then some text
  else
    let symbol := canonicalInstrumentKey py text
    if symbol = "" then none else some (symbol ++ "-PERP.BINANCE")

def canonicalPositionId (instrument : Option String) (side : PositionSide) : Option String :=
  (instrument.bind (nautilusInstrumentId py)).map fun id => id ++ "-" ++ side.text

/-- `_abs_text`; `none` raises. -/
def absText (d : FiniteDecimal) : Option String := do
  let size ← absolute d
  return String.ofList (Decimal.fixedText (← Decimal.normalize size))

/-- What is read of a row: symbol, book and signed amount. -/
def mirrorRow (raw : Value) : Option (LookupKey × FiniteDecimal) :=
  match raw with
  | .obj _ => do
    let quantity := signedDecimal py (match present (raw.get? "position_amt") with
      | some amount => some amount
      | none => orElse (raw.get? "quantity") (raw.get? "qty"))
    let book ← hedgeBook py (py.textOf (orElse (raw.get? "position_side")
      (orElse (raw.get? "positionSide") (raw.get? "side")))) quantity
    let symbol := canonicalInstrumentKey py
      (py.textOf (orElse (raw.get? "symbol") (raw.get? "instrument_id")))
    if symbol = "" ∨ quantity.coeff = 0 then none else return ((symbol, some book), quantity)
  | _ => none

/-- The book of a row that is read; `none` raises. -/
def mirrorBook (accountId : String) (raw : Value) (key : LookupKey) (quantity : FiniteDecimal) :
    Option MirrorBook := do
  let side := key.2.getD .long
  let instrumentId := nautilusInstrumentId py key.1
  return {
    accountId, instrumentId, side
    instrumentSymbol := key.1
    positionId := canonicalPositionId py instrumentId side
    quantity := ← absText quantity
    entryPrice := orElse (raw.get? "entry_price") (raw.get? "entryPrice")
    markPrice := orElse (raw.get? "mark_price") (raw.get? "markPrice")
    unrealizedPnl := orElse (raw.get? "unrealized_pnl") (raw.get? "unRealizedProfit")
    leverage := raw.get? "leverage" }

/-- A row of a book that was seen is passed over. -/
def addBook (accountId : String) (books : List MirrorBook) (raw : Value) : Option (List MirrorBook) :=
  match mirrorRow py raw with
  | none => some books
  | some (key, quantity) =>
    if key ∈ books.map MirrorBook.key then some books
    else do return books ++ [← mirrorBook py accountId raw key quantity]

/-- What the loop runs over: a text or a dict has items, and none is a row; a
number is not iterable. -/
def mirrorRows (payload : Option Value) : Option (List Value) :=
  match payload with
  | some (.obj members) =>
    match (Value.obj members).get? "positions" with
    | some (.arr rows) => some rows
    | some (.int n) => if n = 0 then some [] else none
    | some (.float x) => if (Value.float x).truthy then none else some []
    | some (.bool b) => if b then none else some []
    | some .null | some (.str _) | some (.obj _) | none => some []
  | _ => some []

/-- `open_books_from_mirror_payload`; `none` raises. -/
def openBooksFromMirrorPayload (accountId : String) (payload : Option Value) :
    Option (List MirrorBook) := do
  (← mirrorRows payload).foldlM (addBook py accountId) []

end

/-! ## Rows both sides read alike -/

/-- A text that reads as a number. -/
def Reads (py : Interpreter) (text : String) (x : ℚ) : Prop :=
  ∃ d, Decimal.ofText py.unicode text.toList = some (.finite d) ∧ d.value = x

/-- A symbol the exchange writes, an amount under the name both sides know, and a
side of hedge mode or `BOTH`. -/
structure NativeRow (row : Value) : Prop where
  symbol : ∃ s, row.get? "symbol" = some (.str s) ∧ strip s ≠ "" ∧ '.' ∉ s.toList ∧ '-' ∉ s.toList
  amount : (present (row.get? "position_amt")).isSome
  side : ∃ s ∈ ["LONG", "SHORT", "BOTH"], row.get? "position_side" = some (.str s) ∨
    present (row.get? "position_side") = none ∧ row.get? "positionSide" = some (.str s)

section
variable {py : Interpreter} {e : Int} {row : Value}

/-- A symbol with no dot and no dash is not cut. -/
theorem canonicalInstrumentKey_native {s : String} (hdot : '.' ∉ s.toList) (hdash : '-' ∉ s.toList) :
    canonicalInstrumentKey py s = py.unicode.upper (strip s) := by
  have hmem : ∀ c, c ∉ s.toList → c ∉ (strip s).toList := by
    intro c hc hin
    rw [strip, String.toList_ofList] at hin
    exact hc (mem_of_mem_stripWhere hin)
  unfold canonicalInstrumentKey
  rw [before_of_not_mem (hmem _ hdot), before_of_not_mem (hmem _ hdash), strip_strip]

theorem normalizeSide_side (py : Interpreter) :
    normalizeSide py "LONG" = some .long ∧ normalizeSide py "SHORT" = some .short ∧
      normalizeSide py "BOTH" = none := by
  have hstrip : strip "LONG" = "LONG" ∧ strip "SHORT" = "SHORT" ∧ strip "BOTH" = "BOTH" := by
    decide +kernel
  have hupper : ∀ s, isAscii s = true → s.toList.map Char.toUpper = s.toList → py.unicode.upper s = s := by
    intro s hascii hsame
    rw [py.unicode.upper_ascii s hascii, hsame]
    exact String.ofList_toList
  unfold normalizeSide
  rw [hstrip.1, hstrip.2.1, hstrip.2.2, hupper "LONG" (by decide +kernel) (by decide +kernel),
    hupper "SHORT" (by decide +kernel) (by decide +kernel),
    hupper "BOTH" (by decide +kernel) (by decide +kernel)]
  decide +kernel

/-- A blank text is no number, so asking for it first changes nothing. -/
theorem signedDecimal_eq (v : Option Value) : signedDecimal py v = (toDecimal py v).getD .zero := by
  match v with
  | some (.str s) =>
    unfold signedDecimal
    dsimp only
    split_ifs with hblank
    · have hempty : stripWhere isSpace s.toList = [] := by
        simpa [strip] using congrArg String.toList hblank
      have hnone : Decimal.ofText py.unicode s.toList = none := by
        unfold Decimal.ofText Decimal.asciiText
        rw [hempty]
        rfl
      show _ = (toDecimal py (some (.str s))).getD .zero
      simp only [toDecimal, Option.bind_some, Decimal.ofValue, hnone, Option.getD_none]
    · rfl
  | none | some .null | some (.bool _) | some (.int _) | some (.float _) | some (.arr _) | some (.obj _) => rfl

theorem NativeRow.symbol_text (py : Interpreter) (h : NativeRow row) (other : Option Value) :
    ∃ s, py.textOf (row.get? "symbol") = s ∧ py.textOf (orElse (row.get? "symbol") other) = s ∧
      canonicalInstrumentKey py s = py.unicode.upper (strip s) := by
  obtain ⟨s, hs, hstrip, hdot, hdash⟩ := h.symbol
  have hne : s ≠ "" := by
    intro hempty
    rw [hempty] at hstrip
    exact hstrip (by decide +kernel)
  have htruthy : (Value.str s).truthy = true := by simp [Value.truthy, hne]
  refine ⟨s, ?_, ?_, canonicalInstrumentKey_native hdot hdash⟩
  · simp only [hs, Interpreter.textOf, htruthy, if_true, py.str_str]
  · simp only [hs, orElse, Interpreter.textOf, htruthy, if_true, py.str_str]

theorem NativeRow.side_text (py : Interpreter) (h : NativeRow row) (other : Option Value) :
    ∃ s ∈ ["LONG", "SHORT", "BOTH"],
      py.textOf ((present (row.get? "position_side")).or (row.get? "positionSide")) = s ∧
      py.textOf (orElse (row.get? "position_side") (orElse (row.get? "positionSide") other)) = s := by
  obtain ⟨s, hs, hraw⟩ := h.side
  have htruthy : (Value.str s).truthy = true := by
    simp only [List.mem_cons, List.not_mem_nil, or_false] at hs
    obtain rfl | rfl | rfl := hs <;> decide
  refine ⟨s, hs, ?_⟩
  rcases hraw with hraw | ⟨habsent, hraw⟩
  · simp only [hraw, present, orElse, Option.some_or, Interpreter.textOf, htruthy, if_true, py.str_str,
      and_self]
  · have hfirst : ∀ b, orElse (row.get? "position_side") b = b := by
      intro b
      unfold present at habsent
      split at habsent
      · rename_i hnull
        rw [hnull]
        rfl
      · rw [habsent]
        rfl
    rw [hfirst, habsent, hraw]
    simp only [orElse, Option.none_or, Interpreter.textOf, htruthy, if_true, py.str_str, and_self]

/-- The side of a row is the one it names, or the sign's. -/
theorem hedgeBook_native {s : String} (hs : s ∈ ["LONG", "SHORT", "BOTH"]) {q : FiniteDecimal}
    (hq : q.coeff ≠ 0) : hedgeBook py s q =
      some ((normalizeSide py s).getD (if q.isPositive then .long else .short)) := by
  obtain ⟨hlong, hshort, hboth⟩ := normalizeSide_side py
  simp only [List.mem_cons, List.not_mem_nil, or_false] at hs
  unfold hedgeBook
  obtain rfl | rfl | rfl := hs
  · rw [hlong]
    rfl
  · rw [hshort]
    rfl
  · rw [hboth]
    cases hsign : q.negative <;> simp [FiniteDecimal.isPositive, FiniteDecimal.isNegative, hsign, hq]

/-- **A native row reads the same on both sides.** -/
theorem NativeRow.mirrorRow_eq (py : Interpreter) (h : NativeRow row) : mirrorRow py row = venueRow py row := by
  obtain ⟨amount, hamount⟩ := Option.isSome_iff_exists.mp h.amount
  cases row with
  | obj members =>
    obtain ⟨symbol, hvenue, hmirror, hkey⟩ := h.symbol_text py ((Value.obj members).get? "instrument_id")
    obtain ⟨side, hside, hvenueSide, hmirrorSide⟩ := h.side_text py ((Value.obj members).get? "side")
    unfold mirrorRow venueRow
    dsimp only
    rw [hamount, hvenue, hmirror, hkey, hvenueSide, hmirrorSide, Option.some_or, signedDecimal_eq]
    dsimp only
    cases hread : toDecimal py (some amount) with
    | none =>
      rw [Option.getD_none]
      by_cases hsymbol : py.unicode.upper (strip symbol) = ""
      · rw [if_pos hsymbol]
        cases hedgeBook py side .zero with
        | none => rfl
        | some book => exact if_pos (.inl hsymbol)
      · rw [if_neg hsymbol]
        cases hedgeBook py side .zero with
        | none => rfl
        | some book => exact if_pos (.inr rfl)
    | some q =>
      rw [Option.getD_some]
      by_cases hsymbol : py.unicode.upper (strip symbol) = ""
      · rw [if_pos hsymbol]
        cases hedgeBook py side q with
        | none => rfl
        | some book => exact if_pos (.inl hsymbol)
      · rw [if_neg hsymbol]
        by_cases hq : q.coeff = 0
        · show _ = (if q.coeff = 0 then none else _)
          rw [if_pos hq]
          cases hedgeBook py side q with
          | none => rfl
          | some book => exact if_pos (.inr hq)
        · show _ = (if q.coeff = 0 then none else _)
          rw [if_neg hq, hedgeBook_native hside hq]
          exact if_neg (not_or.mpr ⟨hsymbol, hq⟩)
  | _ => rfl

/-- What a number is written as reads as the number. -/
theorem absText_reads (py : Interpreter) {q : FiniteDecimal} (he : InContext e)
    (hplace : e ≤ q.exponent) (hsize : |q.value| < limit e) (hpos : 0 < q.coeff) :
    ∃ text, absText q = some text ∧ Reads py text |q.value| := by
  have habs := absolute_eq he hplace hsize hpos
  have hmagnitude : Decimal.fix q.magnitude.negative q.magnitude.coeff q.magnitude.exponent =
      some q.magnitude := habs
  obtain ⟨n, hn, hvalue⟩ := Decimal.normalize_some hmagnitude
  refine ⟨String.ofList (Decimal.fixedText n), ?_, n.spread, ?_, ?_⟩
  · rw [absText, habs]
    show (Decimal.normalize q.magnitude).bind _ = _
    rw [hn]
    rfl
  · rw [String.toList_ofList]
    exact Decimal.ofText_fixedText py.unicode n
  · rw [FiniteDecimal.spread_value, hvalue, FiniteDecimal.magnitude_value]

theorem mirrorBook_some {accountId : String} {symbol : String} {side : PositionSide} {q : FiniteDecimal}
    {text : String} (h : absText q = some text) :
    ∃ b, mirrorBook py accountId row (symbol, some side) q = some b ∧ b.key = (symbol, some side) ∧
      b.quantity = text := by
  unfold mirrorBook
  rw [h]
  exact ⟨_, rfl, rfl, rfl⟩

/-- The books of the rows so far: one for each key, with the size of its first row. -/
structure Opened (py : Interpreter) (rows : List (LookupKey × FiniteDecimal)) (books : List MirrorBook) :
    Prop where
  distinct : (books.map MirrorBook.key).Nodup
  keys : ∀ key, key ∈ books.map MirrorBook.key ↔ under key rows ≠ []
  sizes : ∀ b ∈ books, ∃ first rest, under b.key rows = first :: rest ∧ Reads py b.quantity |first.value|

variable {rows : List (LookupKey × FiniteDecimal)} {books : List MirrorBook}

theorem Opened.nil (py : Interpreter) : Opened py [] [] where
  distinct := List.nodup_nil
  keys key := by simp [under]
  sizes := by simp

/-- **One row.** -/
theorem Opened.addBook (accountId : String) (h : Opened py rows books) (he : InContext e) {symbol : String}
    {side : PositionSide} {q : FiniteDecimal}
    (hread : mirrorRow py row = some ((symbol, some side), q)) (hplace : e ≤ q.exponent)
    (hsize : |q.value| < limit e) (hpos : 0 < q.coeff) :
    ∃ books', Venue.addBook py accountId books row = some books' ∧
      Opened py (rows ++ [((symbol, some side), q)]) books' := by
  set key : LookupKey := (symbol, some side) with hkeydef
  have hother : ∀ key', key' ≠ key → under key' (rows ++ [(key, q)]) = under key' rows := by
    intro key' hne
    rw [under_append, under_cons_ne q [] (Ne.symm hne)]
    exact List.append_nil _
  unfold Venue.addBook
  rw [hread]
  dsimp only
  by_cases hseen : key ∈ books.map MirrorBook.key
  · rw [if_pos hseen]
    refine ⟨books, rfl, h.distinct, fun key' => ?_, fun b hb => ?_⟩
    · by_cases hkey : key' = key
      · have hsome := (h.keys key).mp hseen
        rw [hkey, under_append]
        simp [hseen, hsome]
      · rw [h.keys, hother key' hkey]
    · obtain ⟨first, rest, hunder, hreads⟩ := h.sizes b hb
      exact ⟨first, rest ++ under b.key [(key, q)], by rw [under_append, hunder, List.cons_append], hreads⟩
  · rw [if_neg hseen]
    obtain ⟨text, htext, hreads⟩ := absText_reads py he hplace hsize hpos
    obtain ⟨new, hnew, hnewkey, hquantity⟩ :=
      @mirrorBook_some py row accountId symbol side q text htext
    rw [← hkeydef] at hnewkey
    have hnone : under key rows = [] := by
      simpa using fun hsome => hseen ((h.keys key).mpr hsome)
    have hself : under key (rows ++ [(key, q)]) = [q] := by
      rw [under_append, hnone, under_cons_self]
      rfl
    refine ⟨books ++ [new], by rw [hnew]; rfl, ?_, fun key' => ?_, fun b hb => ?_⟩
    · rw [List.map_append, List.map_singleton, hnewkey]
      rw [← List.concat_eq_append]
      exact h.distinct.concat hseen
    · rw [List.map_append, List.map_singleton, hnewkey, List.mem_append, List.mem_singleton, h.keys]
      by_cases hkey : key' = key
      · rw [hkey, hself]
        simp
      · rw [hother key' hkey]
        simp [hkey]
    · rcases List.mem_append.mp hb with hold | hlast
      · obtain ⟨first, rest, hunder, hfirst⟩ := h.sizes b hold
        have hne : b.key ≠ key := by
          intro heq
          exact hseen (heq ▸ List.mem_map_of_mem hold)
        exact ⟨first, rest, by rw [hother _ hne, hunder], hfirst⟩
      · rw [List.mem_singleton.mp hlast, hnewkey, hquantity]
        exact ⟨q, [], hself, hreads⟩

theorem venueRow_side {r : LookupKey × FiniteDecimal} (h : venueRow py row = some r) :
    ∃ symbol side, r.1 = (symbol, some side) := by
  unfold venueRow at h
  split at h
  · dsimp only at h
    split_ifs at h
    obtain ⟨q, -, h⟩ := Option.bind_eq_some_iff.mp h
    by_cases hzero : q.coeff = 0
    · rw [if_pos hzero] at h
      cases h
    · rw [if_neg hzero] at h
      cases h
      exact ⟨_, _, rfl⟩
  · cases h

/-- **All rows.** -/
theorem Opened.run (accountId : String) (h : Opened py rows books) (he : InContext e) {l : List Value}
    (hnative : ∀ row ∈ l, NativeRow row)
    (hfits : ∀ row ∈ l, ∀ r, venueRow py row = some r → e ≤ r.2.exponent ∧ |r.2.value| < limit e) :
    ∃ books', l.foldlM (Venue.addBook py accountId) books = some books' ∧
      Opened py (rows ++ l.filterMap (venueRow py)) books' := by
  induction l generalizing rows books with
  | nil => exact ⟨books, rfl, by simpa using h⟩
  | cons row l ih =>
    have hrow := (hnative row List.mem_cons_self).mirrorRow_eq py
    have hrest := fun rows' books' (h' : Opened py rows' books') => ih h'
      (fun x hx => hnative x (List.mem_cons_of_mem _ hx)) (fun x hx => hfits x (List.mem_cons_of_mem _ hx))
    rw [List.foldlM_cons]
    cases hread : venueRow py row with
    | none =>
      have hskip : Venue.addBook py accountId books row = some books := by
        unfold Venue.addBook
        rw [hrow, hread]
      rw [hskip, List.filterMap_cons_none hread]
      exact hrest _ _ h
    | some r =>
      obtain ⟨symbol, side, hkey⟩ := venueRow_side hread
      obtain ⟨hplace, hsize⟩ := hfits row List.mem_cons_self r hread
      have hr : r = ((symbol, some side), r.2) := Prod.ext hkey rfl
      obtain ⟨books', hadd, hopened⟩ := h.addBook accountId he
        (by rw [hrow, hread, ← hr]) hplace hsize (venueRow_pos hread)
      rw [hadd, List.filterMap_cons_some hread]
      obtain ⟨final, hfinal, hall⟩ := hrest _ _ hopened
      refine ⟨final, hfinal, ?_⟩
      rw [← hr] at hall
      simpa using hall

/-- A list on one side is a list on the other. -/
theorem mirrorRows_eq {payload : Value} {l : List Value} (h : mirrorRows (some payload) = some l) :
    l = positionRows payload := by
  cases payload with
  | obj members =>
    unfold mirrorRows positionRows at *
    dsimp only at h
    split at h <;> rename_i hget <;> rw [hget]
    · exact (Option.some.inj h).symm
    · split_ifs at h
      exact (Option.some.inj h).symm
    · split_ifs at h
      exact (Option.some.inj h).symm
    · split_ifs at h
      exact (Option.some.inj h).symm
    all_goals exact (Option.some.inj h).symm
  | _ => exact (Option.some.inj h).symm

theorem Reads.unique {text : String} {x y : ℚ} (hx : Reads py text x) (hy : Reads py text y) : x = y := by
  obtain ⟨c, hc, rfl⟩ := hx
  obtain ⟨d, hd, rfl⟩ := hy
  rw [hc] at hd
  cases hd
  rfl

/-- **Two readings of one mirror.** Over rows as the exchange writes them the
open books are the keys with a total, each once. A book has the size of its first
row, its total the sum of its rows, and the two are one number just where there
is one row. -/
theorem openBooks_agree (accountId : String) {payload : Value} {l : List Value}
    (hrows : mirrorRows (some payload) = some l) (hnative : ∀ row ∈ l, NativeRow row)
    (hfit : FittingRows e (l.filterMap (venueRow py))) :
    ∃ books totals, openBooksFromMirrorPayload py accountId (some payload) = some books ∧
      quantities ((positionRows payload).filterMap (venueRow py)) = some totals ∧
      (books.map MirrorBook.key).Nodup ∧
      (∀ key, key ∈ books.map MirrorBook.key ↔ (totals key).coeff ≠ 0) ∧
      ∀ b ∈ books, ∃ first rest, under b.key (l.filterMap (venueRow py)) = first :: rest ∧
        Reads py b.quantity |first.value| ∧ (Reads py b.quantity (totals b.key).value ↔ rest = []) := by
  have hpos : ∀ r ∈ l.filterMap (venueRow py), 0 < r.2.coeff := by
    intro r hr
    obtain ⟨row, -, hrow⟩ := List.mem_filterMap.mp hr
    exact venueRow_pos hrow
  have hfits : ∀ row ∈ l, ∀ r, venueRow py row = some r → e ≤ r.2.exponent ∧ |r.2.value| < limit e := by
    intro row hrow r hread
    have hmem : r.2 ∈ under r.1 (l.filterMap (venueRow py)) :=
      mem_under.mpr (List.mem_filterMap.mpr ⟨row, hrow, hread⟩)
    obtain ⟨hplace, hsize, -⟩ := hfit.row hpos hmem
    exact ⟨hplace, hsize⟩
  obtain ⟨books, hbooks, hopened⟩ := (Opened.nil py).run accountId hfit.context hnative hfits
  rw [List.nil_append] at hopened
  obtain ⟨totals, htotals, hsums, -⟩ := hfit.quantities hpos
  refine ⟨books, totals, ?_, by rw [← mirrorRows_eq hrows, htotals], hopened.distinct, fun key => ?_,
    fun b hb => ?_⟩
  · rw [openBooksFromMirrorPayload, hrows]
    exact hbooks
  · rw [hopened.keys, ← not_iff_not, not_not, not_not]
    exact coeff_zero_iff hpos (hsums key)
  · obtain ⟨first, rest, hunder, hreads⟩ := hopened.sizes b hb
    refine ⟨first, rest, hunder, hreads, ?_⟩
    have htotal : (totals b.key).value = |first.value| + (rest.map fun q => |q.value|).sum := by
      rw [hsums, bookSum, hunder, List.map_cons, List.sum_cons]
    rw [htotal]
    constructor
    · intro hboth
      have hsum : (rest.map fun q => |q.value|).sum = 0 := by
        have hsame := hreads.unique hboth
        linarith
      by_contra hne
      obtain ⟨q, hq⟩ := List.exists_mem_of_ne_nil rest hne
      have hmem : (b.key, q) ∈ l.filterMap (venueRow py) :=
        mem_under.mp (by rw [hunder]; exact List.mem_cons_of_mem _ hq)
      have hle : |q.value| ≤ 0 := by
        rw [← hsum]
        exact le_sizes hq
      exact absurd (size_pos (hpos _ hmem)) (not_lt.mpr hle)
    · rintro rfl
      simpa using hreads

end

/-! ## Some rows -/

def mirrorOf (rows : List Value) : Value := .obj [("positions", .arr rows)]

/-- Key and quantity text of each open book. -/
def booksOf (rows : List Value) : Option (List (LookupKey × String)) :=
  (openBooksFromMirrorPayload ascii "account" (some (mirrorOf rows))).map
    (·.map fun b => (b.key, b.quantity))

/-- The text of the total of a key. -/
def totalOf (rows : List Value) (key : LookupKey) : Option String :=
  (quantities ((positionRows (mirrorOf rows)).filterMap (venueRow ascii))).map
    fun totals => decimalText (lookup totals key)

def longKey : LookupKey := ("BTCUSDT", some .long)

theorem amountRow_native (amount : String) : NativeRow (amountRow amount) where
  symbol := ⟨"BTCUSDT", rfl, by decide +kernel⟩
  amount := rfl
  side := ⟨"LONG", List.mem_cons_self, .inl rfl⟩

/-- One row of 1.5. -/
theorem openBooks_agree_oneRow :
    ∃ b totals, openBooksFromMirrorPayload ascii "account" (some (mirrorOf [amountRow "1.5"])) = some [b] ∧
      quantities ((positionRows (mirrorOf [amountRow "1.5"])).filterMap (venueRow ascii)) = some totals ∧
      b.key = longKey ∧ Reads ascii b.quantity (totals longKey).value := by
  have hnative : ∀ row ∈ [amountRow "1.5"], NativeRow row := by
    intro row hrow
    rw [List.mem_singleton.mp hrow]
    exact amountRow_native "1.5"
  have hrows : mirrorRows (some (mirrorOf [amountRow "1.5"])) = some [amountRow "1.5"] := rfl
  have hfit : FittingRows (-1) ([amountRow "1.5"].filterMap (venueRow ascii)) := oneRow_fitting.venue
  obtain ⟨books, totals, hbooks, htotals, -, -, hsizes⟩ := openBooks_agree "account" hrows hnative hfit
  have hone : booksOf [amountRow "1.5"] = some [(longKey, "1.5")] := by decide +kernel
  rw [booksOf, hbooks, Option.map_some] at hone
  obtain ⟨b, rfl, hb⟩ := List.map_eq_singleton_iff.mp (Option.some.inj hone)
  have hkey : b.key = longKey := congrArg Prod.fst hb
  obtain ⟨first, rest, hunder, -, hagree⟩ := hsizes b List.mem_cons_self
  rw [hkey] at hunder hagree
  have hrest : rest = [] := by
    have hlength : (first :: rest).length = 1 := by rw [← hunder]; decide +kernel
    simpa using hlength
  exact ⟨b, totals, hbooks, htotals, hkey, hagree.mpr hrest⟩

/-- A row of 1 under other names. -/
def namedRow (amountName sideName symbol : String) : Value :=
  .obj [(amountName, .str "1"), (sideName, .str "LONG"), ("symbol", .str symbol)]

/-- Two rows of one book, an amount under the exchange's own name, and a symbol
with a suffix. -/
theorem openBooks_apart :
    (booksOf [amountRow "1", amountRow "2"] = some [(longKey, "1")] ∧
        totalOf [amountRow "1", amountRow "2"] longKey = some "3") ∧
      (booksOf [namedRow "positionAmt" "positionSide" "BTCUSDT"] = some [] ∧
        totalOf [namedRow "positionAmt" "positionSide" "BTCUSDT"] longKey = some "1") ∧
      booksOf [namedRow "position_amt" "position_side" "BTCUSDT-PERP"] = some [(longKey, "1")] ∧
        totalOf [namedRow "position_amt" "position_side" "BTCUSDT-PERP"] longKey = some "0" := by
  refine ⟨⟨?_, ?_⟩, ⟨?_, ?_⟩, ?_, ?_⟩ <;> decide +kernel

end TraderBot.Venue
