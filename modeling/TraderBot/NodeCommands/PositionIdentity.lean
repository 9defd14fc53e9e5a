import TraderBot.Lib.DecimalValue
import TraderBot.Lib.OrderedDict
import TraderBot.Lib.Returns
import TraderBot.Orders.Model

/-! # Position identity

Rows of a position listing are told apart by a key text: the account, the venue
symbol and, in hedge mode, the side. A row may bring the key along. Rows under one
key are one position, with the largest quantity among them. -/
namespace TraderBot.NodeCommands
open TraderBot.Lib TraderBot.Lib.Text
open TraderBot.Orders (Failure orRaise orRaise_ok canonicalAccountId venueSymbol)

/-! ## Snapshots -/

/-- A value of the interpreter other than `None`: its truth and its `str`. -/
structure Field where
  truthy : Bool
  text : String
  deriving DecidableEq, Repr

def Field.str (s : String) : Field := ⟨decide (s ≠ ""), s⟩

def Field.int (n : Int) : Field := ⟨decide (n ≠ 0), toString n⟩

/-- A row of a listing: a dict, or an object with attributes. -/
structure Snapshot where
  mapping : Bool := true
  fields : Dict Field

namespace Snapshot

/-- `_value`. -/
def value (snapshot : Snapshot) (name : String) : Option Field := snapshot.fields.get? name

/-- `value(a) or value(b) or ...`, where a later one is true. -/
def firstTrue (snapshot : Snapshot) (names : List String) : Option Field :=
  names.findSome? fun name => (snapshot.value name).filter Field.truthy

/-- `str(value(a) or value(b) or "")`. -/
def shown (snapshot : Snapshot) (names : List String) : String :=
  ((snapshot.firstTrue names).map Field.text).getD ""

/-- `_value(snapshot, "quantity") or _value(snapshot, "qty")`. -/
def quantityField (snapshot : Snapshot) : Option Field :=
  match snapshot.firstTrue ["quantity"] with
  | some quantity => some quantity
  | none => snapshot.value "qty"

/-- The attributes `_snapshot_to_dict` copies. -/
def attributes : List String :=
  ["account_id", "position_id", "instrument_id", "venue_symbol", "symbol", "position_side",
    "position_mode", "side", "ownership", "source", "quantity", "qty"]

/-- `_snapshot_to_dict`. -/
def toDict (snapshot : Snapshot) : Dict Field :=
  if snapshot.mapping then snapshot.fields
  else
    attributes.foldl (fun data name =>
      match snapshot.value name with
      | some value => data.set name value
      | none => data) Dict.empty

end Snapshot

/-! ## Keys -/

/-- `PositionKey`. -/
structure PositionKey where
  accountId : String
  venueSymbol : String
  side : Option String := none
  deriving DecidableEq, Repr

/-- `text.split(":")`. -/
def parts (text : String) : List String := (text.toList.splitOn ':').map String.ofList

/-- `_decimal_text`: `format(value.normalize(), "f")`. -/
def decimalText : Decimal → Option String
  | .finite d => (Decimal.normalize d).map fun n => String.ofList (Decimal.fixedText n)
  | .infinity negative => some ((if negative then "-" else "") ++ "Infinity")
  | .nan negative _ payload => some (String.ofList (Decimal.nanText negative payload))

section
variable (unicode : Unicode)

/-- `PositionKey.key`. -/
def PositionKey.key (k : PositionKey) : Except Failure String := do
  let accountId ← canonicalAccountId k.accountId
  let symbol := Orders.venueSymbol unicode k.venueSymbol
  if symbol = "" then .error (.valueError "venue_symbol must not be empty")
  else
    match k.side with
    | none => return accountId ++ ":" ++ symbol
    | some side =>
      let side := unicode.lower (strip side)
      if side = "long" ∨ side = "short" then return accountId ++ ":" ++ symbol ++ ":" ++ side
      else .error (.valueError "side must be 'long' or 'short'")

/-- `_canonical_key_from_text`. -/
def canonicalKeyFromText (accountId key : String) : Except Failure String :=
  match parts key with
  | _ :: symbol :: rest => (PositionKey.mk accountId symbol rest.head?).key unicode
  | _ => .ok key

/-- `_hedge_side`. -/
def hedgeSide (snapshot : Snapshot) : Option String :=
  let mode := unicode.upper (snapshot.shown ["position_mode"])
  let rawSide := unicode.lower (snapshot.shown ["position_side", "side"])
  if mode = "HEDGE" ∧ (rawSide = "long" ∨ rawSide = "short") then some rawSide else none

/-- The account of a row, else the one of the call. -/
def accountOf (accountId : String) (snapshot : Snapshot) : String :=
  ((snapshot.firstTrue ["account_id"]).map Field.text).getD accountId

/-- The venue symbol of a row by its instrument fields. -/
def symbolOf (snapshot : Snapshot) : String :=
  venueSymbol unicode (snapshot.shown ["instrument_id", "venue_symbol", "symbol"])

def positionKeyForSnapshot (accountId : String) (snapshot : Snapshot) : Except Failure String := do
  let account ← canonicalAccountId (accountOf accountId snapshot)
  match snapshot.firstTrue ["position_key"] with
  | some explicit => canonicalKeyFromText unicode account explicit.text
  | none =>
    if symbolOf unicode snapshot = "" then .error (.valueError "position snapshot missing instrument identity")
    else (PositionKey.mk account (symbolOf unicode snapshot) (hedgeSide unicode snapshot)).key unicode

/-- `_position_id`. -/
def positionId (accountId : String) (snapshot : Snapshot) : Except Failure String :=
  match snapshot.firstTrue ["position_id", "id", "venue_position_id"] with
  | some id => .ok id.text
  | none => positionKeyForSnapshot unicode accountId snapshot

/-! ## Quantities -/

/-- `_decimal`: what is missing or no number is zero. -/
def decimal (value : Option Field) : Decimal :=
  (value.bind fun f => Decimal.ofText unicode f.text.toList).getD (.finite .zero)

/-- `abs(_decimal(...))` of the quantity. -/
def magnitude (snapshot : Snapshot) : Except Failure Decimal :=
  orRaise .decimalSignal (decimal unicode snapshot.quantityField).absolute

/-! ## Merging -/

/-- An entry of the merged listing: the row's fields, with three that are set. -/
structure MergedPosition where
  item : Dict Field
  positionKey : String
  quantity : String
  sourcePositionIds : List String

abbrev Merged := OrderedDict String MergedPosition

/-- One turn of the loop. -/
def mergeSnapshot (accountId : String) (merged : Merged) (snapshot : Snapshot) : Except Failure Merged := do
  let quantity ← magnitude unicode snapshot
  if quantity.truthy then
    let key ← positionKeyForSnapshot unicode accountId snapshot
    let text ← orRaise .decimalSignal (decimalText quantity)
    let id ← positionId unicode accountId snapshot
    let item : MergedPosition :=
      { item := snapshot.toDict, positionKey := key, quantity := text, sourcePositionIds := [id] }
    match merged.get? key with
    | none => return merged.set key item
    | some current =>
      let larger ← orRaise .decimalSignal
        (Decimal.lt? (decimal unicode (some (Field.str current.quantity))) quantity)
      let kept := if larger then item else current
      return merged.set key { kept with sourcePositionIds := current.sourcePositionIds ++ [id] }
  else return merged

def mergePositionSnapshots (accountId : String) (snapshots : List Snapshot) :
    Except Failure (List MergedPosition) := do
  let merged ← snapshots.foldlM (mergeSnapshot unicode accountId) OrderedDict.empty
  return merged.values

def residualPositions (accountId : String) (targetKeys : List String) (snapshots : List Snapshot) :
    Except Failure (List MergedPosition) := do
  let positions ← mergePositionSnapshots unicode accountId snapshots
  return positions.filter fun position => position.positionKey ∈ targetKeys

def closeBoundaryFlat (accountId : String) (targetKeys : List String) (venuePositions : List Snapshot)
    (dbPositions : Option (List Snapshot)) : Except Failure Bool := do
  let residual ← residualPositions unicode accountId targetKeys venuePositions
  if residual ≠ [] then return false
  else
    match dbPositions with
    | none => return true
    | some dbPositions =>
      let residual ← residualPositions unicode accountId targetKeys dbPositions
      return residual.isEmpty

/-! ## What a merged listing says -/

/-- A row counts under a key, with this quantity. -/
structure Reports (accountId key : String) (snapshot : Snapshot) (q : Decimal) : Prop where
  magnitude : magnitude unicode snapshot = .ok q
  live : q.truthy = true
  key : positionKeyForSnapshot unicode accountId snapshot = .ok key

/-- One quantity is not above another; a NaN is compared with a NaN only. -/
def AtMost (a b : Decimal) : Prop := a.isNaN = b.isNaN ∧ a.rank ≤ b.rank

/-- An entry stands for the rows under its key, with the largest quantity of them. -/
structure StandsFor (accountId : String) (snapshots : List Snapshot) (key : String) (e : MergedPosition) :
    Prop where
  at_key : e.positionKey = key
  largest : ∃ m, Decimal.ofText unicode e.quantity.toList = some m ∧
    (∃ row ∈ snapshots, ∃ q, Reports unicode accountId key row q ∧ AtMost m q) ∧
    ∀ row ∈ snapshots, ∀ q, Reports unicode accountId key row q → AtMost q m

variable {unicode}

theorem AtMost.refl (a : Decimal) : AtMost a a := ⟨rfl, le_rfl⟩

theorem AtMost.trans {a b c : Decimal} (hab : AtMost a b) (hbc : AtMost b c) : AtMost a c :=
  ⟨hab.1.trans hbc.1, hab.2.trans hbc.2⟩

variable (unicode) in
/-- What was written of a quantity is read back as that quantity. -/
theorem decimalText_read {x q : Decimal} {text : String} (hq : x.absolute = some q)
    (htext : decimalText q = some text) :
    ∃ m, Decimal.ofText unicode text.toList = some m ∧ AtMost m q ∧ AtMost q m := by
  have hsame : ∀ {m : Decimal}, m.isNaN = q.isNaN → m.rank = q.rank → AtMost m q ∧ AtMost q m :=
    fun hnan hrank => ⟨⟨hnan, hrank.le⟩, ⟨hnan.symm, hrank.ge⟩⟩
  cases q with
  | finite d =>
    obtain ⟨n, hn, rfl⟩ := Option.map_eq_some_iff.mp htext
    have hfixed : ∃ c e, Decimal.fix false c e = some d := by
      cases x with
      | finite x =>
        obtain ⟨r, hr, heq⟩ := Option.map_eq_some_iff.mp hq
        cases heq
        exact ⟨_, _, hr⟩
      | infinity => cases hq
      | nan negative signaling payload => cases signaling <;> cases hq
    obtain ⟨c, e, hfixed⟩ := hfixed
    obtain ⟨r, hr, hvalue⟩ := Decimal.fix_fixed hfixed
    obtain ⟨n', hn', hworth⟩ := Decimal.normalize_some hr
    rw [hn] at hn'
    cases hn'
    refine ⟨.finite n.spread, ?_, hsame rfl ?_⟩
    · rw [String.toList_ofList]
      exact Decimal.ofText_fixedText unicode n
    · show ((n.spread.value : WithTop ℚ) : WithBot (WithTop ℚ)) = _
      rw [FiniteDecimal.spread_value, hworth, hvalue]
      rfl
  | infinity negative =>
    cases htext
    refine ⟨.infinity negative, ?_, AtMost.refl _, AtMost.refl _⟩
    cases negative with
    | true =>
      rw [Decimal.ofText, Decimal.asciiText_plain (List.all_eq_true.mp rfl)]
      rfl
    | false =>
      rw [Decimal.ofText, Decimal.asciiText_plain (List.all_eq_true.mp rfl)]
      rfl
  | nan negative signaling payload =>
    cases htext
    refine ⟨.nan negative false payload, ?_, hsame rfl rfl⟩
    rw [String.toList_ofList]
    exact Decimal.ofText_nanText unicode negative payload

variable {accountId : String} {merged merged' : Merged} {row : Snapshot}
  {seen snapshots : List Snapshot} {targetKeys : List String}

/-- One turn of the loop: the row does not count, or the entry of its key is set. -/
theorem mergeSnapshot_cases (h : mergeSnapshot unicode accountId merged row = .ok merged') :
    (∃ q, magnitude unicode row = .ok q ∧ q.truthy = false ∧ merged' = merged) ∨
      ∃ q key text e, Reports unicode accountId key row q ∧ decimalText q = some text ∧
        merged' = merged.set key e ∧
        match merged.get? key with
        | none => e.positionKey = key ∧ e.quantity = text
        | some current => ∃ larger,
          Decimal.lt? (decimal unicode (some (Field.str current.quantity))) q = some larger ∧
          e.positionKey = (if larger then key else current.positionKey) ∧
          e.quantity = if larger then text else current.quantity := by
  unfold mergeSnapshot at h
  obtain ⟨q, hq, h⟩ := bind_ok h
  cases hlive : q.truthy with
  | false =>
    rw [hlive] at h
    exact .inl ⟨q, hq, hlive, (pure_ok h).symm⟩
  | true =>
    rw [hlive] at h
    obtain ⟨key, hkey, h⟩ := bind_ok h
    obtain ⟨text, htext, h⟩ := bind_ok h
    obtain ⟨id, -, h⟩ := bind_ok h
    have htext' := orRaise_ok htext
    refine .inr ⟨q, key, text, ?_⟩
    cases hcurrent : merged.get? key with
    | none =>
      rw [hcurrent] at h
      exact ⟨_, ⟨hq, hlive, hkey⟩, htext', (pure_ok h).symm, rfl, rfl⟩
    | some current =>
      rw [hcurrent] at h
      obtain ⟨larger, hlarger, h⟩ := bind_ok h
      refine ⟨_, ⟨hq, hlive, hkey⟩, htext', (pure_ok h).symm, larger, orRaise_ok hlarger, ?_, ?_⟩
      · cases larger <;> rfl
      · cases larger <;> rfl

/-- The entries stand for the rows merged so far. -/
def Tracks (unicode : Unicode) (accountId : String) (seen : List Snapshot) (merged : Merged) : Prop :=
  ∀ key, match merged.get? key with
    | none => ∀ row ∈ seen, ∀ q, ¬Reports unicode accountId key row q
    | some e => StandsFor unicode accountId seen key e

theorem Reports.unique {key key' : String} {q q' : Decimal}
    (h : Reports unicode accountId key row q) (h' : Reports unicode accountId key' row q') :
    key' = key ∧ q' = q := by
  have hkey := h.key.symm.trans h'.key
  have hq := h.magnitude.symm.trans h'.magnitude
  cases hkey
  cases hq
  exact ⟨rfl, rfl⟩

section
variable {accountId key : String} {seen : List Snapshot} {row : Snapshot}

variable {e : MergedPosition} {q : Decimal}

/-- A row that does not count under a key leaves its entry. -/
theorem StandsFor.append (h : StandsFor unicode accountId seen key e)
    (hrow : ∀ q, ¬Reports unicode accountId key row q) :
    StandsFor unicode accountId (seen ++ [row]) key e := by
  obtain ⟨m, hm, ⟨source, hsource, hmost⟩, hall⟩ := h.largest
  refine ⟨h.at_key, m, hm, ⟨source, List.mem_append_left _ hsource, hmost⟩, fun other hother q hq => ?_⟩
  rcases List.mem_append.mp hother with hother | hother
  · exact hall other hother q hq
  · rw [List.mem_singleton.mp hother] at hq
    exact absurd hq (hrow q)

/-- The first row under a key. -/
theorem StandsFor.first (hq : Reports unicode accountId key row q)
    (hseen : ∀ row ∈ seen, ∀ q, ¬Reports unicode accountId key row q)
    (htext : decimalText q = some e.quantity) (hkey : e.positionKey = key) :
    StandsFor unicode accountId (seen ++ [row]) key e := by
  obtain ⟨m, hm, hle, hge⟩ := decimalText_read unicode (orRaise_ok hq.magnitude) htext
  refine ⟨hkey, m, hm, ⟨row, by simp, q, hq, hle⟩, fun other hother q' hq' => ?_⟩
  rcases List.mem_append.mp hother with hother | hother
  · exact absurd hq' (hseen other hother q')
  · rw [List.mem_singleton.mp hother] at hq'
    rw [(hq.unique hq').2]
    exact hge

/-- A further row under a key. -/
theorem StandsFor.further {current : MergedPosition} {text : String} {larger : Bool}
    (h : StandsFor unicode accountId seen key current) (hq : Reports unicode accountId key row q)
    (htext : decimalText q = some text)
    (hlarger : Decimal.lt? (decimal unicode (some (Field.str current.quantity))) q = some larger)
    (hkey : e.positionKey = (if larger then key else current.positionKey))
    (hquantity : e.quantity = if larger then text else current.quantity) :
    StandsFor unicode accountId (seen ++ [row]) key e := by
  obtain ⟨m, hm, ⟨source, hsource, sourceQ, hsourceQ, hmost⟩, hall⟩ := h.largest
  have hread : decimal unicode (some (Field.str current.quantity)) = m := by
    show (Decimal.ofText unicode current.quantity.toList).getD _ = m
    rw [hm]
    rfl
  rw [hread] at hlarger
  obtain ⟨⟨hmnan, hqnan⟩, hlt⟩ := Decimal.lt?_iff.mp hlarger
  cases larger with
  | true =>
    obtain ⟨n, hn, hle, hge⟩ := decimalText_read unicode (orRaise_ok hq.magnitude) htext
    have hmq : AtMost m q := ⟨hmnan.trans hqnan.symm, (of_decide_eq_true hlt).le⟩
    refine ⟨hkey, n, hquantity ▸ hn, ⟨row, by simp, q, hq, hle⟩, fun other hother q' hq' => ?_⟩
    rcases List.mem_append.mp hother with hother | hother
    · exact ((hall other hother q' hq').trans hmq).trans hge
    · rw [List.mem_singleton.mp hother] at hq'
      rw [(hq.unique hq').2]
      exact hge
  | false =>
    have hqm : AtMost q m := ⟨hqnan.trans hmnan.symm, not_lt.mp (of_decide_eq_false hlt)⟩
    refine ⟨hkey.trans h.at_key, m, hquantity ▸ hm,
      ⟨source, List.mem_append_left _ hsource, sourceQ, hsourceQ, hmost⟩, fun other hother q' hq' => ?_⟩
    rcases List.mem_append.mp hother with hother | hother
    · exact hall other hother q' hq'
    · rw [List.mem_singleton.mp hother] at hq'
      rw [(hq.unique hq').2]
      exact hqm

end

theorem Tracks.step (h : Tracks unicode accountId seen merged)
    (hstep : mergeSnapshot unicode accountId merged row = .ok merged') :
    Tracks unicode accountId (seen ++ [row]) merged' := by
  -- a key the row does not count under keeps what it has
  have hother : ∀ key, (∀ q, ¬Reports unicode accountId key row q) → match merged.get? key with
      | none => ∀ other ∈ seen ++ [row], ∀ q, ¬Reports unicode accountId key other q
      | some e => StandsFor unicode accountId (seen ++ [row]) key e := by
    intro key hrow
    have hkey := h key
    cases hget : merged.get? key with
    | none =>
      rw [hget] at hkey
      intro other hmem
      rcases List.mem_append.mp hmem with hmem | hmem
      · exact hkey other hmem
      · exact List.mem_singleton.mp hmem ▸ hrow
    | some e =>
      rw [hget] at hkey
      exact StandsFor.append hkey hrow
  rcases mergeSnapshot_cases hstep with ⟨q, hq, hdead, rfl⟩ | ⟨q, key, text, e, hq, htext, rfl, hentry⟩
  · refine fun key => hother key fun q' hq' => ?_
    have hsame := hq.symm.trans hq'.magnitude
    cases hsame
    exact absurd hq'.live (by rw [hdead]; decide)
  · intro key'
    rw [OrderedDict.get?_set]
    by_cases hkey : key' = key
    · subst hkey
      rw [if_pos rfl]
      show StandsFor unicode accountId (seen ++ [row]) key' e
      have hbefore := h key'
      cases hget : merged.get? key' with
      | none =>
        rw [hget] at hbefore hentry
        obtain ⟨hat, hquantity⟩ := hentry
        exact StandsFor.first hq hbefore (hquantity ▸ htext) hat
      | some current =>
        rw [hget] at hbefore hentry
        obtain ⟨larger, hlarger, hat, hquantity⟩ := hentry
        exact StandsFor.further hbefore hq htext hlarger hat hquantity
    · rw [if_neg hkey]
      exact hother key' fun q' hq' => hkey (hq.unique hq').1

theorem tracks_of_merge (h : Tracks unicode accountId seen merged)
    (hmerge : snapshots.foldlM (mergeSnapshot unicode accountId) merged = .ok merged') :
    Tracks unicode accountId (seen ++ snapshots) merged' := by
  induction snapshots generalizing seen merged with
  | nil =>
    cases pure_ok hmerge
    rwa [List.append_nil]
  | cons row snapshots ih =>
    obtain ⟨next, hnext, hrest⟩ := bind_ok (by simpa only [List.foldlM_cons] using hmerge)
    have htracks := ih (h.step hnext) hrest
    rwa [List.append_assoc, List.singleton_append] at htracks

/-- **A merged listing has one entry for each key its rows count under**, and it stands
for those rows. -/
theorem merge_stands {positions : List MergedPosition}
    (h : mergePositionSnapshots unicode accountId snapshots = .ok positions) :
    (positions.map MergedPosition.positionKey).Nodup ∧
      (∀ e ∈ positions, StandsFor unicode accountId snapshots e.positionKey e) ∧
      ∀ row ∈ snapshots, ∀ key q, Reports unicode accountId key row q →
        key ∈ positions.map MergedPosition.positionKey := by
  obtain ⟨merged, hmerged, h⟩ := bind_ok h
  cases pure_ok h
  have hinit : Tracks unicode accountId [] OrderedDict.empty := fun _ => nofun
  have htracks : Tracks unicode accountId snapshots merged := tracks_of_merge hinit hmerged
  have hat : ∀ key e, (key, e) ∈ merged.items → StandsFor unicode accountId snapshots key e := by
    intro key e hmem
    have hkey := htracks key
    rwa [OrderedDict.mem_items.mp hmem] at hkey
  have hkeys : merged.values.map MergedPosition.positionKey = merged.keys := by
    show (merged.items.map Prod.snd).map _ = merged.items.map Prod.fst
    rw [List.map_map]
    exact List.map_congr_left fun p hp => (hat p.1 p.2 hp).at_key
  refine ⟨hkeys ▸ merged.distinct, fun e he => ?_, fun row hrow key q hq => ?_⟩
  · obtain ⟨⟨key, e⟩, hp, rfl⟩ := List.mem_map.mp he
    have hstands := hat key e hp
    rwa [← hstands.at_key] at hstands
  · rw [hkeys, OrderedDict.mem_keys]
    have hkey := htracks key
    cases hget : merged.get? key with
    | none =>
      rw [hget] at hkey
      exact absurd hq (hkey row hrow q)
    | some e => rfl

/-! ## What is left over -/

/-- The quantity of a row is missing, no number, or one the context rounds to zero. -/
def ReadsZero (unicode : Unicode) (row : Snapshot) : Prop :=
  match row.quantityField.bind fun f => Decimal.ofText unicode f.text.toList with
  | none => True
  | some (.finite d) => Decimal.roundedValue d.coeff d.exponent = 0
  | some (.infinity _) | some (.nan _ _ _) => False

theorem readsZero_of_magnitude {q : Decimal} (h : magnitude unicode row = .ok q)
    (hdead : q.truthy = false) : ReadsZero unicode row := by
  have hq := orRaise_ok h
  unfold ReadsZero
  unfold decimal at hq
  cases hread : row.quantityField.bind fun f => Decimal.ofText unicode f.text.toList with
  | none => trivial
  | some x =>
    rw [hread] at hq
    cases x with
    | finite d =>
      obtain ⟨r, hr, rfl⟩ := Option.map_eq_some_iff.mp hq
      have hzero : r.coeff = 0 := by simpa [Decimal.truthy] using hdead
      exact Decimal.roundedValue_of_fix_zero hr hzero
    | infinity negative =>
      cases hq
      cases hdead
    | nan negative signaling payload =>
      cases signaling with
      | true => cases hq
      | false =>
        cases hq
        cases hdead

/-- Where nothing is left over, every row under a target's key reads zero. -/
theorem readsZero_of_residual
    (h : residualPositions unicode accountId targetKeys snapshots = .ok []) :
    ∀ row ∈ snapshots, ∀ key ∈ targetKeys, positionKeyForSnapshot unicode accountId row = .ok key →
      ReadsZero unicode row := by
  obtain ⟨positions, hpositions, h⟩ := bind_ok h
  obtain ⟨-, -, hcounted⟩ := merge_stands hpositions
  intro row hrow key hkey hrowKey
  obtain ⟨q, hq⟩ : ∃ q, magnitude unicode row = .ok q := by
    obtain ⟨merged, hmerged, -⟩ := bind_ok hpositions
    obtain ⟨t, t', hturn⟩ := foldlM_turn hmerged row hrow
    obtain ⟨q, hq, -⟩ := bind_ok hturn
    exact ⟨q, hq⟩
  cases hlive : q.truthy with
  | false => exact readsZero_of_magnitude hq hlive
  | true =>
    obtain ⟨e, he, hat⟩ := List.mem_map.mp (hcounted row hrow key q ⟨hq, hlive, hrowKey⟩)
    have hleft : e ∈ positions.filter fun position => position.positionKey ∈ targetKeys :=
      List.mem_filter.mpr ⟨he, decide_eq_true (hat ▸ hkey)⟩
    rw [pure_ok h] at hleft
    cases hleft

/-- By its own fields, without a key text, a row is of a position: its account, its venue
symbol and, in hedge mode, its side. -/
structure OfPosition (unicode : Unicode) (accountId : String) (row : Snapshot) (k : PositionKey) : Prop where
  unnamed : row.firstTrue ["position_key"] = none
  account : canonicalAccountId (accountOf accountId row) = canonicalAccountId k.accountId
  named : symbolOf unicode row ≠ ""
  symbol : venueSymbol unicode (symbolOf unicode row) = venueSymbol unicode k.venueSymbol
  side : hedgeSide unicode row = k.side.map fun side => unicode.lower (strip side)

theorem hedgeSide_cases {side : String} (h : hedgeSide unicode row = some side) :
    (side = "long" ∨ side = "short") ∧ unicode.lower (strip side) = side := by
  unfold hedgeSide at h
  dsimp only at h
  split_ifs at h with hside
  cases h
  obtain ⟨-, hside⟩ := hside
  refine ⟨hside, ?_⟩
  rcases hside with hside | hside <;> rw [hside]
  · exact (unicode.lower_ascii (strip "long") (by decide)).trans (by decide)
  · exact (unicode.lower_ascii (strip "short") (by decide)).trans (by decide)

/-- Such a row is under the position's key. -/
theorem OfPosition.key {key : String} {k : PositionKey} (h : OfPosition unicode accountId row k)
    (hkey : k.key unicode = .ok key) : positionKeyForSnapshot unicode accountId row = .ok key := by
  unfold PositionKey.key at hkey
  obtain ⟨account, haccount, hkey⟩ := bind_ok hkey
  have hstripped : canonicalAccountId account = .ok account := by
    unfold canonicalAccountId at haccount ⊢
    split_ifs at haccount with hempty
    cases haccount
    rw [strip_strip, if_neg hempty]
  unfold positionKeyForSnapshot
  rw [h.account, haccount]
  show (match row.firstTrue ["position_key"] with
    | some explicit => canonicalKeyFromText unicode account explicit.text
    | none => if symbolOf unicode row = "" then _ else _) = _
  rw [h.unnamed]
  dsimp only
  rw [if_neg h.named]
  unfold PositionKey.key
  dsimp only
  rw [hstripped, h.symbol]
  cases hside : k.side with
  | none =>
    rw [hside] at hkey
    have hrow : hedgeSide unicode row = none := by rw [h.side, hside]; rfl
    rw [hrow]
    exact hkey
  | some side =>
    rw [hside] at hkey
    have hrow : hedgeSide unicode row = some (unicode.lower (strip side)) := by rw [h.side, hside]; rfl
    rw [hrow]
    dsimp only at hkey ⊢
    rw [(hedgeSide_cases hrow).2]
    exact hkey

/-- A listing in which the targets are gone: a row under the key of one reads zero, and so
does a row without a key text that is of its position. -/
structure Clear (unicode : Unicode) (accountId : String) (targetKeys : List String) (listing : List Snapshot) :
    Prop where
  keyed : ∀ row ∈ listing, ∀ key ∈ targetKeys, positionKeyForSnapshot unicode accountId row = .ok key →
    ReadsZero unicode row
  unnamed : ∀ row ∈ listing, ∀ k : PositionKey, ∀ key ∈ targetKeys, k.key unicode = .ok key →
    OfPosition unicode accountId row k → ReadsZero unicode row

theorem clear_of_residual {listing : List Snapshot}
    (h : residualPositions unicode accountId targetKeys listing = .ok []) :
    Clear unicode accountId targetKeys listing where
  keyed := readsZero_of_residual h
  unnamed row hrow _ key hkey hk hof := readsZero_of_residual h row hrow key hkey (hof.key hk)

theorem clear_of_boundary {venuePositions : List Snapshot} {dbPositions : Option (List Snapshot)}
    (h : closeBoundaryFlat unicode accountId targetKeys venuePositions dbPositions = .ok true) :
    Clear unicode accountId targetKeys venuePositions ∧
      ∀ listing, dbPositions = some listing → Clear unicode accountId targetKeys listing := by
  obtain ⟨residual, hresidual, h⟩ := bind_ok h
  by_cases hnil : residual = []
  · rw [if_neg (not_not.mpr hnil)] at h
    refine ⟨clear_of_residual (hnil ▸ hresidual), ?_⟩
    rintro listing rfl
    obtain ⟨residual', hresidual', h⟩ := bind_ok h
    have hnil' : residual' = [] := List.isEmpty_iff.mp (pure_ok h)
    exact clear_of_residual (hnil' ▸ hresidual')
  · rw [if_pos hnil] at h
    cases h

end
end TraderBot.NodeCommands
