import TraderBot.Lib.DateTime
import TraderBot.Lib.Keyed
import TraderBot.Lib.Postgres

/-! # The account execution ledger

`ReconciledExecutionState` holds, for each book, what a venue snapshot and the
local cache say, and `assess` settles between the two. A snapshot is a decoded
JSON value of any shape; what cannot be read of it is passed over. The open
orders of the robot, which `assess` does not read, are left out. -/
namespace TraderBot.Venue
open TraderBot.Lib TraderBot.Lib.Text TraderBot.Lib.Json TraderBot.Lib.Keyed

/-- The interpreter: its Unicode tables and its `str` on decoded JSON values. -/
structure Interpreter where
  unicode : Unicode
  str : Value → String
  str_str : ∀ s, str (.str s) = s

def asciiText : Value → String
  | .str s => s
  | v => String.ofList (render v)

theorem asciiText_str (s : String) : asciiText (.str s) = s := rfl

/-- The interpreter that knows ASCII and writes values as JSON. -/
def ascii : Interpreter where
  unicode := Unicode.ascii
  str := asciiText
  str_str := asciiText_str

/-- `str(value or "")`. -/
def Interpreter.textOf (py : Interpreter) (v : Option Value) : String :=
  match v with
  | some v => if v.truthy then py.str v else ""
  | none => ""

/-! ## Books -/

inductive PositionState where
  | knownFlat
  | knownOpen
  | unknown
  | conflicted
  deriving DecidableEq, Repr

structure BookKey where
  accountId : String
  instrumentId : String
  positionSide : String
  deriving DecidableEq, Repr

structure PositionAssessment where
  state : PositionState
  quantity : FiniteDecimal
  venueFresh : Bool
  detail : String
  deriving DecidableEq, Repr

inductive PositionSide where
  | long
  | short
  deriving DecidableEq, Repr

def PositionSide.text : PositionSide → String
  | .long => "LONG"
  | .short => "SHORT"

/-- A position as the planner's cache shows it. -/
structure PositionSnapshot where
  instrumentId : String
  side : String
  quantity : String
  positionId : Option String := none
  entryPrice : Option String := none
  deriving DecidableEq, Repr

/-- A symbol and a side; a side that is none of the two belongs to no row. -/
abbrev LookupKey := String × Option PositionSide

section
variable (py : Interpreter)

def venueSymbolForInstrument (instrumentId : String) : String :=
  before '.' (before '-' (py.unicode.upper (strip instrumentId)))

/-- `normalize_position_side` of a text. -/
def normalizeSide (side : String) : Option PositionSide :=
  let text := py.unicode.upper (strip side)
  if text = "LONG" ∨ text = "BUY" then some .long
  else if text = "SHORT" ∨ text = "SELL" then some .short
  else none

def bookLookupKey (book : BookKey) : LookupKey :=
  (venueSymbolForInstrument py book.instrumentId, normalizeSide py book.positionSide)

/-! ## Reading amounts -/

/-- `_to_decimal`. -/
def toDecimal (v : Option Value) : Option FiniteDecimal :=
  match v.bind (Decimal.ofValue py.unicode) with
  | some (.finite d) => some d
  | some (.infinity _) | some (.nan _ _ _) | none => none

/-- A position row, if it is one that counts: its key and its signed amount. -/
def venueRow (row : Value) : Option (LookupKey × FiniteDecimal) :=
  match row with
  | .obj _ => do
    let symbol := py.unicode.upper (strip (py.textOf (row.get? "symbol")))
    if symbol = "" then none
    else
      let quantity ← toDecimal py ((present (row.get? "position_amt")).or (row.get? "positionAmt"))
      if quantity.coeff = 0 then none
      else
        let side := normalizeSide py (py.textOf
          ((present (row.get? "position_side")).or (row.get? "positionSide")))
        -- one-way mode: the sign carries the book
        let signed := if quantity.isPositive then PositionSide.long else .short
        return ((symbol, some (side.getD signed)), quantity)
  | _ => none

/-- A cached position, if it is one that counts. -/
def cacheRow (position : PositionSnapshot) : Option (LookupKey × FiniteDecimal) := do
  let symbol := venueSymbolForInstrument py position.instrumentId
  if symbol = "" then none
  else
    let side ← normalizeSide py position.side
    let quantity ← toDecimal py (some (.str position.quantity))
    if quantity.coeff = 0 then none else return ((symbol, some side), quantity)

/-- The rows of the `positions` section; anything but a list has none. -/
def positionRows (snapshot : Value) : List Value :=
  match snapshot.get? "positions" with
  | some (.arr rows) => rows
  | _ => []

end

/-- `abs(d)`. -/
def absolute (d : FiniteDecimal) : Option FiniteDecimal := Decimal.fix false d.coeff d.exponent

/-- `total + abs(quantity)`. -/
def addAbsolute (total quantity : FiniteDecimal) : Option FiniteDecimal := do
  Decimal.add total (← absolute quantity)

/-- Totals by key; `none` raises. -/
def quantities (rows : List (LookupKey × FiniteDecimal)) : Option (LookupKey → FiniteDecimal) :=
  rows.foldlM (accumulate addAbsolute) fun _ => .zero

/-- A total, or zero where it was dropped. -/
def lookup (totals : LookupKey → FiniteDecimal) (key : LookupKey) : FiniteDecimal :=
  if (totals key).coeff = 0 then .zero else totals key

/-! ## The state -/

structure ReconciledExecutionState where
  accountId : String
  venueFresh : Bool
  venueDetail : String
  venueQuantities : LookupKey → FiniteDecimal
  cacheQuantities : LookupKey → FiniteDecimal

/-- What a state is built from. The window is in microseconds. -/
structure Evidence where
  venueSnapshot : Option Value
  venueFetchedAt : Option (DateTime × Option Int)
  cachePositions : List PositionSnapshot
  now : DateTime × Option Int
  freshnessWindow : Int := 30000000

/-- `now - then`; `none` is the `TypeError` of a naive and an aware one. -/
def elapsed (now since : DateTime × Option Int) : Option Int :=
  if now.2.isSome = since.2.isSome then some (DateTime.instant now - DateTime.instant since) else none

/-- `str` of a timedelta. -/
def timedeltaText (micros : Int) : String :=
  let days := micros / 86400000000
  let rest := (micros % 86400000000).toNat
  let seconds := rest / 1000000
  (if days = 0 then "" else toString days ++ (if days.natAbs = 1 then " day, " else " days, ")) ++
    toString (seconds / 3600) ++ ":" ++ String.ofList (decPad 2 (seconds / 60 % 60)) ++ ":" ++
    String.ofList (decPad 2 (seconds % 60)) ++
    if rest % 1000000 = 0 then "" else "." ++ String.ofList (decPad 6 (rest % 1000000))

/-- A snapshot that is a mapping. -/
def isMapping : Option Value → Bool
  | some (.obj _) => true
  | _ => false

/-- `_venue_freshness`. -/
def Evidence.venueFreshness (ev : Evidence) : Bool × String :=
  if isMapping ev.venueSnapshot = false then (false, "venue snapshot unavailable")
  else
    match ev.venueFetchedAt with
    | none => (false, "venue snapshot has no fetch timestamp")
    | some fetchedAt =>
      match elapsed ev.now fetchedAt with
      | none => (false, "venue snapshot timestamp is not comparable to now")
      | some age =>
        if ev.freshnessWindow < age then
          (false, "venue snapshot stale: age=" ++ timedeltaText age ++ " exceeds freshness window " ++
            timedeltaText ev.freshnessWindow)
        else (true, "venue snapshot fresh")

section
variable (py : Interpreter)

/-- The rows of a snapshot that count. -/
def Evidence.venueReadings (ev : Evidence) : List (LookupKey × FiniteDecimal) :=
  match ev.venueSnapshot with
  | some (.obj members) => (positionRows (.obj members)).filterMap (venueRow py)
  | _ => []

/-- The cached positions that count. -/
def Evidence.cacheReadings (ev : Evidence) : List (LookupKey × FiniteDecimal) :=
  ev.cachePositions.filterMap (cacheRow py)

/-- `build`; `none` raises. -/
def ReconciledExecutionState.build (accountId : String) (ev : Evidence) :
    Option ReconciledExecutionState := do
  let freshness := ev.venueFreshness
  let venueQuantities ← quantities (ev.venueReadings py)
  let cacheQuantities ← quantities (ev.cacheReadings py)
  return { accountId, venueFresh := freshness.1, venueDetail := freshness.2, venueQuantities,
           cacheQuantities }

end

/-- `0.01`. -/
def driftTolerance : FiniteDecimal := ⟨false, 1, -2, by decide⟩

/-- `_drift_exceeds_tolerance`. -/
def driftExceedsTolerance (venueQuantity cacheQuantity : FiniteDecimal) : Option Bool := do
  let reference ← absolute venueQuantity
  if reference.coeff = 0 then return cacheQuantity.coeff ≠ 0
  else
    let difference ← Decimal.sub reference (← absolute cacheQuantity)
    let drift ← Decimal.div (← absolute difference) reference
    return driftTolerance.lt drift

/-- `str(d)`. -/
def decimalText (d : FiniteDecimal) : String := String.ofList (Decimal.finiteText d)

/-- `assess`; `none` raises. -/
def ReconciledExecutionState.assess (py : Interpreter) (state : ReconciledExecutionState)
    (book : BookKey) : Option PositionAssessment := do
  let key := bookLookupKey py book
  let cacheQuantity := lookup state.cacheQuantities key
  if state.venueFresh = false then
    return { state := .unknown, quantity := .zero, venueFresh := false, detail := state.venueDetail }
  else
    let venueQuantity := lookup state.venueQuantities key
    if venueQuantity.coeff ≠ 0 then
      let base := "venue reports " ++ decimalText venueQuantity ++ " " ++ book.positionSide ++ " on " ++
        book.instrumentId
      let drift ←
        if cacheQuantity.coeff ≠ 0 then driftExceedsTolerance venueQuantity cacheQuantity
        else some false
      let detail :=
        if drift then base ++ "; cache drift: cache=" ++ decimalText cacheQuantity ++ " venue=" ++
          decimalText venueQuantity ++ " (>1%)"
        else if cacheQuantity.coeff = 0 then base ++ "; cache has no position (venue is authoritative)"
        else base
      return { state := .knownOpen, quantity := venueQuantity, venueFresh := true, detail }
    else if cacheQuantity.coeff ≠ 0 then
      return {
        state := .conflicted, quantity := .zero, venueFresh := true
        detail := "venue reports flat but cache holds " ++ decimalText cacheQuantity ++ " " ++
          book.positionSide ++ " on " ++ book.instrumentId ++ " (phantom position suspected)" }
    else
      return {
        state := .knownFlat, quantity := .zero, venueFresh := true
        detail := "venue and cache agree flat for " ++ book.positionSide ++ " on " ++ book.instrumentId }

end TraderBot.Venue
