import TraderBot.Lib.Text

/-! # Dates and times

Python's `datetime`: calendar fields with the checks its constructor makes,
`isoformat`, `fromisoformat` and the order of instants. A time zone is a fixed
offset in microseconds. `fromisoformat` takes the formats of ISO 8601 that the
library documents: calendar and week dates, with or without separators, any
character before the time, fractions of any length cut to six digits. -/
namespace TraderBot.Lib
namespace DateTime
open TraderBot.Lib.Text

/-! ## The proleptic Gregorian calendar -/

def isLeap (year : Nat) : Bool := year % 4 == 0 && (year % 100 != 0 || year % 400 == 0)

def daysInMonth (year month : Nat) : Nat :=
  if month = 2 then if isLeap year then 29 else 28
  else if month = 4 ∨ month = 6 ∨ month = 9 ∨ month = 11 then 30
  else 31

/-- Days of a year before its month `m`. -/
def daysBeforeMonth (year m : Nat) : Nat :=
  ((List.range (m - 1)).map fun i => daysInMonth year (i + 1)).sum

/-- Days before January 1 of a year. -/
def daysBeforeYear (year : Nat) : Nat :=
  (year - 1) * 365 + (year - 1) / 4 - (year - 1) / 100 + (year - 1) / 400

/-- The day number of a date; January 1 of year 1 is day 1. -/
def toOrdinal (year month day : Nat) : Nat :=
  daysBeforeYear year + daysBeforeMonth year month + day

/-- The date of a day number. -/
def fromOrdinal (n : Nat) : Nat × Nat × Nat :=
  let n := n - 1
  let n400 := n / 146097
  let n := n % 146097
  let n100 := n / 36524
  let n := n % 36524
  let n4 := n / 1461
  let n := n % 1461
  let n1 := n / 365
  let n := n % 365
  let year := n400 * 400 + 1 + n100 * 100 + n4 * 4 + n1
  if n1 = 4 ∨ n100 = 4 then (year - 1, 12, 31)
  else
    -- an estimate of the month that is right or one too large
    let month := (n + 50) / 32
    let month := if daysBeforeMonth year month > n then month - 1 else month
    (year, month, n - daysBeforeMonth year month + 1)

/-- The Monday that starts week 1 of an ISO year. -/
def week1Monday (year : Nat) : Nat :=
  let firstday := toOrdinal year 1 1
  let firstweekday := (firstday + 6) % 7
  if firstweekday > 3 then firstday - firstweekday + 7 else firstday - firstweekday

/-- The date of a week date; `none` where the year has no such week or day. -/
def isoWeekDate (year week day : Nat) : Option (Nat × Nat × Nat) :=
  let first := toOrdinal year 1 1 % 7
  let long : Bool := first == 4 || (first == 3 && isLeap year)
  if year = 0 ∨ week = 0 ∨ week > 53 ∨ (week = 53 ∧ long = false) ∨ day = 0 ∨ day > 7 then none
  else some (fromOrdinal (week1Monday year + (week - 1) * 7 + (day - 1)))

end DateTime

/-- What the constructor of `datetime` checks. -/
def DateTime.Valid (year month day hour minute second micro : Nat) : Prop :=
  1 ≤ year ∧ year ≤ 9999 ∧ 1 ≤ month ∧ month ≤ 12 ∧ 1 ≤ day ∧
    day ≤ DateTime.daysInMonth year month ∧ hour < 24 ∧ minute < 60 ∧ second < 60 ∧
    micro < 1000000

/-- A date and a time of day. -/
structure DateTime where
  year : Nat
  month : Nat
  day : Nat
  hour : Nat
  minute : Nat
  second : Nat
  micro : Nat
  valid : DateTime.Valid year month day hour minute second micro
  deriving DecidableEq, Repr

namespace DateTime
open TraderBot.Lib.Text

instance (y m d hh mm ss us : Nat) : Decidable (Valid y m d hh mm ss us) :=
  inferInstanceAs (Decidable (_ ∧ _))

/-- `datetime(year, month, ...)`; `none` is its `ValueError`. -/
def mk? (year month day hour minute second micro : Nat) : Option DateTime :=
  if h : Valid year month day hour minute second micro then
    some ⟨year, month, day, hour, minute, second, micro, h⟩
  else none

variable (x : DateTime) {c : Char}

@[simp] theorem mk?_self : mk? x.year x.month x.day x.hour x.minute x.second x.micro = some x := by
  simp [mk?, x.valid]

/-- Microseconds since the start of year 1. -/
def toMicros (x : DateTime) : Nat :=
  ((((toOrdinal x.year x.month x.day - 1) * 24 + x.hour) * 60 + x.minute) * 60 + x.second) *
    1000000 + x.micro

/-- The date and time that many microseconds after the start of year 1. -/
def ofMicros (n : Nat) : Option DateTime :=
  let date := fromOrdinal (n / 86400000000 + 1)
  mk? date.1 date.2.1 date.2.2 (n / 3600000000 % 24) (n / 60000000 % 60) (n / 1000000 % 60)
    (n % 1000000)

/-- The order of two times of one zone: field by field. -/
def key (x : DateTime) : List Nat :=
  [x.year, x.month, x.day, x.hour, x.minute, x.second, x.micro]

/-! ## Writing -/

/-- `isoformat()` without an offset: the fraction only when there is one. -/
def isoBody (x : DateTime) : List Char :=
  decPad 4 x.year ++ '-' :: (decPad 2 x.month ++ '-' :: (decPad 2 x.day ++ 'T' ::
    (decPad 2 x.hour ++ ':' :: (decPad 2 x.minute ++ ':' :: (decPad 2 x.second ++
      if x.micro = 0 then [] else '.' :: decPad 6 x.micro)))))

/-- The offset text of UTC. -/
def utcMark : List Char := ['+', '0', '0', ':', '0', '0']

/-- `isoformat()` of a time in UTC. -/
def isoformat (x : DateTime) : String := String.ofList (isoBody x ++ utcMark)

/-- The offset as `isoformat()` writes it: seconds and microseconds only when
there are any. -/
def isoOffset (o : Int) : List Char :=
  let n := o.natAbs
  (if o < 0 then '-' else '+') :: (decPad 2 (n / 3600000000) ++ ':' ::
    (decPad 2 (n / 60000000 % 60) ++
      if n % 60000000 = 0 then []
      else ':' :: (decPad 2 (n / 1000000 % 60) ++
        if n % 1000000 = 0 then [] else '.' :: decPad 6 (n % 1000000))))

/-- `isoformat()` of a time with or without an offset. -/
def isoText (x : DateTime × Option Int) : String :=
  String.ofList (isoBody x.1 ++ match x.2 with
    | some o => isoOffset o
    | none => [])

/-! ## Reading -/

/-- A run of digits, at least one. -/
def number (cs : List Char) : Option Nat :=
  if cs = [] then none else readDigits 10 decValue cs

/-- Where the date ends. -/
def dateLength (cs : List Char) : Option Nat :=
  if cs.length = 7 then some 7
  else if cs[4]? = some '-' then
    if cs[5]? = some 'W' then
      if cs[8]? = some '-' then
        if cs.length = 9 then none
        else if ∃ c ∈ cs[10]?, c.isDigit then some 8
        else some 10
      else some 8
    else some 10
  else if cs[4]? = some 'W' then
    let run := 7 + ((cs.drop 7).takeWhile Char.isDigit).length
    if run < 9 then some run
    else if run % 2 = 0 then some 7
    else some 8
  else some 8

/-- The date part, of the length `dateLength` gave. -/
def parseDate (cs : List Char) : Option (Nat × Nat × Nat) :=
  match number (cs.take 4) with
  | none => none
  | some year =>
    let sep : Bool := cs[4]? == some '-'
    let rest := if sep then cs.drop 5 else cs.drop 4
    if rest.head? = some 'W' then
      match number (rest.tail.take 2) with
      | none => none
      | some week =>
        let rest := rest.tail.drop 2
        if rest = [] then isoWeekDate year week 1
        else if (rest.head? == some '-') != sep then none
        else match number ((if sep then rest.tail else rest).take 1) with
          | none => none
          | some day => isoWeekDate year week day
    else
      match number (rest.take 2) with
      | none => none
      | some month =>
        let rest := rest.drop 2
        if (rest.head? == some '-') != sep then none
        else match number ((if sep then rest.tail else rest).take 2) with
          | none => none
          | some day => some (year, month, day)

/-- A fraction of a second in microseconds, cut after six digits. -/
def parseFraction : List Char → Option Nat
  | [] => some 0
  | c :: cs =>
    if c ≠ '.' ∧ c ≠ ',' then none
    else if (cs.drop 6).all Char.isDigit = false then none
    else (number (cs.take 6)).map (· * 10 ^ (6 - (cs.take 6).length))

/-- The text after a time component: the separator is there or it is not. -/
def afterSeparator (sep : Bool) (cs : List Char) : Option (List Char) :=
  if sep then if cs.head? = some ':' then some cs.tail else none else some cs

/-- `HH[:?MM[:?SS[{.,}f+]]]`. -/
def parseClock (cs : List Char) : Option (Nat × Nat × Nat × Nat) :=
  match number (cs.take 2), cs.drop 2 with
  | none, _ => none
  | some hour, [] => if cs.length < 2 then none else some (hour, 0, 0, 0)
  | some hour, c :: rest =>
    let sep : Bool := c == ':'
    let cs := if sep then rest else c :: rest
    if cs.length < 2 then none
    else match number (cs.take 2), cs.drop 2 with
      | none, _ => none
      | some minute, [] => some (hour, minute, 0, 0)
      | some minute, c :: rest =>
        match afterSeparator sep (c :: rest) with
        | none => none
        | some cs =>
          if cs.length < 2 then none
          else match number (cs.take 2), parseFraction (cs.drop 2) with
            | some second, some micro => some (hour, minute, second, micro)
            | _, _ => none

/-- The offset after its sign, in microseconds; a day or more is no offset. -/
def parseOffset (negative : Bool) (cs : List Char) : Option Int :=
  if cs.length = 0 ∨ cs.length = 1 ∨ cs.length = 3 then none
  else match parseClock cs with
    | none => none
    | some (hour, minute, second, micro) =>
      let n : Int := ((hour * 60 + minute) * 60 + second) * 1000000 + micro
      if n < 86400000000 then some (if negative then -n else n) else none

/-- The text up to a character and the text after it. -/
def splitAt? (c : Char) (cs : List Char) : Option (List Char × List Char) :=
  if c ∈ cs then some (cs.takeWhile (· ≠ c), (cs.dropWhile (· ≠ c)).tail) else none

/-- A time of day and its offset. The zone starts at the first minus, or
without one at the first plus, or without that at the first `Z`. -/
def parseTime (cs : List Char) : Option ((Nat × Nat × Nat × Nat) × Option Int) :=
  match splitAt? '-' cs with
  | some (clock, zone) => zoned clock (parseOffset true zone)
  | none =>
    match splitAt? '+' cs with
    | some (clock, zone) => zoned clock (parseOffset false zone)
    | none =>
      match splitAt? 'Z' cs with
      | some (clock, zone) => zoned clock (if zone = [] then some 0 else parseOffset false zone)
      | none => (parseClock cs).map (·, none)
where
  zoned (clock : List Char) (offset : Option Int) :=
    match parseClock clock, offset with
    | some t, some o => some (t, some o)
    | _, _ => none

/-- `datetime.fromisoformat(text)`: the fields and, where given, the offset. -/
def fromisoformat (text : String) : Option (DateTime × Option Int) :=
  let cs := text.toList
  if cs.length < 7 then none
  else match dateLength cs with
    | none => none
    | some len =>
      match parseDate (cs.take len) with
      | none => none
      | some (year, month, day) =>
        let tstr := cs.drop (len + 1)
        match if tstr = [] then some ((0, 0, 0, 0), none) else parseTime tstr with
        | none => none
        | some ((hour, minute, second, micro), offset) =>
          (mk? year month day hour minute second micro).map (·, offset)

/-- The instant of a time, in microseconds of UTC; without an offset it is in UTC. -/
def instant (x : DateTime × Option Int) : Int := x.1.toMicros - x.2.getD 0

/-- The same instant in UTC; `none` is an `OverflowError`. A time in UTC is
left as it is. -/
def toUtc (x : DateTime × Option Int) : Option DateTime :=
  if x.2.getD 0 = 0 then some x.1
  else if instant x < 0 then none
  else ofMicros (instant x).toNat

/-- `text.replace("Z", "+00:00")`. -/
def replaceZulu (text : String) : String :=
  String.ofList (text.toList.flatMap fun c => if c = 'Z' then utcMark else [c])

/-! ## What `isoformat` writes, `fromisoformat` reads -/

/-- A digit is no mark of the format. -/
theorem digitChar_mark {d : Nat} (h : d < 10) :
    digitChar d ≠ '-' ∧ digitChar d ≠ '+' ∧ digitChar d ≠ ':' ∧ digitChar d ≠ 'Z' ∧
    digitChar d ≠ 'W' ∧ (digitChar d).isDigit = true := by
  have all : ∀ d < 10, digitChar d ≠ '-' ∧ digitChar d ≠ '+' ∧ digitChar d ≠ ':' ∧
      digitChar d ≠ 'Z' ∧ digitChar d ≠ 'W' ∧ (digitChar d).isDigit = true := by decide
  exact all d h

theorem number_decPad {k n : Nat} (hk : 0 < k) (h : n < 10 ^ k) : number (decPad k n) = some n := by
  have hne : decPad k n ≠ [] := by
    intro h0
    have := decPad_length k n
    rw [h0] at this
    simp at this
    omega
  rw [number, if_neg hne, readDigits_decPad h]

theorem digits_two (n : Nat) : digits 10 2 n = [n / 10 % 10, n % 10] := rfl

theorem digits_four (n : Nat) :
    digits 10 4 n = [n / 10 / 10 / 10 % 10, n / 10 / 10 % 10, n / 10 % 10, n % 10] := rfl

theorem decPad_all (k n : Nat) : (decPad k n).all Char.isDigit = true := by
  rw [List.all_eq_true]
  intro c hc
  obtain ⟨d, hd, rfl⟩ := mem_decPad hc
  exact (digitChar_mark hd).2.2.2.2.2

theorem parseDate_iso (year month day : Nat) (hy : year < 10000) (hm : month < 100)
    (hd : day < 100) :
    parseDate (decPad 4 year ++ '-' :: (decPad 2 month ++ '-' :: decPad 2 day)) =
      some (year, month, day) := by
  have hy' := number_decPad (k := 4) (n := year) (by omega) (by omega)
  have hm' := number_decPad (k := 2) (n := month) (by omega) (by omega)
  have hd' := number_decPad (k := 2) (n := day) (by omega) (by omega)
  have hW := (digitChar_mark (d := month / 10 % 10) (by omega)).2.2.2.2.1
  simp only [decPad, digits_two, digits_four, List.map_cons, List.map_nil] at hy' hm' hd' ⊢
  simp [parseDate, hy', hm', hd', hW]

theorem parseFraction_iso {n : Nat} (h : n < 1000000) (t : List Char)
    (ht : t = if n = 0 then [] else '.' :: decPad 6 n) : parseFraction t = some n := by
  by_cases h0 : n = 0
  · rw [ht, if_pos h0, h0]; rfl
  · have hlen : (decPad 6 n).take 6 = decPad 6 n := List.take_of_length_le (by simp)
    have hdrop : (decPad 6 n).drop 6 = [] := List.drop_eq_nil_of_le (by simp)
    rw [ht, if_neg h0, parseFraction, hlen, hdrop, number_decPad (by omega) (by omega)]
    simp

theorem parseClock_iso {hour minute second micro : Nat} (hh : hour < 100) (hm : minute < 100)
    (hs : second < 100) (hu : micro < 1000000) :
    parseClock (decPad 2 hour ++ ':' :: (decPad 2 minute ++ ':' :: (decPad 2 second ++
      if micro = 0 then [] else '.' :: decPad 6 micro))) = some (hour, minute, second, micro) := by
  have hh' := number_decPad (k := 2) (n := hour) (by omega) (by omega)
  have hm' := number_decPad (k := 2) (n := minute) (by omega) (by omega)
  have hs' := number_decPad (k := 2) (n := second) (by omega) (by omega)
  have hf := parseFraction_iso hu _ rfl
  generalize (if micro = 0 then [] else '.' :: decPad 6 micro) = t at hf ⊢
  simp only [decPad, digits_two, List.map_cons, List.map_nil] at hh' hm' hs' ⊢
  simp [parseClock, afterSeparator, hh', hm', hs', hf]

/-- No digit text holds a sign or a `Z`. -/
theorem not_mem_decPad (hc : c.isDigit = false) (k n : Nat) : c ∉ decPad k n := by
  intro h
  have := List.all_eq_true.mp (decPad_all k n) c h
  rw [hc] at this
  cases this

/-- The time part of `isoformat`. -/
def isoClock (x : DateTime) : List Char :=
  decPad 2 x.hour ++ ':' :: (decPad 2 x.minute ++ ':' :: (decPad 2 x.second ++
    if x.micro = 0 then [] else '.' :: decPad 6 x.micro))

theorem not_mem_isoClock (hc : c.isDigit = false) (hcolon : c ≠ ':') (hdot : c ≠ '.') :
    c ∉ isoClock x := by
  have hnot := not_mem_decPad hc
  unfold isoClock
  split <;> simp [hnot, hcolon, hdot]

theorem splitAt?_append {cs rest : List Char} (h : c ∉ cs) :
    splitAt? c (cs ++ c :: rest) = some (cs, rest) := by
  have hall : ∀ d ∈ cs, decide (d ≠ c) = true := by
    intro d hd
    simp only [ne_eq, decide_eq_true_eq]
    rintro rfl
    exact h hd
  have htake : (cs ++ c :: rest).takeWhile (· ≠ c) = cs := by
    rw [List.takeWhile_append_of_pos hall]
    simp
  have hdrop : (cs ++ c :: rest).dropWhile (· ≠ c) = c :: rest := by
    rw [List.dropWhile_append_of_pos hall]
    simp
  rw [splitAt?, if_pos (by simp), htake, hdrop, List.tail_cons]

theorem parseTime_iso :
    parseTime (isoClock x ++ utcMark) =
      some ((x.hour, x.minute, x.second, x.micro), some 0) := by
  obtain ⟨-, -, -, -, -, -, hh, hm, hs, hu⟩ := x.valid
  have hclock : parseClock (isoClock x) = some (x.hour, x.minute, x.second, x.micro) :=
    parseClock_iso (by omega) (by omega) (by omega) hu
  have hzone : parseOffset false "00:00".toList = some 0 := by decide
  have hminus : splitAt? '-' (isoClock x ++ utcMark) = none := by
    have := not_mem_isoClock (c := '-') x (by decide) (by decide) (by decide)
    rw [splitAt?, if_neg]
    rw [List.mem_append, not_or]
    exact ⟨this, by decide⟩
  have hplus : splitAt? '+' (isoClock x ++ utcMark) = some (isoClock x, "00:00".toList) :=
    splitAt?_append (not_mem_isoClock x (by decide) (by decide) (by decide))
  simp only [parseTime, hminus, hplus, hzone, parseTime.zoned, hclock]

/-- **A time in UTC reads back from its text**, in UTC. -/
@[simp] theorem fromisoformat_isoformat : fromisoformat (isoformat x) = some (x, some 0) := by
  obtain ⟨-, hy, -, hmo, -, hd, -⟩ := x.valid
  have hday : x.day < 100 := by
    refine Nat.lt_of_le_of_lt hd ?_
    unfold daysInMonth
    split_ifs <;> omega
  have hdate := parseDate_iso x.year x.month x.day (by omega)
    (by omega) hday
  have htext : isoBody x ++ utcMark =
      (decPad 4 x.year ++ '-' :: (decPad 2 x.month ++ '-' :: decPad 2 x.day)) ++
        'T' :: (isoClock x ++ utcMark) := by
    simp [isoBody, isoClock]
  have hlen : (decPad 4 x.year ++ '-' :: (decPad 2 x.month ++ '-' :: decPad 2 x.day)).length = 10 := by
    simp
  have hdl : dateLength (isoBody x ++ utcMark) = some 10 := by
    have hW := (digitChar_mark (d := x.month / 10 % 10) (by omega)).2.2.2.2.1
    have h7 : (isoBody x ++ utcMark).length ≠ 7 := by
      rw [htext, List.length_append, hlen]; simp; omega
    unfold dateLength
    rw [if_neg h7, htext]
    simp only [decPad, digits_two, digits_four, List.map_cons, List.map_nil]
    simp [hW]
  have htime := parseTime_iso x
  have hne : isoClock x ++ utcMark ≠ [] := by simp [utcMark]
  have h7 : ¬ (isoBody x ++ utcMark).length < 7 := by
    rw [htext, List.length_append, hlen]; omega
  simp only [fromisoformat, isoformat, String.toList_ofList, if_neg h7, hdl]
  rw [htext, List.take_left' hlen, hdate]
  have hdrop : ((decPad 4 x.year ++ '-' :: (decPad 2 x.month ++ '-' :: decPad 2 x.day)) ++
      'T' :: (isoClock x ++ utcMark)).drop (10 + 1) = isoClock x ++ utcMark := by
    rw [← List.drop_drop, List.drop_left' hlen]
    rfl
  simp only [hdrop, if_neg hne, htime, mk?_self, Option.map_some]

theorem replaceZulu_isoformat : replaceZulu (isoformat x) = isoformat x := by
  have hz : 'Z' ∉ isoBody x ++ utcMark := by
    have hclock := not_mem_isoClock (c := 'Z') x (by decide) (by decide) (by decide)
    have hnum := not_mem_decPad (c := 'Z') (by decide)
    have hsplit : isoBody x = decPad 4 x.year ++ '-' :: (decPad 2 x.month ++ '-' ::
        (decPad 2 x.day ++ 'T' :: isoClock x)) := rfl
    rw [hsplit]
    simp [hclock, hnum, utcMark]
  have hid : (isoBody x ++ utcMark).flatMap (fun c => if c = 'Z' then utcMark else [c]) =
      (isoBody x ++ utcMark).flatMap (fun c => [c]) := by
    refine List.flatMap_congr fun c hc => ?_
    have hne : c ≠ 'Z' := by
      rintro rfl
      exact hz hc
    rw [if_neg hne]
  unfold replaceZulu isoformat
  rw [String.toList_ofList, hid]
  simp

end DateTime
end TraderBot.Lib
