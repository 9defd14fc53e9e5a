import TraderBot.Lib.JsonRoundTrip

/-! # Decimals

Python's `decimal.Decimal` with the default context: 28 digits, halves to even,
exponents from -999999 to 999999, and `InvalidOperation`, `DivisionByZero` and
`Overflow` raised. A finite decimal is a sign, a coefficient and an exponent
within the limits of the library (`Decimal.InRange`); the constructor reads a
text exactly, only arithmetic rounds. What `str` writes the constructor reads
back (`ofText_text`). -/
namespace TraderBot.Lib
open TraderBot.Lib.Text

/-! ## Numbers -/

namespace Decimal

/-- The number of digits of a coefficient. -/
def width (coeff : Nat) : Nat := (Nat.toDigits 10 coeff).length

/-- `MAX_EMAX` of a 64-bit build. -/
def maxEmax : Int := 999999999999999999

/-- `MIN_ETINY` of a 64-bit build. -/
def minEtiny : Int := -1999999999999999997

/-- What the library can hold without rounding. -/
def InRange (coeff : Nat) (exponent : Int) : Prop :=
  minEtiny ≤ exponent ∧ exponent + width coeff - 1 ≤ maxEmax

instance (coeff : Nat) (exponent : Int) : Decidable (InRange coeff exponent) :=
  inferInstanceAs (Decidable (_ ∧ _))

theorem InRange.one : InRange 1 0 := by decide
theorem InRange.two : InRange 2 0 := by decide
theorem InRange.hundredTen : InRange 110 0 := by decide
theorem InRange.tenThousand : InRange 10000 0 := by decide
theorem InRange.tenth : InRange 1 (-1) := by decide
theorem InRange.oneAndHalf : InRange 15 (-1) := by decide
theorem InRange.thousandth : InRange 1 (-3) := by decide

theorem width_pos (n : Nat) : 0 < width n := Nat.length_toDigits_pos

theorem width_le_iff {n k : Nat} (h : 0 < k) : width n ≤ k ↔ n < 10 ^ k :=
  Nat.length_toDigits_le_iff (by omega) h

end Decimal

/-- A finite decimal. -/
structure FiniteDecimal where
  negative : Bool
  coeff : Nat
  exponent : Int
  inRange : Decimal.InRange coeff exponent
  deriving DecidableEq, Repr

inductive Decimal where
  | finite (d : FiniteDecimal)
  | infinity (negative : Bool)
  | nan (negative signaling : Bool) (payload : Nat)
  deriving DecidableEq, Repr

namespace FiniteDecimal
open Decimal

/-- The exact decimal, where the library can hold it. -/
def mk? (negative : Bool) (coeff : Nat) (exponent : Int) : Option FiniteDecimal :=
  if h : InRange coeff exponent then some ⟨negative, coeff, exponent, h⟩ else none

@[simp] theorem mk?_self (d : FiniteDecimal) : mk? d.negative d.coeff d.exponent = some d := by
  simp [mk?, d.inRange]

/-- `Decimal(0)`. -/
def zero : FiniteDecimal := ⟨false, 0, 0, by decide⟩

def signed (d : FiniteDecimal) : Int := if d.negative then -d.coeff else d.coeff

/-- The coefficient at a smaller exponent. -/
def scaled (d : FiniteDecimal) (exponent : Int) : Int :=
  d.signed * 10 ^ (d.exponent - exponent).toNat

/-- `a <= b`. -/
def le (a b : FiniteDecimal) : Bool :=
  decide (a.scaled (min a.exponent b.exponent) ≤ b.scaled (min a.exponent b.exponent))

/-- `a < b`. -/
def lt (a b : FiniteDecimal) : Bool := !b.le a

/-- `a == b`. -/
def eq (a b : FiniteDecimal) : Bool := a.le b && b.le a

/-- `max(a, b)`: the first unless the second is larger. -/
def max (a b : FiniteDecimal) : FiniteDecimal := if a.lt b then b else a

/-- `min(a, b)`: the first unless the second is smaller. -/
protected def min (a b : FiniteDecimal) : FiniteDecimal := if b.lt a then b else a

/-- `d.copy_negate()`. -/
def negate (d : FiniteDecimal) : FiniteDecimal := { d with negative := !d.negative }

/-- `d < 0`. -/
def isNegative (d : FiniteDecimal) : Bool := d.negative && d.coeff != 0

/-- `d > 0`. -/
def isPositive (d : FiniteDecimal) : Bool := !d.negative && d.coeff != 0

end FiniteDecimal

namespace Decimal

/-- `bool(d)`. -/
def truthy : Decimal → Bool
  | .finite d => d.coeff != 0
  | .infinity _ | .nan _ _ _ => true

/-- `a <= b`; `none` is the `InvalidOperation` a NaN raises. -/
def le? : Decimal → Decimal → Option Bool
  | .nan _ _ _, _ => none
  | _, .nan _ _ _ => none
  | .infinity true, _ => some true
  | _, .infinity false => some true
  | .infinity false, _ => some false
  | _, .infinity true => some false
  | .finite a, .finite b => some (a.le b)

/-- `a < b`; `none` is the `InvalidOperation` a NaN raises. -/
def lt? (a b : Decimal) : Option Bool := (b.le? a).map not

/-! ## The text of a decimal -/

/-- `"%+d" % n`. -/
def signedText (n : Int) : List Char := (if n < 0 then '-' else '+') :: Nat.toDigits 10 n.natAbs

/-- Digits before and after the point, which stands after `point` digits. -/
def placed (digits : List Char) (point : Int) : List Char × List Char :=
  if point ≤ 0 then (['0'], List.replicate (-point).toNat '0' ++ digits)
  else if digits.length ≤ point then
    (digits ++ List.replicate (point - digits.length).toNat '0', [])
  else (digits.take point.toNat, digits.drop point.toNat)

/-- `str(d)` of a finite decimal: plain when the exponent is not positive and
the number not too small, else with one digit before the point. -/
def finiteText (d : FiniteDecimal) : List Char :=
  let digits := Nat.toDigits 10 d.coeff
  let left : Int := d.exponent + digits.length
  let point : Int := if d.exponent ≤ 0 ∧ left > -6 then left else 1
  let parts := placed digits point
  (if d.negative then ['-'] else []) ++ parts.1 ++
    (if parts.2 = [] then [] else '.' :: parts.2) ++
    if left = point then [] else 'E' :: signedText (left - point)

/-- `format(d, "f")` of a finite decimal: without an exponent. -/
def fixedText (d : FiniteDecimal) : List Char :=
  let digits := Nat.toDigits 10 (d.coeff * 10 ^ d.exponent.toNat)
  let parts := placed digits (min d.exponent 0 + digits.length)
  (if d.negative then ['-'] else []) ++ parts.1 ++ if parts.2 = [] then [] else '.' :: parts.2

/-- `str(d)` of a quiet NaN. -/
def nanText (negative : Bool) (payload : Nat) : List Char :=
  (if negative then ['-'] else []) ++ "NaN".toList ++ if payload = 0 then [] else Nat.toDigits 10 payload

/-! ## Reading a text -/

/-- One character as the constructor takes it: digits of any script are digits. -/
def asciiOf (unicode : Unicode) (c : Char) : Option Char :=
  if c.toNat < 128 then some c
  else if isSpace c then some ' '
  else (unicode.decimal c).map digitChar

/-- The text without blanks around it and without underscores. -/
def asciiText (unicode : Unicode) (cs : List Char) : Option (List Char) :=
  ((stripWhere isSpace cs).filter (· ≠ '_')).mapM (asciiOf unicode)

/-- An optional sign, and the text after it. -/
def signSplit : List Char → Bool × List Char
  | c :: cs => if c = '-' then (true, cs) else if c = '+' then (false, cs) else (false, c :: cs)
  | [] => (false, [])

/-- A number of digits only, at least one. -/
def digitsValue (cs : List Char) : Option Nat :=
  if cs = [] ∨ cs.all Char.isDigit = false then none else some (Nat.ofDigitChars 10 cs 0)

/-- `(E[-+]?\d+)?` and the end of the text. -/
def scanExponent : List Char → Option Int
  | [] => some 0
  | c :: cs =>
    if c = 'e' ∨ c = 'E' then
      (digitsValue (signSplit cs).2).map fun (n : Nat) =>
        if (signSplit cs).1 then -(n : Int) else n
    else none

/-- Digits with at most one point, at least one digit, and an exponent. -/
def scanNumber (negative : Bool) (cs : List Char) : Option FiniteDecimal :=
  let whole := cs.takeWhile Char.isDigit
  let rest := cs.dropWhile Char.isDigit
  let fraction := if rest.head? = some '.' then rest.tail.takeWhile Char.isDigit else []
  let rest := if rest.head? = some '.' then rest.tail.dropWhile Char.isDigit else rest
  if whole ++ fraction = [] then none
  else
    match scanExponent rest with
    | none => none
    | some e =>
      FiniteDecimal.mk? negative (Nat.ofDigitChars 10 (whole ++ fraction) 0) (e - fraction.length)

/-- `Inf(inity)?` or `s?NaN\d*` in either case. -/
def scanSpecial (negative : Bool) (cs : List Char) : Option Decimal :=
  let word := cs.map Char.toLower
  if word = "inf".toList ∨ word = "infinity".toList then some (.infinity negative)
  else
    match Json.after? "nan".toList word, Json.after? "snan".toList word with
    | some digits, _ => diagnostic false digits
    | none, some digits => diagnostic true digits
    | none, none => none
where
  diagnostic (signaling : Bool) (digits : List Char) : Option Decimal :=
    if digits.all Char.isDigit then some (.nan negative signaling (Nat.ofDigitChars 10 digits 0))
    else none

/-- `Decimal(text)`; `none` is `InvalidOperation`. -/
def ofText (unicode : Unicode) (cs : List Char) : Option Decimal :=
  match asciiText unicode cs with
  | none => none
  | some cs =>
    let split := signSplit cs
    match scanNumber split.1 split.2 with
    | some d => some (.finite d)
    | none => scanSpecial split.1 split.2

/-- `Decimal(str(value))` of a JSON value, `none` where it raises. The text of a
truth value, of `None`, of a list or of a dict is no number. -/
def ofValue (unicode : Unicode) : Json.Value → Option Decimal
  | .int n => (FiniteDecimal.mk? (decide (n < 0)) n.natAbs 0).map .finite
  | .float .nan => some (.nan false false 0)
  | .float .infinity => some (.infinity false)
  | .float .negInfinity => some (.infinity true)
  | .float (.finite text _) => ofText unicode text
  | .str s => ofText unicode s.toList
  | .null | .bool _ | .arr _ | .obj _ => none

/-! ## Arithmetic in the default context -/

def prec : Nat := 28

def emax : Int := 999999

/-- `Emin - prec + 1`. -/
def etiny : Int := -1000026

/-- `n / p` to the nearest, halves to even. -/
def roundHalfEven (n p : Nat) : Nat :=
  if p < 2 * (n % p) ∨ (p = 2 * (n % p) ∧ n / p % 2 = 1) then n / p + 1 else n / p

/-- The digits the context keeps, and their exponent. Rounding up may give one
digit too many, a zero. -/
def rounded (coeff : Nat) (exponent : Int) : Nat × Int :=
  let expMin := max (exponent + width coeff - prec) etiny
  if exponent < expMin then
    let kept := roundHalfEven coeff (10 ^ (expMin - exponent).toNat)
    if prec < width kept then (kept / 10, expMin + 1) else (kept, expMin)
  else (coeff, exponent)

theorem etiny_le_rounded (coeff : Nat) (exponent : Int) : etiny ≤ (rounded coeff exponent).2 := by
  unfold rounded
  dsimp only
  have hmin : etiny ≤ max (exponent + width coeff - prec) etiny := le_max_right _ _
  generalize max (exponent + width coeff - prec) etiny = expMin at hmin ⊢
  split_ifs with h1 h2
  · exact le_trans hmin (by omega)
  · exact hmin
  · exact le_trans hmin (not_lt.mp h1)

/-- `_fix`: an exact result in the context; `none` is `Overflow`. -/
def fix (negative : Bool) (coeff : Nat) (exponent : Int) : Option FiniteDecimal :=
  if coeff = 0 then FiniteDecimal.mk? negative 0 (min (max exponent etiny) emax)
  else if emax < exponent + width coeff - 1 then none
  else
    if h : emax < (rounded coeff exponent).2 + width (rounded coeff exponent).1 - 1 then none
    else
      some ⟨negative, (rounded coeff exponent).1, (rounded coeff exponent).2,
        le_trans (by decide) (etiny_le_rounded coeff exponent),
        le_trans (not_lt.mp h) (by decide)⟩

/-- `a + b`. -/
def add (a b : FiniteDecimal) : Option FiniteDecimal :=
  let e := min a.exponent b.exponent
  let sum := a.scaled e + b.scaled e
  fix (if sum = 0 then a.negative && b.negative else decide (sum < 0)) sum.natAbs e

/-- `a - b`. -/
def sub (a b : FiniteDecimal) : Option FiniteDecimal := add a b.negate

/-- `a * b`. -/
def mul (a b : FiniteDecimal) : Option FiniteDecimal :=
  fix (a.negative != b.negative) (a.coeff * b.coeff) (a.exponent + b.exponent)

/-- Drop up to `k` zeros at the end of an exact quotient. -/
def dropZeros : Nat → Nat → Int → Nat × Int
  | 0, coeff, exponent => (coeff, exponent)
  | k + 1, coeff, exponent =>
    if coeff % 10 = 0 then dropZeros k (coeff / 10) (exponent + 1) else (coeff, exponent)

/-- `d.normalize()`: rounded to the context, without zeros at the end. -/
def normalize (d : FiniteDecimal) : Option FiniteDecimal := do
  let r ← fix d.negative d.coeff d.exponent
  if r.coeff = 0 then FiniteDecimal.mk? r.negative 0 0
  else
    let kept := dropZeros (width r.coeff) r.coeff r.exponent
    FiniteDecimal.mk? r.negative kept.1 kept.2

/-- `a / b`: two digits more than the precision, the last one odd or a sticky
one, then rounded. Division by zero raises. -/
def div (a b : FiniteDecimal) : Option FiniteDecimal :=
  let negative := a.negative != b.negative
  let ideal := a.exponent - b.exponent
  if b.coeff = 0 then none
  else if a.coeff = 0 then fix negative 0 ideal
  else
    let shift : Int := width b.coeff - width a.coeff + prec + 1
    let numerator := a.coeff * 10 ^ shift.toNat
    let denominator := b.coeff * 10 ^ (-shift).toNat
    let quotient := numerator / denominator
    if numerator % denominator = 0 then
      let exact := dropZeros shift.toNat quotient (ideal - shift)
      fix negative exact.1 exact.2
    else fix negative (if quotient % 5 = 0 then quotient + 1 else quotient) (ideal - shift)

/-- `abs(d)`, rounded; `none` is what an overflow or a signaling NaN raises. -/
def absolute : Decimal → Option Decimal
  | .finite d => (fix false d.coeff d.exponent).map .finite
  | .infinity _ => some (.infinity false)
  | .nan _ true _ => none
  | .nan negative false payload => some (.nan negative false payload)

/-! ## What `str` writes is read back -/

/-- The characters of a decimal's text are ASCII, no blanks and no underscore. -/
def isPlain (c : Char) : Bool := c.toNat < 128 && !isSpace c && c != '_'

theorem isPlain_of_isDigit {c : Char} (h : c.isDigit = true) : isPlain c = true := by
  have hbounds : 48 ≤ c.toNat ∧ c.toNat < 58 := by
    have := h
    simp only [Char.isDigit, Bool.and_eq_true, decide_eq_true_eq, UInt32.le_iff_toNat_le] at this
    exact ⟨this.1, Nat.lt_succ_of_le this.2⟩
  have all : ∀ n < 58, 48 ≤ n → isPlain (Char.ofNat n) = true := by decide
  simpa using all c.toNat hbounds.2 hbounds.1

theorem asciiText_plain {unicode : Unicode} {cs : List Char} (h : ∀ c ∈ cs, isPlain c = true) :
    asciiText unicode cs = some cs := by
  have hparts : ∀ c ∈ cs, c.toNat < 128 ∧ isSpace c = false ∧ c ≠ '_' := by
    intro c hc
    simpa [isPlain, and_assoc] using h c hc
  have hfilter : cs.filter (· ≠ '_') = cs :=
    List.filter_eq_self.mpr fun c hc => by simpa using (hparts c hc).2.2
  have hmap : cs.mapM (asciiOf unicode) = some cs := by
    clear h hfilter
    induction cs with
    | nil => rfl
    | cons c cs ih =>
      have hc : asciiOf unicode c = some c := by
        rw [asciiOf, if_pos (hparts c (by simp)).1]
      have hrest := ih fun x hx => hparts x (List.mem_cons_of_mem _ hx)
      simp [List.mapM_cons, hc, hrest]
  rw [asciiText, stripWhere_eq_self fun c hc => (hparts c hc).2.1, hfilter, hmap]

theorem digitsValue_toDigits (n : Nat) : digitsValue (Nat.toDigits 10 n) = some n := by
  have hall : (Nat.toDigits 10 n).all Char.isDigit = true :=
    List.all_eq_true.mpr (Json.toDigits_allDigits n)
  simp [digitsValue, hall]

/-- The exponent part of a text: nothing, or a signed number after its mark. -/
def exponentText (e : Int) : List Char := if e = 0 then [] else 'E' :: signedText e

theorem scanExponent_text (e : Int) : scanExponent (exponentText e) = some e := by
  unfold exponentText
  split_ifs with h0
  · rw [h0]; rfl
  · rcases lt_or_ge e 0 with h | h
    · have habs : -(e.natAbs : Int) = e := by omega
      simp only [scanExponent, signedText, signSplit, if_pos h, digitsValue_toDigits, or_true,
        if_true, Option.map_some, habs]
    · have habs : (e.natAbs : Int) = e := by omega
      have hplus : ¬ ('+' = '-') := by decide
      simp only [scanExponent, signedText, signSplit, if_neg (not_lt.mpr h), if_neg hplus,
        digitsValue_toDigits, or_true, if_true, Bool.false_eq_true, if_false, Option.map_some, habs]

theorem exponentText_head (e : Int) :
    (exponentText e).takeWhile Char.isDigit = [] ∧
      (exponentText e).dropWhile Char.isDigit = exponentText e ∧
      (exponentText e).head? ≠ some '.' := by
  unfold exponentText
  split_ifs with h0
  · simp
  · have hE : Char.isDigit 'E' = false := by decide
    simp [hE]

theorem span_append {ds : List Char} (rest : List Char) (h : ∀ c ∈ ds, c.isDigit = true)
    (hr : rest.takeWhile Char.isDigit = []) (hr' : rest.dropWhile Char.isDigit = rest) :
    (ds ++ rest).takeWhile Char.isDigit = ds ∧ (ds ++ rest).dropWhile Char.isDigit = rest := by
  rw [List.takeWhile_append_of_pos h, List.dropWhile_append_of_pos h, hr, hr', List.append_nil]
  exact ⟨rfl, rfl⟩

/-- Digits, a point before the fraction if there is one, and an exponent are
read as the number they write. -/
theorem scanNumber_parts {negative : Bool} {whole fraction : List Char} (e : Int)
    (hw : ∀ c ∈ whole, c.isDigit = true) (hf : ∀ c ∈ fraction, c.isDigit = true)
    (hne : whole ≠ []) :
    scanNumber negative (whole ++ ((if fraction = [] then [] else '.' :: fraction) ++
      exponentText e)) =
      FiniteDecimal.mk? negative (Nat.ofDigitChars 10 (whole ++ fraction) 0)
        (e - fraction.length) := by
  obtain ⟨ht, hd, hh⟩ := exponentText_head e
  have hpoint : Char.isDigit '.' = false := by decide
  unfold scanNumber
  split_ifs with h0
  · subst h0
    obtain ⟨h1, h2⟩ := span_append _ hw ht hd
    simp [h1, h2, hh, hne, scanExponent_text]
  · obtain ⟨h1, h2⟩ := span_append ('.' :: (fraction ++ exponentText e)) hw
      (by simp [hpoint]) (by simp [hpoint])
    obtain ⟨h3, h4⟩ := span_append _ hf ht hd
    have hcat : whole ++ fraction ≠ [] := by simp [hne]
    simp only [h1, h2, List.cons_append, List.head?_cons, if_true, List.tail_cons, h3, h4,
      if_neg hcat, scanExponent_text]

/-- Placing the point keeps the digits' number and counts the fraction. -/
theorem placed_spec (digits : List Char) {point : Int} (hd : ∀ c ∈ digits, c.isDigit = true)
    (hne : digits ≠ []) (hp : point ≤ digits.length) :
    (∀ c ∈ (placed digits point).1, c.isDigit = true) ∧
      (∀ c ∈ (placed digits point).2, c.isDigit = true) ∧ (placed digits point).1 ≠ [] ∧
      Nat.ofDigitChars 10 ((placed digits point).1 ++ (placed digits point).2) 0 =
        Nat.ofDigitChars 10 digits 0 ∧
      ((placed digits point).2.length : Int) = digits.length - point := by
  have hzero : Char.isDigit '0' = true := by decide
  have hlen : 0 < digits.length := List.length_pos_iff.mpr hne
  unfold placed
  split_ifs with h1 h2
  · refine ⟨by simp [hzero], ?_, by simp, ?_, ?_⟩
    · intro c hc
      rcases List.mem_append.mp hc with hc | hc
      · rw [List.eq_of_mem_replicate hc]; exact hzero
      · exact hd c hc
    · rw [List.singleton_append, Nat.ofDigitChars_cons, Nat.ofDigitChars_append]
      simp
    · simp only [List.length_append, List.length_replicate]
      omega
  · have hpoint : (point - digits.length).toNat = 0 := by omega
    rw [hpoint, List.replicate_zero, List.append_nil, List.append_nil]
    refine ⟨hd, by simp, hne, rfl, ?_⟩
    show ((0 : Nat) : Int) = digits.length - point
    omega
  · refine ⟨fun c hc => hd c (List.mem_of_mem_take hc), fun c hc => hd c (List.mem_of_mem_drop hc),
      ?_, by rw [List.take_append_drop], ?_⟩
    · have hpos : point.toNat ≠ 0 := by omega
      simp [List.take_eq_nil_iff, hpos, hne]
    · simp only [List.length_drop]
      omega

theorem finiteText_plain {digits : List Char} {point e : Int} {negative : Bool}
    (hd : ∀ c ∈ (placed digits point).1 ++ (placed digits point).2, c.isDigit = true) :
    ∀ c ∈ (if negative then ['-'] else []) ++ ((placed digits point).1 ++
      ((if (placed digits point).2 = [] then [] else '.' :: (placed digits point).2) ++
        exponentText e)), isPlain c = true := by
  have hexp : ∀ c ∈ exponentText e, isPlain c = true := by
    intro c hc
    unfold exponentText signedText at hc
    split_ifs at hc
    · cases hc
    all_goals
      simp only [List.mem_cons] at hc
      rcases hc with rfl | rfl | hc
      · decide
      · decide
      · exact isPlain_of_isDigit (Json.toDigits_allDigits _ c hc)
  intro c hc
  simp only [List.mem_append] at hc hd
  rcases hc with hc | hc | hc | hc
  · split_ifs at hc
    · rw [List.mem_singleton.mp hc]; decide
    · cases hc
  · exact isPlain_of_isDigit (hd c (.inl hc))
  · split_ifs at hc
    · cases hc
    · rcases List.mem_cons.mp hc with rfl | hc
      · decide
      · exact isPlain_of_isDigit (hd c (.inr hc))
  · exact hexp c hc

/-- Digits with a sign, a point and an exponent are read back. -/
theorem ofText_placed (unicode : Unicode) {negative : Bool} {n : Nat} {point e : Int} {d : FiniteDecimal}
    (hpoint : point ≤ (Nat.toDigits 10 n).length)
    (hd : FiniteDecimal.mk? negative n (e - ((Nat.toDigits 10 n).length - point)) = some d) :
    ofText unicode ((if negative then ['-'] else []) ++ ((placed (Nat.toDigits 10 n) point).1 ++
      ((if (placed (Nat.toDigits 10 n) point).2 = [] then []
        else '.' :: (placed (Nat.toDigits 10 n) point).2) ++ exponentText e))) = some (.finite d) := by
  set digits := Nat.toDigits 10 n with hdigits
  obtain ⟨hw, hf, hwne, hvalue, hcount⟩ :=
    placed_spec digits (Json.toDigits_allDigits n) Nat.toDigits_ne_nil hpoint
  have hdigit : ∀ c ∈ (placed digits point).1 ++ (placed digits point).2, c.isDigit = true :=
    fun c hc => (List.mem_append.mp hc).elim (hw c) (hf c)
  have hplain := @finiteText_plain digits point e negative hdigit
  have hnumber : scanNumber negative ((placed digits point).1 ++
      ((if (placed digits point).2 = [] then [] else '.' :: (placed digits point).2) ++
        exponentText e)) = some d := by
    rw [scanNumber_parts _ hw hf hwne, hvalue, hcount, hdigits, Nat.ofDigitChars_ten_toDigits]
    exact hd
  have hsign : signSplit ((if negative then ['-'] else []) ++ ((placed digits point).1 ++
      ((if (placed digits point).2 = [] then [] else '.' :: (placed digits point).2) ++
        exponentText e))) = (negative, (placed digits point).1 ++
      ((if (placed digits point).2 = [] then [] else '.' :: (placed digits point).2) ++
        exponentText e)) := by
    obtain ⟨c, cs, hc⟩ := List.exists_cons_of_ne_nil hwne
    have hdigit : c.isDigit = true := hw c (by rw [hc]; simp)
    have hminus : c ≠ '-' := by rintro rfl; exact absurd hdigit (by decide)
    have hplus : c ≠ '+' := by rintro rfl; exact absurd hdigit (by decide)
    cases negative with
    | true => simp [signSplit]
    | false => simp [signSplit, hc, hminus, hplus]
  rw [ofText, asciiText_plain hplain]
  simp only [hsign, hnumber]

/-- **What `str` writes, the constructor reads back**, sign, digits and exponent. -/
theorem ofText_text (unicode : Unicode) (d : FiniteDecimal) :
    ofText unicode (finiteText d) = some (.finite d) := by
  set digits := Nat.toDigits 10 d.coeff with hdigits
  set left : Int := d.exponent + digits.length with hleft
  set point : Int := if d.exponent ≤ 0 ∧ left > -6 then left else 1 with hpoint
  have hlen : 0 < digits.length := List.length_pos_iff.mpr Nat.toDigits_ne_nil
  have hle : point ≤ digits.length := by
    rw [hpoint]
    split_ifs with h <;> omega
  have hexp : left - point - (digits.length - point) = d.exponent := by omega
  have htext : finiteText d = (if d.negative then ['-'] else []) ++ ((placed digits point).1 ++
      ((if (placed digits point).2 = [] then [] else '.' :: (placed digits point).2) ++
        exponentText (left - point))) := by
    have hexponent : exponentText (left - point) =
        if left = point then [] else 'E' :: signedText (left - point) := by
      unfold exponentText
      simp only [sub_eq_zero]
    rw [hexponent]
    simp only [finiteText, ← hdigits, ← hleft, ← hpoint, List.append_assoc]
  rw [htext]
  exact ofText_placed unicode hle (by rw [hexp]; exact FiniteDecimal.mk?_self d)

theorem width_mul_pow (n k : Nat) : width (n * 10 ^ k) ≤ width n + k := by
  rw [width_le_iff (Nat.add_pos_left (width_pos n) k), Nat.pow_add]
  exact Nat.mul_lt_mul_of_pos_right ((width_le_iff (width_pos n)).mp le_rfl) (by positivity)

end Decimal

namespace FiniteDecimal
open Decimal

/-- The same number without a positive exponent. -/
def spread (d : FiniteDecimal) : FiniteDecimal where
  negative := d.negative
  coeff := d.coeff * 10 ^ d.exponent.toNat
  exponent := min d.exponent 0
  inRange := by
    obtain ⟨hlow, hhigh⟩ := d.inRange
    have hwidth := width_mul_pow d.coeff d.exponent.toNat
    exact ⟨le_min hlow (by decide), by omega⟩

end FiniteDecimal

namespace Decimal

/-- What `format(d, "f")` writes is read back as the same number. -/
theorem ofText_fixedText (unicode : Unicode) (d : FiniteDecimal) :
    ofText unicode (fixedText d) = some (.finite d.spread) := by
  set digits := Nat.toDigits 10 (d.coeff * 10 ^ d.exponent.toNat) with hdigits
  set point : Int := min d.exponent 0 + digits.length with hpoint
  have hle : point ≤ digits.length := by omega
  have htext : fixedText d = (if d.negative then ['-'] else []) ++ ((placed digits point).1 ++
      ((if (placed digits point).2 = [] then [] else '.' :: (placed digits point).2) ++
        exponentText 0)) := by
    simp only [fixedText, ← hdigits, ← hpoint, List.append_assoc, exponentText, if_true, List.append_nil]
  have hexp : 0 - ((digits.length : Int) - point) = d.spread.exponent := by
    show 0 - ((digits.length : Int) - point) = min d.exponent 0
    omega
  rw [htext]
  exact ofText_placed unicode hle (by rw [hexp]; exact FiniteDecimal.mk?_self d.spread)

/-- The text of a NaN is read back as a NaN. -/
theorem ofText_nanText (unicode : Unicode) (negative : Bool) (payload : Nat) :
    ofText unicode (nanText negative payload) = some (.nan negative false payload) := by
  set digits := if payload = 0 then [] else Nat.toDigits 10 payload with hdigits
  have hdigit : ∀ c ∈ digits, c.isDigit = true := by
    intro c hc
    rw [hdigits] at hc
    split_ifs at hc
    · cases hc
    · exact Json.toDigits_allDigits payload c hc
  have hvalue : Nat.ofDigitChars 10 digits 0 = payload := by
    rw [hdigits]
    split_ifs with h
    · exact h.symm
    · exact Nat.ofDigitChars_ten_toDigits
  have hlower : digits.map Char.toLower = digits := by
    refine (List.map_congr_left fun c hc => ?_).trans (List.map_id digits)
    obtain ⟨d, hd, rfl⟩ := isDigit_iff.mp (hdigit c hc)
    have all : ∀ d < 10, (digitChar d).toLower = digitChar d := by decide
    exact all d hd
  have hplain : ∀ c ∈ nanText negative payload, isPlain c = true := by
    have hword : ∀ c ∈ (if negative then ['-'] else []) ++ "NaN".toList, isPlain c = true := by
      cases negative <;> exact List.all_eq_true.mp rfl
    intro c hc
    rcases List.mem_append.mp hc with hc | hc
    · exact hword c hc
    · exact isPlain_of_isDigit (hdigit c hc)
  have hsign : signSplit (nanText negative payload) = (negative, 'N' :: 'a' :: 'N' :: digits) := by
    cases negative <;> rfl
  have hnumber : scanNumber negative ('N' :: 'a' :: 'N' :: digits) = none := rfl
  rw [ofText, asciiText_plain hplain]
  simp only [hsign, hnumber]
  have hword : ('N' :: 'a' :: 'N' :: digits).map Char.toLower = 'n' :: 'a' :: 'n' :: digits :=
    congrArg (fun cs => 'n' :: 'a' :: 'n' :: cs) hlower
  have hall : digits.all Char.isDigit = true := List.all_eq_true.mpr hdigit
  simp [scanSpecial, hword, Json.after?, scanSpecial.diagnostic, hall, hvalue]

end Decimal
end TraderBot.Lib
