import TraderBot.Lib.Dict
import TraderBot.Lib.Text

/-! # JSON as Python's `json` module reads and writes it

`render` is `json.dumps(value, sort_keys=True, separators=(",", ":"))`: ASCII
text, no blanks, object members in key order. `loads` is `json.loads`: the same
grammar with blanks, escapes in either case, `NaN` and the two infinities, and
the last of repeated keys. A Python dict is a value up to the order of its
keys, so an object is kept with its members in key order (`canonical`).

A float is the text `repr` gives it; the number scanner splits that text the
way the module's regular expression does. Strings hold Unicode scalar values:
a lone surrogate escape is refused. -/
namespace TraderBot.Lib.Json
open TraderBot.Lib.Text TraderBot.Lib.Dict

/-! ## Number tokens -/

/-- `-?`, as the text taken and what is left. -/
def signSpan : List Char → List Char × List Char
  | c :: cs => if c = '-' then ([c], cs) else ([], c :: cs)
  | [] => ([], [])

/-- `0|[1-9]\d*`. -/
def wholeSpan : List Char → Option (List Char × List Char)
  | c :: cs =>
    if c = '0' then some ([c], cs)
    else if c.isDigit then some (c :: cs.takeWhile Char.isDigit, cs.dropWhile Char.isDigit)
    else none
  | [] => none

/-- `(\.\d+)?`. -/
def fractionSpan : List Char → List Char × List Char
  | c :: cs =>
    if c = '.' ∧ cs.takeWhile Char.isDigit ≠ [] then
      (c :: cs.takeWhile Char.isDigit, cs.dropWhile Char.isDigit)
    else ([], c :: cs)
  | [] => ([], [])

/-- `[-+]?` of an exponent. -/
def exponentSign : List Char → List Char × List Char
  | c :: cs => if c = '-' ∨ c = '+' then ([c], cs) else ([], c :: cs)
  | [] => ([], [])

/-- `([eE][-+]?\d+)?`. -/
def exponentSpan : List Char → List Char × List Char
  | c :: cs =>
    if (c = 'e' ∨ c = 'E') ∧ (exponentSign cs).2.takeWhile Char.isDigit ≠ [] then
      (c :: (exponentSign cs).1 ++ (exponentSign cs).2.takeWhile Char.isDigit,
        (exponentSign cs).2.dropWhile Char.isDigit)
    else ([], c :: cs)
  | [] => ([], [])

/-- A number token in its parts, with the text after it. -/
structure NumberToken where
  sign : List Char
  whole : List Char
  fraction : List Char
  exponent : List Char
  rest : List Char
  deriving DecidableEq, Repr

def NumberToken.text (t : NumberToken) : List Char := t.sign ++ t.whole ++ t.fraction ++ t.exponent

/-- The module's `NUMBER_RE` at the head of a text. -/
def numberSpan (cs : List Char) : Option NumberToken :=
  (wholeSpan (signSpan cs).2).map fun (whole, cs₁) =>
    { sign := (signSpan cs).1, whole := whole, fraction := (fractionSpan cs₁).1,
      exponent := (exponentSpan (fractionSpan cs₁).2).1,
      rest := (exponentSpan (fractionSpan cs₁).2).2 }

/-- Text the scanner takes whole as a number with a fraction or an exponent. -/
def isFloatText (cs : List Char) : Bool :=
  match numberSpan cs with
  | some t => t.rest.isEmpty && (!t.fraction.isEmpty || !t.exponent.isEmpty)
  | none => false

/-- A Python float, by its `repr`. -/
inductive JsonFloat where
  | nan
  | infinity
  | negInfinity
  | finite (text : List Char) (h : isFloatText text = true)
  deriving DecidableEq, Repr

/-! ## Values -/

inductive Value where
  | null
  | bool (b : Bool)
  | int (n : Int)
  | float (x : JsonFloat)
  | str (s : String)
  | arr (items : List Value)
  | obj (members : List (String × Value))
  deriving Repr, Inhabited

mutual
def Value.decEq : (a b : Value) → Decidable (a = b)
  | .null, b => by cases b <;> first | exact isTrue rfl | exact isFalse nofun
  | .bool x, b => match b with
    | .bool y => decidable_of_iff (x = y) (by simp)
    | .null | .int _ | .float _ | .str _ | .arr _ | .obj _ => isFalse nofun
  | .int x, b => match b with
    | .int y => decidable_of_iff (x = y) (by simp)
    | .null | .bool _ | .float _ | .str _ | .arr _ | .obj _ => isFalse nofun
  | .float x, b => match b with
    | .float y => decidable_of_iff (x = y) (by simp)
    | .null | .bool _ | .int _ | .str _ | .arr _ | .obj _ => isFalse nofun
  | .str x, b => match b with
    | .str y => decidable_of_iff (x = y) (by simp)
    | .null | .bool _ | .int _ | .float _ | .arr _ | .obj _ => isFalse nofun
  | .arr x, b => match b with
    | .arr y => match Value.decEqItems x y with
      | isTrue h => isTrue (by rw [h])
      | isFalse h => isFalse (by simpa using h)
    | .null | .bool _ | .int _ | .float _ | .str _ | .obj _ => isFalse nofun
  | .obj x, b => match b with
    | .obj y => match Value.decEqMembers x y with
      | isTrue h => isTrue (by rw [h])
      | isFalse h => isFalse (by simpa using h)
    | .null | .bool _ | .int _ | .float _ | .str _ | .arr _ => isFalse nofun
def Value.decEqItems : (a b : List Value) → Decidable (a = b)
  | [], [] => isTrue rfl
  | [], _ :: _ => isFalse nofun
  | _ :: _, [] => isFalse nofun
  | x :: xs, y :: ys => match Value.decEq x y, Value.decEqItems xs ys with
    | isTrue h, isTrue h' => isTrue (by rw [h, h'])
    | isFalse h, _ => isFalse (by simp [h])
    | _, isFalse h => isFalse (by simp [h])
def Value.decEqMembers : (a b : List (String × Value)) → Decidable (a = b)
  | [], [] => isTrue rfl
  | [], _ :: _ => isFalse nofun
  | _ :: _, [] => isFalse nofun
  | (k, x) :: xs, (l, y) :: ys => match instDecidableEqString k l, Value.decEq x y, Value.decEqMembers xs ys with
    | isTrue h, isTrue h', isTrue h'' => isTrue (by rw [h, h', h''])
    | isFalse h, _, _ => isFalse (by simp [h])
    | _, isFalse h, _ => isFalse (by simp [h])
    | _, _, isFalse h => isFalse (by simp [h])
end

instance : DecidableEq Value := Value.decEq

mutual
/-- Every object in the value is in key order. -/
def canonical : Value → Bool
  | .arr items => canonicalItems items
  | .obj members => sortedKeys members && canonicalMembers members
  | _ => true
def canonicalItems : List Value → Bool
  | [] => true
  | x :: xs => canonical x && canonicalItems xs
def canonicalMembers : List (String × Value) → Bool
  | [] => true
  | (_, x) :: xs => canonical x && canonicalMembers xs
end

/-- `value.get(k)`; a value that is no dict has no members. -/
def Value.get? (k : String) : Value → Option Value
  | .obj members => lookup k members
  | _ => none

/-- Python's truth of a value. -/
def Value.truthy : Value → Bool
  | .null => false
  | .bool b => b
  | .int n => n ≠ 0
  | .float (.finite text _) =>
    (text.takeWhile fun c => c ≠ 'e' ∧ c ≠ 'E').any fun c => c.isDigit ∧ c ≠ '0'
  | .float _ => true
  | .str s => s ≠ ""
  | .arr items => !items.isEmpty
  | .obj members => !members.isEmpty

/-- `a or b` of two lookups. -/
def orElse (a b : Option Value) : Option Value :=
  match a with
  | some v => if v.truthy then some v else b
  | none => b

/-- A lookup that gives `None` where there is no value or a null. -/
def present (v : Option Value) : Option Value :=
  match v with
  | some .null => none
  | v => v

/-- A JSON object, its members in key order throughout. -/
structure JsonObject where
  members : List (String × Value)
  canonical : canonical (.obj members) = true
  deriving DecidableEq, Repr

def JsonObject.get? (o : JsonObject) (k : String) : Option Value := lookup k o.members

/-! ## Writing -/

/-- `\uXXXX`. -/
def unicodeEscape (n : Nat) : List Char := '\\' :: 'u' :: hexPad 4 n

/-- One character inside a string, as `ensure_ascii` writes it: above the basic
plane as a surrogate pair. -/
def escapeChar (c : Char) : List Char :=
  if 32 ≤ c.toNat ∧ c.toNat ≤ 126 ∧ c.toNat ≠ 34 ∧ c.toNat ≠ 92 then [c]
  else if c = '"' then ['\\', '"']
  else if c = '\\' then ['\\', '\\']
  else if c = '\n' then ['\\', 'n']
  else if c = '\r' then ['\\', 'r']
  else if c = '\t' then ['\\', 't']
  else if c = '\x0c' then ['\\', 'f']
  else if c = '\x08' then ['\\', 'b']
  else if c.toNat < 0x10000 then unicodeEscape c.toNat
  else unicodeEscape (0xD800 + (c.toNat - 0x10000) / 0x400) ++
    unicodeEscape (0xDC00 + (c.toNat - 0x10000) % 0x400)

def renderString (s : String) : List Char := '"' :: s.toList.flatMap escapeChar ++ ['"']

def renderInt : Int → List Char
  | .ofNat n => Nat.toDigits 10 n
  | .negSucc n => '-' :: Nat.toDigits 10 (n + 1)

def renderFloat : JsonFloat → List Char
  | .nan => "NaN".toList
  | .infinity => "Infinity".toList
  | .negInfinity => "-Infinity".toList
  | .finite text _ => text

mutual
def render : Value → List Char
  | .null => "null".toList
  | .bool true => "true".toList
  | .bool false => "false".toList
  | .int n => renderInt n
  | .float x => renderFloat x
  | .str s => renderString s
  | .arr items => '[' :: renderItems items ++ [']']
  | .obj members => '{' :: renderMembers members ++ ['}']
def renderItems : List Value → List Char
  | [] => []
  | [x] => render x
  | x :: y :: xs => render x ++ ',' :: renderItems (y :: xs)
def renderMembers : List (String × Value) → List Char
  | [] => []
  | [(k, x)] => renderString k ++ ':' :: render x
  | (k, x) :: y :: xs => renderString k ++ ':' :: render x ++ ',' :: renderMembers (y :: xs)
end

/-! ## Reading -/

/-- JSON blanks; narrower than `str.isspace`. -/
def isBlank (c : Char) : Bool := c = ' ' || c = '\t' || c = '\n' || c = '\r'

def skipBlanks (cs : List Char) : List Char := cs.dropWhile isBlank

/-- The text after the word `w`. -/
def after? : List Char → List Char → Option (List Char)
  | [], cs => some cs
  | _ :: _, [] => none
  | w :: ws, c :: cs => if w = c then after? ws cs else none

/-- The character a one-letter escape stands for. -/
def shortEscape (c : Char) : Option Char :=
  if c = '"' then some '"'
  else if c = '\\' then some '\\'
  else if c = '/' then some '/'
  else if c = 'b' then some '\x08'
  else if c = 'f' then some '\x0c'
  else if c = 'n' then some '\n'
  else if c = 'r' then some '\r'
  else if c = 't' then some '\t'
  else none

/-- Four hexadecimal digits. -/
def hex4 : List Char → Option (Nat × List Char)
  | a :: b :: c :: d :: cs => (readDigits 16 hexValue [a, b, c, d]).map (·, cs)
  | _ => none

/-- The character of a `\u` escape whose digits start the text, joining a
surrogate pair. -/
def unicodeChar (cs : List Char) : Option (Char × List Char) :=
  match hex4 cs with
  | none => none
  | some (n, rest) =>
    if 0xD800 ≤ n ∧ n ≤ 0xDBFF then
      match after? ['\\', 'u'] rest with
      | none => none
      | some rest =>
        match hex4 rest with
        | none => none
        | some (m, rest) =>
          if 0xDC00 ≤ m ∧ m ≤ 0xDFFF then
            some (Char.ofNat (0x10000 + (n - 0xD800) * 0x400 + (m - 0xDC00)), rest)
          else none
    else if 0xDC00 ≤ n ∧ n ≤ 0xDFFF then none
    else some (Char.ofNat n, rest)

/-- The character at the head of string contents, escaped or plain; the
module's strict mode refuses control characters. -/
def stringChar : List Char → Option (Char × List Char)
  | [] => none
  | c :: cs =>
    if c = '\\' then
      match cs with
      | [] => none
      | e :: cs => if e = 'u' then unicodeChar cs else (shortEscape e).map (·, cs)
    else if c.toNat < 32 then none
    else some (c, cs)

/-- String contents up to the closing quote. -/
def scanString : Nat → List Char → Option (List Char × List Char)
  | 0, _ => none
  | _ + 1, [] => none
  | n + 1, c :: cs =>
    if c = '"' then some ([], cs)
    else match stringChar (c :: cs) with
      | none => none
      | some (x, rest) => (scanString n rest).map fun (xs, rest) => (x :: xs, rest)

/-- A number: an integer unless it has a fraction or an exponent. -/
def parseNumber (cs : List Char) : Option (Value × List Char) :=
  match numberSpan cs with
  | none => none
  | some t =>
    if h : isFloatText t.text = true then some (.float (.finite t.text h), t.rest)
    else
      let n := Nat.ofDigitChars 10 t.whole 0
      some (.int (if t.sign.isEmpty then n else -n), t.rest)

/-- What a first letter announces: the rest of a word and its value. -/
def wordAt (c : Char) : Option (List Char × Value) :=
  if c = 'n' then some ("ull".toList, .null)
  else if c = 't' then some ("rue".toList, .bool true)
  else if c = 'f' then some ("alse".toList, .bool false)
  else if c = 'N' then some ("aN".toList, .float .nan)
  else if c = 'I' then some ("nfinity".toList, .float .infinity)
  else none

/-- A word, `-Infinity` or a number. -/
def parseAtom (c : Char) (cs : List Char) : Option (Value × List Char) :=
  match wordAt c with
  | some (w, v) => (after? w cs).map (v, ·)
  | none =>
    if c = '-' ∧ cs.head? = some 'I' then
      (after? "Infinity".toList cs).map (.float .negInfinity, ·)
    else parseNumber (c :: cs)

mutual
/-- One value at the head of the text. -/
def parseValue : Nat → List Char → Option (Value × List Char)
  | 0, _ => none
  | _ + 1, [] => none
  | n + 1, c :: cs =>
    if c = '"' then (scanString n cs).map fun (s, rest) => (.str (String.ofList s), rest)
    else if c = '{' then
      match skipBlanks cs with
      | [] => none
      | d :: rest =>
        if d = '}' then some (.obj [], rest)
        else (parseMembers n (d :: rest)).map fun (kvs, rest) => (.obj (dictOf kvs), rest)
    else if c = '[' then
      match skipBlanks cs with
      | [] => none
      | d :: rest =>
        if d = ']' then some (.arr [], rest)
        else (parseItems n (d :: rest)).map fun (xs, rest) => (.arr xs, rest)
    else parseAtom c cs
/-- Items up to the closing bracket, at least one. -/
def parseItems : Nat → List Char → Option (List Value × List Char)
  | 0, _ => none
  | n + 1, cs =>
    match parseValue n cs with
    | none => none
    | some (x, rest) =>
      match skipBlanks rest with
      | [] => none
      | d :: rest =>
        if d = ',' then
          (parseItems n (skipBlanks rest)).map fun (xs, rest) => (x :: xs, rest)
        else if d = ']' then some ([x], rest)
        else none
/-- Members up to the closing brace, at least one. -/
def parseMembers : Nat → List Char → Option (List (String × Value) × List Char)
  | 0, _ => none
  | _ + 1, [] => none
  | n + 1, c :: cs =>
    if c ≠ '"' then none else
    match scanString n cs with
    | none => none
    | some (k, rest) =>
      match skipBlanks rest with
      | [] => none
      | d :: rest =>
        if d ≠ ':' then none else
        match parseValue n (skipBlanks rest) with
        | none => none
        | some (x, rest) =>
          match skipBlanks rest with
          | [] => none
          | d :: rest =>
            if d = ',' then
              (parseMembers n (skipBlanks rest)).map fun (kvs, rest) =>
                ((String.ofList k, x) :: kvs, rest)
            else if d = '}' then some ([(String.ofList k, x)], rest)
            else none
end

/-- `json.loads` of a text; `none` is `JSONDecodeError`. -/
def loads (cs : List Char) : Option Value :=
  match parseValue cs.length (skipBlanks cs) with
  | some (v, rest) => if (skipBlanks rest).isEmpty then some v else none
  | none => none

end TraderBot.Lib.Json
