import TraderBot.Lib.Json

/-! # UUIDs

Python's `uuid.UUID` of a text, its `hex` and its `str`. The constructor takes
braces, a URN header, dashes anywhere and whatever `int(text, 16)` takes; the
text it gives back is the one canonical form, so a canonical text is a fixed
point and two UUIDs never share one. -/
namespace TraderBot.Lib
namespace Uuid
open TraderBot.Lib.Text

/-! ## `int(text, 16)` -/

/-- A character as `int` sees it: a space or a decimal digit outside ASCII
becomes its ASCII one, anything else outside ASCII is no digit. -/
def asciiDigit (u : Unicode) (c : Char) : Char :=
  if c.toNat < 127 then c
  else if isSpace c then ' '
  else match u.decimal c with
    | some d => digitChar d
    | none => '?'

/-- The spaces C's `isspace` knows. -/
def isAsciiSpace (c : Char) : Bool := (0x09 ≤ c.toNat && c.toNat ≤ 0x0D) || c = ' '

/-- Hexadecimal digits with single underscores between them; the flag says that
no digit came right before. -/
def hexRun : Bool → Nat → List Char → Option Nat
  | gap, n, [] => if gap then none else some n
  | gap, n, c :: cs =>
    if c = '_' then if gap then none else hexRun true n cs
    else match hexValue c with
      | none => none
      | some d => hexRun false (n * 16 + d) cs

/-- The text after a sign. -/
def dropSign : List Char → List Char
  | c :: cs => if c = '+' ∨ c = '-' then cs else c :: cs
  | [] => []

/-- The text after `0x`, and after one underscore there. -/
def dropHexMark : List Char → List Char
  | a :: x :: cs =>
    if a = '0' ∧ (x = 'x' ∨ x = 'X') then
      match cs with
      | c :: cs => if c = '_' then cs else c :: cs
      | [] => []
    else a :: x :: cs
  | cs => cs

/-- `int(text, 16)` of a text without a minus sign. -/
def intHex (u : Unicode) (cs : List Char) : Option Nat :=
  hexRun true 0 (dropHexMark (dropSign (stripWhere isAsciiSpace (cs.map (asciiDigit u)))))

/-! ## UUIDs -/

end Uuid

/-- A 128-bit identifier. -/
structure Uuid where
  int : Nat
  int_lt : int < 2 ^ 128
  deriving DecidableEq, Repr

namespace Uuid
open TraderBot.Lib.Text

/-- `UUID(text)`; `none` is its `ValueError`. -/
def parse (u : Unicode) (text : String) : Option Uuid :=
  let hex := eraseWord "uuid:".toList 0 (eraseWord "urn:".toList 0 text.toList)
  let hex := (stripWhere (fun c => c = '{' || c = '}') hex).filter (· ≠ '-')
  if hex.length ≠ 32 then none
  else match intHex u hex with
    | none => none
    | some n => if h : n < 2 ^ 128 then some ⟨n, h⟩ else none

/-- `UUID.hex`. -/
def hex (x : Uuid) : List Char := hexPad 32 x.int

/-- `str(UUID)`: groups of 8, 4, 4, 4 and 12 digits. -/
def str (x : Uuid) : String :=
  String.ofList (x.hex.take 8 ++ '-' :: ((x.hex.drop 8).take 4 ++ '-' :: ((x.hex.drop 12).take 4 ++
    '-' :: ((x.hex.drop 16).take 4 ++ '-' :: x.hex.drop 20))))

/-! ## The canonical text -/

/-- What the digits of a UUID are to the readers: no mark, no space, a digit. -/
theorem digitChar_plain {d : Nat} (h : d < 16) :
    digitChar d ≠ '-' ∧ digitChar d ≠ '_' ∧ digitChar d ≠ '+' ∧ digitChar d ≠ 'x' ∧
    digitChar d ≠ 'X' ∧ digitChar d ≠ 'u' ∧ digitChar d ≠ '{' ∧ digitChar d ≠ '}' ∧
    (digitChar d).toNat < 127 ∧ isAsciiSpace (digitChar d) = false := by
  have all : ∀ d < 16, digitChar d ≠ '-' ∧ digitChar d ≠ '_' ∧ digitChar d ≠ '+' ∧
      digitChar d ≠ 'x' ∧ digitChar d ≠ 'X' ∧ digitChar d ≠ 'u' ∧ digitChar d ≠ '{' ∧
      digitChar d ≠ '}' ∧ (digitChar d).toNat < 127 ∧ isAsciiSpace (digitChar d) = false := by
    decide
  exact all d h

theorem mem_str {x : Uuid} {c : Char} (h : c ∈ x.str.toList) :
    c = '-' ∨ ∃ d, d < 16 ∧ c = digitChar d := by
  have hpart : ∀ c ∈ x.hex, ∃ d, d < 16 ∧ c = digitChar d := fun c hc => mem_hexPad hc
  simp only [str, String.toList_ofList, List.mem_append, List.mem_cons] at h
  rcases h with h | h | h | h | h | h | h | h | h
  · exact .inr (hpart c (List.mem_of_mem_take h))
  · exact .inl h
  · exact .inr (hpart c (List.mem_of_mem_drop (List.mem_of_mem_take h)))
  · exact .inl h
  · exact .inr (hpart c (List.mem_of_mem_drop (List.mem_of_mem_take h)))
  · exact .inl h
  · exact .inr (hpart c (List.mem_of_mem_drop (List.mem_of_mem_take h)))
  · exact .inl h
  · exact .inr (hpart c (List.mem_of_mem_drop h))

theorem filter_hex {cs : List Char} (h : ∀ c ∈ cs, ∃ d, d < 16 ∧ c = digitChar d) :
    cs.filter (· ≠ '-') = cs := by
  rw [List.filter_eq_self]
  intro c hc
  obtain ⟨d, hd, rfl⟩ := h c hc
  simpa using (digitChar_plain hd).1

theorem filter_str (x : Uuid) : x.str.toList.filter (· ≠ '-') = x.hex := by
  have hpart : ∀ c ∈ x.hex, ∃ d, d < 16 ∧ c = digitChar d := fun c hc => mem_hexPad hc
  have htake : ∀ i k, ((x.hex.drop i).take k).filter (· ≠ '-') = (x.hex.drop i).take k :=
    fun i k => filter_hex (fun c hc => hpart c (List.mem_of_mem_drop (List.mem_of_mem_take hc)))
  have hhead := htake 0 8
  have hlast : (x.hex.drop 20).filter (· ≠ '-') = x.hex.drop 20 :=
    filter_hex (fun c hc => hpart c (List.mem_of_mem_drop hc))
  have hdash : ∀ cs : List Char, ('-' :: cs).filter (· ≠ '-') = cs.filter (· ≠ '-') := fun cs => rfl
  rw [List.drop_zero] at hhead
  simp only [str, String.toList_ofList, List.filter_append, hdash, hhead, htake, hlast]
  -- the pieces are the digits again, taken four times off the front
  have hcat : ∀ i k, (x.hex.drop i).take k ++ x.hex.drop (i + k) = x.hex.drop i := by
    intro i k
    rw [← List.drop_drop]
    exact List.take_append_drop k _
  rw [hcat 16 4, hcat 12 4, hcat 8 4]
  exact List.take_append_drop 8 _

theorem hexRun_digits (ds : List Nat) (h : ∀ d ∈ ds, d < 16) (n : Nat) (gap : Bool)
    (hg : gap = true → ds ≠ []) :
    hexRun gap n (ds.map digitChar) = some (ds.foldl (fun n d => n * 16 + d) n) := by
  induction ds generalizing n gap with
  | nil =>
    cases gap with
    | true => exact absurd rfl (hg rfl)
    | false => rfl
  | cons d ds ih =>
    have hd : d < 16 := h d (by simp)
    have hrest := ih (fun e he => h e (List.mem_cons_of_mem _ he)) (n * 16 + d) false nofun
    simp only [List.map_cons, hexRun, if_neg (digitChar_plain hd).2.1, hexValue_digitChar hd,
      List.foldl_cons, hrest]

variable (u : Unicode)

theorem intHex_hex (x : Uuid) : intHex u x.hex = some x.int := by
  have hdig : ∀ c ∈ x.hex, ∃ d, d < 16 ∧ c = digitChar d := fun c hc => mem_hexPad hc
  have hascii : x.hex.map (asciiDigit u) = x.hex := by
    refine (List.map_congr_left fun c hc => ?_).trans (List.map_id _)
    obtain ⟨d, hd, rfl⟩ := hdig c hc
    simp only [asciiDigit, if_pos (digitChar_plain hd).2.2.2.2.2.2.2.2.1, id]
  have hstrip : stripWhere isAsciiSpace x.hex = x.hex := by
    refine stripWhere_eq_self fun c hc => ?_
    obtain ⟨d, hd, rfl⟩ := hdig c hc
    exact (digitChar_plain hd).2.2.2.2.2.2.2.2.2
  have hrun : hexRun true 0 x.hex = some x.int := by
    have hlen : digits 16 32 x.int ≠ [] := by
      intro h0
      have := digits_length 16 32 x.int
      rw [h0] at this
      cases this
    have hval := ofDigits_digits (by omega : 0 < 16) 32 x.int (by have := x.int_lt; omega)
    unfold hex hexPad
    rw [hexRun_digits _ (digits_lt (by omega) 32 x.int) 0 true (fun _ => hlen)]
    exact congrArg some hval
  have hlen : x.hex.length = 32 := hexPad_length 32 x.int
  match hx : x.hex, hlen with
  | a :: b :: rest, _ =>
    obtain ⟨d, hd, rfl⟩ := hdig a (by rw [hx]; simp)
    obtain ⟨e, he, rfl⟩ := hdig b (by rw [hx]; simp)
    have hsign : dropSign (digitChar d :: digitChar e :: rest) = digitChar d :: digitChar e :: rest := by
      simp [dropSign, digitChar_plain hd]
    have hmark : dropHexMark (digitChar d :: digitChar e :: rest) =
        digitChar d :: digitChar e :: rest := by
      simp [dropHexMark, digitChar_plain he]
    rw [hx] at hascii hstrip hrun
    rw [intHex, hascii, hstrip, hsign, hmark, hrun]

/-- A text of the digits of a UUID, with any dashes, reads as it. -/
theorem parse_of_filter {x : Uuid} {text : String}
    (hmem : ∀ c ∈ text.toList, c = '-' ∨ ∃ d, d < 16 ∧ c = digitChar d)
    (hfilter : text.toList.filter (· ≠ '-') = x.hex) : parse u text = some x := by
  have hu : 'u' ∉ text.toList := by
    intro h
    rcases hmem _ h with h | ⟨d, hd, h⟩
    · exact absurd h (by decide)
    · exact (digitChar_plain hd).2.2.2.2.2.1 h.symm
  have hstrip : stripWhere (fun c => c = '{' || c = '}') text.toList = text.toList := by
    refine stripWhere_eq_self fun c hc => ?_
    rcases hmem c hc with rfl | ⟨d, hd, rfl⟩
    · rfl
    · simp [digitChar_plain hd]
  have hlen : x.hex.length = 32 := hexPad_length 32 x.int
  simp only [parse, eraseWord_of_not_mem (w := "uuid:".toList) (x := 'u') (by decide) _ hu,
    eraseWord_of_not_mem (w := "urn:".toList) (x := 'u') (by decide) _ hu, hstrip, hfilter,
    intHex_hex, hlen, ne_eq, not_true_eq_false, if_false, dif_pos x.int_lt]

/-- **The canonical text reads back.** -/
@[simp] theorem parse_str (x : Uuid) : parse u x.str = some x :=
  parse_of_filter u (fun _ => mem_str) (filter_str x)

/-- So do the digits alone. -/
@[simp] theorem parse_hex (x : Uuid) : parse u (String.ofList x.hex) = some x := by
  have hdigits : ∀ c ∈ x.hex, ∃ d, d < 16 ∧ c = digitChar d := fun c hc => mem_hexPad hc
  refine parse_of_filter u (fun c hc => ?_) ?_
  · rw [String.toList_ofList] at hc
    exact .inr (hdigits c hc)
  · rw [String.toList_ofList]
    exact filter_hex hdigits

theorem str_injective : Function.Injective str := by
  intro x y h
  have hx := parse_str .ascii x
  rw [h, parse_str, Option.some.injEq] at hx
  exact hx.symm

theorem hex_injective : Function.Injective hex := by
  intro x y h
  have hx := intHex_hex .ascii x
  rw [h, intHex_hex, Option.some.injEq] at hx
  cases x
  cases y
  cases hx
  rfl

theorem str_length (x : Uuid) : x.str.toList.length = 36 := by
  simp [str, hex]

end Uuid

/-- `UUID(str(value))` of a JSON value. The text of a value that is no string
and no integer is never a UUID. -/
def uuidOfValue (unicode : Text.Unicode) : Json.Value → Option Uuid
  | .str s => Uuid.parse unicode s
  | .int n => Uuid.parse unicode (toString n)
  | _ => none

end TraderBot.Lib
