import TraderBot.Lib.JsonRoundTrip

/-! # Logs of JSON lines

A log holds one JSON text a line. `render` writes printable ASCII only, so the
bytes of a line are its characters and no line break can stand inside a record:
`splitLines` gives the records back one by one, and whatever a broken write left
after the last line break comes last, on its own. -/
namespace TraderBot.Lib.Json
open TraderBot.Lib.Text TraderBot.Lib.Dict

/-! ## Printable text -/

def Printable (cs : List Char) : Prop := ∀ c ∈ cs, 32 ≤ c.toNat ∧ c.toNat < 127

theorem printable_nil : Printable [] := nofun

theorem printable_append {xs ys : List Char} : Printable (xs ++ ys) ↔ Printable xs ∧ Printable ys :=
  List.forall_mem_append

variable {c : Char} {cs text : List Char}

theorem printable_cons : Printable (c :: cs) ↔ (32 ≤ c.toNat ∧ c.toNat < 127) ∧ Printable cs :=
  List.forall_mem_cons

theorem Printable.of_all
    (h : cs.all (fun c => decide (32 ≤ c.toNat) && decide (c.toNat < 127)) = true) :
    Printable cs := by
  simpa [Printable] using h

theorem isDigit_range (h : c.isDigit = true) : 32 ≤ c.toNat ∧ c.toNat < 127 := by
  simp only [Char.isDigit, Bool.and_eq_true, decide_eq_true_eq, ge_iff_le, UInt32.le_iff_toNat_le] at h
  have h1 : 48 ≤ c.toNat := h.1
  have h2 : c.toNat ≤ 57 := h.2
  omega

theorem printable_digits (h : ∀ c ∈ cs, c.isDigit = true) : Printable cs :=
  fun c hc => isDigit_range (h c hc)

theorem digitChar_range {d : Nat} (h : d < 16) :
    32 ≤ (digitChar d).toNat ∧ (digitChar d).toNat < 127 := by
  revert d
  decide

theorem printable_hexPad (k n : Nat) : Printable (hexPad k n) := by
  intro c hc
  obtain ⟨d, hd, rfl⟩ := mem_hexPad hc
  exact digitChar_range hd

theorem printable_unicodeEscape (n : Nat) : Printable (unicodeEscape n) := by
  rw [unicodeEscape, printable_cons, printable_cons]
  exact ⟨by decide, by decide, printable_hexPad 4 n⟩

theorem printable_escapeChar (c : Char) : Printable (escapeChar c) := by
  unfold escapeChar
  split_ifs with h
  · rw [printable_cons]
    exact ⟨by omega, printable_nil⟩
  all_goals first
    | exact Printable.of_all rfl
    | exact printable_unicodeEscape _
    | exact printable_append.mpr ⟨printable_unicodeEscape _, printable_unicodeEscape _⟩

theorem printable_renderString (s : String) : Printable (renderString s) := by
  unfold renderString
  rw [List.cons_append, printable_cons, printable_append]
  refine ⟨by decide, ?_, Printable.of_all rfl⟩
  intro c hc
  obtain ⟨x, -, hx⟩ := List.mem_flatMap.mp hc
  exact printable_escapeChar x c hx

theorem printable_renderInt (n : Int) : Printable (renderInt n) := by
  cases n with
  | ofNat n => exact printable_digits (toDigits_allDigits n)
  | negSucc n => exact printable_cons.mpr ⟨by decide, printable_digits (toDigits_allDigits (n + 1))⟩

/-! ## Number tokens -/

/-- Number tokens are made of digits, signs, a point and an exponent mark. -/
def isNumberChar (c : Char) : Bool := c.isDigit || ['-', '+', '.', 'e', 'E'].contains c

def AllNumberChars (cs : List Char) : Prop := ∀ c ∈ cs, isNumberChar c = true

theorem allNumberChars_nil : AllNumberChars [] := nofun

theorem allNumberChars_append {xs ys : List Char} :
    AllNumberChars (xs ++ ys) ↔ AllNumberChars xs ∧ AllNumberChars ys :=
  List.forall_mem_append

theorem allNumberChars_cons :
    AllNumberChars (c :: cs) ↔ isNumberChar c = true ∧ AllNumberChars cs :=
  List.forall_mem_cons

theorem isNumberChar_of_isDigit (h : c.isDigit = true) : isNumberChar c = true := by
  rw [isNumberChar, h, Bool.true_or]

theorem numberChars_takeDigits (cs : List Char) : AllNumberChars (cs.takeWhile Char.isDigit) :=
  fun _ hc => isNumberChar_of_isDigit (List.mem_takeWhile_imp hc)

theorem numberChars_signSpan (cs : List Char) : AllNumberChars (signSpan cs).1 := by
  cases cs with
  | nil => exact allNumberChars_nil
  | cons c cs =>
    simp only [signSpan]
    split_ifs with h
    · subst h
      exact allNumberChars_cons.mpr ⟨rfl, allNumberChars_nil⟩
    · exact allNumberChars_nil

theorem numberChars_wholeSpan {w r : List Char} (h : wholeSpan cs = some (w, r)) :
    AllNumberChars w := by
  cases cs with
  | nil => cases h
  | cons c cs =>
    simp only [wholeSpan] at h
    split_ifs at h with h0 hd
    · cases h
      rw [h0]
      exact allNumberChars_cons.mpr ⟨rfl, allNumberChars_nil⟩
    · cases h
      exact allNumberChars_cons.mpr ⟨isNumberChar_of_isDigit hd, numberChars_takeDigits cs⟩

theorem numberChars_fractionSpan (cs : List Char) : AllNumberChars (fractionSpan cs).1 := by
  cases cs with
  | nil => exact allNumberChars_nil
  | cons c cs =>
    simp only [fractionSpan]
    split_ifs with h
    · rw [h.1]
      exact allNumberChars_cons.mpr ⟨rfl, numberChars_takeDigits cs⟩
    · exact allNumberChars_nil

theorem numberChars_exponentSign (cs : List Char) : AllNumberChars (exponentSign cs).1 := by
  cases cs with
  | nil => exact allNumberChars_nil
  | cons c cs =>
    simp only [exponentSign]
    split_ifs with h
    · refine allNumberChars_cons.mpr ⟨?_, allNumberChars_nil⟩
      rcases h with rfl | rfl <;> rfl
    · exact allNumberChars_nil

theorem numberChars_exponentSpan (cs : List Char) : AllNumberChars (exponentSpan cs).1 := by
  cases cs with
  | nil => exact allNumberChars_nil
  | cons c cs =>
    simp only [exponentSpan]
    split_ifs with h
    · have hc : isNumberChar c = true := by rcases h.1 with rfl | rfl <;> rfl
      rw [List.cons_append, allNumberChars_cons, allNumberChars_append]
      exact ⟨hc, numberChars_exponentSign cs, numberChars_takeDigits _⟩
    · exact allNumberChars_nil

theorem numberChars_floatText (h : isFloatText text = true) : AllNumberChars text := by
  unfold isFloatText at h
  cases hn : numberSpan text with
  | none => simp [hn] at h
  | some tok =>
    simp only [hn, Bool.and_eq_true, List.isEmpty_iff] at h
    have ht : tok.text = text := by
      have := numberSpan_text hn
      rwa [h.1, List.append_nil] at this
    rw [← ht]
    unfold numberSpan at hn
    obtain ⟨⟨w, r⟩, hw, rfl⟩ := Option.map_eq_some_iff.mp hn
    simp only [NumberToken.text, allNumberChars_append]
    exact ⟨⟨⟨numberChars_signSpan _, numberChars_wholeSpan hw⟩, numberChars_fractionSpan _⟩,
      numberChars_exponentSpan _⟩

theorem isNumberChar_range (h : isNumberChar c = true) : 32 ≤ c.toNat ∧ c.toNat < 127 := by
  simp only [isNumberChar, Bool.or_eq_true, List.contains_iff_mem] at h
  rcases h with h | h
  · exact isDigit_range h
  · simp only [List.mem_cons, List.not_mem_nil, or_false] at h
    rcases h with rfl | rfl | rfl | rfl | rfl <;> decide

theorem printable_floatText (h : isFloatText text = true) : Printable text :=
  fun c hc => isNumberChar_range (numberChars_floatText h c hc)

theorem printable_renderFloat (x : JsonFloat) : Printable (renderFloat x) := by
  cases x with
  | nan => exact Printable.of_all rfl
  | infinity => exact Printable.of_all rfl
  | negInfinity => exact Printable.of_all rfl
  | finite text h => exact printable_floatText h

mutual
/-- **JSON text is printable ASCII.** -/
theorem printable_render (v : Value) : Printable (render v) := by
  cases v with
  | null => exact Printable.of_all rfl
  | bool b => cases b <;> exact Printable.of_all rfl
  | int n => exact printable_renderInt n
  | float x => exact printable_renderFloat x
  | str s => exact printable_renderString s
  | arr items =>
    rw [render, List.cons_append, printable_cons, printable_append]
    exact ⟨by decide, printable_renderItems items, Printable.of_all rfl⟩
  | obj members =>
    rw [render, List.cons_append, printable_cons, printable_append]
    exact ⟨by decide, printable_renderMembers members, Printable.of_all rfl⟩
theorem printable_renderItems (xs : List Value) : Printable (renderItems xs) := by
  match xs with
  | [] => exact printable_nil
  | [x] => exact printable_render x
  | x :: y :: xs =>
    rw [renderItems, printable_append, printable_cons]
    exact ⟨printable_render x, by decide, printable_renderItems (y :: xs)⟩
theorem printable_renderMembers (kvs : List (String × Value)) : Printable (renderMembers kvs) := by
  match kvs with
  | [] => exact printable_nil
  | [(k, x)] =>
    rw [renderMembers, printable_append, printable_cons]
    exact ⟨printable_renderString k, by decide, printable_render x⟩
  | (k, x) :: y :: kvs =>
    rw [renderMembers, List.append_assoc, List.cons_append, printable_append, printable_cons,
      printable_append, printable_cons]
    exact ⟨printable_renderString k, by decide, printable_render x, by decide,
      printable_renderMembers (y :: kvs)⟩
end

/-! ## Lines -/

/-- `splitlines(keepends=True)` of bytes: a line ends at `\n`, `\r` or `\r\n`. -/
def splitLines : List Char → List (List Char)
  | [] => []
  | c :: cs =>
    if c = '\n' then [c] :: splitLines cs
    else if c = '\r' then
      match cs with
      | '\n' :: rest => [c, '\n'] :: splitLines rest
      | cs => [c] :: splitLines cs
    else
      match splitLines cs with
      | [] => [[c]]
      | line :: lines => (c :: line) :: lines

theorem Printable.ne_breaks (h : 32 ≤ c.toNat ∧ c.toNat < 127) : c ≠ '\n' ∧ c ≠ '\r' := by
  constructor
  · rintro rfl; exact absurd h (by decide)
  · rintro rfl; exact absurd h (by decide)

/-- Printable text does not end a line. -/
theorem Printable.getLast_ne (h : Printable cs) : cs.getLast? ≠ some '\n' := by
  intro hlast
  exact (Printable.ne_breaks (h _ (List.mem_of_getLast? hlast))).1 rfl

theorem splitLines_line {line : List Char} (h : Printable line) (t : List Char) :
    splitLines (line ++ '\n' :: t) = (line ++ ['\n']) :: splitLines t := by
  induction line with
  | nil => rw [List.nil_append, splitLines.eq_def]; rfl
  | cons c line ih =>
    rw [printable_cons] at h
    obtain ⟨hn, hr⟩ := Printable.ne_breaks h.1
    rw [List.cons_append, splitLines.eq_def]
    simp only [hn, hr, if_false, ih h.2]
    rfl

theorem splitLines_torn {tail : List Char} (h : Printable tail) (hne : tail ≠ []) :
    splitLines tail = [tail] := by
  induction tail with
  | nil => exact absurd rfl hne
  | cons c tail ih =>
    rw [printable_cons] at h
    obtain ⟨hn, hr⟩ := Printable.ne_breaks h.1
    rw [splitLines.eq_def]
    simp only [hn, hr, if_false]
    by_cases ht : tail = []
    · subst ht; rfl
    · rw [ih h.2 ht]

/-- A record of a log. -/
def line (v : Value) : List Char := render v ++ ['\n']

theorem line_ne_nil (v : Value) : line v ≠ [] := by simp [line]

/-- **A log of JSON lines splits into its records and its torn end.** -/
theorem splitLines_log (vs : List Value) {torn : List Char} (h : Printable torn) :
    splitLines (vs.flatMap line ++ torn) =
      vs.map line ++ (if torn = [] then [] else [torn]) := by
  induction vs with
  | nil =>
    by_cases ht : torn = []
    · subst ht; rfl
    · simpa [ht] using splitLines_torn h ht
  | cons v vs ih =>
    rw [List.flatMap_cons, line, List.append_assoc, List.append_assoc, List.singleton_append,
      splitLines_line (printable_render v), ih]
    rfl

end TraderBot.Lib.Json
