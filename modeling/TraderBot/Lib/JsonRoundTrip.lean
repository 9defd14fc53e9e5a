import TraderBot.Lib.JsonExtend

/-! # What `render` writes, `loads` reads

For a value whose objects are in key order, the text written reads back as the
value, alone or with text after it. A proper beginning of an object's text is
no JSON text at all: read as one, it would be read the same from the whole,
which has characters left. -/
namespace TraderBot.Lib.Json
open TraderBot.Lib.Text TraderBot.Lib.Dict

/-! ## Strings -/

variable {n : Nat} {c : Char} (s : List Char) {cs : List Char} {tok : NumberToken} (v : Value)
  {members : List (String × Value)}

theorem hex4_hexPad (h : n < 0x10000) (t : List Char) : hex4 (hexPad 4 n ++ t) = some (n, t) := by
  have hlen := hexPad_length 4 n
  have hread := readDigits_hexPad (k := 4) (n := n) (by omega)
  match hp : hexPad 4 n, hlen with
  | [a, b, c, d], _ =>
    rw [hp] at hread
    simp [hex4, hread]

theorem unicodeChar_basic (h : c.toNat < 0x10000) (t : List Char) :
    unicodeChar (hexPad 4 c.toNat ++ t) = some (c, t) := by
  have hv : ¬ (0xD800 ≤ c.toNat ∧ c.toNat ≤ 0xDFFF) := by
    have hc := c.valid
    simp only [UInt32.isValidChar, Nat.isValidChar] at hc
    change c.toNat < 0xd800 ∨ 0xdfff < c.toNat ∧ c.toNat < 0x110000 at hc
    omega
  unfold unicodeChar
  rw [hex4_hexPad h]
  simp only
  rw [if_neg (by omega), if_neg (by omega), Char.ofNat_toNat]

theorem char_lt (c : Char) : c.toNat < 0x110000 := by
  have h := c.valid
  simp only [UInt32.isValidChar, Nat.isValidChar] at h
  simp only [Char.toNat]
  omega

theorem surrogates {m : Nat} (h : 0x10000 ≤ m) (hm : m < 0x110000) :
    0xD800 + (m - 0x10000) / 0x400 ≤ 0xDBFF ∧ 0xDC00 + (m - 0x10000) % 0x400 ≤ 0xDFFF ∧
    0x10000 + (0xD800 + (m - 0x10000) / 0x400 - 0xD800) * 0x400 +
      (0xDC00 + (m - 0x10000) % 0x400 - 0xDC00) = m := by omega

theorem unicodeChar_surrogates {hi lo : Nat} (h1 : 0xD800 ≤ hi) (h2 : hi ≤ 0xDBFF) (h3 : 0xDC00 ≤ lo)
    (h4 : lo ≤ 0xDFFF) (t : List Char) :
    unicodeChar (hexPad 4 hi ++ (unicodeEscape lo ++ t)) =
      some (Char.ofNat (0x10000 + (hi - 0xD800) * 0x400 + (lo - 0xDC00)), t) := by
  unfold unicodeChar unicodeEscape
  rw [hex4_hexPad (by omega)]
  simp only [if_pos (And.intro h1 h2), List.cons_append, after?, if_true]
  rw [hex4_hexPad (by omega)]
  simp only [if_pos (And.intro h3 h4)]

theorem unicodeChar_pair (h : 0x10000 ≤ c.toNat) (t : List Char) :
    unicodeChar (hexPad 4 (0xD800 + (c.toNat - 0x10000) / 0x400) ++
      (unicodeEscape (0xDC00 + (c.toNat - 0x10000) % 0x400) ++ t)) = some (c, t) := by
  obtain ⟨hhi, hlo, hback⟩ := surrogates h (char_lt c)
  rw [unicodeChar_surrogates (Nat.le_add_right _ _) hhi (Nat.le_add_right _ _) hlo, hback,
    Char.ofNat_toNat]

/-- An escaped character reads back, whatever follows. -/
theorem stringChar_escapeChar (c : Char) (t : List Char) :
    stringChar (escapeChar c ++ t) = some (c, t) := by
  unfold escapeChar
  split_ifs with h0 h1 h2 h3 h4 h5 h6 h7 h8
  · have hslash : c ≠ '\\' := by
      rintro rfl
      exact h0.2.2.2 rfl
    have hlow : ¬ c.toNat < 32 := by omega
    simp [stringChar, hslash, hlow]
  · subst h1; rfl
  · subst h2; rfl
  · subst h3; rfl
  · subst h4; rfl
  · subst h5; rfl
  · subst h6; rfl
  · subst h7; rfl
  · have hu := unicodeChar_basic h8 t
    simp [unicodeEscape, stringChar, hu]
  · have hu := unicodeChar_pair (c := c) (by omega) t
    simp only [unicodeEscape, List.cons_append] at hu
    simp [unicodeEscape, stringChar, hu]

/-- Only the closing quote starts with a quote. -/
theorem escapeChar_head (c : Char) : ∃ d ds, escapeChar c = d :: ds ∧ d ≠ '"' := by
  unfold escapeChar
  split_ifs with h0
  · refine ⟨c, [], rfl, ?_⟩
    rintro rfl
    exact h0.2.2.1 rfl
  all_goals exact ⟨_, _, rfl, by decide⟩

theorem scanString_escaped (n : Nat) (h : s.length < n) (t : List Char) :
    scanString n (s.flatMap escapeChar ++ '"' :: t) = some (s, t) := by
  induction s generalizing n with
  | nil =>
    obtain ⟨n, rfl⟩ : ∃ k, n = k + 1 := ⟨n - 1, by simp at h; omega⟩
    simp [scanString]
  | cons c s ih =>
    obtain ⟨n, rfl⟩ : ∃ k, n = k + 1 := ⟨n - 1, by simp at h; omega⟩
    obtain ⟨d, ds, hd, hq⟩ := escapeChar_head c
    have hx := stringChar_escapeChar c (s.flatMap escapeChar ++ '"' :: t)
    simp only [List.flatMap_cons, List.append_assoc]
    rw [hd, List.cons_append] at hx ⊢
    simp only [scanString, if_neg hq, hx]
    rw [ih n (by simp at h; omega)]
    rfl

theorem length_le_flatMap_escape : s.length ≤ (s.flatMap escapeChar).length := by
  induction s with
  | nil => simp
  | cons c s ih =>
    obtain ⟨d, ds, hd, -⟩ := escapeChar_head c
    simp only [List.flatMap_cons, List.length_append, List.length_cons, hd]
    omega

theorem renderString_length (s : String) : s.toList.length + 2 ≤ (renderString s).length := by
  have := length_le_flatMap_escape s.toList
  simp only [renderString, List.cons_append, List.length_cons, List.length_append, List.length_nil]
  omega

/-! ## Numbers -/

/-- The first digit of a positive number is no zero. -/
theorem toDigits_head (h : 0 < n) :
    ∃ d ds, Nat.toDigits 10 n = d :: ds ∧ d ≠ '0' ∧ d.isDigit = true := by
  induction n using Nat.base_induction 10 (by omega) with
  | single m hm =>
    refine ⟨m.digitChar, [], Nat.toDigits_of_lt_base hm, ?_, ?_⟩
    · have hne : ∀ m < 10, 0 < m → m.digitChar ≠ '0' := by decide
      exact hne m hm h
    · have hdig : ∀ m < 10, m.digitChar.isDigit = true := by decide
      exact hdig m hm
  | digit m k hk hm ih =>
    obtain ⟨d, ds, he, hd⟩ := ih hm
    refine ⟨d, ds ++ Nat.toDigits 10 k, ?_, hd⟩
    rw [← Nat.toDigits_append_toDigits (by omega) hm hk, he]
    rfl

theorem toDigits_allDigits (n : Nat) : ∀ c ∈ Nat.toDigits 10 n, c.isDigit = true :=
  fun _ hc => Nat.isDigit_of_mem_toDigits (by omega) (by omega) hc

theorem span_allDigits {ds : List Char} (h : ∀ c ∈ ds, c.isDigit = true) :
    ds.takeWhile Char.isDigit = ds ∧ ds.dropWhile Char.isDigit = [] :=
  ⟨List.takeWhile_eq_self_iff.mpr h, List.dropWhile_eq_nil_iff.mpr h⟩

theorem wholeSpan_toDigits (n : Nat) :
    wholeSpan (Nat.toDigits 10 n) = some (Nat.toDigits 10 n, []) := by
  rcases Nat.eq_zero_or_pos n with rfl | hn
  · rfl
  · obtain ⟨d, ds, he, hz, hd⟩ := toDigits_head hn
    have hall := toDigits_allDigits n
    rw [he] at hall ⊢
    obtain ⟨h1, h2⟩ := span_allDigits (fun c hc => hall c (List.mem_cons_of_mem _ hc))
    simp [wholeSpan, hz, hd, h1, h2]

theorem toDigits_cons_ne_minus (n : Nat) :
    ∃ d ds, Nat.toDigits 10 n = d :: ds ∧ d ≠ '-' := by
  obtain ⟨d, ds, he⟩ := List.exists_cons_of_ne_nil (Nat.toDigits_ne_nil (n := n) (b := 10))
  refine ⟨d, ds, he, ?_⟩
  rintro rfl
  have := toDigits_allDigits n '-' (by rw [he]; simp)
  exact absurd this (by decide)

/-- The token of an integer's text. -/
def intToken (n : Int) : NumberToken :=
  match n with
  | .ofNat n => ⟨[], Nat.toDigits 10 n, [], [], []⟩
  | .negSucc n => ⟨['-'], Nat.toDigits 10 (n + 1), [], [], []⟩

theorem numberSpan_renderInt (n : Int) : numberSpan (renderInt n) = some (intToken n) := by
  cases n with
  | ofNat n =>
    obtain ⟨d, ds, he, hm⟩ := toDigits_cons_ne_minus n
    have hs : signSpan (Nat.toDigits 10 n) = ([], Nat.toDigits 10 n) := by
      rw [he]; simp [signSpan, hm]
    simp only [renderInt, numberSpan, hs, wholeSpan_toDigits, Option.map_some, intToken]
    rfl
  | negSucc n =>
    simp only [renderInt, numberSpan, signSpan, if_true, wholeSpan_toDigits, Option.map_some,
      intToken]
    rfl

theorem isFloatText_renderInt (n : Int) : isFloatText (renderInt n) = false := by
  simp only [isFloatText, numberSpan_renderInt]
  cases n <;> rfl

theorem parseNumber_renderInt (n : Int) : parseNumber (renderInt n) = some (.int n, []) := by
  have htext : (intToken n).text = renderInt n := by
    cases n <;> simp [intToken, NumberToken.text, renderInt]
  simp only [parseNumber, numberSpan_renderInt, htext, isFloatText_renderInt]
  rw [dif_neg (by decide)]
  cases n with
  | ofNat n => simp [intToken]
  | negSucc n => simp [intToken, Int.negSucc_eq]

theorem numberSpan_text (h : numberSpan cs = some tok) : tok.text ++ tok.rest = cs := by
  have hsign : (signSpan cs).1 ++ (signSpan cs).2 = cs := by
    cases cs with
    | nil => rfl
    | cons c cs => simp only [signSpan]; split <;> rfl
  have hfrac : ∀ r, (fractionSpan r).1 ++ (fractionSpan r).2 = r := by
    intro r
    cases r with
    | nil => rfl
    | cons c r => simp only [fractionSpan]; split <;> simp [List.takeWhile_append_dropWhile]
  have hexps : ∀ r, (exponentSign r).1 ++ (exponentSign r).2 = r := by
    intro r
    cases r with
    | nil => rfl
    | cons c r => simp only [exponentSign]; split <;> rfl
  have hexp : ∀ r, (exponentSpan r).1 ++ (exponentSpan r).2 = r := by
    intro r
    cases r with
    | nil => rfl
    | cons c r =>
      simp only [exponentSpan]
      split
      · simp only [List.cons_append, List.append_assoc, List.takeWhile_append_dropWhile, hexps]
      · rfl
  unfold numberSpan at h
  cases hw : wholeSpan (signSpan cs).2 with
  | none => simp [hw] at h
  | some wr =>
    obtain ⟨w, r⟩ := wr
    have hwhole : w ++ r = (signSpan cs).2 := by
      cases hs : (signSpan cs).2 with
      | nil => rw [hs] at hw; simp [wholeSpan] at hw
      | cons c t =>
        rw [hs] at hw
        simp only [wholeSpan] at hw
        split at hw
        · simp only [Option.some.injEq, Prod.mk.injEq] at hw
          rw [← hw.1, ← hw.2]; rfl
        · split at hw
          · simp only [Option.some.injEq, Prod.mk.injEq] at hw
            rw [← hw.1, ← hw.2, List.cons_append, List.takeWhile_append_dropWhile]
          · cases hw
    simp only [hw, Option.map_some, Option.some.injEq] at h
    subst h
    simp only [NumberToken.text, List.append_assoc, hexp, hfrac, hwhole, hsign]

theorem parseNumber_float {text : List Char} (h : isFloatText text = true) :
    parseNumber text = some (.float (.finite text h), []) := by
  have h' := h
  unfold isFloatText at h'
  cases hn : numberSpan text with
  | none => simp [hn] at h'
  | some tok =>
    simp only [hn, Bool.and_eq_true, List.isEmpty_iff] at h'
    have ht : tok.text = text := by
      have := numberSpan_text hn
      rwa [h'.1, List.append_nil] at this
    simp only [parseNumber, hn, ht, h, dif_pos, h'.1]

/-! ## Atoms -/

theorem wholeSpan_head {x : List Char × List Char} (h : wholeSpan cs = some x) :
    ∃ d ds, cs = d :: ds ∧ d.isDigit = true := by
  cases cs with
  | nil => simp [wholeSpan] at h
  | cons c cs =>
    refine ⟨c, cs, rfl, ?_⟩
    simp only [wholeSpan] at h
    split at h
    · rename_i hc; rw [hc]; decide
    · split at h
      · assumption
      · cases h

/-- A number starts with a digit, or with a minus and then a digit. -/
theorem numberSpan_head (h : numberSpan cs = some tok) :
    ∃ c ds, cs = c :: ds ∧ (c.isDigit = true ∨ (c = '-' ∧ ∃ d es, ds = d :: es ∧ d.isDigit = true)) := by
  unfold numberSpan at h
  obtain ⟨x, hx, -⟩ := Option.map_eq_some_iff.mp h
  obtain ⟨d, ds, he, hd⟩ := wholeSpan_head hx
  cases cs with
  | nil => simp [signSpan] at he
  | cons c cs =>
    simp only [signSpan] at he
    split at he
    · rename_i hc
      exact ⟨c, cs, rfl, .inr ⟨hc, d, ds, he, hd⟩⟩
    · obtain ⟨rfl, rfl⟩ := List.cons.inj he
      exact ⟨c, cs, rfl, .inl hd⟩

theorem wordAt_of_digit (h : c.isDigit = true) : wordAt c = none := by
  unfold wordAt
  split_ifs with h1 h2 h3 h4 h5
  · subst h1; exact absurd h (by decide)
  · subst h2; exact absurd h (by decide)
  · subst h3; exact absurd h (by decide)
  · subst h4; exact absurd h (by decide)
  · subst h5; exact absurd h (by decide)
  · rfl

/-- A number's text is read as a value: no word and no delimiter starts like one. -/
theorem parseValue_number {v : Value} (h : parseNumber cs = some (v, [])) :
    parseValue (n + 1) cs = some (v, []) := by
  have hspan : ∃ tok, numberSpan cs = some tok := by
    unfold parseNumber at h
    cases hn : numberSpan cs with
    | none => simp [hn] at h
    | some tok => exact ⟨tok, rfl⟩
  obtain ⟨tok, htok⟩ := hspan
  obtain ⟨c, ds, rfl, hc⟩ := numberSpan_head htok
  have hword : wordAt c = none := by
    rcases hc with hc | ⟨rfl, -⟩
    · exact wordAt_of_digit hc
    · rfl
  have hminus : ¬ (c = '-' ∧ ds.head? = some 'I') := by
    rintro ⟨rfl, hI⟩
    rcases hc with hc | ⟨-, d, es, rfl, hd⟩
    · exact absurd hc (by decide)
    · simp only [List.head?_cons, Option.some.injEq] at hI
      subst hI
      exact absurd hd (by decide)
  have hq : c ≠ '"' ∧ c ≠ '{' ∧ c ≠ '[' := by
    rcases hc with hc | ⟨rfl, -⟩
    · refine ⟨?_, ?_, ?_⟩ <;> rintro rfl <;> exact absurd hc (by decide)
    · decide
  simp only [parseValue, if_neg hq.1, if_neg hq.2.1, if_neg hq.2.2, parseAtom, hword,
    if_neg hminus]
  exact h

/-! ## Values -/

/-- The first character of a value closes nothing and is no blank. -/
theorem render_head : ∃ c cs, render v = c :: cs ∧ isBlank c = false ∧ c ≠ ']' ∧ c ≠ '}' := by
  have hnum : ∀ {cs : List Char} {tok : NumberToken}, numberSpan cs = some tok →
      ∃ c ds, cs = c :: ds ∧ isBlank c = false ∧ c ≠ ']' ∧ c ≠ '}' := by
    intro cs tok h
    obtain ⟨c, ds, rfl, hc⟩ := numberSpan_head h
    refine ⟨c, ds, rfl, ?_⟩
    rcases hc with hc | ⟨rfl, -⟩
    · refine ⟨?_, ?_, ?_⟩
      · by_contra hb
        simp only [isBlank, Bool.not_eq_false, Bool.or_eq_true, decide_eq_true_eq] at hb
        rcases hb with ((rfl | rfl) | rfl) | rfl <;> exact absurd hc (by decide)
      · rintro rfl; exact absurd hc (by decide)
      · rintro rfl; exact absurd hc (by decide)
    · decide
  cases v with
  | null => exact ⟨'n', "ull".toList, by decide, by decide⟩
  | bool b =>
    cases b with
    | true => exact ⟨'t', "rue".toList, by decide, by decide⟩
    | false => exact ⟨'f', "alse".toList, by decide, by decide⟩
  | int n => exact hnum (numberSpan_renderInt n)
  | float x =>
    cases x with
    | nan => exact ⟨'N', "aN".toList, by decide, by decide⟩
    | infinity => exact ⟨'I', "nfinity".toList, by decide, by decide⟩
    | negInfinity => exact ⟨'-', "Infinity".toList, by decide, by decide⟩
    | finite text h =>
      unfold isFloatText at h
      cases hn : numberSpan text with
      | none => simp [hn] at h
      | some tok => exact hnum hn
  | str s => exact ⟨'"', _, by simp only [render, renderString, List.cons_append]; rfl, by decide⟩
  | arr items => exact ⟨'[', _, by simp only [render, List.cons_append]; rfl, by decide⟩
  | obj members => exact ⟨'{', _, by simp only [render, List.cons_append]; rfl, by decide⟩

theorem render_length_pos : 0 < (render v).length := by
  obtain ⟨c, cs, he, -⟩ := render_head v
  rw [he]
  simp

theorem fuel_two (h : (render v).length < n) : ∃ k, n = k + 2 :=
  ⟨n - 2, by have := render_length_pos v; omega⟩

/-- The first item's first character decides how the array goes on. -/
theorem renderItems_head (x : Value) (xs : List Value) (t : List Char) :
    ∃ c ds, renderItems (x :: xs) ++ t = c :: ds ∧ isBlank c = false ∧ c ≠ ']' := by
  obtain ⟨c, cs, he, hb, hc, -⟩ := render_head x
  cases xs with
  | nil => exact ⟨c, cs ++ t, by simp only [renderItems, he, List.cons_append], hb, hc⟩
  | cons y ys => exact ⟨c, _, by simp only [renderItems, he, List.cons_append]; rfl, hb, hc⟩

theorem renderMembers_head (k : String) (x : Value) (kvs : List (String × Value))
    (t : List Char) : ∃ ds, renderMembers ((k, x) :: kvs) ++ t = '"' :: ds := by
  cases kvs with
  | nil => exact ⟨_, by simp only [renderMembers, renderString, List.cons_append]; rfl⟩
  | cons y ys => exact ⟨_, by simp only [renderMembers, renderString, List.cons_append]; rfl⟩

theorem skipBlanks_render (t : List Char) : skipBlanks (render v ++ t) = render v ++ t := by
  obtain ⟨c, cs, he, hb, -⟩ := render_head v
  unfold skipBlanks
  rw [he]
  simp [hb]

theorem skipBlanks_cons (h : isBlank c = false) (t : List Char) :
    skipBlanks (c :: t) = c :: t := by simp [skipBlanks, h]

/-- A value reads back in front of a delimiter. -/
theorem parse_before {v : Value} {d : Char} (t : List Char)
    (h : parseValue n (render v) = some (v, []))
    (hd : d.isDigit = false ∧ d ≠ '.' ∧ d ≠ 'e' ∧ d ≠ 'E') :
    parseValue n (render v ++ d :: t) = some (v, d :: t) := by
  have := value_append (t := d :: t) h (numberStop_cons hd)
  simpa using this

mutual
theorem parse_render_succ (v : Value) (hv : canonical v = true) (n : Nat)
    (hn : (render v).length ≤ n + 1) : parseValue (n + 1) (render v) = some (v, []) := by
  match v with
  | .null | .bool true | .bool false => rfl
  | .int i => exact parseValue_number (parseNumber_renderInt i)
  | .float .nan | .float .infinity | .float .negInfinity => rfl
  | .float (.finite text h) => exact parseValue_number (parseNumber_float h)
  | .str s =>
    have hlen := renderString_length s
    simp only [render] at hn
    have hs := scanString_escaped s.toList n (by omega) []
    simp [render, renderString, parseValue, hs]
  | .arr [] => rfl
  | .arr (x :: xs) =>
    simp only [canonical] at hv
    simp only [render, List.cons_append, List.length_cons, List.length_append,
      List.length_nil] at hn
    have hitems := parse_items x xs hv n (by omega) []
    obtain ⟨c, ds, hds, hb, hc⟩ := renderItems_head x xs [']']
    rw [hds] at hitems
    simp only [render, List.cons_append, hds, parseValue]
    rw [if_neg (by decide), if_neg (by decide), if_pos trivial, skipBlanks_cons hb]
    simp [hc, hitems]
  | .obj [] => rfl
  | .obj ((k, x) :: kvs) =>
    simp only [canonical, Bool.and_eq_true] at hv
    simp only [render, List.cons_append, List.length_cons, List.length_append,
      List.length_nil] at hn
    have hmem := parse_members k x kvs hv.2 n (by omega) []
    obtain ⟨ds, hds⟩ := renderMembers_head k x kvs ['}']
    rw [hds] at hmem
    simp only [render, List.cons_append, hds, parseValue]
    rw [if_neg (by decide), if_pos trivial, skipBlanks_cons (by decide)]
    simp [hmem, dictOf_sorted hv.1]
termination_by sizeOf v
theorem parse_items (x : Value) (xs : List Value) (hv : canonicalItems (x :: xs) = true) (n : Nat)
    (hn : (renderItems (x :: xs)).length < n) (t : List Char) :
    parseItems n (renderItems (x :: xs) ++ ']' :: t) = some (x :: xs, t) := by
  match xs with
  | [] =>
    simp only [canonicalItems, Bool.and_eq_true] at hv
    simp only [renderItems] at hn ⊢
    obtain ⟨n, rfl⟩ := fuel_two x (n := n) (by omega)
    have hx := parse_before t (parse_render_succ x hv.1 n (by omega)) (d := ']') (by decide)
    simp only [parseItems, hx, skipBlanks_cons (show isBlank ']' = false by decide)]
    simp
  | y :: ys =>
    rw [canonicalItems, Bool.and_eq_true] at hv
    simp only [renderItems, List.length_append, List.length_cons] at hn
    obtain ⟨n, rfl⟩ := fuel_two x (n := n) (by omega)
    have hx := parse_before (renderItems (y :: ys) ++ ']' :: t)
      (parse_render_succ x hv.1 n (by omega)) (d := ',') (by decide)
    have hrest := parse_items y ys hv.2 (n + 1) (by omega) t
    obtain ⟨c, ds, hds, hb, -⟩ := renderItems_head y ys (']' :: t)
    have hskip := skipBlanks_cons hb ds
    rw [← hds] at hskip
    simp only [renderItems, List.append_assoc, List.cons_append]
    rw [parseItems]
    simp only [hx, skipBlanks_cons (show isBlank ',' = false by decide), if_true, hskip, hrest]
    rfl
termination_by sizeOf x + sizeOf xs + 1
theorem parse_members (k : String) (x : Value) (kvs : List (String × Value))
    (hv : canonicalMembers ((k, x) :: kvs) = true) (n : Nat)
    (hn : (renderMembers ((k, x) :: kvs)).length < n) (t : List Char) :
    parseMembers n (renderMembers ((k, x) :: kvs) ++ '}' :: t) = some ((k, x) :: kvs, t) := by
  have hklen := renderString_length k
  match kvs with
  | [] =>
    simp only [canonicalMembers, Bool.and_eq_true] at hv
    simp only [renderMembers, List.length_append, List.length_cons] at hn
    obtain ⟨n, rfl⟩ := fuel_two x (n := n) (by omega)
    have hk := scanString_escaped k.toList (n + 1) (by omega) (':' :: render x ++ '}' :: t)
    have hx := parse_before t (parse_render_succ x hv.1 n (by omega)) (d := '}') (by decide)
    simp only [renderMembers, renderString, List.cons_append, List.append_assoc, parseMembers,
      List.nil_append, ne_eq, not_true_eq_false, if_false] at hk ⊢
    simp only [hk, skipBlanks_cons (show isBlank ':' = false by decide), not_true_eq_false,
      if_false, skipBlanks_render, hx, skipBlanks_cons (show isBlank '}' = false by decide)]
    simp
  | (l, y) :: ys =>
    rw [canonicalMembers, Bool.and_eq_true] at hv
    simp only [renderMembers, List.length_append, List.length_cons, List.append_assoc,
      List.cons_append] at hn
    obtain ⟨n, rfl⟩ := fuel_two x (n := n) (by omega)
    have hk := scanString_escaped k.toList (n + 1) (by omega)
      (':' :: render x ++ ',' :: (renderMembers ((l, y) :: ys) ++ '}' :: t))
    have hx := parse_before (renderMembers ((l, y) :: ys) ++ '}' :: t)
      (parse_render_succ x hv.1 n (by omega)) (d := ',') (by decide)
    have hrest := parse_members l y ys hv.2 (n + 1) (by omega) t
    obtain ⟨ds, hds⟩ := renderMembers_head l y ys ('}' :: t)
    have hskip := skipBlanks_cons (show isBlank '"' = false by decide) ds
    rw [← hds] at hskip
    simp only [renderMembers, renderString, List.cons_append, List.append_assoc,
      List.nil_append] at hk ⊢
    rw [parseMembers]
    simp only [ne_eq, not_true_eq_false, hk, skipBlanks_cons (show isBlank ':' = false by decide),
      if_false, skipBlanks_render, hx, skipBlanks_cons (show isBlank ',' = false by decide),
      if_true, hskip, hrest]
    simp
termination_by sizeOf x + sizeOf kvs + 1
end

theorem parse_render (hv : canonical v = true) (hn : (render v).length ≤ n) :
    parseValue n (render v) = some (v, []) := by
  obtain ⟨n, rfl⟩ : ∃ k, n = k + 1 := ⟨n - 1, by have := render_length_pos v; omega⟩
  exact parse_render_succ v hv n hn

/-- A value reads back from any text that starts with its own, when blanks are
all that follow. -/
theorem loads_render_blanks {v : Value} (hv : canonical v = true) {t : List Char}
    (ht : skipBlanks t = []) : loads (render v ++ t) = some v := by
  have hstop : NumberStop ([] ++ t) := by
    cases t with
    | nil => exact numberStop_nil
    | cons c t =>
      refine numberStop_cons ?_
      have hc : isBlank c = true := by
        by_contra hc
        simp [skipBlanks, hc] at ht
      simp only [isBlank, Bool.or_eq_true, decide_eq_true_eq] at hc
      rcases hc with ((rfl | rfl) | rfl) | rfl <;> decide
  have hp := value_append (parse_render v hv (n := (render v ++ t).length) (by simp)) hstop
  unfold loads
  rw [skipBlanks_render, hp]
  simp [ht]

theorem loads_render {v : Value} (hv : canonical v = true) : loads (render v) = some v := by
  have := loads_render_blanks hv (t := []) rfl
  simpa using this

/-- Text after a value that is more than blanks makes the whole no JSON text. -/
theorem loads_render_extra (hv : canonical (.obj members) = true) {t : List Char}
    (ht : skipBlanks t ≠ []) : loads (render (.obj members) ++ t) = none := by
  have hp := parse_render (.obj members) hv (n := (render (.obj members) ++ t).length) (by simp)
  simp only [render, List.cons_append] at hp
  have hp' := object_append t hp
  unfold loads
  rw [skipBlanks_render]
  simp only [render, List.cons_append, List.append_assoc, List.nil_append] at hp' ⊢
  rw [hp']
  simp [ht]

/-- **A proper beginning of an object's text is no JSON text.** -/
theorem loads_proper_prefix (hv : canonical (.obj members) = true) {p q : List Char}
    (h : p ++ q = render (.obj members)) (hq : q ≠ []) : loads p = none := by
  cases p with
  | nil => rfl
  | cons c p =>
    have hc : c = '{' := by
      simp only [render, List.cons_append] at h
      exact (List.cons.inj h).1
    subst hc
    unfold loads
    rw [skipBlanks_cons (by decide)]
    cases hp : parseValue ('{' :: p).length ('{' :: p) with
    | none => rfl
    | some vr =>
      obtain ⟨v, r⟩ := vr
      -- the whole text would be read to the same value with `r ++ q` left over
      have hext := object_append q hp
      rw [h] at hext
      have hlen : ('{' :: p).length ≤ (render (.obj members)).length := by rw [← h]; simp
      have hwhole := value_fuel hlen hext
      rw [parse_render _ hv (Nat.le_refl _)] at hwhole
      simp only [Option.some.injEq, Prod.mk.injEq] at hwhole
      exact absurd (List.append_eq_nil_iff.mp hwhole.2.symm).2 hq

end TraderBot.Lib.Json
