import TraderBot.Lib.Json

/-! # The JSON scanner is local

What the scanner reads from a text it also reads when more text follows, and
with more fuel, leaving the extra text untouched. Only a number can swallow
what follows it, so a bare value asks that the text left over not continue a
number (`NumberStop`); inside an array or an object the closing delimiter
already ends every number, and a text in braces extends unconditionally
(`object_append`). -/
namespace TraderBot.Lib.Json
open TraderBot.Lib.Text TraderBot.Lib.Dict

/-! ## Digits and number tokens -/

/-- The text does not start with a digit. -/
def DigitStop (cs : List Char) : Prop := ∀ c, cs.head? = some c → c.isDigit = false

/-- The text does not start with a character that could continue a number. -/
def NumberStop (cs : List Char) : Prop :=
  ∀ c, cs.head? = some c → c.isDigit = false ∧ c ≠ '.' ∧ c ≠ 'e' ∧ c ≠ 'E'

variable {cs r : List Char} (t : List Char) {v : Value} {n m : Nat} {x : Value × List Char}

theorem NumberStop.digit (h : NumberStop cs) : DigitStop cs :=
  fun c hc => (h c hc).1

theorem numberStop_nil : NumberStop [] := nofun

theorem numberStop_cons {c : Char} (h : c.isDigit = false ∧ c ≠ '.' ∧ c ≠ 'e' ∧ c ≠ 'E') :
    NumberStop (c :: cs) := by
  intro d hd
  simp only [List.head?_cons, Option.some.injEq] at hd
  subst hd
  exact h

theorem span_append {p : Char → Bool} (cs t : List Char)
    (h : ∀ c, (cs.dropWhile p ++ t).head? = some c → p c = false) :
    (cs ++ t).takeWhile p = cs.takeWhile p ∧ (cs ++ t).dropWhile p = cs.dropWhile p ++ t := by
  induction cs with
  | nil =>
    cases t with
    | nil => simp
    | cons c t =>
      have hc : p c = false := h c rfl
      simp [hc]
  | cons c cs ih =>
    cases hc : p c with
    | true =>
      simp only [List.dropWhile_cons, hc, if_true] at h
      obtain ⟨h1, h2⟩ := ih h
      simp [hc, h1, h2]
    | false => simp [hc]

theorem signSpan_append (h : cs ≠ []) :
    signSpan (cs ++ t) = ((signSpan cs).1, (signSpan cs).2 ++ t) := by
  cases cs with
  | nil => exact absurd rfl h
  | cons c cs => simp only [List.cons_append, signSpan]; split <;> rfl

theorem wholeSpan_append {w t : List Char} (h : wholeSpan cs = some (w, r))
    (hs : DigitStop (r ++ t)) : wholeSpan (cs ++ t) = some (w, r ++ t) := by
  cases cs with
  | nil => simp [wholeSpan] at h
  | cons c cs =>
    simp only [List.cons_append, wholeSpan] at h ⊢
    split at h
    · rename_i hc
      simp only [Option.some.injEq, Prod.mk.injEq] at h
      simp [hc, ← h.1, ← h.2]
    · rename_i hc
      split at h
      · rename_i hd
        simp only [Option.some.injEq, Prod.mk.injEq] at h
        obtain ⟨rfl, rfl⟩ := h
        obtain ⟨h1, h2⟩ := span_append (p := Char.isDigit) _ _ hs
        simp [hc, hd, h1, h2]
      · cases h

theorem fractionSpan_append {t : List Char} (hd : DigitStop ((fractionSpan cs).2 ++ t))
    (hp : ∀ c, ((fractionSpan cs).2 ++ t).head? = some c → c ≠ '.') :
    fractionSpan (cs ++ t) = ((fractionSpan cs).1, (fractionSpan cs).2 ++ t) := by
  cases cs with
  | nil =>
    cases t with
    | nil => rfl
    | cons c t =>
      have hc : c ≠ '.' := hp c rfl
      simp [fractionSpan, hc]
  | cons c cs =>
    simp only [List.cons_append, fractionSpan] at hd hp ⊢
    split at hd
    · rename_i hc
      obtain ⟨h1, h2⟩ := span_append (p := Char.isDigit) _ _ hd
      rw [if_pos hc, h1, h2, if_pos hc]
    · rename_i hc
      rw [if_neg hc] at hp ⊢
      have hc' : c ≠ '.' := hp c rfl
      rw [if_neg (fun h => hc' h.1)]
      rfl

theorem exponentSign_append (h : cs ≠ []) :
    exponentSign (cs ++ t) = ((exponentSign cs).1, (exponentSign cs).2 ++ t) := by
  cases cs with
  | nil => exact absurd rfl h
  | cons c cs => simp only [List.cons_append, exponentSign]; split <;> rfl

theorem exponentSpan_append (cs : List Char) {t : List Char} (hs : NumberStop ((exponentSpan cs).2 ++ t)) :
    exponentSpan (cs ++ t) = ((exponentSpan cs).1, (exponentSpan cs).2 ++ t) := by
  cases cs with
  | nil =>
    cases t with
    | nil => rfl
    | cons c t =>
      obtain ⟨_, _, h1, h2⟩ := hs c rfl
      simp [exponentSpan, h1, h2]
  | cons c cs =>
    simp only [List.cons_append, exponentSpan] at hs ⊢
    split at hs
    · rename_i hc
      have hne : cs ≠ [] := by
        rintro rfl
        exact hc.2 rfl
      obtain ⟨h1, h2⟩ := span_append (p := Char.isDigit) _ _ hs.digit
      rw [exponentSign_append t hne]
      simp only [h1, h2]
      rw [if_pos hc, if_pos hc]
    · rename_i hc
      obtain ⟨_, _, h1, h2⟩ := hs c rfl
      rw [if_neg (fun h => h.1.elim h1 h2), if_neg hc]
      rfl

/-- A span that took nothing left the text as it was; one that took something
started with its own first character. -/
theorem exponentSpan_rest (cs : List Char) :
    (exponentSpan cs).2 = cs ∨ ∃ c, cs.head? = some c ∧ (c = 'e' ∨ c = 'E') := by
  cases cs with
  | nil => exact .inl rfl
  | cons c cs =>
    simp only [exponentSpan]
    split
    · rename_i hc; exact .inr ⟨c, rfl, hc.1⟩
    · exact .inl rfl

theorem fractionSpan_rest (cs : List Char) :
    (fractionSpan cs).2 = cs ∨ cs.head? = some '.' := by
  cases cs with
  | nil => exact .inl rfl
  | cons c cs =>
    simp only [fractionSpan]
    split
    · rename_i hc; exact .inr (by rw [hc.1]; rfl)
    · exact .inl rfl

theorem numberSpan_append {t : List Char} {tok : NumberToken} (h : numberSpan cs = some tok)
    (hs : NumberStop (tok.rest ++ t)) :
    numberSpan (cs ++ t) = some { tok with rest := tok.rest ++ t } := by
  have hne : cs ≠ [] := by rintro rfl; simp [numberSpan, signSpan, wholeSpan] at h
  unfold numberSpan at h ⊢
  rw [signSpan_append t hne]
  cases hw : wholeSpan (signSpan cs).2 with
  | none => simp [hw] at h
  | some wr =>
    obtain ⟨w, r₁⟩ := wr
    simp only [hw, Option.map_some, Option.some.injEq] at h
    subst h
    -- the head of each stage's rest decides whether the next stage can grow
    have hexp := exponentSpan_append (fractionSpan r₁).2 hs
    have hd₂ : DigitStop ((fractionSpan r₁).2 ++ t) ∧
        ∀ c, ((fractionSpan r₁).2 ++ t).head? = some c → c ≠ '.' := by
      rcases exponentSpan_rest (fractionSpan r₁).2 with he | ⟨c, hc, hce⟩
      · rw [he] at hs
        exact ⟨hs.digit, fun c hc => (hs c hc).2.1⟩
      · have hhead : ((fractionSpan r₁).2 ++ t).head? = some c := by
          rw [List.head?_append, hc]; rfl
        constructor <;> intro d hd <;> rw [hhead, Option.some.injEq] at hd <;> subst hd <;>
          rcases hce with rfl | rfl <;> decide
    have hfrac := fractionSpan_append hd₂.1 hd₂.2
    have hd₁ : DigitStop (r₁ ++ t) := by
      rcases fractionSpan_rest r₁ with he | hc
      · rw [he] at hd₂; exact hd₂.1
      · intro d hd
        rw [List.head?_append, hc] at hd
        simp only [Option.some_or, Option.some.injEq] at hd
        subst hd
        decide
    rw [wholeSpan_append hw hd₁]
    simp only [Option.map_some, hfrac, hexp]

theorem parseNumber_append {t : List Char} (h : parseNumber cs = some (v, r))
    (hs : NumberStop (r ++ t)) : parseNumber (cs ++ t) = some (v, r ++ t) := by
  unfold parseNumber at h ⊢
  cases hn : numberSpan cs with
  | none => simp [hn] at h
  | some tok =>
    simp only [hn] at h
    have hr : tok.rest = r := by
      split at h
      · exact (Prod.mk.inj (Option.some.inj h)).2
      · exact (Prod.mk.inj (Option.some.inj h)).2
    rw [numberSpan_append hn (by rw [hr]; exact hs)]
    have htext : ({ tok with rest := tok.rest ++ t } : NumberToken).text = tok.text := rfl
    simp only [htext]
    split at h
    · rename_i hf
      rw [dif_pos hf]
      simp only [Option.some.injEq, Prod.mk.injEq] at h ⊢
      exact ⟨h.1, by rw [hr]⟩
    · rename_i hf
      rw [dif_neg hf]
      simp only [Option.some.injEq, Prod.mk.injEq] at h ⊢
      exact ⟨h.1, by rw [hr]⟩

/-! ## Words and strings -/

theorem after?_append {w : List Char} (h : after? w cs = some r) :
    after? w (cs ++ t) = some (r ++ t) := by
  induction w generalizing cs with
  | nil => simp only [after?, Option.some.injEq] at h ⊢; rw [h]
  | cons x w ih =>
    cases cs with
    | nil => simp [after?] at h
    | cons c cs =>
      simp only [List.cons_append, after?] at h ⊢
      split at h
      · rename_i hc; rw [if_pos hc]; exact ih h
      · cases h

theorem hex4_append (h : hex4 cs = some (n, r)) : hex4 (cs ++ t) = some (n, r ++ t) := by
  match cs, h with
  | a :: b :: c :: d :: cs, h =>
    simp only [List.cons_append, hex4, Option.map_eq_some_iff, Prod.mk.injEq] at h ⊢
    obtain ⟨m, hm, rfl, rfl⟩ := h
    exact ⟨m, hm, rfl, rfl⟩

theorem unicodeChar_append {x : Char} (h : unicodeChar cs = some (x, r)) :
    unicodeChar (cs ++ t) = some (x, r ++ t) := by
  unfold unicodeChar at h ⊢
  cases hn : hex4 cs with
  | none => simp [hn] at h
  | some p =>
    obtain ⟨n, r₁⟩ := p
    rw [hex4_append t hn]
    simp only [hn] at h ⊢
    split at h
    · rename_i hhi
      rw [if_pos hhi]
      cases ha : after? ['\\', 'u'] r₁ with
      | none => simp [ha] at h
      | some r₂ =>
        rw [after?_append t ha]
        simp only [ha] at h ⊢
        cases hm : hex4 r₂ with
        | none => simp [hm] at h
        | some q =>
          obtain ⟨m, r₃⟩ := q
          rw [hex4_append t hm]
          simp only [hm] at h ⊢
          split at h
          · rename_i hlo
            simp only [Option.some.injEq, Prod.mk.injEq] at h
            rw [if_pos hlo, h.1, h.2]
          · cases h
    · rename_i hhi
      rw [if_neg hhi]
      split at h
      · cases h
      · rename_i hlo
        simp only [Option.some.injEq, Prod.mk.injEq] at h
        rw [if_neg hlo, h.1, h.2]

theorem stringChar_append {x : Char} (h : stringChar cs = some (x, r)) :
    stringChar (cs ++ t) = some (x, r ++ t) := by
  cases cs with
  | nil => simp [stringChar] at h
  | cons c cs =>
    simp only [List.cons_append, stringChar] at h ⊢
    split at h
    · rename_i hc
      rw [if_pos hc]
      cases cs with
      | nil => simp at h
      | cons e cs =>
        simp only [List.cons_append] at h ⊢
        split at h
        · rename_i he; rw [if_pos he]; exact unicodeChar_append t h
        · rename_i he
          rw [if_neg he]
          simp only [Option.map_eq_some_iff, Prod.mk.injEq] at h ⊢
          obtain ⟨y, hy, rfl, rfl⟩ := h
          exact ⟨y, hy, rfl, rfl⟩
    · rename_i hc
      rw [if_neg hc]
      split at h
      · cases h
      · rename_i hlow
        simp only [Option.some.injEq, Prod.mk.injEq] at h
        rw [if_neg hlow, ← h.1, ← h.2]

theorem scanString_append {s : List Char} (h : scanString n cs = some (s, r)) :
    scanString n (cs ++ t) = some (s, r ++ t) := by
  induction n generalizing cs s with
  | zero => simp [scanString] at h
  | succ n ih =>
    cases cs with
    | nil => simp [scanString] at h
    | cons c cs =>
      simp only [List.cons_append, scanString] at h ⊢
      split at h
      · rename_i hc
        simp only [Option.some.injEq, Prod.mk.injEq] at h
        rw [if_pos hc, ← h.1, ← h.2]
      · rename_i hc
        rw [if_neg hc]
        cases hx : stringChar (c :: cs) with
        | none => simp [hx] at h
        | some p =>
          obtain ⟨x, r₁⟩ := p
          have hx' := stringChar_append t hx
          rw [List.cons_append] at hx'
          simp only [hx, hx', Option.map_eq_some_iff] at h ⊢
          obtain ⟨⟨s', r'⟩, hs', heq⟩ := h
          simp only [Prod.mk.injEq] at heq
          obtain ⟨rfl, rfl⟩ := heq
          exact ⟨(s', r' ++ t), ih hs', rfl⟩

theorem scanString_fuel {x : List Char × List Char} (h : scanString n cs = some x) (hnm : n ≤ m) :
    scanString m cs = some x := by
  induction n generalizing cs x m with
  | zero => simp [scanString] at h
  | succ n ih =>
    obtain ⟨m, rfl⟩ : ∃ k, m = k + 1 := ⟨m - 1, by omega⟩
    cases cs with
    | nil => simp [scanString] at h
    | cons c cs =>
      simp only [scanString] at h ⊢
      split at h
      · rename_i hc; rw [if_pos hc]; exact h
      · rename_i hc
        rw [if_neg hc]
        cases hx : stringChar (c :: cs) with
        | none => simp [hx] at h
        | some p =>
          simp only [hx, Option.map_eq_some_iff] at h ⊢
          obtain ⟨y, hy, heq⟩ := h
          exact ⟨y, ih hy (by omega), heq⟩

/-! ## Values -/

theorem skipBlanks_append {d : Char} (h : skipBlanks cs = d :: r) :
    skipBlanks (cs ++ t) = d :: (r ++ t) := by
  have hd : isBlank d = false := head_dropWhile_false isBlank cs d (by
    rw [show cs.dropWhile isBlank = d :: r from h]; rfl)
  unfold skipBlanks at h ⊢
  obtain ⟨-, h2⟩ := span_append (p := isBlank) cs t (by
    intro c hc
    rw [h] at hc
    simp only [List.cons_append, List.head?_cons, Option.some.injEq] at hc
    rw [← hc]; exact hd)
  rw [h2, h]
  rfl

/-- Before a delimiter, blanks or the delimiter itself end a number. -/
theorem numberStop_of_skipBlanks {t : List Char} {d : Char} (h : skipBlanks cs = d :: r)
    (hd : d.isDigit = false ∧ d ≠ '.' ∧ d ≠ 'e' ∧ d ≠ 'E') : NumberStop (cs ++ t) := by
  cases cs with
  | nil => simp [skipBlanks] at h
  | cons c cs =>
    refine numberStop_cons ?_
    unfold skipBlanks at h
    rw [List.dropWhile_cons] at h
    split at h
    · rename_i hc
      simp only [isBlank, Bool.or_eq_true, decide_eq_true_eq] at hc
      rcases hc with ((rfl | rfl) | rfl) | rfl <;> decide
    · simp only [List.cons.injEq] at h
      rw [h.1]; exact hd

theorem parseAtom_append {c : Char} {t : List Char} (h : parseAtom c cs = some (v, r))
    (hs : NumberStop (r ++ t)) : parseAtom c (cs ++ t) = some (v, r ++ t) := by
  unfold parseAtom at h ⊢
  cases hw : wordAt c with
  | some p =>
    obtain ⟨w, v'⟩ := p
    simp only [hw, Option.map_eq_some_iff, Prod.mk.injEq] at h ⊢
    obtain ⟨a, ha, rfl, rfl⟩ := h
    exact ⟨a ++ t, after?_append t ha, rfl, rfl⟩
  | none =>
    simp only [hw] at h ⊢
    split at h
    · rename_i hc
      have hhead : (cs ++ t).head? = some 'I' := by
        rw [List.head?_append, hc.2]; rfl
      rw [if_pos ⟨hc.1, hhead⟩]
      simp only [Option.map_eq_some_iff, Prod.mk.injEq] at h ⊢
      obtain ⟨a, ha, rfl, rfl⟩ := h
      exact ⟨a ++ t, after?_append t ha, rfl, rfl⟩
    · rename_i hc
      have hnum := parseNumber_append h hs
      have hc' : ¬ (c = '-' ∧ (cs ++ t).head? = some 'I') := by
        rintro ⟨rfl, hI⟩
        cases cs with
        | nil => simp [parseNumber, numberSpan, signSpan, wholeSpan] at h
        | cons d cs => exact hc ⟨rfl, by simpa using hI⟩
      rw [if_neg hc']
      exact hnum

/-- Fuel `n` reads the same from a longer text. -/
structure Extends (n : Nat) : Prop where
  value : ∀ cs v r t, parseValue n cs = some (v, r) → NumberStop (r ++ t) →
    parseValue n (cs ++ t) = some (v, r ++ t)
  items : ∀ cs xs r t, parseItems n cs = some (xs, r) → parseItems n (cs ++ t) = some (xs, r ++ t)
  members : ∀ cs kvs r t, parseMembers n cs = some (kvs, r) →
    parseMembers n (cs ++ t) = some (kvs, r ++ t)
  object : ∀ cs v r t, parseValue n ('{' :: cs) = some (v, r) →
    parseValue n ('{' :: cs ++ t) = some (v, r ++ t)

theorem object_append_step (ih : Extends n) {t : List Char}
    (h : parseValue (n + 1) ('{' :: cs) = some (v, r)) :
    parseValue (n + 1) ('{' :: cs ++ t) = some (v, r ++ t) := by
  simp only [List.cons_append, parseValue] at h ⊢
  rw [if_neg (by decide), if_pos trivial] at h ⊢
  cases hb : skipBlanks cs with
  | nil => simp [hb] at h
  | cons d rest =>
    rw [skipBlanks_append t hb]
    simp only [hb] at h ⊢
    split at h
    · rename_i hd
      simp only [Option.some.injEq, Prod.mk.injEq] at h
      rw [if_pos hd, ← h.1, ← h.2]
    · rename_i hd
      rw [if_neg hd]
      simp only [Option.map_eq_some_iff] at h ⊢
      obtain ⟨⟨kvs, r'⟩, hm, heq⟩ := h
      simp only [Prod.mk.injEq] at heq
      obtain ⟨rfl, rfl⟩ := heq
      exact ⟨(kvs, r' ++ t), ih.members _ _ _ t hm, rfl⟩

theorem array_append_step (ih : Extends n) {t : List Char}
    (h : parseValue (n + 1) ('[' :: cs) = some (v, r)) :
    parseValue (n + 1) ('[' :: cs ++ t) = some (v, r ++ t) := by
  simp only [List.cons_append, parseValue] at h ⊢
  rw [if_neg (by decide), if_neg (by decide), if_pos trivial] at h ⊢
  cases hb : skipBlanks cs with
  | nil => simp [hb] at h
  | cons d rest =>
    rw [skipBlanks_append t hb]
    simp only [hb] at h ⊢
    split at h
    · rename_i hd
      simp only [Option.some.injEq, Prod.mk.injEq] at h
      rw [if_pos hd, ← h.1, ← h.2]
    · rename_i hd
      rw [if_neg hd]
      simp only [Option.map_eq_some_iff] at h ⊢
      obtain ⟨⟨xs, r'⟩, hm, heq⟩ := h
      simp only [Prod.mk.injEq] at heq
      obtain ⟨rfl, rfl⟩ := heq
      exact ⟨(xs, r' ++ t), ih.items _ _ _ t hm, rfl⟩

theorem value_append_step (ih : Extends n) {t : List Char} (h : parseValue (n + 1) cs = some (v, r))
    (hs : NumberStop (r ++ t)) : parseValue (n + 1) (cs ++ t) = some (v, r ++ t) := by
  cases cs with
  | nil => simp [parseValue] at h
  | cons c cs =>
    by_cases hobj : c = '{'
    · subst hobj; exact object_append_step ih h
    by_cases harr : c = '['
    · subst harr; exact array_append_step ih h
    simp only [List.cons_append, parseValue, if_neg hobj, if_neg harr] at h ⊢
    split at h
    · rename_i hq
      rw [if_pos hq]
      simp only [Option.map_eq_some_iff] at h ⊢
      obtain ⟨⟨s, r'⟩, hsc, heq⟩ := h
      simp only [Prod.mk.injEq] at heq
      obtain ⟨rfl, rfl⟩ := heq
      exact ⟨(s, r' ++ t), scanString_append t hsc, rfl⟩
    · rename_i hq
      rw [if_neg hq]
      exact parseAtom_append h hs

theorem items_append_step (ih : Extends n) {t : List Char} {xs : List Value}
    (h : parseItems (n + 1) cs = some (xs, r)) :
    parseItems (n + 1) (cs ++ t) = some (xs, r ++ t) := by
  simp only [parseItems] at h ⊢
  cases hv : parseValue n cs with
  | none => simp [hv] at h
  | some p =>
    obtain ⟨x, r₁⟩ := p
    simp only [hv] at h
    cases hb : skipBlanks r₁ with
    | nil => simp [hb] at h
    | cons d rest =>
      simp only [hb] at h
      -- only a comma or a bracket gets past this point, and both end a number
      have hd : d = ',' ∨ d = ']' := by
        by_contra hne
        simp only [not_or] at hne
        simp [hne.1, hne.2] at h
      have hstop : NumberStop (r₁ ++ t) :=
        numberStop_of_skipBlanks hb (by rcases hd with rfl | rfl <;> decide)
      rw [ih.value _ _ _ t hv hstop]
      simp only [skipBlanks_append t hb]
      split at h
      · rename_i hc
        rw [if_pos hc]
        simp only [Option.map_eq_some_iff] at h ⊢
        obtain ⟨⟨ys, r'⟩, hm, heq⟩ := h
        simp only [Prod.mk.injEq] at heq
        obtain ⟨rfl, rfl⟩ := heq
        cases hb' : skipBlanks rest with
        | nil =>
          rw [hb'] at hm
          cases n with
          | zero => simp [parseItems] at hm
          | succ n => cases n <;> simp [parseItems, parseValue] at hm
        | cons d' rest' =>
          rw [skipBlanks_append t hb']
          rw [hb'] at hm
          exact ⟨(ys, r' ++ t), ih.items _ _ _ t hm, rfl⟩
      · rename_i hc
        rw [if_neg hc]
        split at h
        · rename_i he
          simp only [Option.some.injEq, Prod.mk.injEq] at h
          rw [if_pos he, ← h.1, ← h.2]
        · cases h

theorem members_append_step (ih : Extends n) {t : List Char} {kvs : List (String × Value)}
    (h : parseMembers (n + 1) cs = some (kvs, r)) :
    parseMembers (n + 1) (cs ++ t) = some (kvs, r ++ t) := by
  cases cs with
  | nil => simp [parseMembers] at h
  | cons c cs =>
    simp only [List.cons_append, parseMembers] at h ⊢
    split at h
    · cases h
    rename_i hq
    rw [if_neg hq]
    cases hk : scanString n cs with
    | none => simp [hk] at h
    | some p =>
      obtain ⟨k, r₁⟩ := p
      rw [scanString_append t hk]
      simp only [hk] at h ⊢
      cases hb : skipBlanks r₁ with
      | nil => simp [hb] at h
      | cons d r₂ =>
        rw [skipBlanks_append t hb]
        simp only [hb] at h ⊢
        split at h
        · cases h
        rename_i hcolon
        rw [if_neg hcolon]
        cases hb₂ : skipBlanks r₂ with
        | nil => rw [hb₂] at h; cases n <;> simp [parseValue] at h
        | cons d₂ r₃ =>
          rw [skipBlanks_append t hb₂]
          rw [hb₂] at h
          cases hv : parseValue n (d₂ :: r₃) with
          | none => simp [hv] at h
          | some p =>
            obtain ⟨x, r₄⟩ := p
            simp only [hv] at h
            cases hb₃ : skipBlanks r₄ with
            | nil => simp [hb₃] at h
            | cons d₃ rest =>
              simp only [hb₃] at h
              have hd : d₃ = ',' ∨ d₃ = '}' := by
                by_contra hne
                simp only [not_or] at hne
                simp [hne.1, hne.2] at h
              have hstop : NumberStop (r₄ ++ t) :=
                numberStop_of_skipBlanks hb₃ (by rcases hd with rfl | rfl <;> decide)
              have hv' := ih.value _ _ _ t hv hstop
              rw [List.cons_append] at hv'
              rw [hv']
              simp only [skipBlanks_append t hb₃]
              split at h
              · rename_i hc
                rw [if_pos hc]
                simp only [Option.map_eq_some_iff] at h ⊢
                obtain ⟨⟨kvs', r'⟩, hm, heq⟩ := h
                simp only [Prod.mk.injEq] at heq
                obtain ⟨rfl, rfl⟩ := heq
                cases hb₄ : skipBlanks rest with
                | nil => rw [hb₄] at hm; cases n <;> simp [parseMembers] at hm
                | cons d₄ rest' =>
                  rw [skipBlanks_append t hb₄]
                  rw [hb₄] at hm
                  exact ⟨(kvs', r' ++ t), ih.members _ _ _ t hm, rfl⟩
              · rename_i hc
                rw [if_neg hc]
                split at h
                · rename_i he
                  simp only [Option.some.injEq, Prod.mk.injEq] at h
                  rw [if_pos he, ← h.1, ← h.2]
                · cases h

theorem extends_all : ∀ n, Extends n
  | 0 => ⟨by simp [parseValue], by simp [parseItems], by simp [parseMembers],
      by simp [parseValue]⟩
  | n + 1 =>
    have ih := extends_all n
    ⟨fun _ _ _ _ => value_append_step ih, fun _ _ _ _ => items_append_step ih,
      fun _ _ _ _ => members_append_step ih, fun _ _ _ _ => object_append_step ih⟩

/-- A value read from a text is read from every longer text that does not
continue a number where the value ended. -/
theorem value_append {t : List Char} (h : parseValue n cs = some (v, r)) (hs : NumberStop (r ++ t)) :
    parseValue n (cs ++ t) = some (v, r ++ t) := (extends_all n).value _ _ _ t h hs

/-- An object read from a text is read from every longer text. -/
theorem object_append (h : parseValue n ('{' :: cs) = some (v, r)) :
    parseValue n ('{' :: cs ++ t) = some (v, r ++ t) := (extends_all n).object _ _ _ t h

/-! ## Fuel -/

/-- Fuel `n` reads what any larger fuel reads. -/
structure FuelMono (n : Nat) : Prop where
  value : ∀ m cs x, n ≤ m → parseValue n cs = some x → parseValue m cs = some x
  items : ∀ m cs x, n ≤ m → parseItems n cs = some x → parseItems m cs = some x
  members : ∀ m cs x, n ≤ m → parseMembers n cs = some x → parseMembers m cs = some x

theorem value_fuel_step (ih : FuelMono n) (hnm : n ≤ m) (h : parseValue (n + 1) cs = some x) :
    parseValue (m + 1) cs = some x := by
  cases cs with
  | nil => simp [parseValue] at h
  | cons c cs =>
    simp only [parseValue] at h ⊢
    split at h
    · rename_i hq
      rw [if_pos hq]
      simp only [Option.map_eq_some_iff] at h ⊢
      obtain ⟨y, hy, heq⟩ := h
      exact ⟨y, scanString_fuel hy hnm, heq⟩
    · rename_i hq
      rw [if_neg hq]
      split at h
      · rename_i hobj
        rw [if_pos hobj]
        cases hb : skipBlanks cs with
        | nil => simp [hb] at h
        | cons d rest =>
          simp only [hb] at h ⊢
          split at h
          · rename_i hd; rw [if_pos hd]; exact h
          · rename_i hd
            rw [if_neg hd]
            simp only [Option.map_eq_some_iff] at h ⊢
            obtain ⟨y, hy, heq⟩ := h
            exact ⟨y, ih.members _ _ _ hnm hy, heq⟩
      · rename_i hobj
        rw [if_neg hobj]
        split at h
        · rename_i harr
          rw [if_pos harr]
          cases hb : skipBlanks cs with
          | nil => simp [hb] at h
          | cons d rest =>
            simp only [hb] at h ⊢
            split at h
            · rename_i hd; rw [if_pos hd]; exact h
            · rename_i hd
              rw [if_neg hd]
              simp only [Option.map_eq_some_iff] at h ⊢
              obtain ⟨y, hy, heq⟩ := h
              exact ⟨y, ih.items _ _ _ hnm hy, heq⟩
        · rename_i harr
          rw [if_neg harr]
          exact h

theorem items_fuel_step (ih : FuelMono n) {x : List Value × List Char} (hnm : n ≤ m)
    (h : parseItems (n + 1) cs = some x) : parseItems (m + 1) cs = some x := by
  simp only [parseItems] at h ⊢
  cases hv : parseValue n cs with
  | none => simp [hv] at h
  | some p =>
    rw [ih.value _ _ _ hnm hv]
    simp only [hv] at h ⊢
    cases hb : skipBlanks p.2 with
    | nil => simp [hb] at h
    | cons d rest =>
      simp only [hb] at h ⊢
      split at h
      · rename_i hc
        rw [if_pos hc]
        simp only [Option.map_eq_some_iff] at h ⊢
        obtain ⟨y, hy, heq⟩ := h
        exact ⟨y, ih.items _ _ _ hnm hy, heq⟩
      · rename_i hc; rw [if_neg hc]; exact h

theorem members_fuel_step (ih : FuelMono n) {x : List (String × Value) × List Char} (hnm : n ≤ m)
    (h : parseMembers (n + 1) cs = some x) : parseMembers (m + 1) cs = some x := by
  cases cs with
  | nil => simp [parseMembers] at h
  | cons c cs =>
    simp only [parseMembers] at h ⊢
    split at h
    · cases h
    rename_i hq
    rw [if_neg hq]
    cases hk : scanString n cs with
    | none => simp [hk] at h
    | some p =>
      rw [scanString_fuel hk hnm]
      simp only [hk] at h ⊢
      cases hb : skipBlanks p.2 with
      | nil => simp [hb] at h
      | cons d r₂ =>
        simp only [hb] at h ⊢
        split at h
        · cases h
        rename_i hcolon
        rw [if_neg hcolon]
        cases hv : parseValue n (skipBlanks r₂) with
        | none => simp [hv] at h
        | some q =>
          rw [ih.value _ _ _ hnm hv]
          simp only [hv] at h ⊢
          cases hb₃ : skipBlanks q.2 with
          | nil => simp [hb₃] at h
          | cons d₃ rest =>
            simp only [hb₃] at h ⊢
            split at h
            · rename_i hc
              rw [if_pos hc]
              simp only [Option.map_eq_some_iff] at h ⊢
              obtain ⟨y, hy, heq⟩ := h
              exact ⟨y, ih.members _ _ _ hnm hy, heq⟩
            · rename_i hc; rw [if_neg hc]; exact h

theorem fuelMono_all : ∀ n, FuelMono n
  | 0 => ⟨by simp [parseValue], by simp [parseItems], by simp [parseMembers]⟩
  | n + 1 => by
    have ih := fuelMono_all n
    refine ⟨?_, ?_, ?_⟩ <;> intro m cs x hm h <;>
      obtain ⟨m, rfl⟩ : ∃ k, m = k + 1 := ⟨m - 1, by omega⟩
    · exact value_fuel_step ih (by omega) h
    · exact items_fuel_step ih (by omega) h
    · exact members_fuel_step ih (by omega) h

theorem value_fuel (hnm : n ≤ m) (h : parseValue n cs = some x) : parseValue m cs = some x :=
  (fuelMono_all n).value m cs x hnm h

end TraderBot.Lib.Json
