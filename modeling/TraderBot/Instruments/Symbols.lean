import TraderBot.Inbox.Model
import TraderBot.TerminalExchange.Model

/-! # What an instrument is called

Four functions cut an instrument's text down to a name. Three of them keep what stands before the product and the
venue; the scope of a cancel takes four suffixes off and joins what is left (`agree_iff`). -/
namespace TraderBot.Instruments
open TraderBot.Lib TraderBot.Lib.Text TraderBot.Lib.Json
open TraderBot.Orders (Env venueSymbol)
open TraderBot.Ownership (canonicalSymbol)
open TraderBot.Inbox (positionSymbol)
open TraderBot.TerminalExchange (canonicalExchangeSymbol terminalExchangeInstrumentMatches withoutSuffix
  exchangeSuffixes)

/-- The four say the same of two texts. -/
def Agree (env : Env) (a b : String) : Prop :=
  (venueSymbol env.unicode a = venueSymbol env.unicode b ↔
    canonicalSymbol env (some (.str a)) = canonicalSymbol env (some (.str b))) ∧
  (venueSymbol env.unicode a = venueSymbol env.unicode b ↔
    positionSymbol env.unicode a = positionSymbol env.unicode b) ∧
  (venueSymbol env.unicode a = venueSymbol env.unicode b ↔
    terminalExchangeInstrumentMatches env.unicode a [b] = true)

/-! ## Spellings -/

def separators : List Char := ['-', '.', '/']

/-- Letters and digits, and what `str.upper` makes of them: it works on each character by itself, and no letter or
digit becomes a separator. -/
structure Alphabet (unicode : Unicode) where
  isAlnum : Char → Bool
  notSpace : ∀ c, isAlnum c = true → isSpace c = false
  notSeparator : ∀ c, isAlnum c = true → c ∉ separators
  upper_append : ∀ s t, unicode.upper (s ++ t) = unicode.upper s ++ unicode.upper t
  upper_notSeparator : ∀ c, isAlnum c = true → ∀ d ∈ (unicode.upper (String.ofList [c])).toList,
    d ∉ separators

section
variable {unicode : Unicode}

/-- A text of letters and digits. -/
structure Part (alphabet : Alphabet unicode) where
  chars : List Char
  nonempty : chars ≠ []
  alnum : ∀ c ∈ chars, alphabet.isAlnum c = true

variable {alphabet : Alphabet unicode}

def Part.upper (part : Part alphabet) : List Char := (unicode.upper (String.ofList part.chars)).toList

/-- A symbol with or without a product and a venue, or a base that is quoted in USDT. -/
inductive Spelling (alphabet : Alphabet unicode) where
  | listed (symbol : Part alphabet) (product venue : Option (Part alphabet))
  | quoted (base quote : Part alphabet) (usdt : quote.upper = "USDT".toList)

/-- A part behind its separator. -/
def tail (sep : Char) : Option (List Char) → List Char
  | none => []
  | some cs => sep :: cs

def Spelling.chars : Spelling alphabet → List Char
  | .listed symbol product venue =>
    symbol.chars ++ tail '-' (product.map Part.chars) ++ tail '.' (venue.map Part.chars)
  | .quoted base quote _ => base.chars ++ '/' :: quote.chars

/-- A spelling with whitespace around it. -/
structure InstrumentText (alphabet : Alphabet unicode) where
  spelling : Spelling alphabet
  leading : List Char
  trailing : List Char
  leading_space : ∀ c ∈ leading, isSpace c = true
  trailing_space : ∀ c ∈ trailing, isSpace c = true

def InstrumentText.str (text : InstrumentText alphabet) : String :=
  String.ofList (text.leading ++ text.spelling.chars ++ text.trailing)

/-- The symbol, in upper case. -/
def Spelling.symbol : Spelling alphabet → List Char
  | .listed symbol _ _ => symbol.upper
  | .quoted base _ _ => base.upper

def Spelling.isQuoted : Spelling alphabet → Bool
  | .listed _ _ _ => false
  | .quoted _ _ _ => true

/-- The product, but a perpetual. -/
def otherProduct (product : Part alphabet) : List Char :=
  if product.upper = "PERP".toList then [] else product.upper

/-- The product and the venue, but `-PERP`, `.BINANCE` and both at the end. -/
def Spelling.leftover : Spelling alphabet → List Char
  | .listed _ none none => []
  | .listed _ (some product) none => otherProduct product
  | .listed _ none (some venue) => if venue.upper = "BINANCE".toList then [] else venue.upper
  | .listed _ (some product) (some venue) =>
    if venue.upper = "BINANCE".toList then otherProduct product else product.upper ++ venue.upper
  | .quoted _ _ _ => []

/-- One symbol, that is quoted in both texts or in none. -/
def Spelling.SameInstrument (a b : Spelling alphabet) : Prop :=
    a.symbol = b.symbol ∧ a.isQuoted = b.isQuoted

/-- The ASCII letters and digits of a text in upper case. -/
def plainChars (cs : List Char) : List Char :=
    cs.filter fun c => ('A' ≤ c && c ≤ 'Z') || ('0' ≤ c && c ≤ '9')

/-- What a scope keeps of products and venues neither splits an instrument nor joins two. -/
def Spelling.KeptApart (a b : Spelling alphabet) : Prop :=
  (a.SameInstrument b → plainChars a.leftover = plainChars b.leftover) ∧
  (¬ a.SameInstrument b → plainChars (a.symbol ++ a.leftover) ≠ plainChars (b.symbol ++ b.leftover))

/-! ## Characters -/

variable (part : Part alphabet) {sep : Char}

theorem Part.notSeparator (hsep : sep ∈ separators) : sep ∉ part.chars :=
  fun hmem => alphabet.notSeparator sep (part.alnum sep hmem) hsep

theorem upper_sep (hsep : sep ∈ separators) :
    unicode.upper (String.ofList [sep]) = String.ofList [sep] := by
  simp only [separators, List.mem_cons, List.not_mem_nil, or_false] at hsep
  rcases hsep with rfl | rfl | rfl
  all_goals rw [unicode.upper_ascii _ (by decide)]; rfl

/-- Upper case is that of the parts around a separator. -/
theorem upper_around (alphabet : Alphabet unicode) (hsep : sep ∈ separators) (cs ds : List Char) :
    (unicode.upper (String.ofList (cs ++ sep :: ds))).toList =
      (unicode.upper (String.ofList cs)).toList ++ sep :: (unicode.upper (String.ofList ds)).toList := by
  have hsplit : String.ofList (cs ++ sep :: ds) =
    String.ofList cs ++ (String.ofList [sep] ++ String.ofList ds) := by
    rw [← String.ofList_append, ← String.ofList_append]
    rfl
  rw [hsplit, alphabet.upper_append, alphabet.upper_append, upper_sep hsep]
  simp

theorem upper_notSeparator {cs : List Char} (hcs : ∀ c ∈ cs, alphabet.isAlnum c = true)
    (hsep : sep ∈ separators) : sep ∉ (unicode.upper (String.ofList cs)).toList := by
  induction cs with
  | nil =>
    rw [unicode.upper_ascii _ (by decide)]
    simp
  | cons c cs ih =>
    have hsplit : String.ofList (c :: cs) = String.ofList [c] ++ String.ofList cs := by
      rw [← String.ofList_append]
      rfl
    rw [hsplit, alphabet.upper_append, String.toList_append, List.mem_append, not_or]
    exact ⟨fun hmem => alphabet.upper_notSeparator c (hcs c List.mem_cons_self) sep hmem hsep,
      ih fun d hd => hcs d (List.mem_cons_of_mem _ hd)⟩

theorem Part.upper_notSeparator (hsep : sep ∈ separators) : sep ∉ part.upper :=
  Instruments.upper_notSeparator part.alnum hsep

theorem Part.notSpace : ∀ c ∈ part.chars, isSpace c = false :=
  fun c hc => alphabet.notSpace c (part.alnum c hc)

end

section
variable {sep : Char}

variable {cs ds : List Char}

theorem takeWhile_around (h : sep ∉ cs) : (cs ++ sep :: ds).takeWhile (· != sep) = cs := by
  have hcs : ∀ c ∈ cs, (c != sep) = true := fun c hc => bne_iff_ne.mpr fun heq => h (heq ▸ hc)
  rw [List.takeWhile_append_of_pos hcs, List.takeWhile_cons_of_neg (by simp), List.append_nil]

theorem before_around (h : sep ∉ cs) :
    before sep (String.ofList (cs ++ sep :: ds)) = String.ofList cs := by
  rw [before, String.toList_ofList, takeWhile_around h]

theorem before_plain (h : sep ∉ cs) : before sep (String.ofList cs) = String.ofList cs :=
  before_of_not_mem (by rwa [String.toList_ofList])

theorem before_tail (h : sep ∉ cs) (rest : Option (List Char)) :
    before sep (String.ofList (cs ++ tail sep rest)) = String.ofList cs := by
  cases rest with
  | none =>
    rw [tail, List.append_nil]
    exact before_plain h
  | some ds => exact before_around h

theorem notMem_around {other : Char} (hne : sep ≠ other) (hcs : sep ∉ cs) (hds : sep ∉ ds) :
    sep ∉ cs ++ other :: ds := by
  simp [hne, hcs, hds]

/-- What stands around the first separator is determined. -/
theorem around_inj {a b c d : List Char} (ha : sep ∉ a) (hc : sep ∉ c) : a ++ sep :: b = c ++ sep :: d ↔
    a = c ∧ b = d := by
  constructor
  · intro h
    have hfront := congrArg (List.takeWhile (· != sep)) h
    rw [takeWhile_around ha, takeWhile_around hc] at hfront
    subst hfront
    exact ⟨rfl, (List.cons.inj (List.append_cancel_left h)).2⟩
  · rintro ⟨rfl, rfl⟩
    rfl

/-- A text ends in a separator and a word without one iff the word is all that stands behind the last separator. -/
theorem suffix_around_iff {w : List Char} (hw : sep ∉ w) (hds : sep ∉ ds) :
    sep :: w <:+ cs ++ sep :: ds ↔ w = ds := by
  constructor
  · rintro ⟨front, h⟩
    have hback := congrArg List.reverse h
    simp only [List.reverse_append, List.reverse_cons, List.append_assoc, List.singleton_append] at hback
    exact List.reverse_inj.mp ((around_inj (by rwa [List.mem_reverse]) (by rwa [List.mem_reverse])).mp hback).1
  · rintro rfl
    exact List.suffix_append cs _

theorem not_suffix {w : List Char} (hw : sep ∈ w) (hcs : sep ∉ cs) : ¬ w <:+ cs :=
    fun h => hcs (h.subset hw)

theorem take_suffix (cs w : List Char) : (cs ++ w).take ((cs ++ w).length - w.length) = cs := by
  rw [List.length_append, Nat.add_sub_cancel, List.take_left']
  rfl

end

/-- Whitespace around a text without any is what `str.strip` removes. -/
theorem strip_around {leading cs trailing : List Char} (hleading : ∀ c ∈ leading, isSpace c = true)
    (htrailing : ∀ c ∈ trailing, isSpace c = true) (hne : cs ≠ []) (hcs : ∀ c ∈ cs, isSpace c = false) :
    strip (String.ofList (leading ++ cs ++ trailing)) = String.ofList cs := by
  have hfront : (leading ++ cs ++ trailing).dropWhile isSpace = cs ++ trailing := by
    rw [List.append_assoc, List.dropWhile_append_of_pos hleading]
    obtain ⟨c, rest, rfl⟩ := List.exists_cons_of_ne_nil hne
    exact List.dropWhile_cons_of_neg (by rw [hcs c List.mem_cons_self]; exact Bool.false_ne_true)
  have hback : (cs ++ trailing).reverse.dropWhile isSpace = cs.reverse := by
    rw [List.reverse_append, List.dropWhile_append_of_pos fun c hc => htrailing c (List.mem_reverse.mp hc)]
    exact dropWhile_eq_self_of_head _ _ fun c hc => hcs c (List.mem_reverse.mp (List.mem_of_mem_head? hc))
  rw [strip, String.toList_ofList, stripWhere, hfront, hback, List.reverse_reverse]

/-! ## The names -/

section
variable {unicode : Unicode} {alphabet : Alphabet unicode}

/-- What the three functions keep. -/
def Spelling.name : Spelling alphabet → List Char
  | .listed symbol _ _ => symbol.upper
  | .quoted base _ _ => base.upper ++ '/' :: "USDT".toList

/-- A spelling in upper case. -/
def Spelling.upper : Spelling alphabet → List Char
  | .listed symbol product venue =>
    symbol.upper ++ tail '-' (product.map Part.upper) ++ tail '.' (venue.map Part.upper)
  | .quoted base _ _ => base.upper ++ '/' :: "USDT".toList

theorem Spelling.name_eq_iff (a b : Spelling alphabet) : a.name = b.name ↔ a.SameInstrument b := by
  have hslash : ∀ (symbol base : Part alphabet), symbol.upper ≠ base.upper ++ '/' :: "USDT".toList := by
    intro symbol base h
    have hslash : '/' ∉ symbol.upper := symbol.upper_notSeparator (by decide)
    refine hslash ?_
    rw [h]
    exact List.mem_append_right _ List.mem_cons_self
  cases a with
  | listed symbol _ _ =>
    cases b with
    | listed symbol' _ _ => exact (and_iff_left rfl).symm
    | quoted base _ _ => exact iff_of_false (hslash symbol base) fun h => by cases h.2
  | quoted base _ _ =>
    cases b with
    | listed symbol _ _ => exact iff_of_false (fun h => hslash symbol base h.symm) fun h => by cases h.2
    | quoted base' _ _ => exact (List.append_left_inj _).trans (and_iff_left rfl).symm

variable {sep : Char} (spelling : Spelling alphabet) (text : InstrumentText alphabet)

theorem tail_notSpace (hsep : isSpace sep = false) (part : Option (Part alphabet)) :
    ∀ c ∈ tail sep (part.map Part.chars), isSpace c = false := by
  cases part with
  | none => exact fun c hc => by cases hc
  | some part =>
    intro c hc
    rcases List.mem_cons.mp hc with rfl | hc
    · exact hsep
    · exact part.notSpace c hc

theorem Spelling.chars_notSpace : ∀ c ∈ spelling.chars, isSpace c = false := by
  cases spelling with
  | listed symbol product venue =>
    intro c hc
    rcases List.mem_append.mp hc with hc | hc
    · rcases List.mem_append.mp hc with hc | hc
      · exact symbol.notSpace c hc
      · exact tail_notSpace (by decide) product c hc
    · exact tail_notSpace (by decide) venue c hc
  | quoted base quote _ =>
    intro c hc
    rcases List.mem_append.mp hc with hc | hc
    · exact base.notSpace c hc
    · exact tail_notSpace (by decide) (some quote) c hc

theorem Spelling.chars_ne_nil : spelling.chars ≠ [] := by
  cases spelling with
  | listed symbol _ _ => simp [Spelling.chars, symbol.nonempty]
  | quoted base _ _ => simp [Spelling.chars]

theorem InstrumentText.strip_eq : strip text.str = String.ofList text.spelling.chars :=
  strip_around text.leading_space text.trailing_space text.spelling.chars_ne_nil text.spelling.chars_notSpace

theorem upper_tail (hsep : sep ∈ separators) (cs : List Char) (part : Option (Part alphabet)) :
    (unicode.upper (String.ofList (cs ++ tail sep (part.map Part.chars)))).toList =
      (unicode.upper (String.ofList cs)).toList ++ tail sep (part.map Part.upper) := by
  cases part with
  | none => simp [tail]
  | some part => exact upper_around alphabet hsep cs part.chars

theorem Spelling.upper_eq :
    unicode.upper (String.ofList spelling.chars) = String.ofList spelling.upper := by
  refine String.toList_inj.mp ?_
  rw [String.toList_ofList]
  cases spelling with
  | listed symbol product venue =>
    rw [Spelling.chars, upper_tail (by decide), upper_tail (by decide)]
    rfl
  | quoted base quote husdt =>
    rw [Spelling.chars, upper_around alphabet (by decide)]
    exact congrArg (base.upper ++ '/' :: ·) husdt

theorem tail_notMem {other : Char} (hne : sep ≠ other) (hsep : sep ∈ separators)
    (part : Option (Part alphabet)) :
    sep ∉ tail other (part.map Part.chars) ∧ sep ∉ tail other (part.map Part.upper) := by
  cases part with
  | none => simp [tail]
  | some part => simp [tail, hne, part.notSeparator hsep, part.upper_notSeparator hsep]

/-- `venue_symbol` of a spelling. -/
theorem venueSymbol_eq : venueSymbol unicode text.str = String.ofList text.spelling.name := by
  rw [venueSymbol, text.strip_eq]
  cases text.spelling with
  | listed symbol product venue =>
    have hdot : '.' ∉ symbol.chars ++ tail '-' (product.map Part.chars) := by
      rw [List.mem_append, not_or]
      exact ⟨symbol.notSeparator (by decide), (tail_notMem (by decide) (by decide) product).1⟩
    rw [Spelling.chars, before_tail hdot, before_tail (symbol.notSeparator (by decide)), strip, String.toList_ofList,
      stripWhere_eq_self symbol.notSpace]
    exact (String.ofList_toList).symm
  | quoted base quote husdt =>
    have hdash : '-' ∉ base.chars ++ '/' :: quote.chars :=
      notMem_around (by decide) (base.notSeparator (by decide)) (quote.notSeparator (by decide))
    have hdot : '.' ∉ base.chars ++ '/' :: quote.chars :=
      notMem_around (by decide) (base.notSeparator (by decide)) (quote.notSeparator (by decide))
    have hstrip := stripWhere_eq_self (Spelling.quoted base quote husdt).chars_notSpace
    rw [Spelling.chars] at hstrip
    rw [Spelling.chars, before_plain hdot, before_plain hdash, strip, String.toList_ofList, hstrip]
    exact (Spelling.quoted base quote husdt).upper_eq

/-- `_position_symbol` of a spelling. -/
theorem positionSymbol_eq : positionSymbol unicode text.str = String.ofList text.spelling.name := by
  rw [positionSymbol, text.strip_eq, Spelling.upper_eq]
  cases text.spelling with
  | listed symbol product venue =>
    have hdash : '-' ∉ symbol.upper := symbol.upper_notSeparator (by decide)
    have hdot : '.' ∉ symbol.upper := symbol.upper_notSeparator (by decide)
    cases product with
    | none =>
      have hnone : '-' ∉ symbol.upper ++ tail '.' (venue.map Part.upper) := by
        rw [List.mem_append, not_or]
        exact ⟨hdash, (tail_notMem (by decide) (by decide) venue).2⟩
      have hfront : before '-' (String.ofList (Spelling.listed symbol none venue).upper) =
          String.ofList (symbol.upper ++ tail '.' (venue.map Part.upper)) := by
        rw [Spelling.upper, Option.map_none, tail, List.append_nil, before_plain hnone]
      rw [hfront, before_tail hdot]
      rfl
    | some product =>
      rw [Spelling.upper, List.append_assoc, Option.map_some, tail, List.cons_append, before_around hdash,
        before_plain hdot]
      rfl
  | quoted base _ _ =>
    have hdash : '-' ∉ base.upper ++ '/' :: "USDT".toList :=
      notMem_around (by decide) (base.upper_notSeparator (by decide)) (by decide)
    have hdot : '.' ∉ base.upper ++ '/' :: "USDT".toList :=
      notMem_around (by decide) (base.upper_notSeparator (by decide)) (by decide)
    rw [Spelling.upper, before_plain hdash, before_plain hdot]
    rfl

end

/-! ## The scope of a cancel -/

theorem withoutSuffix_nil (cs : List Char) : withoutSuffix [] cs = cs := rfl

theorem withoutSuffix_hit (w : String) (ws : List String) (cs : List Char) :
    withoutSuffix (w :: ws) (cs ++ w.toList) = cs := by
  have hfind : (w :: ws).find? (fun suffix => suffix.toList.isSuffixOf (cs ++ w.toList)) = some w :=
    List.find?_cons_of_pos (List.isSuffixOf_iff_suffix.mpr (List.suffix_append cs _))
  rw [withoutSuffix, hfind]
  exact take_suffix cs w.toList

theorem withoutSuffix_skip {w : String} {cs : List Char} (h : ¬ w.toList <:+ cs) (ws : List String) :
    withoutSuffix (w :: ws) cs = withoutSuffix ws cs := by
  have hfind : (w :: ws).find? (fun suffix => suffix.toList.isSuffixOf cs) =
      ws.find? fun suffix => suffix.toList.isSuffixOf cs :=
    List.find?_cons_of_neg fun hsuffix => h (List.isSuffixOf_iff_suffix.mp hsuffix)
  rw [withoutSuffix, hfind]
  rfl

section
variable {unicode : Unicode} {alphabet : Alphabet unicode}

theorem plainChars_append (a b : List Char) : plainChars (a ++ b) = plainChars a ++ plainChars b :=
    List.filter_append ..

variable (cs : List Char)

theorem plainChars_dash : plainChars ('-' :: cs) = plainChars cs := rfl

theorem plainChars_dot : plainChars ('.' :: cs) = plainChars cs := rfl

/-- A text without the separator of a suffix keeps it. -/
theorem withoutSuffix_skip_sep {w : String} {cs : List Char} (sep : Char) (hw : sep ∈ w.toList)
    (hcs : sep ∉ cs)
    (ws : List String) : withoutSuffix (w :: ws) cs = withoutSuffix ws cs :=
      withoutSuffix_skip (not_suffix hw hcs) ws

theorem product_leftover (symbol product : Part alphabet) :
    plainChars (withoutSuffix ["-PERP", "/USDT"] (symbol.upper ++ '-' :: product.upper)) =
      plainChars (symbol.upper ++ otherProduct product) := by
  have hslash : '/' ∉ symbol.upper ++ '-' :: product.upper :=
    notMem_around (by decide) (symbol.upper_notSeparator (by decide)) (product.upper_notSeparator (by decide))
  unfold otherProduct
  by_cases hperp : product.upper = "PERP".toList
  · rw [if_pos hperp, hperp]
    exact congrArg plainChars ((withoutSuffix_hit "-PERP" _ symbol.upper).trans (List.append_nil _).symm)
  · have hother : ¬ "-PERP".toList <:+ symbol.upper ++ '-' :: product.upper := by
      refine fun hsuffix => hperp ((suffix_around_iff ?_ ?_).mp hsuffix).symm
      · decide
      · exact product.upper_notSeparator (by decide)
    rw [if_neg hperp, withoutSuffix_skip hother, withoutSuffix_skip_sep '/' (by decide) hslash, withoutSuffix_nil,
      plainChars_append, plainChars_append, plainChars_dash]

theorem venue_leftover (symbol venue : Part alphabet) :
    plainChars (withoutSuffix exchangeSuffixes (symbol.upper ++ '.' :: venue.upper)) =
      plainChars (symbol.upper ++ (Spelling.listed symbol none (some venue)).leftover) := by
  have hsymbol : ∀ sep ∈ separators, sep ∉ symbol.upper := fun sep hsep => symbol.upper_notSeparator hsep
  have hvenue : ∀ sep ∈ separators, sep ∉ venue.upper := fun sep hsep => venue.upper_notSeparator hsep
  have hdash : '-' ∉ symbol.upper ++ '.' :: venue.upper :=
    notMem_around (by decide) (hsymbol _ (by decide)) (hvenue _ (by decide))
  have hslash : '/' ∉ symbol.upper ++ '.' :: venue.upper :=
    notMem_around (by decide) (hsymbol _ (by decide)) (hvenue _ (by decide))
  unfold exchangeSuffixes Spelling.leftover
  rw [withoutSuffix_skip_sep '-' (by decide) hdash]
  by_cases hbinance : venue.upper = "BINANCE".toList
  · dsimp only
    rw [if_pos hbinance, hbinance]
    exact congrArg plainChars ((withoutSuffix_hit ".BINANCE" _ symbol.upper).trans (List.append_nil _).symm)
  · have hother : ¬ ".BINANCE".toList <:+ symbol.upper ++ '.' :: venue.upper :=
      fun hsuffix => hbinance ((suffix_around_iff (by decide) (hvenue _ (by decide))).mp hsuffix).symm
    dsimp only
    rw [if_neg hbinance, withoutSuffix_skip hother, withoutSuffix_skip_sep '-' (by decide) hdash,
      withoutSuffix_skip_sep '/' (by decide) hslash, withoutSuffix_nil, plainChars_append,
        plainChars_append]
    rfl

theorem both_leftover (symbol product venue : Part alphabet) :
    plainChars (withoutSuffix exchangeSuffixes (symbol.upper ++ '-' :: product.upper ++ '.' :: venue.upper)) =
      plainChars (symbol.upper ++ (Spelling.listed symbol (some product) (some venue)).leftover) := by
  have hsymbol : ∀ sep ∈ separators, sep ∉ symbol.upper := fun sep hsep => symbol.upper_notSeparator hsep
  have hvenue : ∀ sep ∈ separators, sep ∉ venue.upper := fun sep hsep => venue.upper_notSeparator hsep
  have hproduct : ∀ sep ∈ separators, sep ∉ product.upper := fun sep hsep => product.upper_notSeparator hsep
  have hslash : '/' ∉ (symbol.upper ++ '-' :: product.upper) ++ '.' :: venue.upper :=
    notMem_around (by decide) (notMem_around (by decide) (hsymbol _ (by decide)) (hproduct _ (by decide)))
      (hvenue _ (by decide))
  unfold exchangeSuffixes Spelling.leftover
  dsimp only
  by_cases hbinance : venue.upper = "BINANCE".toList
  · rw [if_pos hbinance, hbinance]
    unfold otherProduct
    by_cases hperp : product.upper = "PERP".toList
    · rw [if_pos hperp, hperp, List.append_assoc]
      exact congrArg plainChars ((withoutSuffix_hit "-PERP.BINANCE" _ symbol.upper).trans (List.append_nil _).symm)
    · have hboth : ¬ "-PERP.BINANCE".toList <:+ symbol.upper ++ '-' :: product.upper ++ '.' :: "BINANCE".toList := by
        intro hsuffix
        rw [List.append_assoc] at hsuffix
        have hbehind := (suffix_around_iff (by decide)
          (notMem_around (by decide) (hproduct _ (by decide)) (by decide))).mp hsuffix
        exact hperp ((around_inj (by decide) (hproduct '.' (by decide))).mp hbehind).1.symm
      rw [if_neg hperp, withoutSuffix_skip hboth]
      have hhit := withoutSuffix_hit ".BINANCE" ["-PERP", "/USDT"] (symbol.upper ++ '-' :: product.upper)
      refine (congrArg plainChars hhit).trans ?_
      rw [plainChars_append, plainChars_append, plainChars_dash]
  · have hvenueEnd : ¬ ".BINANCE".toList <:+ symbol.upper ++ '-' :: product.upper ++ '.' :: venue.upper :=
      fun hsuffix => hbinance ((suffix_around_iff (by decide) (hvenue _ (by decide))).mp hsuffix).symm
    have hboth : ¬ "-PERP.BINANCE".toList <:+ symbol.upper ++ '-' :: product.upper ++ '.' :: venue.upper :=
      fun hsuffix => hvenueEnd ((List.suffix_append "-PERP".toList ".BINANCE".toList).trans hsuffix)
    have hproductEnd : ¬ "-PERP".toList <:+ symbol.upper ++ '-' :: product.upper ++ '.' :: venue.upper := by
      intro hsuffix
      rw [List.append_assoc] at hsuffix
      have hbehind : "PERP".toList = product.upper ++ '.' :: venue.upper := (suffix_around_iff (by decide)
        (notMem_around (by decide) (hproduct _ (by decide)) (hvenue _ (by decide)))).mp hsuffix
      have hdot : '.' ∈ "PERP".toList := hbehind ▸ List.mem_append_right _ List.mem_cons_self
      exact absurd hdot (by decide)
    rw [if_neg hbinance, withoutSuffix_skip hboth, withoutSuffix_skip hvenueEnd, withoutSuffix_skip hproductEnd,
      withoutSuffix_skip_sep '/' (by decide) hslash, withoutSuffix_nil]
    simp only [plainChars_append, plainChars_dash, plainChars_dot, List.append_assoc]

/-- What a scope keeps of a spelling. -/
theorem Spelling.withoutSuffix_eq (spelling : Spelling alphabet) :
    plainChars (withoutSuffix exchangeSuffixes spelling.upper) =
      plainChars (spelling.symbol ++ spelling.leftover) := by
  cases spelling with
  | quoted base quote husdt =>
    unfold exchangeSuffixes
    have hdash : '-' ∉ base.upper ++ '/' :: "USDT".toList :=
      notMem_around (by decide) (base.upper_notSeparator (by decide)) (by decide)
    have hdot : '.' ∉ base.upper ++ '/' :: "USDT".toList :=
      notMem_around (by decide) (base.upper_notSeparator (by decide)) (by decide)
    rw [Spelling.upper, withoutSuffix_skip_sep '-' (by decide) hdash, withoutSuffix_skip_sep '.' (by decide) hdot,
      withoutSuffix_skip_sep '-' (by decide) hdash]
    exact congrArg plainChars ((withoutSuffix_hit "/USDT" _ base.upper).trans (List.append_nil _).symm)
  | listed symbol product venue =>
    cases venue with
    | none =>
      have hsymbol : ∀ sep ∈ separators, sep ∉ symbol.upper :=
        fun sep hsep => symbol.upper_notSeparator hsep
      unfold exchangeSuffixes
      cases product with
      | none =>
        rw [Spelling.upper, Option.map_none, tail, tail, List.append_nil, List.append_nil,
          withoutSuffix_skip_sep '-' (by decide) (hsymbol _ (by decide)),
          withoutSuffix_skip_sep '.' (by decide) (hsymbol _ (by decide)),
          withoutSuffix_skip_sep '-' (by decide) (hsymbol _ (by decide)),
          withoutSuffix_skip_sep '/' (by decide) (hsymbol _ (by decide))]
        exact congrArg plainChars (List.append_nil _).symm
      | some product =>
        have hdot : '.' ∉ symbol.upper ++ '-' :: product.upper :=
          notMem_around (by decide) (hsymbol _ (by decide)) (product.upper_notSeparator (by decide))
        rw [Spelling.upper, Option.map_none, Option.map_some, tail, tail, List.append_nil,
          withoutSuffix_skip_sep '.' (by decide) hdot, withoutSuffix_skip_sep '.' (by decide) hdot]
        exact product_leftover symbol product
    | some venue =>
      cases product with
      | none =>
        rw [Spelling.upper, Option.map_none, Option.map_some, tail, tail, List.append_nil]
        exact venue_leftover symbol venue
      | some product => exact both_leftover symbol product venue

/-- `_canonical_exchange_symbol` of a spelling. -/
theorem canonicalExchangeSymbol_eq (text : InstrumentText alphabet) :
    canonicalExchangeSymbol unicode text.str =
      String.ofList (plainChars (text.spelling.symbol ++ text.spelling.leftover)) := by
  rw [canonicalExchangeSymbol, text.strip_eq, Spelling.upper_eq, String.toList_ofList]
  exact congrArg String.ofList text.spelling.withoutSuffix_eq

end

/-- `canonical_symbol` of a text is `_position_symbol` of it. -/
theorem canonicalSymbol_eq (env : Env) (text : String) :
    canonicalSymbol env (some (.str text)) = positionSymbol env.unicode text := by
  by_cases hempty : text = ""
  · subst hempty
    have hupper : env.unicode.upper (strip "") = "" := env.unicode.upper_ascii _ (by decide)
    rw [positionSymbol, hupper]
    rfl
  · have hpresent : Json.orElse (some (.str text)) none = some (.str text) := by
      simp [Json.orElse, Value.truthy, hempty]
    rw [canonicalSymbol, hpresent]
    dsimp only
    rw [env.str_str]
    rfl

section
variable {env : Env} {alphabet : Alphabet env.unicode}

theorem ofList_eq_iff {a b : List Char} : String.ofList a = String.ofList b ↔ a = b := String.ofList_inj

theorem matches_iff (unicode : Unicode) (a b : String) :
    terminalExchangeInstrumentMatches unicode a [b] = true ↔
    canonicalExchangeSymbol unicode a = canonicalExchangeSymbol unicode b := by
  have hmatches : terminalExchangeInstrumentMatches unicode a [b] =
      (canonicalExchangeSymbol unicode b == canonicalExchangeSymbol unicode a) := by
    simp [terminalExchangeInstrumentMatches]
  rw [hmatches, beq_iff_eq, eq_comm]

/-- **The four agree on two texts iff what a scope keeps of products and venues neither splits an instrument nor joins
two.** The other three always agree. -/
theorem agree_iff (a b : InstrumentText alphabet) : Agree env a.str b.str ↔
    a.spelling.KeptApart b.spelling := by
  unfold Agree Spelling.KeptApart
  rw [canonicalSymbol_eq, canonicalSymbol_eq, matches_iff]
  simp only [venueSymbol_eq, positionSymbol_eq, canonicalExchangeSymbol_eq, ofList_eq_iff, true_and]
  rw [Spelling.name_eq_iff]
  by_cases hsame : a.spelling.SameInstrument b.spelling
  · have hkept : plainChars (a.spelling.symbol ++ a.spelling.leftover) =
    plainChars (b.spelling.symbol ++ b.spelling.leftover) ↔
        plainChars a.spelling.leftover = plainChars b.spelling.leftover := by
      rw [plainChars_append, plainChars_append, hsame.1, List.append_right_inj]
    simp only [hsame, hkept, true_iff, forall_const, not_true_eq_false, false_imp_iff, and_true]
  · simp only [hsame, false_iff, not_false_eq_true, forall_const, false_imp_iff, true_and, ne_eq]

end

/-! ## A product that is not a perpetual -/

theorem isAlphanum_iff (c : Char) : c.isAlphanum = true ↔
    (65 ≤ c.toNat ∧ c.toNat ≤ 90) ∨ (97 ≤ c.toNat ∧ c.toNat ≤ 122) ∨ (48 ≤ c.toNat ∧ c.toNat ≤ 57) := by
  simp only [Char.isAlphanum, Char.isAlpha, Char.isUpper, Char.isLower, Char.isDigit, Bool.or_eq_true, Bool.and_eq_true,
    decide_eq_true_eq, or_assoc]
  exact Iff.rfl

/-- No ASCII letter or digit is a separator in upper case. -/
theorem toUpper_notSeparator {c : Char} (hc : c.isAlphanum = true) : c.toUpper ∉ separators := by
  have hrange := (isAlphanum_iff c).mp hc
  have hascii : ∀ n : Fin 128, (Char.ofNat n).isAlphanum = true → (Char.ofNat n).toUpper ∉ separators :=
    by decide
  have hself := hascii ⟨c.toNat, by omega⟩
  rw [Char.ofNat_toNat] at hself
  exact hself hc

def asciiAlphabet : Alphabet Unicode.ascii where
  isAlnum := Char.isAlphanum
  notSpace c hc := by
    have hrange := (isAlphanum_iff c).mp hc
    by_contra hspace
    simp only [Bool.not_eq_false, isSpace, Bool.or_eq_true, Bool.and_eq_true, decide_eq_true_eq, beq_iff_eq] at hspace
    omega
  notSeparator c hc := by
    rintro hsep
    simp only [separators, List.mem_cons, List.not_mem_nil, or_false] at hsep
    rcases hsep with rfl | rfl | rfl
    all_goals cases hc
  upper_append s t := by
    simp [Unicode.ascii, String.ofList_append]
  upper_notSeparator c hc d hd := by
    simp only [Unicode.ascii, String.toList_ofList, List.map_cons, List.map_nil, List.mem_singleton] at hd
    exact hd ▸ toUpper_notSeparator hc

/-- Letters and digits of ASCII as a part. -/
def asciiPart (c : Char) (rest : List Char) (halnum : (c :: rest).all Char.isAlphanum = true) :
    Part asciiAlphabet := ⟨c :: rest, List.cons_ne_nil c rest, List.all_eq_true.mp halnum⟩

def bitcoin : Part asciiAlphabet := asciiPart 'B' ['T', 'C', 'U', 'S', 'D', 'T'] rfl

def listedPlainly : InstrumentText asciiAlphabet :=
  ⟨.listed bitcoin none none, [], [], List.forall_mem_nil _, List.forall_mem_nil _⟩

def listedAsSwap : InstrumentText asciiAlphabet :=
  ⟨.listed bitcoin (some (asciiPart 'S' ['W', 'A', 'P'] rfl)) none, [], [], List.forall_mem_nil _,
    List.forall_mem_nil _⟩

/-- A swap is the same instrument to the ledger and the inbox, and not in the scope of a cancel. -/
theorem swap_out_of_scope : listedPlainly.str = "BTCUSDT" ∧ listedAsSwap.str = "BTCUSDT-SWAP" ∧
    ¬ Agree Env.plain listedPlainly.str listedAsSwap.str := by
  refine ⟨by decide +kernel, by decide +kernel, fun hagree => ?_⟩
  have hmatches := hagree.2.2.mp (by decide +kernel)
  revert hmatches
  decide +kernel

end TraderBot.Instruments
