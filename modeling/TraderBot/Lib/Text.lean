import Mathlib

/-! # Text operations of the Python runtime

`str.strip`, `str.split(sep, 1)[0]`, fixed-width decimal and hexadecimal
digits. Each works on the character list of a `String`, so closed terms
reduce in the kernel. What depends on the Unicode database takes it as data
(`Unicode`), with what every such table does on ASCII. -/
namespace TraderBot.Lib.Text

/-! ## Whitespace -/

/-- `str.isspace` of one character: the code points `str.strip()` removes. -/
def isSpace (c : Char) : Bool :=
  let n := c.toNat
  (0x09 ≤ n && n ≤ 0x0D) || (0x1C ≤ n && n ≤ 0x20) || n == 0x85 || n == 0xA0 || n == 0x1680 ||
    (0x2000 ≤ n && n ≤ 0x200A) || n == 0x2028 || n == 0x2029 || n == 0x202F || n == 0x205F ||
    n == 0x3000

/-- Drop the characters satisfying `p` from both ends. -/
def stripWhere (p : Char → Bool) (cs : List Char) : List Char :=
  ((cs.dropWhile p).reverse.dropWhile p).reverse

/-- `str.strip()`. -/
def strip (s : String) : String := String.ofList (stripWhere isSpace s.toList)

theorem dropWhile_eq_self_of_head {α : Type} (p : α → Bool) (l : List α)
    (h : ∀ a, l.head? = some a → p a = false) : l.dropWhile p = l := by
  cases l with
  | nil => rfl
  | cons a rest => simp [h a rfl]

theorem head_dropWhile_false {α : Type} (p : α → Bool) (l : List α) (a : α)
    (h : (l.dropWhile p).head? = some a) : p a = false := by
  induction l with
  | nil => simp at h
  | cons b rest ih =>
    rw [List.dropWhile_cons] at h
    split at h
    · exact ih h
    · rename_i hb
      simp only [List.head?_cons, Option.some.injEq] at h
      subst h
      simpa using hb

theorem stripWhere_idem (p : Char → Bool) (cs : List Char) :
    stripWhere p (stripWhere p cs) = stripWhere p cs := by
  unfold stripWhere
  have hback : (((cs.dropWhile p).reverse.dropWhile p).reverse).dropWhile p =
      ((cs.dropWhile p).reverse.dropWhile p).reverse := by
    apply dropWhile_eq_self_of_head
    intro a ha
    -- the first character left is the first one after the leading run
    rw [List.head?_reverse] at ha
    have hsuf := List.dropWhile_suffix (p := p) (l := (cs.dropWhile p).reverse)
    have hne : (cs.dropWhile p).reverse.dropWhile p ≠ [] := by
      intro h0; rw [h0] at ha; simp at ha
    have hlast := hsuf.getLast hne
    rw [List.getLast?_eq_some_getLast hne, Option.some.injEq, hlast,
      List.getLast_reverse] at ha
    exact head_dropWhile_false p cs a (by rw [← ha]; exact List.head?_eq_some_head _)
  rw [hback, List.reverse_reverse]
  congr 1
  apply dropWhile_eq_self_of_head
  intro a ha
  exact head_dropWhile_false p _ a ha

variable {p : Char → Bool} {cs : List Char} {c : Char} {b k n : Nat}

theorem stripWhere_eq_self (h : ∀ c ∈ cs, p c = false) : stripWhere p cs = cs := by
  have hfront : cs.dropWhile p = cs :=
    dropWhile_eq_self_of_head p cs (fun a ha => h a (List.mem_of_mem_head? ha))
  have hback : cs.reverse.dropWhile p = cs.reverse :=
    dropWhile_eq_self_of_head p _ (fun a ha => h a (List.mem_reverse.mp (List.mem_of_mem_head? ha)))
  rw [stripWhere, hfront, hback, List.reverse_reverse]

@[simp] theorem strip_strip (s : String) : strip (strip s) = strip s := by
  simp [strip, stripWhere_idem]

theorem mem_of_mem_stripWhere (h : c ∈ stripWhere p cs) : c ∈ cs := by
  unfold stripWhere at h
  have hback := (List.dropWhile_sublist _).mem (List.mem_reverse.mp h)
  exact (List.dropWhile_sublist _).mem (List.mem_reverse.mp hback)

/-! ## Splitting -/

/-- `s.split(sep, 1)[0]`: the text before the first `sep`, all of `s` without one. -/
def before (sep : Char) (s : String) : String :=
  String.ofList (s.toList.takeWhile (· != sep))

theorem before_of_not_mem {sep : Char} {s : String} (h : sep ∉ s.toList) : before sep s = s := by
  unfold before
  rw [List.takeWhile_eq_self_iff.mpr]
  · exact String.ofList_toList
  · intro c hc
    simpa using fun hsep : c = sep => h (hsep ▸ hc)

/-- Drop every occurrence of the word `w`, scanning left to right: `s.replace(w, "")`.
The counter skips what is left of an occurrence already matched. -/
def eraseWord (w : List Char) : Nat → List Char → List Char
  | _, [] => []
  | k + 1, _ :: cs => eraseWord w k cs
  | 0, c :: cs =>
    if w.isPrefixOf (c :: cs) then eraseWord w (w.length - 1) cs else c :: eraseWord w 0 cs

theorem eraseWord_of_not_mem {w : List Char} {x : Char} (hw : x ∈ w) (cs : List Char)
    (hx : x ∉ cs) : eraseWord w 0 cs = cs := by
  induction cs with
  | nil => rfl
  | cons c cs ih =>
    have hpre : w.isPrefixOf (c :: cs) = false := by
      cases h : w.isPrefixOf (c :: cs) with
      | false => rfl
      | true => exact absurd ((List.isPrefixOf_iff_prefix.mp h).subset hw) hx
    simp only [eraseWord, hpre, Bool.false_eq_true, if_false]
    rw [ih (fun h => hx (List.mem_cons_of_mem _ h))]

/-! ## Unicode tables -/

def isAscii (s : String) : Bool := s.toList.all fun c => c.toNat < 128

/-- The interpreter's Unicode database, as far as text operations read it:
`str.upper`, `str.lower` and the value of a decimal digit outside ASCII. On
ASCII text the case maps are Lean's. -/
structure Unicode where
  upper : String → String
  lower : String → String
  decimal : Char → Option Nat
  upper_ascii : ∀ s, isAscii s = true → upper s = String.ofList (s.toList.map Char.toUpper)
  lower_ascii : ∀ s, isAscii s = true → lower s = String.ofList (s.toList.map Char.toLower)

/-- The tables that know ASCII only. -/
def Unicode.ascii : Unicode where
  upper s := String.ofList (s.toList.map Char.toUpper)
  lower s := String.ofList (s.toList.map Char.toLower)
  decimal _ := none
  upper_ascii _ _ := rfl
  lower_ascii _ _ := rfl

/-! ## Fixed-width digits -/

/-- The `k` low digits of `n` in base `b`, most significant first. -/
def digits (b : Nat) : Nat → Nat → List Nat
  | 0, _ => []
  | k + 1, n => digits b k (n / b) ++ [n % b]

/-- The number a digit list writes. -/
def ofDigits (b : Nat) (ds : List Nat) : Nat := ds.foldl (fun n d => n * b + d) 0

@[simp] theorem digits_length (b k n : Nat) : (digits b k n).length = k := by
  induction k generalizing n with
  | zero => rfl
  | succ k ih => simp [digits, ih]

theorem digits_lt (hb : 0 < b) (k n : Nat) : ∀ d ∈ digits b k n, d < b := by
  induction k generalizing n with
  | zero => simp [digits]
  | succ k ih =>
    intro d hd
    rcases List.mem_append.mp hd with hd | hd
    · exact ih _ d hd
    · rw [List.mem_singleton.mp hd]; exact Nat.mod_lt _ hb

theorem ofDigits_digits (hb : 0 < b) (k n : Nat) (h : n < b ^ k) :
    ofDigits b (digits b k n) = n := by
  induction k generalizing n with
  | zero => simp at h; subst h; rfl
  | succ k ih =>
    have hq : n / b < b ^ k := by
      rw [Nat.div_lt_iff_lt_mul hb]
      rwa [Nat.pow_succ] at h
    have hrec := ih (n / b) hq
    unfold ofDigits at hrec ⊢
    simp only [digits, List.foldl_append, hrec, List.foldl_cons, List.foldl_nil]
    rw [Nat.mul_comm]
    exact Nat.div_add_mod n b

theorem ofDigits_append (b : Nat) (ds : List Nat) (d : Nat) :
    ofDigits b (ds ++ [d]) = ofDigits b ds * b + d := by
  unfold ofDigits
  rw [List.foldl_append]
  rfl

/-- Digits write a number with no more digits, and the number has these digits. -/
theorem digits_ofDigits (ds : List Nat) (h : ∀ d ∈ ds, d < b) :
    ofDigits b ds < b ^ ds.length ∧ digits b ds.length (ofDigits b ds) = ds := by
  induction ds using List.reverseRecOn with
  | nil => exact ⟨by simp [ofDigits], rfl⟩
  | append_singleton ds d ih =>
    obtain ⟨hlt, hdigits⟩ := ih fun x hx => h x (List.mem_append_left _ hx)
    have hd : d < b := h d (by simp)
    have hpos : 0 < b := Nat.zero_lt_of_lt hd
    have hdiv : (ofDigits b ds * b + d) / b = ofDigits b ds := by
      rw [Nat.mul_comm, Nat.mul_add_div hpos, Nat.div_eq_of_lt hd, Nat.add_zero]
    have hmod : (ofDigits b ds * b + d) % b = d := by
      rw [Nat.mul_comm, Nat.mul_add_mod, Nat.mod_eq_of_lt hd]
    rw [ofDigits_append, List.length_append, List.length_singleton]
    refine ⟨?_, by rw [digits, hdiv, hmod, hdigits]⟩
    calc ofDigits b ds * b + d < (ofDigits b ds + 1) * b := by rw [Nat.add_mul]; omega
      _ ≤ b ^ ds.length * b := Nat.mul_le_mul_right b hlt
      _ = b ^ (ds.length + 1) := (Nat.pow_succ ..).symm

/-- One digit character, lower case above nine. -/
def digitChar (d : Nat) : Char :=
  if d < 10 then Char.ofNat (48 + d) else Char.ofNat (87 + d)

/-- The value of a hexadecimal digit in either case. -/
def hexValue (c : Char) : Option Nat :=
  let n := c.toNat
  if 48 ≤ n ∧ n ≤ 57 then some (n - 48)
  else if 97 ≤ n ∧ n ≤ 102 then some (n - 87)
  else if 65 ≤ n ∧ n ≤ 70 then some (n - 55)
  else none

theorem hexValue_digitChar {d : Nat} (h : d < 16) : hexValue (digitChar d) = some d := by
  have all : ∀ d < 16, hexValue (digitChar d) = some d := by decide
  exact all d h

/-- The value of a decimal digit. -/
def decValue (c : Char) : Option Nat :=
  if 48 ≤ c.toNat ∧ c.toNat ≤ 57 then some (c.toNat - 48) else none

theorem decValue_digitChar {d : Nat} (h : d < 10) : decValue (digitChar d) = some d := by
  have all : ∀ d < 10, decValue (digitChar d) = some d := by decide
  exact all d h

/-- `n` written with `k` lower-case hexadecimal digits. -/
def hexPad (k n : Nat) : List Char := (digits 16 k n).map digitChar

/-- `n` written with `k` decimal digits. -/
def decPad (k n : Nat) : List Char := (digits 10 k n).map digitChar

/-- Read a run of digits with the digit table `f`. -/
def readDigits (b : Nat) (f : Char → Option Nat) (cs : List Char) : Option Nat :=
  (cs.mapM f).map (ofDigits b)

@[simp] theorem hexPad_length (k n : Nat) : (hexPad k n).length = k := by simp [hexPad]

@[simp] theorem decPad_length (k n : Nat) : (decPad k n).length = k := by simp [decPad]

/-- `[0-9a-f]`. -/
def isLowerHex (c : Char) : Bool := c.isDigit || ('a' ≤ c && c ≤ 'f')

theorem isLowerHex_iff : isLowerHex c = true ↔ ∃ d, d < 16 ∧ c = digitChar d := by
  constructor
  · intro h
    have hbound : c.toNat < 103 := by
      simp only [isLowerHex, Char.isDigit, Bool.or_eq_true, Bool.and_eq_true, decide_eq_true_eq,
        UInt32.le_iff_toNat_le, Char.le_def] at h
      rcases h with h | h
      · exact lt_of_le_of_lt h.2 (by decide)
      · exact lt_of_le_of_lt h.2 (by decide)
    have all : ∀ n < 103, isLowerHex (Char.ofNat n) = true → ∃ d, d < 16 ∧ Char.ofNat n = digitChar d := by
      decide
    simpa using all c.toNat hbound (by simpa using h)
  · rintro ⟨d, hd, rfl⟩
    have all : ∀ d < 16, isLowerHex (digitChar d) = true := by decide
    exact all d hd

theorem digits_of_chars (h : ∀ c ∈ cs, ∃ d, d < b ∧ c = digitChar d) :
    ∃ ds : List Nat, (∀ d ∈ ds, d < b) ∧ cs = ds.map digitChar := by
  induction cs with
  | nil => exact ⟨[], by simp, rfl⟩
  | cons c cs ih =>
    obtain ⟨d, hd, rfl⟩ := h c (by simp)
    obtain ⟨ds, hds, hrest⟩ := ih fun x hx => h x (List.mem_cons_of_mem _ hx)
    exact ⟨d :: ds, by simpa [hd] using hds, by rw [hrest]; rfl⟩

/-- Lower-case hexadecimal digits write a number with as many of them. -/
theorem eq_hexPad (h : ∀ c ∈ cs, isLowerHex c = true) :
    ∃ n, n < 16 ^ cs.length ∧ cs = hexPad cs.length n := by
  obtain ⟨ds, hds, rfl⟩ := digits_of_chars fun c hc => isLowerHex_iff.mp (h c hc)
  obtain ⟨hlt, hback⟩ := digits_ofDigits ds hds
  rw [List.length_map]
  exact ⟨ofDigits 16 ds, hlt, by rw [hexPad, hback]⟩

theorem isDigit_iff : c.isDigit = true ↔ ∃ d, d < 10 ∧ c = digitChar d := by
  constructor
  · intro h
    have hbound : c.toNat < 58 := by
      simp only [Char.isDigit, Bool.and_eq_true, decide_eq_true_eq, UInt32.le_iff_toNat_le] at h
      exact lt_of_le_of_lt h.2 (by decide)
    have all : ∀ n < 58, (Char.ofNat n).isDigit = true → ∃ d, d < 10 ∧ Char.ofNat n = digitChar d := by
      decide
    simpa using all c.toNat hbound (by simpa using h)
  · rintro ⟨d, hd, rfl⟩
    have all : ∀ d < 10, (digitChar d).isDigit = true := by decide
    exact all d hd

theorem eq_decPad (h : ∀ c ∈ cs, c.isDigit = true) :
    ∃ n, n < 10 ^ cs.length ∧ cs = decPad cs.length n := by
  obtain ⟨ds, hds, rfl⟩ := digits_of_chars fun c hc => isDigit_iff.mp (h c hc)
  obtain ⟨hlt, hback⟩ := digits_ofDigits ds hds
  rw [List.length_map]
  exact ⟨ofDigits 10 ds, hlt, by rw [decPad, hback]⟩

theorem mapM_digitChar {f : Char → Option Nat} (hf : ∀ d, d < b → f (digitChar d) = some d)
    (ds : List Nat) (h : ∀ d ∈ ds, d < b) : (ds.map digitChar).mapM f = some ds := by
  induction ds with
  | nil => rfl
  | cons d ds ih =>
    have hrest := ih (fun x hx => h x (List.mem_cons_of_mem _ hx))
    simp [List.mapM_cons, hf d (h d (by simp)), hrest]

theorem readDigits_hexPad (h : n < 16 ^ k) : readDigits 16 hexValue (hexPad k n) = some n := by
  unfold readDigits hexPad
  rw [mapM_digitChar (fun _ => hexValue_digitChar) _ (digits_lt (by omega) k n)]
  simp [ofDigits_digits (by omega : 0 < 16) k n h]

theorem readDigits_decPad (h : n < 10 ^ k) : readDigits 10 decValue (decPad k n) = some n := by
  unfold readDigits decPad
  rw [mapM_digitChar (fun _ => decValue_digitChar) _ (digits_lt (by omega) k n)]
  simp [ofDigits_digits (by omega : 0 < 10) k n h]

theorem mem_hexPad (h : c ∈ hexPad k n) : ∃ d, d < 16 ∧ c = digitChar d := by
  obtain ⟨d, hd, rfl⟩ := List.mem_map.mp h
  exact ⟨d, digits_lt (by omega) k n d hd, rfl⟩

theorem mem_decPad (h : c ∈ decPad k n) : ∃ d, d < 10 ∧ c = digitChar d := by
  obtain ⟨d, hd, rfl⟩ := List.mem_map.mp h
  exact ⟨d, digits_lt (by omega) k n d hd, rfl⟩

end TraderBot.Lib.Text
