import TraderBot.Inbox.Model

/-! # Client order ids

The planner writes an intent's id into the ids of its orders and reads it back.
Two patterns elsewhere recognise the same ids: one of the execution domain, one
of the inbox. Where they part, `decode` is the one that takes more
(`recognisers_agree_iff`). -/
namespace TraderBot.Planner
open TraderBot.Lib TraderBot.Lib.Text

structure ClientOrderTrace where
  intentId : Uuid
  sequence : Int
  deriving DecidableEq, Repr

/-- `B{intent_id.hex}{sequence:02d}`; `none` raises. -/
def encodeClientOrderId (intentId : Uuid) (sequence : Int) : Option String :=
  if sequence < 0 ∨ 99 < sequence then none
  else some (String.ofList ('B' :: (intentId.hex ++ decPad 2 sequence.toNat)))

/-- The value of a decimal digit of any script. -/
def decimalValue (unicode : Unicode) (c : Char) : Option Nat :=
  if c.toNat < 128 then decValue c else unicode.decimal c

/-- `none` is a `ValueError`. A digit that is no decimal passes `isdigit()`, and
`int` raises the same error. -/
def decodeClientOrderId (unicode : Unicode) (clientOrderId : String) : Option ClientOrderTrace :=
  let cs := clientOrderId.toList
  if cs.length ≠ 35 ∨ cs.head? ≠ some 'B' then none
  else do
    let intentHex := (cs.drop 1).take 32
    let sequence ← readDigits 10 (decimalValue unicode) (cs.drop 33)
    let intentId ← Uuid.parse unicode (String.ofList intentHex)
    return { intentId, sequence }

/-- `ROBOT_CLIENT_ORDER_ID_PATTERN.fullmatch(s)`: `B[0-9a-f]{32}[0-9]{2}`. -/
def robotClientOrderIdPattern (s : String) : Bool :=
  let cs := s.toList
  cs.length == 35 && cs.head? == some 'B' && ((cs.drop 1).take 32).all isLowerHex &&
    (cs.drop 33).all Char.isDigit

/-- `_CLIENT_ORDER_ID_PATTERN.fullmatch(s)`. -/
def inboxClientOrderIdPattern (s : String) : Bool := (Inbox.clientOrderIdGroups s.toList).isSome

variable {unicode : Unicode} {s : String} {id : Uuid}

/-! ## Ids that are written -/

theorem readDigits_decimalValue {k n : Nat} (h : n < 10 ^ k) :
    readDigits 10 (decimalValue unicode) (decPad k n) = some n := by
  have hvalue : ∀ d, d < 10 → decimalValue unicode (digitChar d) = some d := by
    intro d hd
    have hascii : ∀ d < 10, (digitChar d).toNat < 128 := by decide
    rw [decimalValue, if_pos (hascii d hd), decValue_digitChar hd]
  unfold readDigits decPad
  rw [mapM_digitChar hvalue _ (digits_lt (by omega) k n)]
  simp [ofDigits_digits (by omega : 0 < 10) k n h]

/-- The parts of an id. -/
theorem parts (id : Uuid) (n : Nat) :
    ('B' :: (id.hex ++ decPad 2 n)).length = 35 ∧
      (('B' :: (id.hex ++ decPad 2 n)).drop 1).take 32 = id.hex ∧
      ('B' :: (id.hex ++ decPad 2 n)).drop 33 = decPad 2 n := by
  have hlen : id.hex.length = 32 := hexPad_length 32 id.int
  refine ⟨by simp [hlen], ?_, ?_⟩
  · rw [List.drop_one, List.tail_cons, List.take_left' hlen]
  · rw [List.drop_succ_cons, List.drop_left' hlen]

theorem encode_some {n : Int} (hn : 0 ≤ n) (hn' : n ≤ 99) :
    encodeClientOrderId id n = some (String.ofList ('B' :: (id.hex ++ decPad 2 n.toNat))) := by
  rw [encodeClientOrderId, if_neg (by omega)]

/-- What is written is read back. -/
theorem decode_written (id : Uuid) {n : Nat} (hn : n ≤ 99) :
    decodeClientOrderId unicode (String.ofList ('B' :: (id.hex ++ decPad 2 n))) = some ⟨id, n⟩ := by
  obtain ⟨hlen, hhex, hseq⟩ := parts id n
  unfold decodeClientOrderId
  simp only [String.toList_ofList, hlen, hhex, hseq]
  rw [if_neg (by simp), readDigits_decimalValue (by omega), Uuid.parse_hex]
  rfl

theorem decode_encode {n : Int} (hn : 0 ≤ n) (hn' : n ≤ 99) :
    (encodeClientOrderId id n).bind (decodeClientOrderId unicode) = some ⟨id, n⟩ := by
  rw [encode_some hn hn', Option.bind_some, decode_written id (by omega)]
  simp [hn]

/-! ## Ids the patterns take -/

theorem inboxPattern_eq (s : String) : inboxClientOrderIdPattern s = robotClientOrderIdPattern s := by
  unfold inboxClientOrderIdPattern robotClientOrderIdPattern Inbox.clientOrderIdGroups
  cases hs : s.toList with
  | nil => rfl
  | cons c cs =>
    by_cases hc : c = 'B'
    · subst hc
      simp only [List.head?_cons, List.length_cons, List.drop_succ_cons, List.drop_zero]
      split_ifs with h
      · obtain ⟨h1, h2, h3⟩ := h
        have hlower : (cs.take 32).all isLowerHex = true := h2
        rw [hlower, h1, h3]
        rfl
      · symm
        by_contra hp
        refine h ?_
        simpa [isLowerHex, and_assoc] using hp
    · simp [hc]

/-- The pattern takes exactly what is written. -/
theorem pattern_iff : robotClientOrderIdPattern s = true ↔
    ∃ (id : Uuid) (n : Nat), n ≤ 99 ∧ s = String.ofList ('B' :: (id.hex ++ decPad 2 n)) := by
  constructor
  · intro h
    simp only [robotClientOrderIdPattern, Bool.and_eq_true, beq_iff_eq, List.all_eq_true] at h
    obtain ⟨⟨⟨hlen, hhead⟩, hhex⟩, hdigits⟩ := h
    obtain ⟨n, hn, hhex'⟩ := eq_hexPad hhex
    obtain ⟨k, hk, hseq⟩ := eq_decPad hdigits
    have hlen32 : ((s.toList.drop 1).take 32).length = 32 := by simp [hlen]
    have hlen2 : (s.toList.drop 33).length = 2 := by simp [hlen]
    rw [hlen32] at hn hhex'
    rw [hlen2] at hk hseq
    refine ⟨⟨n, hn.trans_le (by decide)⟩, k, by omega, ?_⟩
    obtain ⟨cs, hcs⟩ : ∃ cs, s.toList = 'B' :: cs := by
      cases hs : s.toList with
      | nil => rw [hs] at hhead; cases hhead
      | cons c cs => rw [hs] at hhead; cases hhead; exact ⟨cs, rfl⟩
    rw [hcs] at hhex' hseq
    have hsplit : cs = cs.take 32 ++ cs.drop 32 := (List.take_append_drop 32 cs).symm
    have hparts : cs = hexPad 32 n ++ decPad 2 k := by
      rw [hsplit]
      exact congrArg₂ (· ++ ·) hhex' hseq
    rw [← String.ofList_toList (s := s), hcs, hparts]
    rfl
  · rintro ⟨id, n, hn, rfl⟩
    obtain ⟨hlen, hhex, hseq⟩ := parts id n
    have hlower : ∀ c ∈ id.hex, isLowerHex c = true := fun c hc => isLowerHex_iff.mpr (mem_hexPad hc)
    have hdigit : ∀ c ∈ decPad 2 n, c.isDigit = true := by
      intro c hc
      obtain ⟨d, hd, rfl⟩ := mem_decPad hc
      have all : ∀ d < 10, (digitChar d).isDigit = true := by decide
      exact all d hd
    simp only [robotClientOrderIdPattern, String.toList_ofList, hlen, hhex, hseq]
    simp only [List.head?_cons, beq_self_eq_true, Bool.true_and, Bool.and_eq_true, List.all_eq_true]
    exact ⟨hlower, hdigit⟩

/-! ## Where they part -/

/-- An id that is spelt otherwise: its parts are read, but a character in them is
no lower-case hexadecimal digit of ASCII. -/
def SpeltOtherwise (unicode : Unicode) (s : String) : Prop :=
  s.toList.length = 35 ∧ s.toList.head? = some 'B' ∧
    (Uuid.parse unicode (String.ofList ((s.toList.drop 1).take 32))).isSome = true ∧
    (readDigits 10 (decimalValue unicode) (s.toList.drop 33)).isSome = true ∧
    ∃ c ∈ s.toList.drop 1, isLowerHex c = false

/-- `decode` takes what can be read. -/
theorem decode_isSome_iff : (decodeClientOrderId unicode s).isSome = true ↔
    s.toList.length = 35 ∧ s.toList.head? = some 'B' ∧
      (Uuid.parse unicode (String.ofList ((s.toList.drop 1).take 32))).isSome = true ∧
      (readDigits 10 (decimalValue unicode) (s.toList.drop 33)).isSome = true := by
  unfold decodeClientOrderId
  dsimp only
  by_cases hshape : s.toList.length ≠ 35 ∨ s.toList.head? ≠ some 'B'
  · rw [if_pos hshape]
    refine iff_of_false (by simp) fun h => ?_
    rcases hshape with hlen | hhead
    · exact hlen h.1
    · exact hhead h.2.1
  · rw [if_neg hshape]
    obtain ⟨hlen, hhead⟩ := not_or.mp hshape
    cases readDigits 10 (decimalValue unicode) (s.toList.drop 33) with
    | none => simp
    | some n =>
      cases Uuid.parse unicode (String.ofList ((s.toList.drop 1).take 32)) with
      | none => simp
      | some id => simp [not_not.mp hlen, not_not.mp hhead]

/-- An ASCII digit is the only decimal that is also a lower-case hexadecimal digit. -/
theorem isDigit_of_decimalValue {c : Char} (hhex : isLowerHex c = true)
    (hvalue : (decimalValue unicode c).isSome = true) : c.isDigit = true := by
  obtain ⟨d, hd, rfl⟩ := isLowerHex_iff.mp hhex
  have hascii : ∀ d < 16, (digitChar d).toNat < 128 := by decide
  have all : ∀ d < 16, (decValue (digitChar d)).isSome = true → (digitChar d).isDigit = true := by decide
  rw [decimalValue, if_pos (hascii d hd)] at hvalue
  exact all d hd hvalue

theorem isSome_of_readDigits {f : Char → Option Nat} {cs : List Char}
    (h : (readDigits 10 f cs).isSome = true) : ∀ c ∈ cs, (f c).isSome = true := by
  have hmap : (cs.mapM f).isSome = true := by simpa [readDigits] using h
  clear h
  induction cs with
  | nil => simp
  | cons c cs ih =>
    rw [List.mapM_cons] at hmap
    intro x hx
    cases hc : f c with
    | none => rw [hc] at hmap; cases hmap
    | some v =>
      cases hrest : cs.mapM f with
      | none => rw [hc, hrest] at hmap; cases hmap
      | some vs =>
        rcases List.mem_cons.mp hx with rfl | hx
        · simp [hc]
        · exact ih (by simp [hrest]) x hx

/-- What `decode` takes and is spelt as it is written matches the pattern. -/
theorem pattern_of_decode (h : (decodeClientOrderId unicode s).isSome = true)
    (hspelt : ∀ c ∈ s.toList.drop 1, isLowerHex c = true) : robotClientOrderIdPattern s = true := by
  obtain ⟨hlen, hhead, -, hseq⟩ := decode_isSome_iff.mp h
  have hdigits : ∀ c ∈ s.toList.drop 33, c.isDigit = true := by
    intro c hc
    have hmem : c ∈ s.toList.drop 1 := by
      have hdrop : s.toList.drop 33 = (s.toList.drop 1).drop 32 := by rw [List.drop_drop]
      rw [hdrop] at hc
      exact List.mem_of_mem_drop hc
    exact isDigit_of_decimalValue (hspelt c hmem) (isSome_of_readDigits hseq c hc)
  simp only [robotClientOrderIdPattern, hlen, hhead, beq_self_eq_true, Bool.true_and,
    Bool.and_eq_true, List.all_eq_true]
  exact ⟨fun c hc => hspelt c (List.mem_of_mem_take hc), hdigits⟩

theorem pattern_of_not_speltOtherwise (h : ¬ SpeltOtherwise unicode s)
    (hsome : (decodeClientOrderId unicode s).isSome = true) : robotClientOrderIdPattern s = true := by
  refine pattern_of_decode hsome fun c hc => ?_
  by_contra hno
  obtain ⟨hlen, hhead, hhex, hseq⟩ := decode_isSome_iff.mp hsome
  exact h ⟨hlen, hhead, hhex, hseq, c, hc, by simpa using hno⟩

/-- What the pattern takes is spelt as it is written. -/
theorem not_speltOtherwise (h : robotClientOrderIdPattern s = true) : ¬ SpeltOtherwise unicode s := by
  obtain ⟨id, n, -, rfl⟩ := pattern_iff.mp h
  rintro ⟨-, -, -, -, c, hc, hno⟩
  rw [String.toList_ofList, List.drop_one, List.tail_cons] at hc
  have hyes : isLowerHex c = true := by
    rcases List.mem_append.mp hc with hc | hc
    · exact isLowerHex_iff.mpr (mem_hexPad hc)
    · obtain ⟨d, hd, rfl⟩ := mem_decPad hc
      exact isLowerHex_iff.mpr ⟨d, by omega, rfl⟩
  rw [hyes] at hno
  cases hno

/-- **The recognisers agree on a text exactly when it is not an id that is spelt
otherwise**, and what is written is read back. -/
theorem recognisers_agree_iff (unicode : Unicode) :
    (∀ s, (((decodeClientOrderId unicode s).isSome = true ↔ robotClientOrderIdPattern s = true) ∧
        (robotClientOrderIdPattern s = true ↔ inboxClientOrderIdPattern s = true) ∧
        ∀ t, decodeClientOrderId unicode s = some t → encodeClientOrderId t.intentId t.sequence = some s) ↔
      ¬ SpeltOtherwise unicode s) ∧
    (∀ id n, 0 ≤ n → n ≤ 99 →
      (encodeClientOrderId id n).bind (decodeClientOrderId unicode) = some ⟨id, n⟩) ∧
    ∀ id n id' n', 0 ≤ n → n ≤ 99 → 0 ≤ n' → n' ≤ 99 →
      encodeClientOrderId id n = encodeClientOrderId id' n' → id = id' ∧ n = n' := by
  refine ⟨fun s => ⟨fun h hother => ?_, fun h => ⟨⟨fun hsome => ?_, fun hpattern => ?_⟩, ?_, ?_⟩⟩,
    fun id n hn hn' => decode_encode hn hn', fun id n id' n' h0 h99 h0' h99' heq => ?_⟩
  · have hsome := decode_isSome_iff.mpr ⟨hother.1, hother.2.1, hother.2.2.1, hother.2.2.2.1⟩
    exact not_speltOtherwise (h.1.mp hsome) hother
  · exact pattern_of_not_speltOtherwise h hsome
  · obtain ⟨id, n, hn, rfl⟩ := pattern_iff.mp hpattern
    rw [decode_written id hn]
    rfl
  · rw [inboxPattern_eq]
  · intro t ht
    have hsome : (decodeClientOrderId unicode s).isSome = true := by rw [ht]; rfl
    obtain ⟨id, n, hn, rfl⟩ := pattern_iff.mp (pattern_of_not_speltOtherwise h hsome)
    rw [decode_written id hn] at ht
    cases ht
    have hle : (n : Int) ≤ 99 := by omega
    rw [encode_some (Int.natCast_nonneg n) hle]
    rfl
  · have hback : (encodeClientOrderId id n).bind (decodeClientOrderId unicode) = some ⟨id, n⟩ :=
      decode_encode h0 h99
    rw [heq, decode_encode h0' h99', Option.some.injEq, ClientOrderTrace.mk.injEq] at hback
    exact ⟨hback.1.symm, hback.2.symm⟩

/-- Upper-case digits are read, and match no pattern. -/
theorem decode_takes_upperCase :
    (decodeClientOrderId Unicode.ascii (String.ofList ('B' :: (List.replicate 32 'A' ++ ['0', '1'])))).isSome =
        true ∧
      robotClientOrderIdPattern (String.ofList ('B' :: (List.replicate 32 'A' ++ ['0', '1']))) = false := by
  decide +kernel

end TraderBot.Planner
