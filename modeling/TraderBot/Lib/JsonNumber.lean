import TraderBot.Lib.DecimalValue
import TraderBot.Lib.JsonLines

/-! # What a JSON number is worth

Integers are exact and a float is worth the decimal its text reads as, between the
two infinities; NaN is worth nothing and compares with nothing. A `jsonb` column
keeps what a number is worth, though not its text. -/
namespace TraderBot.Lib

namespace Decimal
open TraderBot.Lib.Json

/-- A rational between the infinities. -/
abbrev Extended : Type := WithBot (WithTop ℚ)

theorem isPlain_of_isNumberChar {c : Char} (h : isNumberChar c = true) : isPlain c = true := by
  simp only [isNumberChar, Bool.or_eq_true, List.contains_iff_mem] at h
  rcases h with h | h
  · exact isPlain_of_isDigit h
  · simp only [List.mem_cons, List.not_mem_nil, or_false] at h
    rcases h with rfl | rfl | rfl | rfl | rfl <;> decide

variable {cs text : List Char} {negative : Bool} {d : FiniteDecimal} {unicode : Text.Unicode}

theorem signSplit_true {rest : List Char} (h : signSplit cs = (true, rest)) : cs = '-' :: rest := by
  cases cs with
  | nil => cases h
  | cons c cs =>
    simp only [signSplit] at h
    split_ifs at h with hminus hplus
    · cases h
      rw [hminus]
    · cases h
    · cases h

/-- A number that was read starts with a digit or a point, so it has no sign of its own. -/
theorem signSplit_of_scanNumber (h : scanNumber negative cs = some d) :
    signSplit cs = (false, cs) := by
  cases cs with
  | nil => rfl
  | cons c cs =>
    by_cases hsign : c = '-' ∨ c = '+'
    · exfalso
      rcases hsign with rfl | rfl
      · simp [scanNumber] at h
      · simp [scanNumber] at h
    · obtain ⟨hminus, hplus⟩ := not_or.mp hsign
      rw [signSplit, if_neg hminus, if_neg hplus]

/-- The digits and the exponent of a text do not depend on the sign before it. -/
theorem scanNumber_eq_bind (cs : List Char) :
    ∃ parts : Option (Nat × Int), ∀ negative,
      scanNumber negative cs = parts.bind fun p => FiniteDecimal.mk? negative p.1 p.2 := by
  unfold scanNumber
  dsimp only
  generalize cs.takeWhile Char.isDigit ++ _ = digits
  generalize scanExponent _ = exponent
  by_cases hempty : digits = []
  · exact ⟨none, fun negative => if_pos hempty⟩
  · cases exponent with
    | none => exact ⟨none, fun negative => if_neg hempty⟩
    | some e => exact ⟨some (_, _), fun negative => if_neg hempty⟩

theorem mk?_eq_some {coeff : Nat} {exponent : Int}
    (h : FiniteDecimal.mk? negative coeff exponent = some d) :
    InRange coeff exponent ∧ d.negative = negative ∧ d.coeff = coeff ∧ d.exponent = exponent := by
  unfold FiniteDecimal.mk? at h
  split_ifs at h with hrange
  cases h
  exact ⟨hrange, rfl, rfl, rfl⟩

theorem scanNumber_sign (h : scanNumber negative cs = some d) :
    d.negative = negative ∧
      ∀ sign, ∃ e, scanNumber sign cs = some e ∧ e.coeff = d.coeff ∧ e.exponent = d.exponent := by
  obtain ⟨parts, hparts⟩ := scanNumber_eq_bind cs
  rw [hparts] at h
  obtain ⟨p, rfl, hd⟩ := Option.bind_eq_some_iff.mp h
  obtain ⟨hrange, hnegative, hcoeff, hexp⟩ := mk?_eq_some hd
  refine ⟨hnegative, fun sign => ⟨⟨sign, p.1, p.2, hrange⟩, ?_, hcoeff.symm, hexp.symm⟩⟩
  rw [hparts sign]
  exact dif_pos hrange

theorem ofText_floatText (h : isFloatText text = true) :
    ofText unicode text =
      match scanNumber (signSplit text).1 (signSplit text).2 with
      | some d => some (.finite d)
      | none => scanSpecial (signSplit text).1 (signSplit text).2 := by
  rw [ofText, asciiText_plain fun c hc => isPlain_of_isNumberChar (numberChars_floatText h c hc)] <;> rfl

theorem scanSpecial_not_finite : scanSpecial negative cs ≠ some (.finite d) := by
  unfold scanSpecial scanSpecial.diagnostic
  dsimp only
  split_ifs
  · nofun
  · split
    · split_ifs <;> nofun
    · split_ifs <;> nofun
    · nofun

/-- A text without the minus of a number that was read is that number without its sign. -/
theorem ofText_tail (h : isFloatText text = true) (htail : isFloatText text.tail = true)
    (hread : ofText unicode text = some (.finite d)) (hnegative : d.negative = true) :
    ∃ e, ofText unicode text.tail = some (.finite e) ∧ e.coeff = d.coeff ∧ e.exponent = d.exponent := by
  rw [ofText_floatText h] at hread
  cases hscan : scanNumber (signSplit text).1 (signSplit text).2 with
  | none =>
    rw [hscan] at hread
    exact absurd hread scanSpecial_not_finite
  | some x =>
    rw [hscan] at hread
    cases hread
    obtain ⟨hsign, hother⟩ := scanNumber_sign hscan
    rw [hnegative] at hsign
    have htext : text = '-' :: (signSplit text).2 := signSplit_true (by rw [hsign])
    have hrest : text.tail = (signSplit text).2 := by
      conv_lhs => rw [htext]
      rfl
    obtain ⟨e, he, hcoeff, hexp⟩ := hother false
    refine ⟨e, ?_, hcoeff, hexp⟩
    rw [ofText_floatText htail, hrest, signSplit_of_scanNumber hscan]
    dsimp only
    rw [he]

end Decimal

namespace Json
open TraderBot.Lib.Decimal

/-- What a float is worth; `none` is NaN. -/
def JsonFloat.rank : JsonFloat → Option Extended
  | .nan => none
  | .infinity => some ⊤
  | .negInfinity => some ⊥
  | .finite text _ =>
    match Decimal.ofText .ascii text with
    | some (.finite d) => some ((d.value : WithTop ℚ) : Extended)
    | _ => none

/-- What a number is worth; `none` is NaN, or no number. -/
def Value.rank : Value → Option Extended
  | .int n => some (((n : ℚ) : WithTop ℚ) : Extended)
  | .float x => x.rank
  | _ => none

/-- A finite number. -/
def Value.ratio (v : Value) : Option ℚ :=
  match v.rank with
  | some (some (some q)) => some q
  | _ => none

end Json

namespace Jsonb
open TraderBot.Lib.Json

/-- A float a column keeps is finite, and comes back as a number that is worth the same. -/
theorem storedFloat_rank {x : JsonFloat} {v : Value} (h : storedFloat x = some v) :
    ((∃ n, v = .int n) ∨ ∃ y, v = .float y) ∧ v.rank = x.rank ∧ ∃ q :
      ℚ, x.rank = some ((q : WithTop ℚ) : Decimal.Extended) := by
  cases x with
  | nan => cases h
  | infinity => cases h
  | negInfinity => cases h
  | finite text hfloat =>
    unfold storedFloat at h
    cases hread : Decimal.ofText Text.Unicode.ascii text with
    | none => simp [hread] at h
    | some x =>
      cases x with
      | infinity _ => simp [hread] at h
      | nan _ _ _ => simp [hread] at h
      | finite d =>
        have hrank : (JsonFloat.finite text hfloat).rank =
          some ((d.value : WithTop ℚ) : Decimal.Extended) := by
          simp [JsonFloat.rank, hread]
        simp only [hread] at h
        split_ifs at h with hexp hzero htail
        · cases h
          refine ⟨.inl ⟨_, rfl⟩, ?_, d.value, hrank⟩
          rw [hrank, Value.rank, FiniteDecimal.value]
          congr 3
          obtain ⟨k, hk⟩ := Int.eq_ofNat_of_zero_le hexp
          rw [hk]
          simp
        · cases h
          obtain ⟨e, he, hcoeff, -⟩ := Decimal.ofText_tail hfloat htail hread hzero.2
          refine ⟨.inr ⟨_, rfl⟩, ?_, d.value, hrank⟩
          have hd : d.value = 0 := by simp [FiniteDecimal.value, FiniteDecimal.signed, hzero.1]
          have he0 : e.value = 0 := by simp [FiniteDecimal.value, FiniteDecimal.signed, hcoeff, hzero.1]
          rw [hrank, hd]
          simp [Value.rank, JsonFloat.rank, he, he0]
        · cases h
          exact ⟨.inr ⟨_, rfl⟩, rfl, d.value, hrank⟩

end Jsonb
end TraderBot.Lib
