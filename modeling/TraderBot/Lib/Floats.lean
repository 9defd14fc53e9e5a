import TraderBot.Lib.DecimalValue

/-! # Floats

The floats of the platform as a parameter: the values that are not NaN, in their
order, with what they are documented to do. A result that is NaN is `none`; the
two zeros are one value. `sum` is the builtin, which is free in how it rounds. -/
namespace TraderBot.Lib

/-- Floats without NaN. -/
structure Floats where
  Num : Type
  order : LinearOrder Num
  zero : Num
  negInf : Num
  posInf : Num
  /-- `float(d)`. -/
  ofDecimal : Decimal → Option Num
  add : Num → Num → Option Num
  mul : Num → Num → Option Num
  /-- `sum(xs)`. -/
  sum : List Num → Option Num
  zero_lt_posInf : zero < posInf
  mul_nonneg : ∀ {a b}, zero ≤ a → a < posInf → zero ≤ b → b < posInf → ∃ c, mul a b = some c ∧ zero ≤ c
  zero_mul : ∀ {b}, zero ≤ b → b < posInf → mul zero b = some zero
  add_number : ∀ {a b}, negInf < a → negInf < b → ∃ c, add a b = some c
  sum_number : ∀ {xs : List Num}, (∀ x ∈ xs, zero ≤ x) → ∃ s, sum xs = some s ∧ negInf < s
  sum_filter : ∀ xs : List Num, sum (xs.filter fun x => x ≠ zero) = sum xs

attribute [instance] Floats.order

namespace Floats
variable (fl : Floats)

/-- `a + b`. -/
def plus (a b : Option fl.Num) : Option fl.Num := a.bind fun x => b.bind fun y => fl.add x y

/-- `a * b`. -/
def times (a b : Option fl.Num) : Option fl.Num := a.bind fun x => b.bind fun y => fl.mul x y

/-- `sum(xs)`; a NaN among them makes it one. -/
def total (xs : List (Option fl.Num)) : Option fl.Num := (xs.mapM id).bind fl.sum

/-- `a > b`, which a NaN is not. -/
def gt (a : Option fl.Num) (b : fl.Num) : Bool :=
  match a with
  | some a => decide (b < a)
  | none => false

variable {fl}

theorem total_some (xs : List fl.Num) : fl.total (xs.map some) = fl.sum xs := by
  have hmap : (xs.map some).mapM (id : Option fl.Num → Option fl.Num) = some xs := by
    induction xs with
    | nil => rfl
    | cons x xs ih => simp [List.mapM_cons, ih]
  rw [total, hmap]
  rfl

theorem le_of_not_gt {a : fl.Num} {b : fl.Num} (h : fl.gt (some a) b = false) : a ≤ b := by
  simpa [gt] using h

variable {α : Type} {f : α → fl.Num}

/-- Two choices of items that differ only in what is zero have the same sum. -/
theorem sum_filter_congr {xs : List α} {p q : α → Bool} (h : ∀ x ∈ xs, f x ≠ fl.zero → p x = q x) :
    fl.sum ((xs.filter p).map f) = fl.sum ((xs.filter q).map f) := by
  have hkept : ((xs.filter p).map f).filter (fun x => x ≠ fl.zero) =
      ((xs.filter q).map f).filter (fun x => x ≠ fl.zero) := by
    rw [List.filter_map, List.filter_map, List.filter_filter, List.filter_filter]
    refine congrArg _ (List.filter_congr fun x hx => ?_)
    by_cases hzero : f x = fl.zero
    · simp [hzero]
    · simp [hzero, h x hx hzero]
  rw [← fl.sum_filter, hkept, fl.sum_filter]

end Floats

/-- Exact numbers, with the two infinities where the range of the floats ends. -/
def exactFloats : Floats where
  Num := ℚ
  order := inferInstance
  zero := 0
  negInf := -2 ^ 1024
  posInf := 2 ^ 1024
  ofDecimal d :=
    match d with
    | .finite d => some d.value
    | .infinity negative => some (if negative then -2 ^ 1024 else 2 ^ 1024)
    | .nan _ _ _ => none
  add a b := some (a + b)
  mul a b := some (a * b)
  sum xs := some xs.sum
  zero_lt_posInf := by positivity
  mul_nonneg ha _ hb _ := ⟨_, rfl, mul_nonneg ha hb⟩
  zero_mul _ _ := by rw [zero_mul]
  add_number _ _ := ⟨_, rfl⟩
  sum_number h := by
    refine ⟨_, rfl, lt_of_lt_of_le ?_ (List.sum_nonneg h)⟩
    rw [neg_lt_zero]
    positivity
  sum_filter xs := by
    induction xs with
    | nil => rfl
    | cons x xs ih =>
      by_cases hx : x = 0
      · simpa [hx] using ih
      · simpa [hx] using ih

end TraderBot.Lib
