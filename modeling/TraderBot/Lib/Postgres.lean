import TraderBot.Lib.Decimal

/-! # What PostgreSQL does with a value

Tables with a unique key, `numeric` with its order (NaN is greatest), the
`GREATEST` and `COALESCE` of a merge, and `jsonb`. A decimal goes in as the
driver writes it, which is NaN for everything that is not finite, and comes out
with its trailing zeros. -/
namespace TraderBot.Lib

/-! ## Tables -/

/-- Rows with a unique key. -/
structure Table {ρ κ : Type} (key : ρ → κ) where
  rows : List ρ
  unique : (rows.map key).Nodup

namespace Table
variable {ρ κ : Type} [DecidableEq κ] {key : ρ → κ}

def empty : Table key := ⟨[], List.nodup_nil⟩

/-- `SELECT ... WHERE key = k`. -/
def find? (t : Table key) (k : κ) : Option ρ := t.rows.find? fun r => key r = k

/-- A row under this key exists. -/
def has (t : Table key) (k : κ) : Bool := (t.find? k).isSome

/-- `INSERT ... ON CONFLICT (key) DO NOTHING`. -/
def insert (t : Table key) (r : ρ) : Table key :=
  if h : key r ∈ t.rows.map key then t
  else ⟨t.rows ++ [r], by
    rw [List.map_append, List.map_singleton]
    exact List.Nodup.append t.unique (List.nodup_singleton _)
      (by simpa [List.disjoint_singleton] using h)⟩

theorem put_unique (t : Table key) (r : ρ) :
    ((t.rows.map fun x => if key x = key r then r else x).map key).Nodup := by
  have hkeys : (t.rows.map fun x => if key x = key r then r else x).map key = t.rows.map key := by
    rw [List.map_map]
    refine List.map_congr_left fun x _ => ?_
    by_cases h : key x = key r
    · simp [h]
    · simp [h]
  rw [hkeys]
  exact t.unique

/-- The row under its key, whether or not there was one. -/
def put (t : Table key) (r : ρ) : Table key :=
  if key r ∈ t.rows.map key then ⟨t.rows.map fun x => if key x = key r then r else x, put_unique t r⟩
  else t.insert r

/-- `UPDATE ... SET ... WHERE p`, with the key left alone. -/
def update (t : Table key) (p : ρ → Bool) (f : ρ → ρ) (hf : ∀ r, key (f r) = key r) : Table key :=
  ⟨t.rows.map fun r => if p r then f r else r, by
    have hkeys : (t.rows.map fun r => if p r then f r else r).map key = t.rows.map key := by
      rw [List.map_map]
      refine List.map_congr_left fun r _ => ?_
      by_cases h : p r
      · simp [h, hf]
      · simp [h]
    rw [hkeys]
    exact t.unique⟩

variable {t : Table key} {r : ρ} {k : κ}

theorem find?_update {p : ρ → Bool} {f : ρ → ρ} {hf : ∀ r, key (f r) = key r} :
    (t.update p f hf).find? k = (t.find? k).map fun r => if p r then f r else r := by
  show (t.rows.map fun r => if p r then f r else r).find? _ = _
  rw [List.find?_map]
  have hcongr : ((fun r => decide (key r = k)) ∘ fun r => if p r then f r else r) =
      fun r => decide (key r = k) := by
    funext r
    by_cases h : p r <;> simp [h, hf]
  rw [hcongr]
  rfl

theorem find?_eq_none_iff : t.find? k = none ↔ k ∉ t.rows.map key := by
  simp [find?]

theorem key_of_find? (h : t.find? k = some r) : key r = k := by
  simpa using List.find?_some h

theorem find?_of_mem (h : r ∈ t.rows) : t.find? (key r) = some r := by
  obtain ⟨x, hx⟩ : ∃ x, t.find? (key r) = some x := by
    refine Option.ne_none_iff_exists'.mp fun hnone => ?_
    exact find?_eq_none_iff.mp hnone (List.mem_map_of_mem h)
  have hmem : x ∈ t.rows := List.mem_of_find?_eq_some hx
  rw [hx, List.inj_on_of_nodup_map t.unique hmem h (key_of_find? hx)]

theorem find?_insert :
    (t.insert r).find? k = (t.find? k).or (if k = key r then some r else none) := by
  unfold insert
  by_cases h : key r ∈ t.rows.map key
  · rw [dif_pos h]
    cases hk : t.find? k with
    | some x => rfl
    | none =>
      have hne : k ≠ key r := by
        rintro rfl
        exact find?_eq_none_iff.mp hk h
      rw [if_neg hne]
      rfl
  · rw [dif_neg h]
    show (t.rows ++ [r]).find? (fun x => key x = k) = _
    rw [List.find?_append]
    show (t.find? k).or _ = _
    by_cases hk : k = key r
    · simp [hk]
    · simp [hk, Ne.symm hk]

theorem mem_insert {x : ρ} :
    x ∈ (t.insert r).rows ↔ x ∈ t.rows ∨ (x = r ∧ key r ∉ t.rows.map key) := by
  unfold insert
  split_ifs with h
  · simp [h]
  · show x ∈ t.rows ++ [r] ↔ _
    simp [h]

theorem has_insert : (t.insert r).has k = true ↔ k = key r ∨ t.has k = true := by
  rw [has, has, find?_insert]
  cases t.find? k with
  | some x => simp
  | none => by_cases h : k = key r <;> simp [h]

theorem find?_put : (t.put r).find? k = if k = key r then some r else t.find? k := by
  unfold put
  split_ifs with h hk hk
  · subst hk
    obtain ⟨x, hx, hxk⟩ := List.mem_map.mp h
    show (t.rows.map fun x => if key x = key r then r else x).find? _ = some r
    rw [List.find?_map]
    have hsome : (t.rows.find? ((fun y => decide (key y = key r)) ∘
        fun x => if key x = key r then r else x)).isSome := by
      rw [List.find?_isSome]
      exact ⟨x, hx, by simp [hxk]⟩
    obtain ⟨y, hy⟩ := Option.isSome_iff_exists.mp hsome
    have hyk : key y = key r := by
      by_contra hne
      simpa [hne] using List.find?_some hy
    rw [hy]
    simp [hyk]
  · show (t.rows.map fun x => if key x = key r then r else x).find? _ = t.rows.find? _
    rw [List.find?_map]
    have hcongr : ((fun y => decide (key y = k)) ∘ fun x => if key x = key r then r else x) =
        fun y => decide (key y = k) := by
      funext y
      by_cases hy : key y = key r
      · simp [hy]
      · simp [hy]
    rw [hcongr]
    cases hf : t.rows.find? fun y => decide (key y = k) with
    | none => rfl
    | some y =>
      have hyk : key y = k := by simpa using List.find?_some hf
      have hne : key y ≠ key r := by rw [hyk]; exact hk
      simp [hne]
  · subst hk
    rw [find?_insert, find?_eq_none_iff.mpr h]
    simp
  · rw [find?_insert, if_neg hk, Option.or_none]

theorem mem_put {x : ρ} (h : x ∈ (t.put r).rows) : x ∈ t.rows ∨ x = r := by
  unfold put at h
  split_ifs at h
  · obtain ⟨y, hy, rfl⟩ := List.mem_map.mp h
    split_ifs
    · exact .inr rfl
    · exact .inl hy
  · exact (mem_insert.mp h).imp id And.left

/-- A loop over some rows that keeps the value of one key reads its row. -/
theorem foldl_eq_find? {σ β : Type} {f : σ → ρ → σ} {g : σ → β} {v : ρ → β} {p : ρ → Bool}
    (hp : ∀ r, key r = k → p r = true) (hself : ∀ s r, key r = k → g (f s r) = v r)
    (hother : ∀ s r, p r = true → key r ≠ k → g (f s r) = g s) (t : Table key) (s : σ) :
    g ((t.rows.filter p).foldl f s) = ((t.find? k).map v).getD (g s) := by
  have hlist : ∀ rows : List ρ, (rows.map key).Nodup → ∀ s, g ((rows.filter p).foldl f s) =
      ((rows.find? fun r => key r = k).map v).getD (g s) := by
    intro rows
    induction rows with
    | nil => exact fun _ _ => rfl
    | cons r rows ih =>
      intro hnodup s
      obtain ⟨hr, hnodup⟩ := List.nodup_cons.mp hnodup
      by_cases hk : key r = k
      · -- the row of the key is read last
        have hnone : rows.find? (fun r => key r = k) = none := by
          refine List.find?_eq_none.mpr fun x hx hxk => hr ?_
          rw [hk, ← show key x = k by simpa using hxk]
          exact List.mem_map_of_mem hx
        rw [List.filter_cons, if_pos (hp r hk), List.foldl_cons, ih hnodup, hnone]
        simp [hk, hself]
      · rw [List.find?_cons_of_neg (by simpa using hk), List.filter_cons]
        split_ifs with hpr
        · rw [List.foldl_cons, ih hnodup, hother s r hpr hk]
        · exact ih hnodup s
  exact hlist t.rows t.unique s

end Table

/-! ## Numbers -/

/-- A `numeric`: an integer with a scale, at most 131072 digits before the
point and 16383 after it, or NaN. -/
inductive Numeric where
  | nan
  | number (unscaled : Int) (scale : Nat)
      (fits : scale ≤ 16383 ∧ Decimal.width unscaled.natAbs ≤ 131072 + scale)
  deriving DecidableEq, Repr

namespace Numeric

def mk? (unscaled : Int) (scale : Nat) : Option Numeric :=
  if h : scale ≤ 16383 ∧ Decimal.width unscaled.natAbs ≤ 131072 + scale then
    some (.number unscaled scale h)
  else none

def zero : Numeric := .number 0 0 (by decide)

/-- A decimal as a parameter of a statement; `none` is out of range. -/
def ofDecimal : Decimal → Option Numeric
  | .finite d =>
    if 0 ≤ d.exponent then mk? (d.signed * 10 ^ d.exponent.toNat) 0
    else mk? d.signed (-d.exponent).toNat
  | .infinity _ | .nan _ _ _ => some .nan

theorem inRange {unscaled : Int} {scale : Nat}
    (h : scale ≤ 16383 ∧ Decimal.width unscaled.natAbs ≤ 131072 + scale) :
    Decimal.InRange unscaled.natAbs (-scale) := by
  unfold Decimal.InRange Decimal.minEtiny Decimal.maxEmax
  omega

/-- The decimal the driver reads. -/
def toDecimal : Numeric → Decimal
  | .nan => .nan false false 0
  | .number unscaled scale h =>
    .finite ⟨decide (unscaled < 0), unscaled.natAbs, -scale, inRange h⟩

/-- `bool(value)` of the decimal that is read. -/
def truthy (n : Numeric) : Bool := n.toDecimal.truthy

/-- Where a number stands: NaN above all others. -/
def rank : Numeric → WithTop ℚ
  | .nan => ⊤
  | .number unscaled scale _ => ((unscaled / 10 ^ scale : ℚ) : WithTop ℚ)

/-- The database's `<=`. -/
def le : Numeric → Numeric → Bool
  | _, .nan => true
  | .nan, .number _ _ _ => false
  | .number a s _, .number b t _ => decide (a * 10 ^ t ≤ b * 10 ^ s)

theorem le_iff (a b : Numeric) : a.le b = true ↔ a.rank ≤ b.rank := by
  cases b with
  | nan => simp [le, rank]
  | number b t _ =>
    cases a with
    | nan => simp [le, rank]
    | number a s _ =>
      have hs : (0 : ℚ) < 10 ^ s := by positivity
      have ht : (0 : ℚ) < 10 ^ t := by positivity
      simp only [le, rank, decide_eq_true_eq, WithTop.coe_le_coe]
      rw [div_le_div_iff₀ hs ht]
      exact_mod_cast Iff.rfl

instance : Preorder Numeric := Preorder.lift rank

instance (a b : Numeric) : Decidable (a ≤ b) := decidable_of_iff (a.le b = true) (le_iff a b)

theorem total (a b : Numeric) : a ≤ b ∨ b ≤ a := le_total a.rank b.rank

/-- `GREATEST(a, b)`: of equal numbers the first. -/
def greatest (a b : Numeric) : Numeric := if b ≤ a then a else b

theorem le_greatest_right (a b : Numeric) : b ≤ greatest a b := by
  unfold greatest
  split_ifs with h
  · exact h
  · exact le_refl b

/-- `n >= 0`, as a column constraint asks. -/
def nonneg (n : Numeric) : Bool := decide (zero ≤ n)

end Numeric

/-- A column under `CHECK (column >= 0)`. -/
structure Amount where
  value : Numeric
  nonneg : value.nonneg = true
  deriving DecidableEq, Repr

namespace Amount

def zero : Amount := ⟨Numeric.zero, by decide⟩

def ofNumeric? (n : Numeric) : Option Amount := if h : n.nonneg = true then some ⟨n, h⟩ else none

/-- `GREATEST` of two columns. -/
def greatest (a b : Amount) : Amount := if b.value ≤ a.value then a else b

theorem greatest_value (a b : Amount) : (greatest a b).value = Numeric.greatest a.value b.value := by
  unfold greatest Numeric.greatest
  split_ifs <;> rfl

end Amount

/-- `COALESCE(a, b)`. -/
def coalesce {α : Type} (a b : Option α) : Option α := a.or b

/-! ## jsonb -/

namespace Jsonb
open TraderBot.Lib.Json

/-- Text without the character zero. -/
def storableText (s : String) : Bool := !s.toList.contains (Char.ofNat 0)

/-- A float as it comes back: its digits are kept, so one without a fraction
comes back as an integer, and zero has no sign. -/
def storedFloat (x : JsonFloat) : Option Value :=
  match x with
  | .nan | .infinity | .negInfinity => none
  | .finite text h =>
    match Decimal.ofText Text.Unicode.ascii text with
    | some (.finite d) =>
      if 0 ≤ d.exponent then some (.int (d.signed * 10 ^ d.exponent.toNat))
      else if d.coeff = 0 ∧ d.negative then
        if h : isFloatText text.tail = true then some (.float (.finite text.tail h)) else none
      else some (.float (.finite text h))
    | _ => none

mutual
/-- A value as `jsonb` keeps it; `none` is refused. -/
def stored : Value → Option Value
  | .null => some .null
  | .bool b => some (.bool b)
  | .int n => some (.int n)
  | .float x => storedFloat x
  | .str s => if storableText s then some (.str s) else none
  | .arr items => (storedItems items).map .arr
  | .obj members => (storedMembers members).map .obj
def storedItems : List Value → Option (List Value)
  | [] => some []
  | x :: xs =>
    match stored x, storedItems xs with
    | some v, some vs => some (v :: vs)
    | _, _ => none
def storedMembers : List (String × Value) → Option (List (String × Value))
  | [] => some []
  | (k, x) :: xs =>
    match stored x, storedMembers xs with
    | some v, some vs => if storableText k then some ((k, v) :: vs) else none
    | _, _ => none
end

theorem storedMembers_keys {xs ys : List (String × Value)} (h : storedMembers xs = some ys) :
    ys.map Prod.fst = xs.map Prod.fst := by
  induction xs generalizing ys with
  | nil =>
    cases h
    rfl
  | cons p xs ih =>
    obtain ⟨k, x⟩ := p
    rw [storedMembers] at h
    cases hv : stored x with
    | none => simp [hv] at h
    | some v =>
      cases hvs : storedMembers xs with
      | none => simp [hv, hvs] at h
      | some vs =>
        simp only [hv, hvs] at h
        split_ifs at h
        cases h
        rw [List.map_cons, List.map_cons, ih hvs]

/-- A dict as a `jsonb` column keeps it. -/
def storedDict (d : Dict Value) : Option (Dict Value) :=
  match h : storedMembers d.items with
  | none => none
  | some items => some ⟨items, by rw [storedMembers_keys h]; exact d.sorted⟩

theorem lookup_storedMembers {xs ys : List (String × Value)} (h : storedMembers xs = some ys) (k : String) :
    Dict.lookup k ys = (Dict.lookup k xs).bind stored := by
  induction xs generalizing ys with
  | nil =>
    cases h
    rfl
  | cons p xs ih =>
    obtain ⟨l, x⟩ := p
    rw [storedMembers] at h
    cases hv : stored x with
    | none => simp [hv] at h
    | some v =>
      cases hvs : storedMembers xs with
      | none => simp [hv, hvs] at h
      | some vs =>
        simp only [hv, hvs] at h
        split_ifs at h
        cases h
        rw [Dict.lookup_cons, Dict.lookup_cons, ih hvs]
        split_ifs
        · exact hv.symm
        · rfl

/-- What the column keeps under a key. -/
theorem get?_storedDict {d d' : Dict Value} (h : storedDict d = some d') (k : String) :
    d'.get? k = (d.get? k).bind stored := by
  unfold storedDict at h
  split at h
  · cases h
  · next items hitems =>
    cases h
    exact lookup_storedMembers hitems k

end Jsonb
end TraderBot.Lib
