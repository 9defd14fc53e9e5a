import TraderBot.Lib.Allotment
import TraderBot.Lib.DecimalNearest

/-! # Resizing the exits

After a part of a position was closed, its stop is cut to what remains and its take profits
are served from it in turn. `recompute_remaining_quantities` does so on a tuple of quantities,
`_recompute_active_protection_quantities` on the rows of the database, where a take profit that
gets nothing is no longer active. Both subtract and add in the context of the decimal
module, whose 28 digits are enough where the remaining quantity has no more than that
down to the last place in use (`resize_laws`). -/
namespace TraderBot.Protection
open TraderBot.Lib

/-! ## On quantities -/

structure RecomputedProtectionQuantities where
  stopQuantity : FiniteDecimal
  takeProfitQuantities : List FiniteDecimal
  deriving DecidableEq, Repr

/-- `max(Decimal("0"), remaining - allocated)`. -/
def available (remaining allocated : FiniteDecimal) : Option FiniteDecimal := do
  return FiniteDecimal.zero.max (← Decimal.sub remaining allocated)

/-- The loop over the take profits. -/
def adjust (remaining : FiniteDecimal) : FiniteDecimal → List FiniteDecimal → Option (List FiniteDecimal)
  | _, [] => some []
  | allocated, quantity :: rest => do
    let capped := quantity.min (← available remaining allocated)
    return capped :: (← adjust remaining (← Decimal.add allocated capped) rest)

/-- `recompute_remaining_quantities`; `none` raises. -/
def recomputeRemainingQuantities (positionQuantity stopQuantity : FiniteDecimal)
    (takeProfitQuantities : List FiniteDecimal) : Option RecomputedProtectionQuantities := do
  let remaining := FiniteDecimal.zero.max positionQuantity
  return {
    stopQuantity := stopQuantity.min remaining
    takeProfitQuantities := ← adjust remaining .zero takeProfitQuantities }

/-! ## On the rows -/

/-- What is read and written of a row of `protective_orders_projection`. -/
structure ProtectiveRow where
  protectiveOrderProjectionId : String
  accountId : String
  positionKey : String
  lifecycleRole : String
  clientOrderId : Option String
  active : Bool
  quantity : Option Numeric
  updatedAt : Int
  deriving DecidableEq, Repr

abbrev ProtectiveTable := Table ProtectiveRow.protectiveOrderProjectionId

/-- The position whose exits are resized. -/
structure ExitScope where
  accountId : String
  positionKey : String

/-- The `WHERE` of both statements. -/
def ProtectiveRow.protects (scope : ExitScope) (role : String) (row : ProtectiveRow) : Bool :=
  decide (row.accountId = scope.accountId ∧ row.positionKey = scope.positionKey) && row.active &&
    decide (row.lifecycleRole = role)

/-- `ORDER BY updated_at, client_order_id` in a collation, nulls last. -/
def ProtectiveRow.sorts (collate : String → String → Prop) (a b : ProtectiveRow) : Prop :=
  a.updatedAt < b.updatedAt ∨ a.updatedAt = b.updatedAt ∧
    match a.clientOrderId, b.clientOrderId with
    | _, none => True
    | none, some _ => False
    | some x, some y => collate x y

/-- What the `SELECT` may return: the active take profits, in an order that is theirs. -/
structure Fetched (collate : String → String → Prop) (table : ProtectiveTable) (scope : ExitScope)
    (rows : List ProtectiveRow) : Prop where
  perm : rows.Perm (table.rows.filter (·.protects scope "take_profit"))
  sorted : rows.Pairwise (ProtectiveRow.sorts collate)

/-- `LEAST(a, b)`, which passes over a null. -/
def leastNonNull (a : Option Numeric) (b : Numeric) : Numeric :=
  match a with
  | none => b
  | some a => if a ≤ b then a else b

/-- The first statement. -/
def ProtectiveRow.cut (remaining : Numeric) (now : Int) (row : ProtectiveRow) : ProtectiveRow :=
  { row with quantity := some (leastNonNull row.quantity remaining), updatedAt := now }

theorem ProtectiveRow.cut_id (remaining : Numeric) (now : Int) (row : ProtectiveRow) :
    (row.cut remaining now).protectiveOrderProjectionId = row.protectiveOrderProjectionId := rfl

/-- The statement of the loop. -/
def ProtectiveRow.resized (adjusted : FiniteDecimal) (written : Numeric) (now : Int) (row : ProtectiveRow) :
    ProtectiveRow :=
  { row with quantity := some written, active := adjusted.isPositive, updatedAt := now }

theorem ProtectiveRow.resized_id (adjusted : FiniteDecimal) (written : Numeric) (now : Int)
    (row : ProtectiveRow) :
    (row.resized adjusted written now).protectiveOrderProjectionId = row.protectiveOrderProjectionId := rfl

/-- `Decimal(str(quantity))`, where it can be compared: a null is no number, and
a NaN raises in `min`. -/
def ProtectiveRow.reads (row : ProtectiveRow) : Option FiniteDecimal := do
  match (← row.quantity).toDecimal with
  | .finite d => some d
  | _ => none

/-- The loop over the rows. -/
def resizeRows (remaining : FiniteDecimal) (now : Int) :
    FiniteDecimal → List ProtectiveRow → ProtectiveTable → Option ProtectiveTable
  | _, [], table => some table
  | allocated, row :: rest, table => do
    let room ← available remaining allocated
    let adjusted := (← row.reads).min room
    let allocated ← Decimal.add allocated adjusted
    let written ← Numeric.ofDecimal (.finite adjusted)
    resizeRows remaining now allocated rest
      (table.update (fun r => r.protectiveOrderProjectionId = row.protectiveOrderProjectionId)
        (·.resized adjusted written now) (ProtectiveRow.resized_id adjusted written now))

/-- `_recompute_active_protection_quantities` in a transaction that began at `now`, with the rows
that its `SELECT` returned; `none` raises. -/
def recomputeActiveProtectionQuantities (table : ProtectiveTable) (scope : ExitScope)
    (remaining : FiniteDecimal) (now : Int) (rows : List ProtectiveRow) : Option ProtectiveTable := do
  let bound ← Numeric.ofDecimal (.finite remaining)
  let table := table.update (·.protects scope "stop_loss") (·.cut bound now) (ProtectiveRow.cut_id bound now)
  resizeRows remaining now .zero rows table

/-! ## What a column can hold -/

/-- A decimal can be written where it has no more places than a column, and no more digits. -/
def Storable (d : FiniteDecimal) : Prop := -16383 ≤ d.exponent ∧ |d.value| < 10 ^ 131072

variable {d remaining allocated : FiniteDecimal} {quantities : List FiniteDecimal}

theorem ofDecimal_of_storable (h : Storable d) : ∃ n, Numeric.ofDecimal (.finite d) = some n := by
  obtain ⟨hplaces, hsize⟩ := h
  have habs : |d.value| = d.coeff * 10 ^ d.exponent := d.abs_value
  rw [habs] at hsize
  by_cases he : 0 ≤ d.exponent
  · obtain ⟨k, hk⟩ := Int.eq_ofNat_of_zero_le he
    have hlt : d.coeff * 10 ^ k < 10 ^ 131072 := by
      rw [hk, zpow_natCast] at hsize
      exact_mod_cast hsize
    have hnat : (d.signed * 10 ^ d.exponent.toNat).natAbs = d.coeff * 10 ^ k := by
      rw [Int.natAbs_mul, d.natAbs_signed, Int.natAbs_pow, hk]
      rfl
    have hfits : 0 ≤ 16383 ∧ Decimal.width (d.signed * 10 ^ d.exponent.toNat).natAbs ≤ 131072 + 0 := by
      rw [hnat]
      exact ⟨Nat.zero_le _, ((Decimal.width_le_iff (by decide)).mpr hlt).trans (Nat.le_add_right _ _)⟩
    refine ⟨.number _ 0 hfits, ?_⟩
    show (if 0 ≤ d.exponent then Numeric.mk? _ 0 else _) = _
    rw [if_pos he, Numeric.mk?, dif_pos hfits]
  · obtain ⟨k, hk⟩ : ∃ k : Nat, d.exponent = -k := ⟨(-d.exponent).toNat, by omega⟩
    have hlt : d.coeff < 10 ^ (131072 + k) := by
      have hpow : (0 : ℚ) < 10 ^ k := by positivity
      rw [hk, zpow_neg, zpow_natCast, ← div_eq_mul_inv, div_lt_iff₀ hpow, ← pow_add] at hsize
      exact_mod_cast hsize
    have hscale : (-d.exponent).toNat = k := by omega
    have hfits : (-d.exponent).toNat ≤ 16383 ∧
        Decimal.width d.signed.natAbs ≤ 131072 + (-d.exponent).toNat := by
      rw [d.natAbs_signed, hscale]
      exact ⟨by omega, (Decimal.width_le_iff (by omega)).mpr hlt⟩
    refine ⟨.number _ _ hfits, ?_⟩
    show (if 0 ≤ d.exponent then _ else Numeric.mk? _ _) = _
    rw [if_neg he, Numeric.mk?, dif_pos hfits]

/-- What is read of a column can be written to it. -/
theorem storable_of_toDecimal {n : Numeric} (h : n.toDecimal = .finite d) : Storable d := by
  cases n with
  | nan => cases h
  | number unscaled scale hfits =>
    cases h
    refine ⟨?_, ?_⟩
    · show -16383 ≤ -(scale : Int)
      omega
    · rw [FiniteDecimal.abs_value]
      have hlt := (Decimal.width_le_iff (by omega)).mp hfits.2
      have hpow : (0 : ℚ) < 10 ^ scale := by positivity
      show (unscaled.natAbs : ℚ) * 10 ^ (-(scale : Int)) < _
      rw [zpow_neg, zpow_natCast, ← div_eq_mul_inv, div_lt_iff₀ hpow, ← pow_add]
      exact_mod_cast hlt

/-! ## What a loop allots -/

/-- The place that all the quantities have, and how far down the context can count it. -/
structure Places (e : Int) (remaining : FiniteDecimal) (quantities : List FiniteDecimal) : Prop where
  inContext : Decimal.InContext e
  whole : Decimal.Whole e remaining.value
  fits : remaining.value < Decimal.limit e
  quantities_whole : ∀ q ∈ quantities, Decimal.Whole e q.value

section
variable {e : Int} {remaining allocated : FiniteDecimal} {quantities : List FiniteDecimal}

/-- **In 28 digits the loop serves the quantities in turn.** -/
theorem adjust_allots (h : Places e remaining quantities) (ha : Decimal.Whole e allocated.value)
    (hle : allocated.value ≤ remaining.value) :
    ∃ xs, adjust remaining allocated quantities = some xs ∧
      xs.map FiniteDecimal.value =
        allot (remaining.value - allocated.value) (quantities.map FiniteDecimal.value) := by
  induction quantities generalizing allocated with
  | nil => exact ⟨[], rfl, rfl⟩
  | cons q rest ih =>
    have hroom := h.whole.sub ha hle
    have hlt : remaining.value - allocated.value < Decimal.limit e :=
      (sub_le_self _ ha.nonneg).trans_lt h.fits
    obtain ⟨room, hsub, hvalue⟩ := Decimal.sub_exact h.inContext (hroom.fits hlt)
    have hcapped : (q.min (FiniteDecimal.zero.max room)).value =
        min q.value (remaining.value - allocated.value) := by
      rw [FiniteDecimal.min_value, FiniteDecimal.max_value, FiniteDecimal.zero_value, hvalue,
        max_eq_right hroom.nonneg]
    have hwhole := (h.quantities_whole q List.mem_cons_self).min hroom
    rw [← hcapped] at hwhole
    have hsum : allocated.value + (q.min (FiniteDecimal.zero.max room)).value ≤ remaining.value := by
      rw [hcapped, ← le_sub_iff_add_le']
      exact min_le_right _ _
    obtain ⟨allocated', hadd, hvalue'⟩ := Decimal.add_exact h.inContext
      ((ha.add hwhole).fits (hsum.trans_lt h.fits))
    have hrest : Places e remaining rest :=
      { h with quantities_whole := fun q hq => h.quantities_whole q (List.mem_cons_of_mem _ hq) }
    obtain ⟨xs, hxs, hvalues⟩ := ih hrest (hvalue' ▸ ha.add hwhole) (hvalue'.trans_le hsum)
    refine ⟨q.min (FiniteDecimal.zero.max room) :: xs, ?_, ?_⟩
    · simp only [adjust, available, hsub, hadd, hxs, Option.bind_eq_bind, Option.bind_some, Option.pure_def]
    · rw [List.map_cons, List.map_cons, allot, hvalues, hvalue', hcapped, sub_add_eq_sub_sub]

end

/-- The numbers of the loop have no more places than the quantities. -/
theorem adjust_exponents {low : Int} {xs : List FiniteDecimal} (hlow : low ≤ 0)
    (hr : low ≤ remaining.exponent) (ha : low ≤ allocated.exponent)
    (hq : ∀ q ∈ quantities, low ≤ q.exponent) (h : adjust remaining allocated quantities = some xs) :
    ∀ x ∈ xs, low ≤ x.exponent := by
  have hemax : low ≤ Decimal.emax := hlow.trans (by decide)
  induction quantities generalizing allocated xs with
  | nil =>
    cases h
    exact fun x hx => nomatch hx
  | cons q rest ih =>
    simp only [adjust, available, Option.bind_eq_bind, Option.bind_eq_some_iff, Option.pure_def,
      Option.some.injEq] at h
    obtain ⟨_, ⟨room, hsub, rfl⟩, allocated', hadd, xs', hxs, rfl⟩ := h
    have hroom : low ≤ (FiniteDecimal.zero.max room).exponent := by
      unfold FiniteDecimal.max
      split_ifs
      · exact Decimal.le_add_exponent hemax hr (show low ≤ allocated.negate.exponent from ha) hsub
      · exact hlow
    have hcapped : low ≤ (q.min (FiniteDecimal.zero.max room)).exponent := by
      unfold FiniteDecimal.min
      split_ifs
      · exact hroom
      · exact hq q List.mem_cons_self
    intro x hx
    rcases List.mem_cons.mp hx with rfl | hx
    · exact hcapped
    · exact ih (Decimal.le_add_exponent hemax ha hcapped hadd)
        (fun q hq' => hq q (List.mem_cons_of_mem _ hq')) hxs x hx

/-! ## What the rows become -/

section
variable {now : Int} {table : ProtectiveTable}

/-- The rows that were written, each with its quantity and the number in the column. -/
def written (now : Int) : List (ProtectiveRow × FiniteDecimal × Numeric) → ProtectiveTable → ProtectiveTable
  | [], table => table
  | (row, x, n) :: rest, table =>
    written now rest (table.update
      (fun r => r.protectiveOrderProjectionId = row.protectiveOrderProjectionId) (·.resized x n now)
      (ProtectiveRow.resized_id x n now))

abbrev writtenId (p : ProtectiveRow × FiniteDecimal × Numeric) : String := p.1.protectiveOrderProjectionId

variable {l : List (ProtectiveRow × FiniteDecimal × Numeric)}

theorem find?_written_of_not_mem {id : String} (h : id ∉ l.map writtenId) :
    (written now l table).find? id = table.find? id := by
  induction l generalizing table with
  | nil => rfl
  | cons p rest ih =>
    rw [List.map_cons, List.mem_cons, not_or] at h
    obtain ⟨row, x, n⟩ := p
    rw [written, ih h.2, Table.find?_update]
    cases hfind : table.find? id with
    | none => rfl
    | some r =>
      have hne : r.protectiveOrderProjectionId ≠ row.protectiveOrderProjectionId :=
        (Table.key_of_find? hfind).trans_ne h.1
      simp [hne]

theorem find?_written (hnodup : (l.map writtenId).Nodup) {row : ProtectiveRow} {x : FiniteDecimal}
    {n : Numeric} (h : (row, x, n) ∈ l) :
    (written now l table).find? row.protectiveOrderProjectionId =
      (table.find? row.protectiveOrderProjectionId).map (·.resized x n now) := by
  induction l generalizing table with
  | nil => exact nomatch h
  | cons p rest ih =>
    obtain ⟨row', x', n'⟩ := p
    obtain ⟨hnot, hrest⟩ := List.nodup_cons.mp hnodup
    rcases List.mem_cons.mp h with heq | hmem
    · cases heq
      rw [written, find?_written_of_not_mem hnot, Table.find?_update]
      cases hfind : table.find? row.protectiveOrderProjectionId with
      | none => rfl
      | some r => simp [Table.key_of_find? hfind]
    · have hne : row.protectiveOrderProjectionId ≠ row'.protectiveOrderProjectionId := by
        intro heq
        exact hnot (List.mem_map.mpr ⟨(row, x, n), hmem, heq⟩)
      rw [written, ih hrest hmem, Table.find?_update]
      cases hfind : table.find? row.protectiveOrderProjectionId with
      | none => rfl
      | some r =>
        have hne' : r.protectiveOrderProjectionId ≠ row'.protectiveOrderProjectionId :=
          (Table.key_of_find? hfind).trans_ne hne
        simp [hne']

/-- **The loop over the rows is the loop over their quantities**, where the columns can hold what
it gives them. -/
theorem resizeRows_iff {remaining allocated : FiniteDecimal} {rows : List ProtectiveRow}
    {quantities : List FiniteDecimal} {table' : ProtectiveTable}
    (hreads : rows.map ProtectiveRow.reads = quantities.map some) :
    resizeRows remaining now allocated rows table = some table' ↔
      ∃ xs ns, adjust remaining allocated quantities = some xs ∧
        xs.map (fun x => Numeric.ofDecimal (.finite x)) = ns.map some ∧
          table' = written now (rows.zip (xs.zip ns)) table := by
  induction rows generalizing allocated quantities table with
  | nil =>
    obtain rfl : quantities = [] := by simpa using hreads.symm
    constructor
    · intro h
      cases h
      exact ⟨[], [], rfl, rfl, rfl⟩
    · rintro ⟨xs, ns, h, hns, rfl⟩
      rfl
  | cons row rest ih =>
    obtain ⟨q, quantities, rfl⟩ : ∃ q qs, quantities = q :: qs := by
      cases quantities with
      | nil => exact nomatch hreads
      | cons q qs => exact ⟨q, qs, rfl⟩
    obtain ⟨hrow, hrest⟩ := List.cons.inj hreads
    simp only [resizeRows, adjust, hrow, Option.bind_eq_bind, Option.bind_some, Option.bind_eq_some_iff,
      Option.pure_def, Option.some.injEq, ih hrest]
    constructor
    · rintro ⟨room, hroom, allocated', hadd, n, hn, xs, ns, hxs, hns, rfl⟩
      refine ⟨_, n :: ns, ⟨room, hroom, allocated', hadd, xs, hxs, rfl⟩, ?_, rfl⟩
      rw [List.map_cons, List.map_cons, hn, hns]
    · rintro ⟨_, ns, ⟨room, hroom, allocated', hadd, xs, hxs, rfl⟩, hns, rfl⟩
      cases ns with
      | nil => exact nomatch hns
      | cons n ns =>
        obtain ⟨hn, hns⟩ := List.cons.inj hns
        exact ⟨room, hroom, allocated', hadd, n, hn, xs, ns, hxs, hns, rfl⟩

end

/-! ## Both sides agree -/

theorem zero_max_of_zero {x : FiniteDecimal} (h : x.value = 0) : FiniteDecimal.zero.max x = .zero := by
  rw [FiniteDecimal.max, if_neg]
  rw [FiniteDecimal.lt_iff, h, FiniteDecimal.zero_value]
  exact lt_irrefl 0

theorem add_zeros {a b : FiniteDecimal} (ha : a.value = 0) (hb : b.value = 0) :
    ∃ c, Decimal.add a b = some c ∧ c.value = 0 := by
  obtain ⟨c, hc, hvalue⟩ := @Decimal.add_exact a b 0 ⟨by decide, by decide⟩
    ⟨0, by decide, by rw [ha, hb, add_zero, abs_zero, Nat.cast_zero, zero_mul]⟩
  exact ⟨c, hc, by rw [hvalue, ha, hb, add_zero]⟩

theorem available_of_zero {a : FiniteDecimal} (ha : a.value = 0) (h : allocated.value = 0) :
    available a allocated = some .zero := by
  obtain ⟨c, hc, hvalue⟩ :=
    add_zeros ha (show allocated.negate.value = 0 by rw [Decimal.negate_value, h, neg_zero])
  have hsub : Decimal.sub a allocated = some c := hc
  simp only [available, hsub, Option.bind_eq_bind, Option.bind_some, Option.pure_def, zero_max_of_zero hvalue]

/-- A remaining zero is the same zero however it is written. -/
theorem adjust_of_zero {a b : FiniteDecimal} (ha : a.value = 0) (hb : b.value = 0)
    (h : allocated.value = 0) (hq : ∀ q ∈ quantities, 0 ≤ q.value) :
    adjust a allocated quantities = adjust b allocated quantities := by
  induction quantities generalizing allocated with
  | nil => rfl
  | cons q rest ih =>
    have hcapped : (q.min .zero).value = 0 := by
      rw [FiniteDecimal.min_value, FiniteDecimal.zero_value]
      exact min_eq_right (hq q List.mem_cons_self)
    obtain ⟨allocated', hadd, hvalue⟩ := add_zeros h hcapped
    simp only [adjust, available_of_zero ha h, available_of_zero hb h, hadd, Option.bind_eq_bind,
      Option.bind_some, ih hvalue fun q hq' => hq q (List.mem_cons_of_mem _ hq')]

theorem adjust_max_zero (h : 0 ≤ remaining.value) (hq : ∀ q ∈ quantities, 0 ≤ q.value) :
    adjust (FiniteDecimal.zero.max remaining) .zero quantities = adjust remaining .zero quantities := by
  rcases h.eq_or_lt with hzero | hpos
  · rw [zero_max_of_zero hzero.symm]
    exact adjust_of_zero FiniteDecimal.zero_value hzero.symm FiniteDecimal.zero_value hq
  · have hlt : FiniteDecimal.zero.lt remaining = true :=
      FiniteDecimal.lt_iff.mpr (FiniteDecimal.zero_value.trans_lt hpos)
    rw [FiniteDecimal.max, if_pos hlt]

theorem reads_rank {row : ProtectiveRow} (h : row.reads = some d) :
    ∃ n, row.quantity = some n ∧ n.rank = (d.value : WithTop ℚ) ∧ Storable d := by
  unfold ProtectiveRow.reads at h
  simp only [Option.bind_eq_bind, Option.bind_eq_some_iff] at h
  obtain ⟨n, hn, h⟩ := h
  rcases n.toDecimal_cases with ⟨-, hnan⟩ | ⟨d', hd', hrank⟩
  · rw [hnan] at h
    exact nomatch h
  · rw [hd'] at h
    cases h
    exact ⟨n, hn, hrank, storable_of_toDecimal hd'⟩

/-- `LEAST` of a column and a bound. -/
theorem leastNonNull_rank (a b : Numeric) : (leastNonNull (some a) b).rank = min a.rank b.rank := by
  show (if a ≤ b then a else b).rank = _
  split_ifs with h
  · exact (min_eq_left h).symm
  · exact (min_eq_right (Numeric.total a b |>.resolve_left h)).symm

/-- What became of the exits of a position: each take profit has what the other side gives it, and is
active where that is not nothing; each stop of this quantity has the stop quantity of the other side; and
nothing else has changed. -/
structure Agrees (table : ProtectiveTable) (scope : ExitScope) (now : Int) (rows : List ProtectiveRow)
    (stop : FiniteDecimal) (out : RecomputedProtectionQuantities) (table' : ProtectiveTable) : Prop where
  length : out.takeProfitQuantities.length = rows.length
  takeProfits : ∀ row x, (row, x) ∈ rows.zip out.takeProfitQuantities →
    ∃ n, table'.find? row.protectiveOrderProjectionId =
        some { row with quantity := some n, active := decide (0 < x.value), updatedAt := now } ∧
      n.rank = (x.value : WithTop ℚ)
  stops : ∀ row ∈ table.rows, row.protects scope "stop_loss" = true → row.reads = some stop →
    ∃ n, table'.find? row.protectiveOrderProjectionId =
        some { row with quantity := some n, updatedAt := now } ∧
      n.rank = (out.stopQuantity.value : WithTop ℚ)
  others : ∀ row ∈ table.rows, row.protects scope "stop_loss" = false →
    row.protects scope "take_profit" = false → table'.find? row.protectiveOrderProjectionId = some row
  keys : table'.rows.map ProtectiveRow.protectiveOrderProjectionId =
    table.rows.map ProtectiveRow.protectiveOrderProjectionId

section
variable {collate : String → String → Prop} {table table' : ProtectiveTable} {scope : ExitScope}
  {rows : List ProtectiveRow} {remaining stop : FiniteDecimal} {quantities : List FiniteDecimal} {now : Int}

theorem Fetched.ids_nodup (h : Fetched collate table scope rows) :
    (rows.map ProtectiveRow.protectiveOrderProjectionId).Nodup :=
  (h.perm.map _).nodup_iff.mpr (table.unique.sublist (List.filter_sublist.map _))

variable {row : ProtectiveRow} {xs : List FiniteDecimal}

theorem Fetched.mem_iff (h : Fetched collate table scope rows) :
    row ∈ rows ↔ row ∈ table.rows ∧ row.protects scope "take_profit" = true := by
  rw [h.perm.mem_iff, List.mem_filter]

/-- A row has one role. -/
theorem protects_role {role role' : String} (h : row.protects scope role = true)
    (hne : role ≠ role') : row.protects scope role' = false := by
  have hrole : row.lifecycleRole = role := by
    simp only [ProtectiveRow.protects, Bool.and_eq_true, decide_eq_true_eq] at h
    exact h.2
  rw [ProtectiveRow.protects, hrole, decide_eq_false hne, Bool.and_false]

theorem mem_zip_zip {α β γ : Type} {as : List α} {bs : List β} {cs : List γ} {g : β → Option γ} {a : α}
    {b : β}
    (hg : bs.map g = cs.map some) (h : (a, b) ∈ as.zip bs) :
    ∃ c, g b = some c ∧ (a, b, c) ∈ as.zip (bs.zip cs) := by
  induction as generalizing bs cs with
  | nil => simp at h
  | cons a' as ih =>
    cases bs with
    | nil => simp at h
    | cons b' bs =>
      cases cs with
      | nil => exact nomatch hg
      | cons c' cs =>
        obtain ⟨hb, hbs⟩ := List.cons.inj hg
        rw [List.zip_cons_cons, List.mem_cons] at h
        rcases h with h | h
        · cases h
          exact ⟨c', hb, List.mem_cons_self⟩
        · obtain ⟨c, hc, hmem⟩ := ih hbs h
          exact ⟨c, hc, List.mem_cons_of_mem _ hmem⟩

theorem adjust_length {allocated : FiniteDecimal}
    (h : adjust remaining allocated quantities = some xs) : xs.length = quantities.length := by
  induction quantities generalizing allocated xs with
  | nil =>
    cases h
    rfl
  | cons q rest ih =>
    simp only [adjust, Option.bind_eq_bind, Option.bind_eq_some_iff, Option.pure_def, Option.some.injEq] at h
    obtain ⟨_, -, _, -, xs', hxs, rfl⟩ := h
    rw [List.length_cons, List.length_cons, ih hxs]

theorem writtenIds {ns : List Numeric} (hxs : xs.length = rows.length) (hns : ns.length = xs.length) :
    (rows.zip (xs.zip ns)).map writtenId =
      rows.map ProtectiveRow.protectiveOrderProjectionId := by
  have hfst : (rows.zip (xs.zip ns)).map Prod.fst = rows := by
    rw [List.map_fst_zip]
    rw [List.length_zip, hns, min_self, hxs]
  calc (rows.zip (xs.zip ns)).map writtenId
      = ((rows.zip (xs.zip ns)).map Prod.fst).map ProtectiveRow.protectiveOrderProjectionId := by
        rw [List.map_map]
        rfl
    _ = _ := by rw [hfst]

theorem update_keys (table : ProtectiveTable) (p : ProtectiveRow → Bool) (f : ProtectiveRow → ProtectiveRow)
    (hf : ∀ r, (f r).protectiveOrderProjectionId = r.protectiveOrderProjectionId) :
    (table.update p f hf).rows.map ProtectiveRow.protectiveOrderProjectionId =
      table.rows.map ProtectiveRow.protectiveOrderProjectionId := by
  show (table.rows.map fun r => if p r then f r else r).map _ = _
  rw [List.map_map]
  refine List.map_congr_left fun r _ => ?_
  by_cases h : p r <;> simp [h, hf]

theorem written_keys (l : List (ProtectiveRow × FiniteDecimal × Numeric)) (table : ProtectiveTable) :
    (written now l table).rows.map ProtectiveRow.protectiveOrderProjectionId =
      table.rows.map ProtectiveRow.protectiveOrderProjectionId := by
  induction l generalizing table with
  | nil => rfl
  | cons p rest ih =>
    rw [written, ih, update_keys]

/-- The rows that are not fetched keep what the first statement made of them. -/
theorem not_mem_ids (hfetched : Fetched collate table scope rows) (hrow : row ∈ table.rows)
    (h : row.protects scope "take_profit" = false) :
    row.protectiveOrderProjectionId ∉ rows.map ProtectiveRow.protectiveOrderProjectionId := by
  intro hmem
  obtain ⟨row', hrow', hid⟩ := List.mem_map.mp hmem
  obtain ⟨htable, htakes⟩ := hfetched.mem_iff.mp hrow'
  rw [List.inj_on_of_nodup_map table.unique htable hrow hid, h] at htakes
  exact Bool.false_ne_true htakes

/-- What a call made of the table. -/
structure Rewritten (table : ProtectiveTable) (scope : ExitScope) (bound : Numeric) (now : Int)
    (rows : List ProtectiveRow) (xs : List FiniteDecimal) (table' : ProtectiveTable) : Prop where
  stops : ∀ row ∈ table.rows, row.protects scope "stop_loss" = true →
    table'.find? row.protectiveOrderProjectionId = some (row.cut bound now)
  takeProfits : ∀ row x, (row, x) ∈ rows.zip xs → ∃ n, Numeric.ofDecimal (.finite x) = some n ∧
    table'.find? row.protectiveOrderProjectionId = some (row.resized x n now)
  others : ∀ row ∈ table.rows, row.protects scope "stop_loss" = false →
    row.protects scope "take_profit" = false → table'.find? row.protectiveOrderProjectionId = some row
  keys : table'.rows.map ProtectiveRow.protectiveOrderProjectionId =
    table.rows.map ProtectiveRow.protectiveOrderProjectionId

/-- **A call that commits writes what the loop over the quantities gives.** -/
theorem recompute_rewritten (hfetched : Fetched collate table scope rows)
    (hreads : rows.map ProtectiveRow.reads = quantities.map some)
    (h : recomputeActiveProtectionQuantities table scope remaining now rows = some table') :
    ∃ bound xs, Numeric.ofDecimal (.finite remaining) = some bound ∧
      adjust remaining .zero quantities = some xs ∧ xs.length = rows.length ∧
        Rewritten table scope bound now rows xs table' := by
  unfold recomputeActiveProtectionQuantities at h
  simp only [Option.bind_eq_bind, Option.bind_eq_some_iff] at h
  obtain ⟨bound, hbound, h⟩ := h
  obtain ⟨xs, ns, hxs, hns, rfl⟩ := (resizeRows_iff hreads).mp h
  have hlength : xs.length = rows.length := by
    rw [adjust_length hxs]
    simpa using congrArg List.length hreads.symm
  have hids := writtenIds hlength (by simpa using congrArg List.length hns.symm)
  have hnodup := hids ▸ hfetched.ids_nodup
  refine ⟨bound, xs, hbound, hxs, hlength, ?_, ?_, ?_, ?_⟩
  · intro row hrow hstops
    have hids' := not_mem_ids hfetched hrow (protects_role hstops (by decide))
    rw [find?_written_of_not_mem (hids ▸ hids'), Table.find?_update, Table.find?_of_mem hrow]
    simp only [Option.map_some, hstops, if_true]
  · intro row x hmem
    obtain ⟨n, hn, hmem⟩ := mem_zip_zip hns hmem
    obtain ⟨hrow, htakes⟩ := hfetched.mem_iff.mp (List.of_mem_zip hmem).1
    have hstops : row.protects scope "stop_loss" = false := protects_role htakes (by decide)
    refine ⟨n, hn, ?_⟩
    rw [find?_written hnodup hmem, Table.find?_update, Table.find?_of_mem hrow]
    simp only [Option.map_some, hstops, Bool.false_eq_true, if_false]
  · intro row hrow hstops htakes
    rw [find?_written_of_not_mem (hids ▸ not_mem_ids hfetched hrow htakes), Table.find?_update,
      Table.find?_of_mem hrow]
    simp only [Option.map_some, hstops, Bool.false_eq_true, if_false]
  · rw [written_keys, update_keys]

theorem isPositive_eq (x : FiniteDecimal) : x.isPositive = decide (0 < x.value) := by
  rw [Bool.eq_iff_iff, FiniteDecimal.isPositive_iff, decide_eq_true_eq]

/-- **What the rows get is what the tuple gets.** -/
theorem rows_agree (hfetched : Fetched collate table scope rows)
    (hreads : rows.map ProtectiveRow.reads = quantities.map some) (hremaining : 0 ≤ remaining.value)
    (hquantities : ∀ q ∈ quantities, 0 ≤ q.value)
    (h : recomputeActiveProtectionQuantities table scope remaining now rows = some table') :
    ∃ out, recomputeRemainingQuantities remaining stop quantities = some out ∧
      Agrees table scope now rows stop out table' := by
  obtain ⟨bound, xs, hbound, hxs, hlength, hrewritten⟩ := recompute_rewritten hfetched hreads h
  refine ⟨⟨stop.min (FiniteDecimal.zero.max remaining), xs⟩, ?_, hlength, ?_, ?_, hrewritten.others,
    hrewritten.keys⟩
  · simp only [recomputeRemainingQuantities, adjust_max_zero hremaining hquantities, hxs, Option.bind_eq_bind,
      Option.bind_some, Option.pure_def]
  · intro row x hmem
    obtain ⟨n, hn, hfind⟩ := hrewritten.takeProfits row x hmem
    refine ⟨n, ?_, Numeric.ofDecimal_rank hn⟩
    rw [hfind, ProtectiveRow.resized, isPositive_eq]
  · intro row hrow hstops hread
    obtain ⟨s, hs, hrank, -⟩ := reads_rank hread
    refine ⟨leastNonNull (some s) bound, ?_, ?_⟩
    · rw [hrewritten.stops row hrow hstops, ProtectiveRow.cut, hs]
    · rw [leastNonNull_rank, hrank, Numeric.ofDecimal_rank hbound, FiniteDecimal.min_value, FiniteDecimal.max_value,
        FiniteDecimal.zero_value, max_eq_right hremaining]
      exact (WithTop.coe_min _ _).symm

end

/-! ## What resizing keeps -/

section
variable {e : Int} {remaining r₁ r₂ stop : FiniteDecimal} {quantities : List FiniteDecimal}

theorem Places.zero_max (h : Places e remaining quantities) :
    Places e (FiniteDecimal.zero.max remaining) quantities := by
  have hvalue : (FiniteDecimal.zero.max remaining).value = remaining.value := by
    rw [FiniteDecimal.max_value, FiniteDecimal.zero_value, max_eq_right h.whole.nonneg]
  exact ⟨h.inContext, hvalue ▸ h.whole, hvalue ▸ h.fits, h.quantities_whole⟩

theorem Places.min (h₁ : Places e r₁ quantities) (h₂ : Places e r₂ quantities) :
    Places e (r₁.min r₂) quantities where
  inContext := h₁.inContext
  whole := by
    rw [FiniteDecimal.min_value]
    exact h₁.whole.min h₂.whole
  fits := by
    rw [FiniteDecimal.min_value]
    exact (min_le_left _ _).trans_lt h₁.fits
  quantities_whole := h₁.quantities_whole

theorem allot_whole {room : ℚ} {qs : List ℚ} (hroom : Decimal.Whole e room)
    (h : ∀ q ∈ qs, Decimal.Whole e q) : ∀ x ∈ allot room qs, Decimal.Whole e x := by
  induction qs generalizing room with
  | nil => exact fun x hx => nomatch hx
  | cons q rest ih =>
    have hmin := (h q List.mem_cons_self).min hroom
    intro x hx
    rcases List.mem_cons.mp hx with rfl | hx
    · exact hmin
    · exact ih (hroom.sub hmin (min_le_right _ _)) (fun q hq => h q (List.mem_cons_of_mem _ hq)) x hx

/-- **The laws of one resizing**, in 28 digits. -/
theorem recompute_laws (h : Places e remaining quantities) :
    ∃ out, recomputeRemainingQuantities remaining stop quantities = some out ∧
      out.stopQuantity.value = min stop.value remaining.value ∧
      out.takeProfitQuantities.map FiniteDecimal.value =
        allot remaining.value (quantities.map FiniteDecimal.value) := by
  have hvalue : (FiniteDecimal.zero.max remaining).value = remaining.value := by
    rw [FiniteDecimal.max_value, FiniteDecimal.zero_value, max_eq_right h.whole.nonneg]
  obtain ⟨xs, hxs, hallot⟩ := adjust_allots h.zero_max
    (FiniteDecimal.zero_value ▸ Decimal.Whole.zero e)
    (by rw [hvalue]; exact FiniteDecimal.zero_value ▸ h.whole.nonneg)
  refine ⟨⟨stop.min (FiniteDecimal.zero.max remaining), xs⟩, ?_, ?_, ?_⟩
  · simp only [recomputeRemainingQuantities, hxs, Option.bind_eq_bind, Option.bind_some, Option.pure_def]
  · rw [FiniteDecimal.min_value, hvalue]
  · rw [hallot, hvalue, FiniteDecimal.zero_value, sub_zero]

theorem Places.values_nonneg (h : Places e remaining quantities) :
    ∀ x ∈ quantities.map FiniteDecimal.value, 0 ≤ x := by
  intro x hx
  obtain ⟨q, hq, rfl⟩ := List.mem_map.mp hx
  exact (h.quantities_whole q hq).nonneg

/-- What is allotted has the places of the quantities. -/
theorem Places.again (h₁ : Places e r₁ quantities) (h₂ : Places e r₂ quantities) {xs : List FiniteDecimal}
    (hxs : ∀ x ∈ xs.map FiniteDecimal.value, x ∈ allot r₁.value (quantities.map FiniteDecimal.value)) :
    Places e r₂ xs where
  inContext := h₂.inContext
  whole := h₂.whole
  fits := h₂.fits
  quantities_whole := by
    intro x hx
    refine allot_whole h₁.whole ?_ x.value (hxs _ (List.mem_map_of_mem hx))
    intro v hv
    obtain ⟨q, hq, rfl⟩ := List.mem_map.mp hv
    exact h₁.quantities_whole q hq

/-- **Resizing twice is resizing once to the smaller of the two.** -/
theorem recompute_twice (h₁ : Places e r₁ quantities) (h₂ : Places e r₂ quantities) :
    ∃ out twice once, recomputeRemainingQuantities r₁ stop quantities = some out ∧
      recomputeRemainingQuantities r₂ out.stopQuantity out.takeProfitQuantities = some twice ∧
      recomputeRemainingQuantities (r₁.min r₂) stop quantities = some once ∧
      twice.stopQuantity.value = once.stopQuantity.value ∧
      twice.takeProfitQuantities.map FiniteDecimal.value =
        once.takeProfitQuantities.map FiniteDecimal.value := by
  obtain ⟨out, hout, hstop, hallot⟩ := @recompute_laws e r₁ stop quantities h₁
  obtain ⟨twice, htwice, hstop', hallot'⟩ := @recompute_laws e r₂ out.stopQuantity _
    (h₁.again h₂ fun x hx => hallot ▸ hx)
  obtain ⟨once, honce, hstop'', hallot''⟩ := @recompute_laws e (r₁.min r₂) stop quantities (h₁.min h₂)
  refine ⟨out, twice, once, hout, htwice, honce, ?_, ?_⟩
  · rw [hstop', hstop, hstop'', FiniteDecimal.min_value, min_assoc]
  · rw [hallot', hallot, hallot'', FiniteDecimal.min_value, allot_allot h₁.whole.nonneg h₂.whole.nonneg]

end

/-! ## Resizing the rows twice -/

section
variable {e : Int} {remaining r₁ r₂ : FiniteDecimal} {quantities : List FiniteDecimal}
  {collate : String → String → Prop} {table t₁ t₂ t₃ : ProtectiveTable} {scope : ExitScope}
  {rows rows₂ : List ProtectiveRow} {now : Int}

variable {xs : List FiniteDecimal} {bound : Numeric} {r : ProtectiveRow}

theorem ofDecimal_list (h : ∀ x ∈ xs, Storable x) :
    ∃ ns : List Numeric, xs.map (fun x => Numeric.ofDecimal (.finite x)) = ns.map some := by
  induction xs with
  | nil => exact ⟨[], rfl⟩
  | cons x rest ih =>
    obtain ⟨n, hn⟩ := ofDecimal_of_storable (h x List.mem_cons_self)
    obtain ⟨ns, hns⟩ := ih fun x hx => h x (List.mem_cons_of_mem _ hx)
    exact ⟨n :: ns, by rw [List.map_cons, List.map_cons, hn, hns]⟩

/-- **In 28 digits a call commits.** -/
theorem recompute_commits (h : Places e remaining quantities) (hstore : Storable remaining)
    (hfetched : Fetched collate table scope rows)
    (hreads : rows.map ProtectiveRow.reads = quantities.map some) :
    ∃ table' bound xs, recomputeActiveProtectionQuantities table scope remaining now rows = some table' ∧
      Numeric.ofDecimal (.finite remaining) = some bound ∧ xs.length = rows.length ∧
      xs.map FiniteDecimal.value = allot remaining.value (quantities.map FiniteDecimal.value) ∧
      Rewritten table scope bound now rows xs table' := by
  obtain ⟨bound, hbound⟩ := ofDecimal_of_storable hstore
  obtain ⟨xs, hxs, hallot⟩ := adjust_allots h (FiniteDecimal.zero_value ▸ Decimal.Whole.zero e)
    (FiniteDecimal.zero_value ▸ h.whole.nonneg)
  rw [FiniteDecimal.zero_value, sub_zero] at hallot
  have hstored : ∀ q ∈ quantities, Storable q := by
    intro q hq
    have hmem : some q ∈ rows.map ProtectiveRow.reads := hreads ▸ List.mem_map_of_mem hq
    obtain ⟨row, -, hrow⟩ := List.mem_map.mp hmem
    obtain ⟨n, -, -, hstorable⟩ := reads_rank hrow
    exact hstorable
  have hwritable : ∀ x ∈ xs, Storable x := by
    intro x hx
    have hmem : x.value ∈ allot remaining.value (quantities.map FiniteDecimal.value) :=
      hallot ▸ List.mem_map_of_mem hx
    have hnonneg := allot_nonneg h.whole.nonneg h.values_nonneg _ hmem
    have hle := allot_le_room h.whole.nonneg h.values_nonneg _ hmem
    refine ⟨adjust_exponents (by decide) hstore.1 (by decide) (fun q hq => (hstored q hq).1) hxs x hx, ?_⟩
    rw [abs_of_nonneg hnonneg]
    exact hle.trans_lt ((le_abs_self _).trans_lt hstore.2)
  obtain ⟨ns, hns⟩ := ofDecimal_list hwritable
  have hcall : recomputeActiveProtectionQuantities table scope remaining now rows =
      some (written now (rows.zip (xs.zip ns)) (table.update (·.protects scope "stop_loss") (·.cut bound now)
        (ProtectiveRow.cut_id bound now))) := by
    rw [recomputeActiveProtectionQuantities, hbound]
    exact (resizeRows_iff hreads).mpr ⟨xs, ns, hxs, hns, rfl⟩
  obtain ⟨bound', xs', hbound', hxs', hlength, hrewritten⟩ := recompute_rewritten hfetched hreads hcall
  rw [hbound] at hbound'
  rw [hxs] at hxs'
  cases hbound'
  cases hxs'
  exact ⟨_, bound, xs, hcall, hbound, hlength, hallot, hrewritten⟩

/-- What counts of a row: whether it is active, and its quantity. -/
def ProtectiveRow.exit (row : ProtectiveRow) : Bool × Option (WithTop ℚ) :=
    (row.active, row.quantity.map Numeric.rank)

/-- The number that is read, where it is one. -/
def ProtectiveRow.worth (row : ProtectiveRow) : ℚ := (row.reads.map FiniteDecimal.value).getD 0

/-- A row that was resized reads as what was written. -/
theorem resized_reads {row : ProtectiveRow} {x : FiniteDecimal} {n : Numeric}
    (h : Numeric.ofDecimal (.finite x) = some n) :
    ∃ d, (row.resized x n now).reads = some d ∧ d.value = x.value := by
  rcases n.toDecimal_cases with ⟨htop, -⟩ | ⟨d, hd, hrank⟩
  · rw [Numeric.ofDecimal_rank h] at htop
    exact absurd htop (WithTop.coe_ne_top)
  · refine ⟨d, ?_, ?_⟩
    · show (match n.toDecimal with | .finite d => some d | _ => none) = some d
      rw [hd]
    · rw [Numeric.ofDecimal_rank h] at hrank
      exact (WithTop.coe_inj.mp hrank).symm

/-- Two parts of a list without repetitions that have the same elements are the same. -/
theorem sublist_ext {l l₁ l₂ : List String} (hnodup : l.Nodup) (h₁ : l₁.Sublist l) (h₂ : l₂.Sublist l)
    (h : ∀ x, x ∈ l₁ ↔ x ∈ l₂) : l₁ = l₂ := by
  have hfilter : ∀ {l' : List String}, l'.Sublist l → (∀ x, x ∈ l' ↔ x ∈ l₂) → l' = l.filter (· ∈ l₂) := by
    intro l' hl' hmem
    have hsub := hl'.filter (· ∈ l₂)
    rw [List.filter_eq_self.mpr fun x hx => decide_eq_true ((hmem x).mp hx)] at hsub
    refine hsub.eq_of_length (List.Perm.length_eq ?_)
    refine (List.perm_ext_iff_of_nodup (hnodup.sublist hl') (hnodup.filter _)).mpr fun x => ?_
    rw [List.mem_filter, decide_eq_true_eq, hmem x]
    exact ⟨fun hx => ⟨h₂.subset hx, hx⟩, And.right⟩
  rw [hfilter h₁ h, ← hfilter h₂ fun x => Iff.rfl]

theorem exists_zip {α β : Type} {as : List α} {bs : List β} (h : bs.length = as.length) {a : α}
    (ha : a ∈ as) :
    ∃ b, (a, b) ∈ as.zip bs := by
  have hfst : (as.zip bs).map Prod.fst = as := List.map_fst_zip h.ge
  rw [← hfst] at ha
  obtain ⟨⟨a', b⟩, hmem, rfl⟩ := List.mem_map.mp ha
  exact ⟨b, hmem⟩

/-- The row that a row of the second table was. -/
theorem Rewritten.origin (h : Rewritten table scope bound now rows xs t₁) (hr : r ∈ t₁.rows) :
    ∃ row ∈ table.rows, row.protectiveOrderProjectionId = r.protectiveOrderProjectionId := by
  have hmem : r.protectiveOrderProjectionId ∈ table.rows.map ProtectiveRow.protectiveOrderProjectionId :=
    h.keys ▸ List.mem_map_of_mem hr
  exact List.mem_map.mp hmem

/-- A take profit is fetched again where it was left something. -/
theorem Rewritten.survives_iff (h : Rewritten table scope bound now rows xs t₁)
    (hlength : xs.length = rows.length) (hfetched : Fetched collate table scope rows) :
    (r ∈ t₁.rows ∧ r.protects scope "take_profit" = true) ↔
      ∃ row x n, (row, x) ∈ rows.zip xs ∧ Numeric.ofDecimal (.finite x) = some n ∧ 0 < x.value ∧
        r = row.resized x n now := by
  constructor
  · rintro ⟨hr, htakes⟩
    obtain ⟨row, hrow, hid⟩ := h.origin hr
    have hfind : t₁.find? row.protectiveOrderProjectionId = some r := hid ▸ Table.find?_of_mem hr
    cases hstops : row.protects scope "stop_loss" with
    | true =>
      rw [h.stops row hrow hstops] at hfind
      cases hfind
      have hnot : (row.cut bound now).protects scope "take_profit" = false :=
        protects_role hstops (by decide)
      rw [hnot] at htakes
      exact nomatch htakes
    | false =>
      cases htook : row.protects scope "take_profit" with
      | false =>
        rw [h.others row hrow hstops htook] at hfind
        cases hfind
        rw [htook] at htakes
        exact nomatch htakes
      | true =>
        obtain ⟨x, hx⟩ := exists_zip hlength (hfetched.mem_iff.mpr ⟨hrow, htook⟩)
        obtain ⟨n, hn, hfound⟩ := h.takeProfits row x hx
        rw [hfound] at hfind
        cases hfind
        refine ⟨row, x, n, hx, hn, FiniteDecimal.isPositive_iff.mp ?_, rfl⟩
        simp only [ProtectiveRow.protects, ProtectiveRow.resized, Bool.and_eq_true] at htakes
        exact htakes.1.2
  · rintro ⟨row, x, n, hx, hn, hpos, rfl⟩
    obtain ⟨hrow, htakes⟩ := hfetched.mem_iff.mp (List.of_mem_zip hx).1
    obtain ⟨n', hn', hfind⟩ := h.takeProfits row x hx
    rw [hn] at hn'
    cases hn'
    refine ⟨List.mem_of_find?_eq_some hfind, ?_⟩
    simp only [ProtectiveRow.protects, Bool.and_eq_true] at htakes ⊢
    exact ⟨⟨htakes.1.1, FiniteDecimal.isPositive_iff.mpr hpos⟩, htakes.2⟩

/-- **What is fetched again, in the same order, is what was left something.** -/
theorem Rewritten.fetched_again (h : Rewritten table scope bound now rows xs t₁)
    (hlength : xs.length = rows.length) (hfetched : Fetched collate table scope rows)
    (hfetched₂ : Fetched collate t₁ scope rows₂)
    (horder : (rows₂.map ProtectiveRow.protectiveOrderProjectionId).Sublist
      (rows.map ProtectiveRow.protectiveOrderProjectionId)) :
    rows₂.map (fun r => (r.protectiveOrderProjectionId, r.worth)) =
      ((rows.map ProtectiveRow.protectiveOrderProjectionId).zip (xs.map FiniteDecimal.value)).filter (0 < ·.2) := by
  set ps := (rows.map ProtectiveRow.protectiveOrderProjectionId).zip (xs.map FiniteDecimal.value) with hps
  have hmem : ∀ p, p ∈ ps ↔
    ∃ row x, (row, x) ∈ rows.zip xs ∧ (row.protectiveOrderProjectionId, x.value) = p := by
    intro p
    rw [hps, List.zip_map, List.mem_map]
    simp only [Prod.exists, Prod.map]
  let worthOf : String → ℚ := fun id => ((t₁.find? id).map ProtectiveRow.worth).getD 0
  have hworth : ∀ p ∈ ps, p = (p.1, worthOf p.1) := by
    intro p hp
    obtain ⟨row, x, hx, rfl⟩ := (hmem p).mp hp
    obtain ⟨n, hn, hfind⟩ := h.takeProfits row x hx
    obtain ⟨d, hd, hvalue⟩ := @resized_reads now row x n hn
    simp only [worthOf, hfind, Option.map_some, Option.getD_some, ProtectiveRow.worth, hd, hvalue]
  have hids : rows₂.map ProtectiveRow.protectiveOrderProjectionId = (ps.filter (0 < ·.2)).map Prod.fst := by
    have hfst : ps.map Prod.fst = rows.map ProtectiveRow.protectiveOrderProjectionId :=
      List.map_fst_zip (by rw [List.length_map, List.length_map, hlength])
    refine sublist_ext hfetched.ids_nodup horder (hfst ▸ List.filter_sublist.map Prod.fst) fun id => ?_
    constructor
    · intro hid
      obtain ⟨r, hr, rfl⟩ := List.mem_map.mp hid
      obtain ⟨row, x, n, hx, -, hpos, rfl⟩ := (h.survives_iff hlength hfetched).mp (hfetched₂.mem_iff.mp hr)
      exact List.mem_map.mpr ⟨_, List.mem_filter.mpr ⟨(hmem _).mpr ⟨row, x, hx, rfl⟩, decide_eq_true hpos⟩, rfl⟩
    · intro hid
      obtain ⟨p, hp, rfl⟩ := List.mem_map.mp hid
      obtain ⟨hp, hpos⟩ := List.mem_filter.mp hp
      obtain ⟨row, x, hx, rfl⟩ := (hmem p).mp hp
      obtain ⟨n, hn, -⟩ := h.takeProfits row x hx
      refine List.mem_map.mpr ⟨row.resized x n now, hfetched₂.mem_iff.mpr ?_, rfl⟩
      exact (h.survives_iff hlength hfetched).mpr ⟨row, x, n, hx, hn, of_decide_eq_true hpos, rfl⟩
  have hpairs : ∀ l : List (String × ℚ), (∀ p ∈ l, p = (p.1, worthOf p.1)) →
      l = (l.map Prod.fst).map fun id => (id, worthOf id) := by
    intro l hl
    rw [List.map_map]
    conv_lhs => rw [← List.map_id l]
    exact List.map_congr_left fun p hp => hl p hp
  have hfound : ∀ p ∈ rows₂.map (fun r => (r.protectiveOrderProjectionId, r.worth)), p =
    (p.1, worthOf p.1) := by
    intro p hp
    obtain ⟨r, hr, rfl⟩ := List.mem_map.mp hp
    simp only [worthOf, Table.find?_of_mem (hfetched₂.mem_iff.mp hr).1, Option.map_some, Option.getD_some]
  have hrows : (rows₂.map fun r => (r.protectiveOrderProjectionId, r.worth)).map Prod.fst =
      rows₂.map ProtectiveRow.protectiveOrderProjectionId := by
    rw [List.map_map]
    rfl
  rw [hpairs _ hfound, hpairs _ fun p hp => hworth p (List.mem_of_mem_filter hp), hrows, hids]

end

section
variable {e : Int} {r₁ r₂ stop : FiniteDecimal} {quantities : List FiniteDecimal}
  {collate : String → String → Prop} {table t₁ t₂ t₃ : ProtectiveTable} {scope : ExitScope}
  {rows rows₂ : List ProtectiveRow} {now now₂ now₃ : Int} {b₁ b₂ b₃ : Numeric} {xs₁ xs₂ xs₃ : List FiniteDecimal}

theorem leastNonNull_twice (a : Option Numeric) (hbound : b₃.rank = min b₁.rank b₂.rank) :
    (leastNonNull (some (leastNonNull a b₁)) b₂).rank = (leastNonNull a b₃).rank := by
  rw [leastNonNull_rank]
  cases a with
  | none => exact hbound.symm
  | some a => rw [leastNonNull_rank, leastNonNull_rank, hbound, min_assoc]

theorem exit_resized {row : ProtectiveRow} {x : FiniteDecimal} {n : Numeric}
    (h : Numeric.ofDecimal (.finite x) = some n) :
    (row.resized x n now).exit = (decide (0 < x.value), some (x.value : WithTop ℚ)) := by
  rw [ProtectiveRow.exit, ← Numeric.ofDecimal_rank h, ← isPositive_eq]
  rfl

/-- **One row after two calls, and after the one.** -/
theorem exit_twice (h₁ : Rewritten table scope b₁ now rows xs₁ t₁) (hlength : xs₁.length = rows.length)
    (h₂ : Rewritten t₁ scope b₂ now₂ rows₂ xs₂ t₂)
    (h₃ : Rewritten table scope b₃ now₃ rows xs₃ t₃) (hlength₃ : xs₃.length = rows.length)
    (hfetched : Fetched collate table scope rows) (hfetched₂ : Fetched collate t₁ scope rows₂)
    (horder : (rows₂.map ProtectiveRow.protectiveOrderProjectionId).Sublist
      (rows.map ProtectiveRow.protectiveOrderProjectionId))
    (hbound : b₃.rank = min b₁.rank b₂.rank) {room : ℚ} (hroom : 0 ≤ room)
    (hnonneg : ∀ x ∈ xs₁, 0 ≤ x.value)
    (hvalues₂ : xs₂.map FiniteDecimal.value = allot room (rows₂.map ProtectiveRow.worth))
    (hvalues₃ : xs₃.map FiniteDecimal.value = allot room (xs₁.map FiniteDecimal.value)) (id : String) :
    (t₂.find? id).map ProtectiveRow.exit = (t₃.find? id).map ProtectiveRow.exit := by
  cases hfind : table.find? id with
  | none =>
    have habsent := Table.find?_eq_none_iff.mp hfind
    rw [Table.find?_eq_none_iff.mpr (h₂.keys ▸ h₁.keys ▸ habsent), Table.find?_eq_none_iff.mpr (h₃.keys ▸ habsent)]
  | some row =>
    have hrow : row ∈ table.rows := List.mem_of_find?_eq_some hfind
    obtain rfl := Table.key_of_find? hfind
    cases hstops : row.protects scope "stop_loss" with
    | true =>
      -- a stop is cut twice
      have hcut := h₂.stops (row.cut b₁ now) (List.mem_of_find?_eq_some (h₁.stops row hrow hstops)) hstops
      rw [ProtectiveRow.cut_id] at hcut
      rw [hcut, h₃.stops row hrow hstops, Option.map_some, Option.map_some, Option.some.injEq, ProtectiveRow.exit,
        ProtectiveRow.exit, Prod.mk.injEq]
      exact ⟨rfl, congrArg some (leastNonNull_twice row.quantity hbound)⟩
    | false =>
      cases htakes : row.protects scope "take_profit" with
      | false =>
        have hkept := h₁.others row hrow hstops htakes
        rw [h₂.others row (List.mem_of_find?_eq_some hkept) hstops htakes, h₃.others row hrow hstops htakes]
      | true =>
        have hmem := hfetched.mem_iff.mpr ⟨hrow, htakes⟩
        obtain ⟨x₁, hx₁⟩ := exists_zip hlength hmem
        obtain ⟨x₃, hx₃⟩ := exists_zip hlength₃ hmem
        obtain ⟨n₁, hn₁, hfind₁⟩ := h₁.takeProfits row x₁ hx₁
        obtain ⟨n₃, hn₃, hfind₃⟩ := h₃.takeProfits row x₃ hx₃
        rw [hfind₃, Option.map_some, exit_resized hn₃]
        set ps := (rows.map ProtectiveRow.protectiveOrderProjectionId).zip (xs₁.map FiniteDecimal.value) with hps
        have hagain : rows₂.map (fun r => (r.protectiveOrderProjectionId, r.worth)) = ps.filter (0 < ·.2) :=
          h₁.fetched_again hlength hfetched hfetched₂ horder
        have hfst : ps.map Prod.fst = rows.map ProtectiveRow.protectiveOrderProjectionId :=
          List.map_fst_zip (by rw [List.length_map, List.length_map, hlength])
        have hsnd : ps.map Prod.snd = xs₁.map FiniteDecimal.value :=
          List.map_snd_zip (by rw [List.length_map, List.length_map, hlength])
        have hpsnonneg : ∀ p ∈ ps, 0 ≤ p.2 := by
          intro p hp
          obtain ⟨x, hx, hvalue⟩ :=
            List.mem_map.mp (hsnd ▸ List.mem_map_of_mem hp : p.2 ∈ xs₁.map FiniteDecimal.value)
          exact hvalue ▸ hnonneg x hx
        have hserved : (row.protectiveOrderProjectionId, x₃.value) ∈
            (ps.map Prod.fst).zip (allot room (ps.map Prod.snd)) := by
          rw [hfst, hsnd, ← hvalues₃, List.zip_map]
          exact List.mem_map.mpr ⟨_, hx₃, rfl⟩
        rcases (mem_zip_allot hroom hpsnonneg).mp hserved with hleft | ⟨hnothing, hzero⟩
        · -- it was left something, and is fetched again
          rw [← hagain, List.map_map, List.map_map] at hleft
          have hvalues : allot room (rows₂.map (Prod.snd ∘ fun r => (r.protectiveOrderProjectionId, r.worth))) =
              xs₂.map FiniteDecimal.value := hvalues₂.symm
          rw [hvalues, List.zip_map, List.mem_map] at hleft
          obtain ⟨⟨row₂, x₂⟩, hx₂, heq⟩ := hleft
          obtain ⟨hid, hvalue⟩ := Prod.mk.inj heq
          obtain ⟨n₂, hn₂, hfind₂⟩ := h₂.takeProfits row₂ x₂ hx₂
          have hid' : row₂.protectiveOrderProjectionId = row.protectiveOrderProjectionId := hid
          rw [← hid', hfind₂, Option.map_some, exit_resized hn₂, show x₂.value = x₃.value from hvalue]
        · -- it was left nothing, and is not looked at again
          have hmem₁ : (row.protectiveOrderProjectionId, x₁.value) ∈ ps := by
            rw [hps, List.zip_map]
            exact List.mem_map.mpr ⟨_, hx₁, rfl⟩
          have hx₁zero : x₁.value = 0 :=
            congrArg Prod.snd (List.inj_on_of_nodup_map (hfst ▸ hfetched.ids_nodup) hmem₁ hzero rfl)
          have hinactive : (row.resized x₁ n₁ now).active = false := by
            show x₁.isPositive = false
            rw [isPositive_eq, hx₁zero]
            exact decide_eq_false (lt_irrefl 0)
          have hunprotecting : ∀ role, (row.resized x₁ n₁ now).protects scope role = false := by
            intro role
            rw [ProtectiveRow.protects, hinactive, Bool.and_false, Bool.false_and]
          have hkept := h₂.others (row.resized x₁ n₁ now) (List.mem_of_find?_eq_some hfind₁)
            (hunprotecting _) (hunprotecting _)
          rw [ProtectiveRow.resized_id] at hkept
          rw [hkept, Option.map_some, exit_resized hn₁, hx₁zero, hnothing]

/-- **Resizing the rows twice is resizing them once**, as long as they come in the same order. -/
theorem rows_twice (h₁ : Places e r₁ quantities) (h₂ : Places e r₂ quantities) (hstore₁ : Storable r₁)
    (hstore₂ : Storable r₂) (hfetched : Fetched collate table scope rows)
    (hreads : rows.map ProtectiveRow.reads = quantities.map some) :
    ∃ t₁ t₃, recomputeActiveProtectionQuantities table scope r₁ now rows = some t₁ ∧
      recomputeActiveProtectionQuantities table scope (r₁.min r₂) now₃ rows = some t₃ ∧
      ∀ rows₂, Fetched collate t₁ scope rows₂ →
        (rows₂.map ProtectiveRow.protectiveOrderProjectionId).Sublist
          (rows.map ProtectiveRow.protectiveOrderProjectionId) →
        ∃ t₂, recomputeActiveProtectionQuantities t₁ scope r₂ now₂ rows₂ = some t₂ ∧
          ∀ id, (t₂.find? id).map ProtectiveRow.exit = (t₃.find? id).map ProtectiveRow.exit := by
  have hstore₃ : Storable (r₁.min r₂) := by
    unfold FiniteDecimal.min
    split_ifs
    · exact hstore₂
    · exact hstore₁
  obtain ⟨t₁, b₁, xs₁, hcall₁, hb₁, hlength₁, hvalues₁, hrewritten₁⟩ :=
    @recompute_commits _ _ _ _ _ _ _ now h₁ hstore₁ hfetched hreads
  obtain ⟨t₃, b₃, xs₃, hcall₃, hb₃, hlength₃, hvalues₃, hrewritten₃⟩ :=
    @recompute_commits _ _ _ _ _ _ _ now₃ (h₁.min h₂) hstore₃ hfetched hreads
  refine ⟨t₁, t₃, hcall₁, hcall₃, fun rows₂ hfetched₂ horder => ?_⟩
  have hagain := hrewritten₁.fetched_again hlength₁ hfetched hfetched₂ horder
  have hworth : ∀ r ∈ rows₂, ∃ d, r.reads = some d ∧ d.value ∈ xs₁.map FiniteDecimal.value := by
    intro r hr
    obtain ⟨row, x, n, hx, hn, -, rfl⟩ :=
      (hrewritten₁.survives_iff hlength₁ hfetched).mp (hfetched₂.mem_iff.mp hr)
    obtain ⟨d, hd, hvalue⟩ := @resized_reads now row x n hn
    exact ⟨d, hd, hvalue ▸ List.mem_map_of_mem (List.of_mem_zip hx).2⟩
  have hreads₂ : rows₂.map ProtectiveRow.reads =
      (rows₂.map fun r => r.reads.getD .zero).map some := by
    rw [List.map_map]
    refine List.map_congr_left fun r hr => ?_
    obtain ⟨d, hd, -⟩ := hworth r hr
    rw [Function.comp_apply, hd, Option.getD_some]
  have hvalues₂ : (rows₂.map fun r => r.reads.getD .zero).map FiniteDecimal.value =
      rows₂.map ProtectiveRow.worth := by
    rw [List.map_map]
    refine List.map_congr_left fun r hr => ?_
    obtain ⟨d, hd, -⟩ := hworth r hr
    rw [Function.comp_apply, ProtectiveRow.worth, hd, Option.map_some, Option.getD_some, Option.getD_some]
  have hplaces₂ : Places e r₂ (rows₂.map fun r => r.reads.getD .zero) := by
    refine h₁.again h₂ fun x hx => ?_
    rw [hvalues₂] at hx
    obtain ⟨r, hr, rfl⟩ := List.mem_map.mp hx
    obtain ⟨d, hd, hmem⟩ := hworth r hr
    rwa [ProtectiveRow.worth, hd, Option.map_some, Option.getD_some, ← hvalues₁]
  obtain ⟨t₂, b₂, xs₂, hcall₂, hb₂, hlength₂, hallot₂, hrewritten₂⟩ :=
    @recompute_commits _ _ _ _ _ _ _ now₂ hplaces₂ hstore₂ hfetched₂ hreads₂
  refine ⟨t₂, hcall₂, exit_twice hrewritten₁ hlength₁ hrewritten₂ hrewritten₃ hlength₃ hfetched hfetched₂
    horder ?_ h₂.whole.nonneg ?_ (hvalues₂ ▸ hallot₂) ?_⟩
  · rw [Numeric.ofDecimal_rank hb₁, Numeric.ofDecimal_rank hb₂, Numeric.ofDecimal_rank hb₃, FiniteDecimal.min_value]
    exact WithTop.coe_min _ _
  · intro x hx
    exact allot_nonneg h₁.whole.nonneg h₁.values_nonneg _ (hvalues₁ ▸ List.mem_map_of_mem hx)
  · rw [hvalues₃, hvalues₁, FiniteDecimal.min_value, allot_allot h₁.whole.nonneg h₂.whole.nonneg]

end

/-- **Both sides resize alike, and in 28 digits exits compose.** What a commit writes to the rows is what the
tuple of their quantities gives. Where the remaining quantities have at most 28 digits down to the
last place in use, the take profits get all that remains, no leg grows,
  and resizing to one quantity and then to
another is resizing once to the smaller, on the tuple and on rows that come in the same order. -/
theorem exits_resize :
    (∀ {collate : String → String → Prop} {table table' : ProtectiveTable} {scope : ExitScope}
        {rows : List ProtectiveRow} {remaining stop : FiniteDecimal} {quantities : List FiniteDecimal} {now : Int},
      Fetched collate table scope rows → rows.map ProtectiveRow.reads = quantities.map some →
      0 ≤ remaining.value → (∀ q ∈ quantities, 0 ≤ q.value) →
      recomputeActiveProtectionQuantities table scope remaining now rows = some table' →
      ∃ out, recomputeRemainingQuantities remaining stop quantities = some out ∧
        Agrees table scope now rows stop out table') ∧
    (∀ {e : Int} {r₁ r₂ stop : FiniteDecimal} {quantities : List FiniteDecimal},
      Places e r₁ quantities → Places e r₂ quantities →
      (∃ out twice once, recomputeRemainingQuantities r₁ stop quantities = some out ∧
        out.stopQuantity.value = min stop.value r₁.value ∧
        (out.takeProfitQuantities.map FiniteDecimal.value).sum =
          min r₁.value (quantities.map FiniteDecimal.value).sum ∧
        List.Forall₂ (· ≤ ·) (out.takeProfitQuantities.map FiniteDecimal.value)
          (quantities.map FiniteDecimal.value) ∧
        recomputeRemainingQuantities r₂ out.stopQuantity out.takeProfitQuantities = some twice ∧
        recomputeRemainingQuantities (r₁.min r₂) stop quantities = some once ∧
        twice.stopQuantity.value = once.stopQuantity.value ∧
        twice.takeProfitQuantities.map FiniteDecimal.value =
          once.takeProfitQuantities.map FiniteDecimal.value) ∧
      ∀ {collate : String → String → Prop} {table : ProtectiveTable} {scope : ExitScope}
          {rows : List ProtectiveRow} {now now₂ now₃ : Int}, Storable r₁ → Storable r₂ →
        Fetched collate table scope rows → rows.map ProtectiveRow.reads = quantities.map some →
        ∃ t₁ t₃, recomputeActiveProtectionQuantities table scope r₁ now rows = some t₁ ∧
          recomputeActiveProtectionQuantities table scope (r₁.min r₂) now₃ rows = some t₃ ∧
          ∀ rows₂, Fetched collate t₁ scope rows₂ →
            (rows₂.map ProtectiveRow.protectiveOrderProjectionId).Sublist
              (rows.map ProtectiveRow.protectiveOrderProjectionId) →
            ∃ t₂, recomputeActiveProtectionQuantities t₁ scope r₂ now₂ rows₂ = some t₂ ∧
              ∀ id, (t₂.find? id).map ProtectiveRow.exit = (t₃.find? id).map ProtectiveRow.exit) := by
  refine ⟨rows_agree, fun {e r₁ r₂ stop quantities} h₁ h₂ => ⟨?_, fun hstore₁ hstore₂ hfetched hreads => ?_⟩⟩
  · obtain ⟨out, twice, once, hout, htwice, honce, hstops, htakes⟩ :=
    @recompute_twice e r₁ r₂ stop quantities h₁ h₂
    obtain ⟨out', hout', hstop, hallot⟩ := @recompute_laws e r₁ stop quantities h₁
    rw [hout] at hout'
    cases hout'
    refine ⟨out, twice, once, hout, hstop, ?_, ?_, htwice, honce, hstops, htakes⟩
    · rw [hallot, allot_sum h₁.whole.nonneg h₁.values_nonneg]
    · rw [hallot]
      exact allot_le _ _
  · exact rows_twice h₁ h₂ hstore₁ hstore₂ hfetched hreads

section
/-- A whole quantity. -/
def lots (n : Nat) (h : Decimal.InRange n 0 := by decide) : FiniteDecimal := ⟨false, n, 0, h⟩

variable (n : Nat)

theorem lots_value (h : Decimal.InRange n 0) : (lots n h).value = n := by
  simp [lots, FiniteDecimal.value, FiniteDecimal.signed]

def takeProfitRow (id : String) (quantity : Int)
    (h : 0 ≤ 16383 ∧ Decimal.width quantity.natAbs ≤ 131072 + 0 := by
    decide) : ProtectiveRow where
  protectiveOrderProjectionId := id
  accountId := "acct-1"
  positionKey := "acct-1:BTCUSDT"
  lifecycleRole := "take_profit"
  clientOrderId := some id
  active := true
  quantity := some (.number quantity 0 h)
  updatedAt := 0

def twoTakeProfits : ProtectiveTable := ⟨[takeProfitRow "tp-1" 4, takeProfitRow "tp-2" 4], by decide⟩

def exitScope : ExitScope := ⟨"acct-1", "acct-1:BTCUSDT"⟩

theorem twoTakeProfits_fetched :
    Fetched (fun _ _ => True) twoTakeProfits exitScope [takeProfitRow "tp-1" 4, takeProfitRow "tp-2" 4] :=
  ⟨List.Perm.of_eq (by decide), by simp [ProtectiveRow.sorts, takeProfitRow]⟩

theorem lots_places (h : Decimal.InRange n 0) (hn : n < 10 ^ 28) :
    Places 0 (lots n h) [lots 4, lots 4] := by
  have hvalue : ∀ (m : Nat) (hm : Decimal.InRange m 0), (lots m hm).value = m * 10 ^ (0 : Int) := by
    intro m hm
    rw [lots_value, zpow_zero, mul_one]
  refine ⟨⟨by decide, by decide⟩, ⟨n, hvalue n h⟩, ?_, ?_⟩
  · rw [hvalue, Decimal.Whole.lt_limit_iff]
    exact hn
  · intro q hq
    rcases List.mem_cons.mp hq with rfl | hq
    · exact ⟨4, hvalue 4 _⟩
    · rw [List.mem_singleton.mp hq]
      exact ⟨4, hvalue 4 _⟩

theorem lots_storable (h : Decimal.InRange n 0) (hn : n < 10 ^ 28) : Storable (lots n h) := by
  refine ⟨by show (-16383 : Int) ≤ 0; decide, ?_⟩
  rw [lots_value, Nat.abs_cast]
  calc (n : ℚ) < 10 ^ 28 := by exact_mod_cast hn
    _ ≤ 10 ^ 131072 := pow_le_pow_right₀ (by norm_num) (by omega)

/-- Of seven that remain the second take profit gets three, and of five one. -/
theorem exits_resize_twoTakeProfits :
    (∃ out, recomputeRemainingQuantities (lots 7) (lots 8) [lots 4, lots 4] = some out ∧
      (out.takeProfitQuantities.map FiniteDecimal.value).sum =
        min (lots 7).value ([lots 4, lots 4].map FiniteDecimal.value).sum) ∧
    ∃ t₁ out, recomputeActiveProtectionQuantities twoTakeProfits exitScope (lots 7) 1
        [takeProfitRow "tp-1" 4, takeProfitRow "tp-2" 4] = some t₁ ∧
      Agrees twoTakeProfits exitScope 1 [takeProfitRow "tp-1" 4, takeProfitRow "tp-2" 4] (lots 8) out t₁ := by
  have hplaces := @lots_places 7 (by decide) (by norm_num)
  have hplaces' := @lots_places 5 (by decide) (by norm_num)
  have hreads : [takeProfitRow "tp-1" 4, takeProfitRow "tp-2" 4].map ProtectiveRow.reads =
      [lots 4, lots 4].map some := by decide
  obtain ⟨hlaws, hrows⟩ := @exits_resize.2 0 (lots 7) (lots 5) (lots 8) _ hplaces hplaces'
  obtain ⟨out, -, -, hout, -, hsum, -⟩ := hlaws
  obtain ⟨t₁, -, hcall, -, -⟩ :=
    @hrows _ _ _ _ 1 2 3 (lots_storable 7 _ (by norm_num)) (lots_storable 5 _ (by norm_num))
    twoTakeProfits_fetched hreads
  obtain ⟨out', -, hagrees⟩ := @exits_resize.1 _ _ _ _ _ _ (lots 8) _ _ twoTakeProfits_fetched hreads
    hplaces.whole.nonneg (fun q hq => (hplaces.quantities_whole q hq).nonneg) hcall
  exact ⟨⟨out, hout, hsum⟩, t₁, out', hcall, hagrees⟩

/-- With 29 digits the take profit gets less than what remains. -/
theorem exits_rounded :
    ¬ ∀ (remaining stop : FiniteDecimal) (quantities : List FiniteDecimal), 0 ≤ remaining.value →
      0 ≤ stop.value → (∀ q ∈ quantities, 0 ≤ q.value) → ∀ out,
      recomputeRemainingQuantities remaining stop quantities = some out →
      (out.takeProfitQuantities.map FiniteDecimal.value).sum =
        min remaining.value (quantities.map FiniteDecimal.value).sum := by
  intro h
  have hrun : recomputeRemainingQuantities (lots 10000000000000000000000000001) (lots 1)
      [lots 10000000000000000000000000001] =
      some ⟨lots 1, [⟨false, 1000000000000000000000000000, 1, by decide⟩]⟩ := by decide +kernel
  have hnonneg : ∀ n hn, 0 ≤ (lots n hn).value := fun n hn => lots_value n hn ▸ Nat.cast_nonneg n
  have hsum := h _ _ _ (hnonneg _ _) (hnonneg _ _)
    (fun q hq => List.mem_singleton.mp hq ▸ hnonneg 10000000000000000000000000001 _) _ hrun
  simp only [List.map_cons, List.map_nil, List.sum_cons, List.sum_nil, lots_value, add_zero, min_self] at hsum
  norm_num [FiniteDecimal.value, FiniteDecimal.signed] at hsum

end
end TraderBot.Protection
