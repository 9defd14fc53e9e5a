import TraderBot.Lib.DecimalSum
import TraderBot.Venue.Ledger

/-! # What venue evidence says of a book

Rows that cannot be read are passed over, and a fetch time ahead of the clock
counts as fresh. Of the rows that are read a flat book has none, an open one the
sum of their sizes, and their order does not matter (`assess_sound`), while the
sizes fit the decimal context. -/
namespace TraderBot.Venue
open TraderBot.Lib TraderBot.Lib.Text TraderBot.Lib.Json TraderBot.Lib.Keyed
open TraderBot.Lib.Decimal (InContext limit)

/-! ## Totals -/

/-- The sum of the sizes of a key. -/
def bookSum (rows : List (LookupKey × FiniteDecimal)) (key : LookupKey) : ℚ :=
  ((under key rows).map fun q => |q.value|).sum

/-- Sizes with no digit past a place, at most 28 digits in all for each key. -/
structure FittingRows (e : Int) (rows : List (LookupKey × FiniteDecimal)) : Prop where
  context : InContext e
  low : e ≤ 0
  amounts : ∀ r ∈ rows, e ≤ r.2.exponent
  total : ∀ key, bookSum rows key < limit e

section
variable {e : Int} {rows rows' : List (LookupKey × FiniteDecimal)}

theorem plain_zero (h : e ≤ 0) : FiniteDecimal.zero.Plain e := ⟨rfl, h⟩

variable {q : FiniteDecimal} {qs : List FiniteDecimal} (key : LookupKey)

theorem absolute_eq (he : InContext e) (hplace : e ≤ q.exponent) (hsize : |q.value| < limit e)
    (hpos : 0 < q.coeff) : absolute q = some q.magnitude := by
  rw [FiniteDecimal.abs_value] at hsize
  obtain ⟨d, hd, hsign, hcoeff, hexp⟩ := Decimal.fix_unrounded false he hplace hsize (.inl hpos)
  have hvalue : |d.value| = |q.magnitude.value| := by
    rw [FiniteDecimal.abs_value, FiniteDecimal.abs_value, hcoeff, hexp]
    rfl
  have hd0 : 0 ≤ d.value := FiniteDecimal.Plain.nonneg ⟨hsign, hplace.trans hexp.ge⟩
  have hq0 : 0 ≤ q.magnitude.value := by rw [FiniteDecimal.magnitude_value]; exact abs_nonneg _
  have hsame : d = q.magnitude := FiniteDecimal.ext_value hsign hexp
    (by rwa [abs_of_nonneg hd0, abs_of_nonneg hq0] at hvalue)
  rw [absolute, hd, hsame]

/-- Adding sizes is adding their unsigned decimals. -/
theorem foldlM_addAbsolute (he : InContext e)
    (hqs : ∀ q ∈ qs, e ≤ q.exponent ∧ |q.value| < limit e ∧ 0 < q.coeff) (a : FiniteDecimal) :
    qs.foldlM addAbsolute a = (qs.map FiniteDecimal.magnitude).foldlM Decimal.add a := by
  induction qs generalizing a with
  | nil => rfl
  | cons q qs ih =>
    obtain ⟨hplace, hsize, hpos⟩ := hqs q List.mem_cons_self
    have hrest := ih fun x hx => hqs x (List.mem_cons_of_mem _ hx)
    rw [List.map_cons, List.foldlM_cons, List.foldlM_cons, addAbsolute, absolute_eq he hplace hsize hpos]
    show (Decimal.add a q.magnitude).bind _ = (Decimal.add a q.magnitude).bind _
    cases Decimal.add a q.magnitude with
    | none => rfl
    | some c => exact hrest c

theorem size_pos (h : 0 < q.coeff) : 0 < |q.value| := by
  have hcoeff : (0 : ℚ) < q.coeff := by exact_mod_cast h
  rw [FiniteDecimal.abs_value]
  exact mul_pos hcoeff (ten_zpow_pos q.exponent)

theorem le_sizes (h : q ∈ qs) : |q.value| ≤ (qs.map fun q => |q.value|).sum := by
  refine List.single_le_sum ?_ _ (List.mem_map_of_mem h)
  intro x hx
  obtain ⟨y, -, rfl⟩ := List.mem_map.mp hx
  exact abs_nonneg _

theorem FittingRows.row (h : FittingRows e rows) (hpos : ∀ r ∈ rows, 0 < r.2.coeff)
    {key : LookupKey} (hq : q ∈ under key rows) :
    e ≤ q.exponent ∧ |q.value| < limit e ∧ 0 < q.coeff := by
  have hmem := mem_under.mp hq
  refine ⟨h.amounts _ hmem, ?_, hpos _ hmem⟩
  exact (le_sizes hq).trans_lt (h.total key)

/-- The sum of a key, taken over its unsigned decimals. -/
theorem under_sum (rows : List (LookupKey × FiniteDecimal)) (key : LookupKey) :
    (((under key rows).map FiniteDecimal.magnitude).map FiniteDecimal.value).sum = bookSum rows key := by
  rw [bookSum, List.map_map]
  congr 1
  exact List.map_congr_left fun q _ => q.magnitude_value

theorem FittingRows.plain_under (h : FittingRows e rows) (hpos : ∀ r ∈ rows, 0 < r.2.coeff)
    (key : LookupKey) : ∀ x ∈ (under key rows).map FiniteDecimal.magnitude, x.Plain e := by
  intro x hx
  obtain ⟨q, hq, rfl⟩ := List.mem_map.mp hx
  exact ⟨rfl, (h.row hpos hq).1⟩

/-- **Totals of what fits**: they are there, they are the sums, and they do not
depend on the order. -/
theorem FittingRows.quantities (h : FittingRows e rows) (hpos : ∀ r ∈ rows, 0 < r.2.coeff) :
    ∃ totals, Venue.quantities rows = some totals ∧ (∀ key, (totals key).value = bookSum rows key) ∧
      ∀ rows', rows.Perm rows' → Venue.quantities rows' = some totals := by
  have hzero := plain_zero h.low
  have hkey : ∀ key, ∃ c, (under key rows).foldlM addAbsolute .zero = some c ∧ c.value = bookSum rows key ∧
      ∀ rows', rows.Perm rows' → (under key rows').foldlM addAbsolute .zero = some c := by
    intro key
    have hsum : FiniteDecimal.zero.value +
        (((under key rows).map FiniteDecimal.magnitude).map FiniteDecimal.value).sum < limit e := by
      rw [under_sum, FiniteDecimal.zero_value, zero_add]
      exact h.total key
    obtain ⟨c, hc, -, -, hvalue⟩ := Decimal.foldlM_add_plain h.context hzero (by decide)
      (h.plain_under hpos key) hsum
    refine ⟨c, ?_, ?_, fun rows' hperm => ?_⟩
    · rw [foldlM_addAbsolute h.context fun q hq => h.row hpos hq, hc]
    · rw [hvalue, under_sum, FiniteDecimal.zero_value, zero_add]
    · have hunder : (under key rows).Perm (under key rows') := under_perm hperm
      rw [foldlM_addAbsolute h.context fun q hq => h.row hpos (hunder.mem_iff.mpr hq),
        Decimal.foldlM_add_perm (hunder.map _) h.context hzero (by decide) (h.plain_under hpos key) hsum,
        hc]
  choose totals htotals hvalues hperm using hkey
  exact ⟨totals, foldlM_accumulate_iff.mpr htotals, hvalues,
    fun rows' hrows => foldlM_accumulate_iff.mpr fun key => hperm key rows' hrows⟩

theorem bookSum_single (q : FiniteDecimal) : bookSum [(key, q)] key = |q.value| := by
  simp [bookSum, under]

theorem bookSum_single_le (key' : LookupKey) (q : FiniteDecimal) :
    bookSum [(key, q)] key' ≤ |q.value| := by
  by_cases hkey : key = key'
  · rw [hkey, bookSum_single]
  · simp [bookSum, under, hkey]

theorem FittingRows.single (he : InContext e) (hlow : e ≤ 0) (hplace : e ≤ q.exponent)
    (hsize : |q.value| < limit e) : FittingRows e [(key, q)] where
  context := he
  low := hlow
  amounts r hr := by
    rw [List.mem_singleton.mp hr]
    exact hplace
  total key' := (bookSum_single_le key key' q).trans_lt hsize

/-- A book with nothing in its sum has no rows. -/
theorem not_mem_of_bookSum (hpos : ∀ r ∈ rows, 0 < r.2.coeff) {key : LookupKey}
    (h : bookSum rows key = 0) (q : FiniteDecimal) : (key, q) ∉ rows := by
  intro hmem
  have hle : |q.value| ≤ bookSum rows key := le_sizes (mem_under.mpr hmem)
  rw [h] at hle
  exact absurd (size_pos (hpos _ hmem)) (not_lt.mpr hle)

/-- A total is nothing just where its key has no rows. -/
theorem coeff_zero_iff (hpos : ∀ r ∈ rows, 0 < r.2.coeff) {key : LookupKey} {total : FiniteDecimal}
    (h : total.value = bookSum rows key) : under key rows = [] ↔ total.coeff = 0 := by
  constructor
  · intro hnone
    have hzero : |total.value| = 0 := by simp [h, bookSum, hnone]
    rw [FiniteDecimal.abs_value, mul_eq_zero_iff_right (ten_zpow_pos _).ne'] at hzero
    exact_mod_cast hzero
  · intro hzero
    rw [List.eq_nil_iff_forall_not_mem]
    intro q hq
    have hsum : bookSum rows key = 0 := by
      rw [← h, FiniteDecimal.value, FiniteDecimal.signed, hzero]
      simp
    exact not_mem_of_bookSum hpos hsum q (mem_under.mp hq)

end

/-! ## Evidence -/

/-- A mapping that was fetched no earlier than the window allows; a fetch time
ahead of the clock passes. -/
def Evidence.Fresh (ev : Evidence) : Prop :=
  isMapping ev.venueSnapshot = true ∧
    ∃ fetchedAt age, ev.venueFetchedAt = some fetchedAt ∧ elapsed ev.now fetchedAt = some age ∧
      age ≤ ev.freshnessWindow

/-- The rows of the snapshot. -/
def Evidence.rows (ev : Evidence) : List Value :=
  match ev.venueSnapshot with
  | some (.obj members) => positionRows (.obj members)
  | _ => []

/-- The same evidence with its rows and its cache in another order. -/
structure Evidence.Permuted (ev ev' : Evidence) : Prop where
  mapping : isMapping ev'.venueSnapshot = isMapping ev.venueSnapshot
  rows : ev.rows.Perm ev'.rows
  cache : ev.cachePositions.Perm ev'.cachePositions
  fetchedAt : ev'.venueFetchedAt = ev.venueFetchedAt
  now : ev'.now = ev.now
  window : ev'.freshnessWindow = ev.freshnessWindow

/-- The amounts that are read fit the decimal context. -/
structure Evidence.Fitting (py : Interpreter) (ev : Evidence) (e : Int) : Prop where
  venue : FittingRows e (ev.venueReadings py)
  cache : FittingRows e (ev.cacheReadings py)

section
variable {py : Interpreter} {ev ev' : Evidence} {e : Int}

theorem venueReadings_eq (ev : Evidence) : ev.venueReadings py = ev.rows.filterMap (venueRow py) := by
  unfold Evidence.venueReadings Evidence.rows
  cases ev.venueSnapshot with
  | none => rfl
  | some snapshot => cases snapshot <;> rfl

variable {r : LookupKey × FiniteDecimal} {state : ReconciledExecutionState}

theorem venueRow_pos {row : Value} (h : venueRow py row = some r) : 0 < r.2.coeff := by
  unfold venueRow at h
  split at h
  · dsimp only at h
    split_ifs at h
    obtain ⟨q, -, h⟩ := Option.bind_eq_some_iff.mp h
    by_cases hzero : q.coeff = 0
    · rw [if_pos hzero] at h
      cases h
    · rw [if_neg hzero] at h
      cases h
      exact Nat.pos_of_ne_zero hzero
  · cases h

theorem cacheRow_pos {position : PositionSnapshot} (h : cacheRow py position = some r) :
    0 < r.2.coeff := by
  unfold cacheRow at h
  dsimp only at h
  split_ifs at h
  obtain ⟨side, -, h⟩ := Option.bind_eq_some_iff.mp h
  obtain ⟨q, -, h⟩ := Option.bind_eq_some_iff.mp h
  split_ifs at h with hzero
  cases h
  exact Nat.pos_of_ne_zero hzero

theorem venueReadings_pos (ev : Evidence) : ∀ r ∈ ev.venueReadings py, 0 < r.2.coeff := by
  intro r hr
  rw [venueReadings_eq] at hr
  obtain ⟨row, -, hrow⟩ := List.mem_filterMap.mp hr
  exact venueRow_pos hrow

theorem cacheReadings_pos (ev : Evidence) : ∀ r ∈ ev.cacheReadings py, 0 < r.2.coeff := by
  intro r hr
  obtain ⟨position, -, hrow⟩ := List.mem_filterMap.mp hr
  exact cacheRow_pos hrow

theorem venueFreshness_iff : ev.venueFreshness.1 = true ↔ ev.Fresh := by
  unfold Evidence.venueFreshness Evidence.Fresh
  cases hmap : isMapping ev.venueSnapshot with
  | false => simp
  | true =>
    cases hfetched : ev.venueFetchedAt with
    | none => simp
    | some fetchedAt =>
      cases helapsed : elapsed ev.now fetchedAt with
      | none => simp [helapsed]
      | some age =>
        by_cases hstale : ev.freshnessWindow < age
        · simp [helapsed, hstale]
        · simp [helapsed, hstale, not_lt.mp hstale]

theorem Evidence.Permuted.venueFreshness (h : ev.Permuted ev') :
    ev'.venueFreshness = ev.venueFreshness := by
  unfold Evidence.venueFreshness
  rw [h.mapping, h.fetchedAt, h.now, h.window]

theorem Evidence.Permuted.build {accountId : String} (h : ev.Permuted ev') (hfit : ev.Fitting py e)
    (hbuild : ReconciledExecutionState.build py accountId ev = some state) :
    ReconciledExecutionState.build py accountId ev' = some state := by
  obtain ⟨venue, hvenue, -, hvenueperm⟩ := hfit.venue.quantities (venueReadings_pos ev)
  obtain ⟨cache, hcache, -, hcacheperm⟩ := hfit.cache.quantities (cacheReadings_pos ev)
  have hvenue' : quantities (ev'.venueReadings py) = some venue := by
    refine hvenueperm _ ?_
    rw [venueReadings_eq, venueReadings_eq]
    exact h.rows.filterMap _
  have hcache' : quantities (ev'.cacheReadings py) = some cache := hcacheperm _ (h.cache.filterMap _)
  rw [← hbuild]
  unfold ReconciledExecutionState.build
  rw [h.venueFreshness, hvenue, hcache, hvenue', hcache']

/-- A total that was not dropped. -/
theorem lookup_value {totals : LookupKey → FiniteDecimal} (key : LookupKey) :
    (lookup totals key).value = (totals key).value := by
  unfold lookup
  split_ifs with h
  · rw [FiniteDecimal.zero_value, FiniteDecimal.value, FiniteDecimal.signed, h]
    simp
  · rfl

theorem value_eq_zero {d : FiniteDecimal} (h : d.coeff = 0) : d.value = 0 := by
  rw [FiniteDecimal.value, FiniteDecimal.signed, h]
  simp

/-- What the state of an assessment rests on. -/
theorem assess_cases {book : BookKey} {a : PositionAssessment} (h : state.assess py book = some a) :
    (a.state = .knownFlat → state.venueFresh = true ∧
        (lookup state.venueQuantities (bookLookupKey py book)).coeff = 0 ∧
        (lookup state.cacheQuantities (bookLookupKey py book)).coeff = 0) ∧
      (a.state = .knownOpen → state.venueFresh = true ∧
        a.quantity = lookup state.venueQuantities (bookLookupKey py book)) := by
  unfold ReconciledExecutionState.assess at h
  dsimp only at h
  by_cases hstale : state.venueFresh = false
  · rw [if_pos hstale] at h
    cases h
    exact ⟨nofun, nofun⟩
  rw [if_neg hstale] at h
  have hfresh : state.venueFresh = true := by simpa using hstale
  by_cases hvenue : (lookup state.venueQuantities (bookLookupKey py book)).coeff = 0
  · rw [if_neg (not_not.mpr hvenue)] at h
    by_cases hcache : (lookup state.cacheQuantities (bookLookupKey py book)).coeff = 0
    · rw [if_neg (not_not.mpr hcache)] at h
      cases h
      exact ⟨fun _ => ⟨hfresh, hvenue, hcache⟩, nofun⟩
    · rw [if_pos hcache] at h
      cases h
      exact ⟨nofun, nofun⟩
  · rw [if_pos hvenue] at h
    by_cases hcache : (lookup state.cacheQuantities (bookLookupKey py book)).coeff ≠ 0
    · rw [if_pos hcache] at h
      obtain ⟨drift, -, h⟩ := Option.bind_eq_some_iff.mp h
      cases h
      exact ⟨nofun, fun _ => ⟨hfresh, rfl⟩⟩
    · rw [if_neg hcache] at h
      obtain ⟨drift, -, h⟩ := Option.bind_eq_some_iff.mp h
      cases h
      exact ⟨nofun, fun _ => ⟨hfresh, rfl⟩⟩

/-- **What an assessment says of a book.** A flat one has no row that can be read,
in the snapshot or in the cache; an open one has the sum of its rows; either
rests on a mapping that was fetched within the window or ahead of the clock; and
the order of rows does not matter. -/
theorem assess_sound {accountId : String} {state : ReconciledExecutionState} {book : BookKey}
    {a : PositionAssessment} (hfit : ev.Fitting py e)
    (hbuild : ReconciledExecutionState.build py accountId ev = some state)
    (hassess : state.assess py book = some a) :
    (a.state = .knownFlat → ev.Fresh ∧
        (∀ q, (bookLookupKey py book, q) ∉ ev.venueReadings py) ∧
        ∀ q, (bookLookupKey py book, q) ∉ ev.cacheReadings py) ∧
      (a.state = .knownOpen → ev.Fresh ∧
        a.quantity.value = bookSum (ev.venueReadings py) (bookLookupKey py book)) ∧
      ∀ ev', ev.Permuted ev' →
        (ReconciledExecutionState.build py accountId ev').bind (·.assess py book) = some a := by
  have hcases := assess_cases hassess
  obtain ⟨venue, hvenue, hvenuesum, -⟩ := hfit.venue.quantities (venueReadings_pos ev)
  obtain ⟨cache, hcache, hcachesum, -⟩ := hfit.cache.quantities (cacheReadings_pos ev)
  have hstate : state = ⟨accountId, ev.venueFreshness.1, ev.venueFreshness.2, venue, cache⟩ := by
    unfold ReconciledExecutionState.build at hbuild
    rw [hvenue, hcache] at hbuild
    exact (Option.some.inj hbuild).symm
  refine ⟨fun hflat => ?_, fun hopen => ?_, fun ev' hperm => ?_⟩
  · obtain ⟨hfresh, hv, hc⟩ := hcases.1 hflat
    have hvzero := value_eq_zero hv
    have hczero := value_eq_zero hc
    rw [hstate] at hfresh hvzero hczero
    rw [lookup_value, hvenuesum] at hvzero
    rw [lookup_value, hcachesum] at hczero
    exact ⟨venueFreshness_iff.mp hfresh, not_mem_of_bookSum (venueReadings_pos ev) hvzero,
      not_mem_of_bookSum (cacheReadings_pos ev) hczero⟩
  · obtain ⟨hfresh, hquantity⟩ := hcases.2 hopen
    rw [hquantity, hstate]
    rw [hstate] at hfresh
    exact ⟨venueFreshness_iff.mp hfresh, by rw [lookup_value, hvenuesum]⟩
  · rw [hperm.build hfit hbuild]
    exact hassess

end

/-! ## One row -/

def amountRow (amount : String) : Value :=
  .obj [("position_amt", .str amount), ("position_side", .str "LONG"), ("symbol", .str "BTCUSDT")]

def noon : DateTime × Option Int := (⟨2026, 6, 19, 12, 0, 0, 0, by decide⟩, some 0)

def later : DateTime × Option Int := (⟨2026, 6, 19, 13, 0, 0, 0, by decide⟩, some 0)

/-- Long rows of these amounts and no cache, at noon. -/
def rowsFetched (fetchedAt : DateTime × Option Int) (amounts : List String) : Evidence where
  venueSnapshot := some (.obj [("positions", .arr (amounts.map amountRow))])
  venueFetchedAt := some fetchedAt
  cachePositions := []
  now := noon

def longBook : BookKey := ⟨"account", "BTCUSDT-PERP.BINANCE", "LONG"⟩

def assessRows (fetchedAt : DateTime × Option Int) (amounts : List String) : Option PositionAssessment :=
  (ReconciledExecutionState.build ascii "account" (rowsFetched fetchedAt amounts)).bind
    (·.assess ascii longBook)

def threeHalves : FiniteDecimal := ⟨false, 15, -1, .oneAndHalf⟩

theorem oneRow_readings : (rowsFetched noon ["1.5"]).venueReadings ascii =
      [(bookLookupKey ascii longBook, threeHalves)] ∧
    (rowsFetched noon ["1.5"]).cacheReadings ascii = [] := by
  decide +kernel

theorem threeHalves_value : |threeHalves.value| = 3 / 2 := by
  norm_num [FiniteDecimal.abs_value, threeHalves]

theorem oneRow_fitting : (rowsFetched noon ["1.5"]).Fitting ascii (-1) := by
  have hcontext : InContext (-1) := ⟨by decide, by norm_num [Decimal.prec, Decimal.emax]⟩
  have hlimit : |threeHalves.value| < limit (-1) := by norm_num [threeHalves_value, limit, Decimal.prec]
  constructor
  · rw [oneRow_readings.1]
    exact FittingRows.single _ hcontext (by decide) le_rfl hlimit
  · rw [oneRow_readings.2]
    refine ⟨hcontext, by decide, fun r hr => absurd hr List.not_mem_nil, fun key => ?_⟩
    show (0 : ℚ) < limit (-1)
    exact (abs_nonneg _).trans_lt hlimit

/-- An open book of one row. -/
theorem assess_sound_oneRow :
    (assessRows noon ["1.5"]).map (fun a => (a.state, a.quantity.value)) = some (.knownOpen, 3 / 2) := by
  have hopen : (assessRows noon ["1.5"]).map PositionAssessment.state = some .knownOpen := by decide +kernel
  obtain ⟨a, hassess, hstate⟩ := Option.map_eq_some_iff.mp hopen
  obtain ⟨state, hbuild, hbook⟩ := Option.bind_eq_some_iff.mp hassess
  obtain ⟨-, hquantity⟩ := (assess_sound oneRow_fitting hbuild hbook).2.1 hstate
  rw [oneRow_readings.1] at hquantity
  rw [hassess, Option.map_some, hstate, hquantity, bookSum_single, threeHalves_value]

/-- An amount that cannot be read, a fetch time ahead of the clock, and a sum of
29 digits. -/
theorem assess_passes_over :
    (assessRows noon ["1,5"]).map PositionAssessment.state = some .knownFlat ∧
      (assessRows later []).map PositionAssessment.state = some .knownFlat ∧
      (assessRows noon ["1", "1E-28"]).map PositionAssessment.quantity =
        (assessRows noon ["1.000000000000000000000000000"]).map PositionAssessment.quantity := by
  decide +kernel

end TraderBot.Venue
