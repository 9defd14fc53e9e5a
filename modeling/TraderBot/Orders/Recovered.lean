import TraderBot.Orders.Fills

/-! # Live and recovered fills together

The recovery reads an order's trades back from the venue and reports each with
its quantity and the cumulative one (`recoveredFills`); the live stream reports
trades with their quantity only. A cumulative quantity counts for its whole
timestamp, so where the recovery stops between two trades of one timestamp the
live ones of that timestamp must carry the total alone: it is exact if and only
if each of them comes before its recovered report (`filledQty_eq_iff`). -/
namespace TraderBot.Orders
open TraderBot.Lib TraderBot.Lib.Text TraderBot.Lib.Decimal

/-- A trade of the venue. -/
structure Trade where
  id : String
  time : Nat
  quantity : FiniteDecimal
  deriving DecidableEq

/-- What an event of `_recovered_events` says about a trade. -/
structure RecoveredFill where
  tradeId : String
  tsEvent : Nat
  lastQty : FiniteDecimal
  filledQty : FiniteDecimal

/-- The loop of `_recovered_events` over the trades of an order. -/
def recoveredFills (cumulative : FiniteDecimal) : List Trade → Except Failure (List RecoveredFill)
  | [] => return []
  | trade :: trades => do
    let cumulative ← sum cumulative trade.quantity
    let rest ← recoveredFills cumulative trades
    return ⟨trade.id, trade.time, trade.quantity, cumulative⟩ :: rest

/-- A row of the live stream: its trade's quantity and no cumulative one. -/
structure IsLive (unicode : Unicode) (t : Trade) (row : ExecutionEvent) : Prop where
  id : row.tradeId = some t.id
  time : row.tsEvent = t.time
  numbers : fillNumbers unicode row = .ok (rowNumbers unicode row)
  cumulative : (rowNumbers unicode row).cumulative = none
  delta : ∃ d, (rowNumbers unicode row).delta = some d ∧ d.value = t.quantity.value

/-- A row of a recovered event. -/
structure IsRecovered (unicode : Unicode) (fill : RecoveredFill) (row : ExecutionEvent) : Prop where
  id : row.tradeId = some fill.tradeId
  time : row.tsEvent = fill.tsEvent
  numbers : fillNumbers unicode row = .ok (rowNumbers unicode row)
  cumulative : ∃ d, (rowNumbers unicode row).cumulative = some d ∧ d.value = fill.filledQty.value
  delta : ∃ d, (rowNumbers unicode row).delta = some d ∧ d.value = fill.lastQty.value

/-- What the trades of an order come to. -/
def worth (trades : List Trade) : ℚ := (trades.map fun t => t.quantity.value).sum

/-- The trades of an order, in order. -/
structure Trades (trades : List Trade) : Prop where
  sorted : trades.Pairwise fun a b => a.time ≤ b.time
  ids : (trades.map Trade.id).Nodup
  named : ∀ t ∈ trades, t.id ≠ ""
  positive : ∀ t ∈ trades, 0 < t.quantity.value

/-- Rows of a recovered prefix of the trades and of live events for any of them,
for all of the rest at least. -/
structure Evidence (unicode : Unicode) (recovered rest : List Trade) (fills : List RecoveredFill)
    (rows : List ExecutionEvent) : Prop where
  ordered : Trades (recovered ++ rest)
  built : recoveredFills .zero recovered = .ok fills
  each : ∀ row ∈ rows, (∃ t ∈ recovered ++ rest, IsLive unicode t row) ∨
    ∃ fill ∈ fills, IsRecovered unicode fill row
  reported : ∀ fill ∈ fills, ∃ row ∈ rows, IsRecovered unicode fill row
  streamed : ∀ t ∈ rest, ∃ row ∈ rows, IsLive unicode t row

/-- Quantities in whole units with at most 28 digits in all, and prices below a
power of ten, so that no sum is rounded and nothing overflows. -/
structure Manageable (unicode : Unicode) (e m : Int) (trades : List Trade)
    (rows : List ExecutionEvent) : Prop where
  places : PricesFit e m
  whole : ∀ t ∈ trades, Whole e t.quantity.value
  total : worth trades < limit e
  prices : ∀ row ∈ rows, ∀ p, (rowNumbers unicode row).price = some p → p.value ≤ 10 ^ m

/-- The first row of a trade is a live one. -/
def LiveFirst (unicode : Unicode) (rows : List ExecutionEvent) (t : Trade) : Prop :=
  ∀ row, rows.find? (fun r => r.tradeId = some t.id) = some row → IsLive unicode t row

/-- Where the recovery stops inside a timestamp, its trades of that timestamp
come with a live row first. -/
def StopsCleanly (unicode : Unicode) (recovered rest : List Trade) (rows : List ExecutionEvent) :
    Prop :=
  ∀ next ∈ rest.head?, ∀ t ∈ recovered, t.time = next.time → LiveFirst unicode rows t

/-! ## Recovered events -/

@[simp] theorem worth_nil : worth [] = 0 := rfl

@[simp] theorem worth_cons (t : Trade) (trades : List Trade) :
    worth (t :: trades) = t.quantity.value + worth trades := by simp [worth]

@[simp] theorem worth_append (a b : List Trade) : worth (a ++ b) = worth a + worth b := by
  simp [worth]

variable {trades : List Trade}

theorem worth_nonneg (h : ∀ t ∈ trades, 0 ≤ t.quantity.value) : 0 ≤ worth trades := by
  refine List.sum_nonneg fun x hx => ?_
  obtain ⟨t, ht, rfl⟩ := List.mem_map.mp hx
  exact h t ht

theorem worth_whole {e : Int} (h : ∀ t ∈ trades, Whole e t.quantity.value) :
    Whole e (worth trades) := by
  induction trades with
  | nil => exact Whole.zero e
  | cons t trades ih =>
    rw [worth_cons]
    exact (h t (by simp)).add (ih fun x hx => h x (List.mem_cons_of_mem _ hx))

/-- Each recovered event carries the sum of the trades up to its own. -/
theorem recoveredFills_mem {e : Int} (he : InContext e) {c : FiniteDecimal}
    {fills : List RecoveredFill} (hw : ∀ t ∈ trades, Whole e t.quantity.value)
    (hc : Whole e c.value) (hlt : c.value + worth trades < limit e)
    (h : recoveredFills c trades = .ok fills) :
    (∀ fill ∈ fills, ∃ a t b, trades = a ++ t :: b ∧ fill.tradeId = t.id ∧ fill.tsEvent = t.time ∧
      fill.lastQty = t.quantity ∧ fill.filledQty.value = c.value + worth (a ++ [t])) ∧
    ∀ a t b, trades = a ++ t :: b → ∃ fill ∈ fills, fill.tradeId = t.id ∧ fill.tsEvent = t.time ∧
      fill.lastQty = t.quantity ∧ fill.filledQty.value = c.value + worth (a ++ [t]) := by
  induction trades generalizing c fills with
  | nil =>
    cases pure_ok h
    refine ⟨by simp, ?_⟩
    intro a t b hab
    simp at hab
  | cons t trades ih =>
    unfold recoveredFills at h
    obtain ⟨c', hsum, h⟩ := bind_ok h
    obtain ⟨rest, hrest, h⟩ := bind_ok h
    cases pure_ok h
    have ht := hw t (by simp)
    have hw' : ∀ x ∈ trades, Whole e x.quantity.value := fun x hx => hw x (List.mem_cons_of_mem _ hx)
    rw [worth_cons, ← add_assoc] at hlt
    have hnonneg := (worth_whole hw').nonneg
    obtain ⟨c'', hadd, hvalue⟩ :=
      add_exact he ((hc.add ht).fits (by linarith : c.value + t.quantity.value < limit e))
    have hcc : c' = c'' := by
      rw [sum, hadd] at hsum
      cases hsum
      rfl
    subst hcc
    obtain ⟨hmem, hall⟩ := ih hw' (by rw [hvalue]; exact hc.add ht) (by rw [hvalue]; exact hlt) hrest
    constructor
    · intro fill hfill
      rcases List.mem_cons.mp hfill with rfl | hfill
      · exact ⟨[], t, trades, rfl, rfl, rfl, rfl, by simp [hvalue]⟩
      · obtain ⟨a, u, b, rfl, h1, h2, h3, h4⟩ := hmem fill hfill
        refine ⟨t :: a, u, b, rfl, h1, h2, h3, ?_⟩
        rw [h4, hvalue, List.cons_append, worth_cons, add_assoc]
    · intro a u b hab
      cases a with
      | nil =>
        rw [List.nil_append, List.cons.injEq] at hab
        obtain ⟨rfl, rfl⟩ := hab
        exact ⟨_, List.mem_cons_self, rfl, rfl, rfl, by simp [hvalue]⟩
      | cons x a =>
        rw [List.cons_append, List.cons.injEq] at hab
        obtain ⟨rfl, rfl⟩ := hab
        obtain ⟨fill, hfill, h1, h2, h3, h4⟩ := hall a u b rfl
        refine ⟨fill, List.mem_cons_of_mem _ hfill, h1, h2, h3, ?_⟩
        rw [h4, hvalue, List.cons_append, worth_cons, add_assoc]

/-! ## What the rows report -/

section Reports
variable {unicode : Unicode} {row : ExecutionEvent} {t : Trade} {fill : RecoveredFill}

theorem fillIdentity_eq_trade {id : String} (h : id ≠ "") :
    fillIdentity row = .trade id ↔ row.tradeId = some id := by
  unfold fillIdentity nonEmpty
  cases row.tradeId with
  | none => simp
  | some x =>
    by_cases hx : x = ""
    · subst hx
      simp [Ne.symm h]
    · simp [hx]

theorem IsLive.report (h : IsLive unicode t row) (ht : 0 < t.quantity.value) :
    (fillReport unicode row).anchor = 0 ∧ (fillReport unicode row).delta = t.quantity.value := by
  obtain ⟨d, hd, hvalue⟩ := h.delta
  have hanchor : amount (rowNumbers unicode row).cumulative = 0 := by rw [h.cumulative]; rfl
  refine ⟨hanchor, ?_⟩
  show (if 0 < amount (rowNumbers unicode row).cumulative then 0 else _) = _
  rw [hanchor, if_neg (lt_irrefl 0), hd, amount_of_nonneg (by rw [hvalue]; exact ht.le), hvalue]

theorem IsRecovered.report (h : IsRecovered unicode fill row) (hf : 0 < fill.filledQty.value) :
    (fillReport unicode row).anchor = fill.filledQty.value ∧ (fillReport unicode row).delta = 0 := by
  obtain ⟨d, hd, hvalue⟩ := h.cumulative
  have hanchor : amount (rowNumbers unicode row).cumulative = fill.filledQty.value := by
    rw [hd, amount_of_nonneg (by rw [hvalue]; exact hf.le), hvalue]
  refine ⟨hanchor, ?_⟩
  show (if 0 < amount (rowNumbers unicode row).cumulative then 0 else _) = _
  rw [hanchor, if_pos hf]

end Reports

/-- Sorted trades before a time and from it on. -/
theorem exists_split (time : Nat) (h : trades.Pairwise fun a b => a.time ≤ b.time) :
    ∃ early late, trades = early ++ late ∧ (∀ t ∈ early, t.time < time) ∧ ∀ t ∈ late, time ≤ t.time := by
  induction trades with
  | nil => exact ⟨[], [], rfl, by simp, by simp⟩
  | cons x trades ih =>
    obtain ⟨hx, htail⟩ := List.pairwise_cons.mp h
    rcases lt_or_ge x.time time with hlt | hge
    · obtain ⟨early, late, rfl, he, hl⟩ := ih htail
      exact ⟨x :: early, late, rfl, List.forall_mem_cons.mpr ⟨hlt, he⟩, hl⟩
    · refine ⟨[], x :: trades, rfl, by simp, List.forall_mem_cons.mpr ⟨hge, fun t ht => ?_⟩⟩
      exact hge.trans (hx t ht)

section Mixture
variable {unicode : Unicode} {recovered rest : List Trade} {fills : List RecoveredFill}
  {rows : List ExecutionEvent} {e m : Int}

/-- A recovered event is of one of the recovered trades, with the sum up to it. -/
theorem Evidence.fill (ev : Evidence unicode recovered rest fills rows)
    (hm : Manageable unicode e m (recovered ++ rest) rows) :
    (∀ fill ∈ fills, ∃ a t b, recovered = a ++ t :: b ∧ fill.tradeId = t.id ∧ fill.tsEvent = t.time ∧
      fill.lastQty = t.quantity ∧ fill.filledQty.value = worth (a ++ [t])) ∧
    ∀ a t b, recovered = a ++ t :: b → ∃ fill ∈ fills, fill.tradeId = t.id ∧ fill.tsEvent = t.time ∧
      fill.lastQty = t.quantity ∧ fill.filledQty.value = worth (a ++ [t]) := by
  have hrest : 0 ≤ worth rest :=
    worth_nonneg fun t ht => (ev.ordered.positive t (List.mem_append_right _ ht)).le
  have htotal := hm.total
  rw [worth_append] at htotal
  have hmem := recoveredFills_mem hm.places.quantities
    (fun t ht => hm.whole t (List.mem_append_left _ ht))
    (by rw [FiniteDecimal.zero_value]; exact Whole.zero e)
    (by rw [FiniteDecimal.zero_value, zero_add]; linarith) ev.built
  simpa only [FiniteDecimal.zero_value, zero_add] using hmem

variable {t : Trade} {row : ExecutionEvent} {a b l : List Trade} {p : Nat → Bool}

theorem Evidence.same (ev : Evidence unicode recovered rest fills rows) {u : Trade}
    (ht : t ∈ recovered ++ rest) (hu : u ∈ recovered ++ rest) (h : t.id = u.id) : t = u :=
  List.inj_on_of_nodup_map ev.ordered.ids ht hu h

/-- A row is about one of the trades, at its time, live or recovered. -/
theorem Evidence.row_cases (ev : Evidence unicode recovered rest fills rows)
    (hm : Manageable unicode e m (recovered ++ rest) rows) (hrow : row ∈ rows) :
    (∃ t ∈ recovered ++ rest, IsLive unicode t row) ∨
      ∃ a t b fill, recovered = a ++ t :: b ∧ IsRecovered unicode fill row ∧ row.tradeId = some t.id ∧
        row.tsEvent = t.time ∧ fill.lastQty = t.quantity ∧ fill.filledQty.value = worth (a ++ [t]) := by
  rcases ev.each row hrow with hlive | ⟨fill, hfill, hrec⟩
  · exact .inl hlive
  · obtain ⟨a, t, b, heq, hid, htime, hlast, hvalue⟩ := (ev.fill hm).1 fill hfill
    exact .inr ⟨a, t, b, fill, heq, hrec, by rw [hrec.id, hid], by rw [hrec.time, htime], hlast, hvalue⟩

theorem Evidence.worth_pos (ev : Evidence unicode recovered rest fills rows)
    (h : recovered = a ++ t :: b) : 0 < worth (a ++ [t]) := by
  have hmem : ∀ u ∈ a ++ [t], u ∈ recovered ++ rest := by
    intro u hu
    rw [h]
    simp only [List.mem_append, List.mem_cons, List.not_mem_nil, or_false] at hu ⊢
    tauto
  have ha : 0 ≤ worth a :=
    worth_nonneg fun u hu => (ev.ordered.positive u (hmem u (List.mem_append_left _ hu))).le
  have ht := ev.ordered.positive t (hmem t (by simp))
  rw [worth_append, worth_cons, worth_nil, add_zero]
  linarith

/-- The rows of a trade are at its time. -/
theorem Evidence.row_time (ev : Evidence unicode recovered rest fills rows)
    (hm : Manageable unicode e m (recovered ++ rest) rows) (hrow : row ∈ rows)
    (ht : t ∈ recovered ++ rest) (hid : row.tradeId = some t.id) : row.tsEvent = t.time := by
  rcases ev.row_cases hm hrow with ⟨u, hu, hlive⟩ | ⟨a, u, b, fill, heq, -, huid, htime, -⟩
  · rw [hlive.time, ev.same hu ht (Option.some.inj (hlive.id.symm.trans hid))]
  · have hu : u ∈ recovered ++ rest := by rw [heq]; simp
    rw [htime, ev.same hu ht (Option.some.inj (huid.symm.trans hid))]

/-- Every trade has a row, and every row a trade. -/
theorem Evidence.identities_eq (ev : Evidence unicode recovered rest fills rows)
    (hm : Manageable unicode e m (recovered ++ rest) rows) :
    identities (rows.map (fillReport unicode)) =
      ((recovered ++ rest).map fun t => FillIdentity.trade t.id).toFinset := by
  ext i
  rw [mem_identities, List.mem_toFinset, List.mem_map]
  constructor
  · rintro ⟨r, hr, rfl⟩
    obtain ⟨row, hrow, rfl⟩ := List.mem_map.mp hr
    have htrade : ∃ t ∈ recovered ++ rest, row.tradeId = some t.id := by
      rcases ev.row_cases hm hrow with ⟨t, ht, hlive⟩ | ⟨a, t, b, fill, heq, -, hid, -⟩
      · exact ⟨t, ht, hlive.id⟩
      · exact ⟨t, by rw [heq]; simp, hid⟩
    obtain ⟨t, ht, hid⟩ := htrade
    exact ⟨t, ht, ((fillIdentity_eq_trade (ev.ordered.named t ht)).mpr hid).symm⟩
  · rintro ⟨t, ht, rfl⟩
    have hrow : ∃ row ∈ rows, row.tradeId = some t.id := by
      rcases List.mem_append.mp ht with hrec | hrest
      · obtain ⟨a, b, heq⟩ := List.append_of_mem hrec
        obtain ⟨fill, hfill, hid, -⟩ := (ev.fill hm).2 a t b heq
        obtain ⟨row, hrow, hr⟩ := ev.reported fill hfill
        exact ⟨row, hrow, by rw [hr.id, hid]⟩
      · obtain ⟨row, hrow, hr⟩ := ev.streamed t hrest
        exact ⟨row, hrow, hr.id⟩
    obtain ⟨row, hrow, hid⟩ := hrow
    exact ⟨fillReport unicode row, List.mem_map_of_mem hrow,
      (fillIdentity_eq_trade (ev.ordered.named t ht)).mpr hid⟩

theorem Evidence.identities_nodup (ev : Evidence unicode recovered rest fills rows) :
    ((recovered ++ rest).map fun t => FillIdentity.trade t.id).Nodup := by
  have hinj : Function.Injective FillIdentity.trade := fun a b h => by cases h; rfl
  have hids := ev.ordered.ids.map hinj
  rwa [List.map_map] at hids

/-- What is added is the sum over the trades. -/
theorem Evidence.added_eq (ev : Evidence unicode recovered rest fills rows)
    (hm : Manageable unicode e m (recovered ++ rest) rows) (p : Nat → Bool) :
    added p ∅ (rows.map (fillReport unicode)) = ((recovered ++ rest).map fun t =>
      addedBy p (rows.map (fillReport unicode)) (.trade t.id)).sum := by
  rw [added_eq_sum, Finset.sdiff_empty, ev.identities_eq hm, List.sum_toFinset _ ev.identities_nodup,
    List.map_map]
  rfl

/-- The first report about a trade is that of its first row. -/
theorem Evidence.addedBy_eq (ev : Evidence unicode recovered rest fills rows)
    (hm : Manageable unicode e m (recovered ++ rest) rows) (p : Nat → Bool)
    (ht : t ∈ recovered ++ rest) :
    ∃ row, rows.find? (fun r => r.tradeId = some t.id) = some row ∧ row ∈ rows ∧
      addedBy p (rows.map (fillReport unicode)) (.trade t.id) =
        if p t.time then (fillReport unicode row).delta else 0 := by
  have hsome : FillIdentity.trade t.id ∈ identities (rows.map (fillReport unicode)) := by
    rw [ev.identities_eq hm]
    simp only [List.mem_toFinset, List.mem_map]
    exact ⟨t, ht, rfl⟩
  obtain ⟨r, hr, hri⟩ := mem_identities.mp hsome
  obtain ⟨row₀, hrow₀, rfl⟩ := List.mem_map.mp hr
  have hid₀ := (fillIdentity_eq_trade (ev.ordered.named t ht)).mp hri
  have hfind : (rows.find? fun r => r.tradeId = some t.id).isSome := by
    rw [List.find?_isSome]
    exact ⟨row₀, hrow₀, by simpa using hid₀⟩
  obtain ⟨row, hrow⟩ := Option.isSome_iff_exists.mp hfind
  have hmem := List.mem_of_find?_eq_some hrow
  have hid : row.tradeId = some t.id := by simpa using List.find?_some hrow
  refine ⟨row, hrow, hmem, ?_⟩
  have hpred : ((fun r : Report Nat FillIdentity ℚ => decide (r.identity = .trade t.id)) ∘
      fillReport unicode) = fun r => decide (r.tradeId = some t.id) := by
    funext r
    exact decide_eq_decide.mpr (fillIdentity_eq_trade (ev.ordered.named t ht))
  rw [addedBy, List.find?_map, hpred, hrow]
  show (if p row.tsEvent then _ else _) = _
  rw [ev.row_time hm hmem ht hid]

/-- A trade with a live row first adds its quantity where its time counts. -/
theorem Evidence.addedBy_live (ev : Evidence unicode recovered rest fills rows)
    (hm : Manageable unicode e m (recovered ++ rest) rows) (ht : t ∈ recovered ++ rest)
    (hp : p t.time = true) (hfirst : LiveFirst unicode rows t) :
    addedBy p (rows.map (fillReport unicode)) (.trade t.id) = t.quantity.value := by
  obtain ⟨row, hrow, -, heq⟩ := ev.addedBy_eq hm p ht
  rw [heq, if_pos hp, ((hfirst row hrow).report (ev.ordered.positive t ht)).2]

/-- No trade adds more than its quantity, and one adds nothing whose time does
not count or whose first row is recovered. -/
theorem Evidence.addedBy_le (ev : Evidence unicode recovered rest fills rows)
    (hm : Manageable unicode e m (recovered ++ rest) rows) (p : Nat → Bool)
    (ht : t ∈ recovered ++ rest) :
    addedBy p (rows.map (fillReport unicode)) (.trade t.id) ≤ t.quantity.value ∧
      (p t.time = false ∨ ¬ LiveFirst unicode rows t →
        addedBy p (rows.map (fillReport unicode)) (.trade t.id) = 0) := by
  obtain ⟨row, hrow, hmem, heq⟩ := ev.addedBy_eq hm p ht
  have hpos := ev.ordered.positive t ht
  have hid : row.tradeId = some t.id := by simpa using List.find?_some hrow
  rw [heq]
  rcases ev.row_cases hm hmem with ⟨u, hu, hlive⟩ | ⟨a, u, b, fill, hsplit, hrec, -, -, -, hvalue⟩
  · have hut : u = t := ev.same hu ht (Option.some.inj (hlive.id.symm.trans hid))
    subst hut
    rw [(hlive.report hpos).2]
    refine ⟨by split_ifs <;> linarith, ?_⟩
    rintro (hp | hfirst)
    · simp [hp]
    · refine absurd (fun r hr => ?_) hfirst
      rw [hrow] at hr
      cases hr
      exact hlive
  · have hfilled : 0 < fill.filledQty.value := by
      rw [hvalue]
      exact ev.worth_pos hsplit
    rw [(hrec.report hfilled).2]
    refine ⟨by split_ifs <;> exact hpos.le, fun _ => by split_ifs <;> rfl⟩

/-- What is added after a trade's time is added by later trades. -/
theorem Evidence.added_after (ev : Evidence unicode recovered rest fills rows)
    (hm : Manageable unicode e m (recovered ++ rest) rows) (h : recovered ++ rest = a ++ t :: b) :
    added (fun u => decide (t.time < u)) ∅ (rows.map (fillReport unicode)) =
      (b.map fun u => addedBy (fun u => decide (t.time < u)) (rows.map (fillReport unicode))
        (.trade u.id)).sum := by
  have hsorted := ev.ordered.sorted
  rw [h, List.pairwise_append] at hsorted
  have hzero : ∀ u ∈ a ++ [t], addedBy (fun u => decide (t.time < u))
      (rows.map (fillReport unicode)) (.trade u.id) = 0 := by
    intro u hu
    have hmem : u ∈ recovered ++ rest := by
      rw [h]
      simp only [List.mem_append, List.mem_cons, List.not_mem_nil, or_false] at hu ⊢
      tauto
    refine (ev.addedBy_le hm _ hmem).2 (.inl (decide_eq_false (not_lt.mpr ?_)))
    rcases List.mem_append.mp hu with hu | hu
    · exact hsorted.2.2 u hu t (by simp)
    · rw [List.mem_singleton.mp hu]
  rw [ev.added_eq hm, h, show a ++ t :: b = (a ++ [t]) ++ b by simp, List.map_append, List.sum_append,
    List.map_congr_left hzero]
  simp

/-- What some of the trades add is at most what they are worth. -/
theorem Evidence.sum_le (ev : Evidence unicode recovered rest fills rows)
    (hm : Manageable unicode e m (recovered ++ rest) rows) (p : Nat → Bool)
    (hl : ∀ t ∈ l, t ∈ recovered ++ rest) :
    (l.map fun t => addedBy p (rows.map (fillReport unicode)) (.trade t.id)).sum ≤ worth l :=
  List.sum_le_sum fun t ht => (ev.addedBy_le hm p (hl t ht)).1

/-- It is less where one of them adds nothing. -/
theorem Evidence.sum_lt (ev : Evidence unicode recovered rest fills rows)
    (hm : Manageable unicode e m (recovered ++ rest) rows) (hl : ∀ t ∈ l, t ∈ recovered ++ rest)
    (ht : t ∈ l) (hnone : p t.time = false ∨ ¬ LiveFirst unicode rows t) :
    (l.map fun t => addedBy p (rows.map (fillReport unicode)) (.trade t.id)).sum < worth l := by
  refine List.sum_lt_sum _ _ (fun u hu => (ev.addedBy_le hm p (hl u hu)).1) ⟨t, ht, ?_⟩
  rw [(ev.addedBy_le hm p (hl t ht)).2 hnone]
  exact ev.ordered.positive t (hl t ht)

/-- It is all of it where each of them counts. -/
theorem Evidence.sum_eq (ev : Evidence unicode recovered rest fills rows)
    (hm : Manageable unicode e m (recovered ++ rest) rows)
    (hl : ∀ t ∈ l, t ∈ recovered ++ rest ∧ p t.time = true ∧ LiveFirst unicode rows t) :
    (l.map fun t => addedBy p (rows.map (fillReport unicode)) (.trade t.id)).sum = worth l := by
  unfold worth
  congr 1
  refine List.map_congr_left fun t ht => ?_
  obtain ⟨hmem, hp, hfirst⟩ := hl t ht
  exact ev.addedBy_live hm hmem hp hfirst

/-- Where a tally of these rows can start: at nothing, or at a recovered trade with
the sum up to it. -/
theorem Evidence.start_cases (ev : Evidence unicode recovered rest fills rows)
    (hm : Manageable unicode e m (recovered ++ rest) rows) (hrow : row ∈ rows) :
    (fillReport unicode row).anchor = 0 ∨ ∃ a t b, recovered = a ++ t :: b ∧
      (fillReport unicode row).time = t.time ∧ (fillReport unicode row).anchor = worth (a ++ [t]) := by
  rcases ev.row_cases hm hrow with ⟨t, ht, hlive⟩ | ⟨a, t, b, fill, hsplit, hrec, -, htime, -, hvalue⟩
  · exact .inl (hlive.report (ev.ordered.positive t ht)).1
  · refine .inr ⟨a, t, b, hsplit, htime, ?_⟩
    rw [(hrec.report (by rw [hvalue]; exact ev.worth_pos hsplit)).1, hvalue]

theorem Evidence.split (ev : Evidence unicode recovered rest fills rows)
    (h : recovered = a ++ t :: b) :
    recovered ++ rest = a ++ t :: (b ++ rest) ∧
      worth (a ++ [t]) + worth (b ++ rest) = worth (recovered ++ rest) := by
  subst h
  refine ⟨by simp, ?_⟩
  simp only [worth_append, worth_cons, worth_nil]
  ring

/-- **No start exceeds the trades.** -/
theorem Evidence.tally_le (ev : Evidence unicode recovered rest fills rows)
    (hm : Manageable unicode e m (recovered ++ rest) rows)
    (hs : (rows.map (fillReport unicode)).Pairwise fun a b => a.time ≤ b.time) :
    tally (rows.map (fillReport unicode)) ≤ worth (recovered ++ rest) := by
  by_contra hlt
  rw [not_le] at hlt
  refine lt_irrefl _ ((tally_lt_iff hs).mpr ⟨lt_of_le_of_lt ?_ hlt, fun r hr => lt_of_le_of_lt ?_ hlt⟩)
  · rw [ev.added_eq hm]
    exact ev.sum_le hm _ fun t ht => ht
  · obtain ⟨row, hrow, rfl⟩ := List.mem_map.mp hr
    rcases ev.start_cases hm hrow with hzero | ⟨a, t, b, hsplit, htime, hanchor⟩
    · rw [hzero, zero_add, ev.added_eq hm]
      exact ev.sum_le hm _ fun t ht => ht
    · obtain ⟨htrades, hworth⟩ := ev.split hsplit
      rw [hanchor, htime, ev.added_after hm htrades, ← hworth]
      refine add_le_add le_rfl (ev.sum_le hm _ fun u hu => ?_)
      rw [htrades]
      exact List.mem_append_right _ (List.mem_cons_of_mem _ hu)

/-- A trade the recovery did not reach has live rows only. -/
theorem Evidence.rest_live (ev : Evidence unicode recovered rest fills rows)
    (hm : Manageable unicode e m (recovered ++ rest) rows) (ht : t ∈ rest) :
    LiveFirst unicode rows t := by
  intro row hrow
  have htm : t ∈ recovered ++ rest := List.mem_append_right _ ht
  have hid : row.tradeId = some t.id := by simpa using List.find?_some hrow
  rcases ev.row_cases hm (List.mem_of_find?_eq_some hrow) with
    ⟨u, hu, hlive⟩ | ⟨a, u, b, fill, hsplit, -, huid, -⟩
  · rwa [ev.same hu htm (Option.some.inj (hlive.id.symm.trans hid))] at hlive
  · have hu : u ∈ recovered := by rw [hsplit]; simp
    have hut := ev.same (List.mem_append_left _ hu) htm (Option.some.inj (huid.symm.trans hid))
    have hdisjoint := List.disjoint_of_nodup_append (List.map_append ▸ ev.ordered.ids)
    exact absurd (List.mem_map_of_mem ht) (hdisjoint (List.mem_map_of_mem (hut ▸ hu)))

/-- Short of the trades: a recovered trade of the timestamp where the recovery
stops, whose recovered row came first, is not counted. -/
theorem Evidence.tally_lt (ev : Evidence unicode recovered rest fills rows)
    (hm : Manageable unicode e m (recovered ++ rest) rows)
    (hs : (rows.map (fillReport unicode)).Pairwise fun a b => a.time ≤ b.time) {next t₁ : Trade}
    (hnext : next ∈ rest) (ht₁ : t₁ ∈ recovered) (htime₁ : t₁.time = next.time)
    (hfirst : ¬ LiveFirst unicode rows t₁) :
    tally (rows.map (fillReport unicode)) < worth (recovered ++ rest) := by
  have hall : ∀ p : Nat → Bool, added p ∅ (rows.map (fillReport unicode)) < worth (recovered ++ rest) := by
    intro p
    rw [ev.added_eq hm]
    exact ev.sum_lt hm (fun t ht => ht) (List.mem_append_left _ ht₁) (.inr hfirst)
  refine (tally_lt_iff hs).mpr ⟨hall _, fun r hr => ?_⟩
  obtain ⟨row, hrow, rfl⟩ := List.mem_map.mp hr
  rcases ev.start_cases hm hrow with hzero | ⟨a, t, b, hsplit, htime, hanchor⟩
  · rw [hzero, zero_add]
    exact hall _
  · obtain ⟨htrades, hworth⟩ := ev.split hsplit
    have hmem : ∀ u ∈ b ++ rest, u ∈ recovered ++ rest := by
      intro u hu
      rw [htrades]
      exact List.mem_append_right _ (List.mem_cons_of_mem _ hu)
    rw [hanchor, htime, ev.added_after hm htrades, ← hworth]
    refine add_lt_add_right ?_ _
    by_cases hlater : t.time < next.time
    · -- a start before that timestamp misses `t₁`
      have hsorted := ev.ordered.sorted
      rw [htrades, List.pairwise_append] at hsorted
      have ht₁b : t₁ ∈ b ++ rest := by
        have hin : t₁ ∈ a ++ t :: b := hsplit ▸ ht₁
        rcases List.mem_append.mp hin with ha | hb
        · have := hsorted.2.2 t₁ ha t (by simp)
          omega
        · rcases List.mem_cons.mp hb with rfl | hb
          · omega
          · exact List.mem_append_left _ hb
      exact ev.sum_lt hm hmem ht₁b (.inr hfirst)
    · -- a start at that timestamp misses the live trades of it
      exact ev.sum_lt hm hmem (List.mem_append_right _ hnext) (.inl (decide_eq_false hlater))

/-- Exact otherwise: the last recovered trade before that timestamp is a start
after which every trade counts. -/
theorem Evidence.le_tally (ev : Evidence unicode recovered rest fills rows)
    (hm : Manageable unicode e m (recovered ++ rest) rows)
    (hs : (rows.map (fillReport unicode)).Pairwise fun a b => a.time ≤ b.time)
    (hclean : StopsCleanly unicode recovered rest rows) :
    worth (recovered ++ rest) ≤ tally (rows.map (fillReport unicode)) := by
  by_contra hlt
  obtain ⟨hall, hstart⟩ := (tally_lt_iff hs).mp (not_le.mp hlt)
  -- a recovered trade after which all count is a start at the whole sum
  have hfrom : ∀ a t b, recovered = a ++ t :: b →
      (∀ u ∈ b ++ rest, t.time < u.time ∧ LiveFirst unicode rows u) → False := by
    intro a t b hsplit hrest
    obtain ⟨htrades, hworth⟩ := ev.split hsplit
    obtain ⟨fill, hfill, hid, hftime, -, hvalue⟩ := (ev.fill hm).2 a t b hsplit
    obtain ⟨row, hrow, hrec⟩ := ev.reported fill hfill
    have hlt' := hstart (fillReport unicode row) (List.mem_map_of_mem hrow)
    have htime : (fillReport unicode row).time = t.time := hrec.time.trans hftime
    rw [(hrec.report (by rw [hvalue]; exact ev.worth_pos hsplit)).1, hvalue, htime,
      ev.added_after hm htrades, ev.sum_eq hm, hworth] at hlt'
    · exact lt_irrefl _ hlt'
    · intro u hu
      refine ⟨?_, decide_eq_true (hrest u hu).1, (hrest u hu).2⟩
      rw [htrades]
      exact List.mem_append_right _ (List.mem_cons_of_mem _ hu)
  cases rest with
  | nil =>
    rcases List.eq_nil_or_concat recovered with rfl | ⟨a, t, rfl⟩
    · exact absurd (added_nonneg _ _ _) (not_le.mpr hall)
    · exact hfrom a t [] (by simp) (by simp)
  | cons next rest' =>
    have hsorted := List.pairwise_append.mp ev.ordered.sorted
    obtain ⟨early, same, hsplit, hearly, hsame⟩ := exists_split next.time hsorted.1
    -- what is at that timestamp or after it counts
    have hcounts : ∀ u ∈ same ++ next :: rest', next.time ≤ u.time ∧ LiveFirst unicode rows u := by
      intro u hu
      rcases List.mem_append.mp hu with hu | hu
      · have hmem : u ∈ recovered := by rw [hsplit]; exact List.mem_append_right _ hu
        have htime : u.time = next.time :=
          le_antisymm (hsorted.2.2 u hmem next (by simp)) (hsame u hu)
        exact ⟨htime.ge, hclean next (by simp) u hmem htime⟩
      · refine ⟨?_, ev.rest_live hm hu⟩
        rcases List.mem_cons.mp hu with rfl | hu'
        · exact le_rfl
        · exact (List.pairwise_cons.mp hsorted.2.1).1 u hu'
    rcases List.eq_nil_or_concat early with rfl | ⟨a, t, rfl⟩
    · rw [ev.added_eq hm, ev.sum_eq hm] at hall
      · exact lt_irrefl _ hall
      · intro u hu
        refine ⟨hu, rfl, (hcounts u ?_).2⟩
        rwa [hsplit, List.nil_append] at hu
    · refine hfrom a t same (by rw [hsplit]; simp) fun u hu => ?_
      exact ⟨(hearly t (by simp)).trans_le (hcounts u hu).1, (hcounts u hu).2⟩

/-- The loop can take every row. -/
theorem Evidence.readable (ev : Evidence unicode recovered rest fills rows)
    (hm : Manageable unicode e m (recovered ++ rest) rows) (hrow : row ∈ rows) :
    Readable unicode e m row := by
  rcases ev.row_cases hm hrow with ⟨t, ht, hlive⟩ | ⟨a, t, b, fill, hsplit, hrec, -, -, hlast, hvalue⟩
  · obtain ⟨hanchor, hdelta⟩ := hlive.report (ev.ordered.positive t ht)
    obtain ⟨d, hd, hdvalue⟩ := hlive.delta
    refine ⟨hlive.numbers, ⟨?_, ?_⟩, ?_, hm.prices row hrow⟩
    · rw [hanchor]; exact Whole.zero e
    · rw [hdelta]; exact hm.whole t ht
    · rw [hd, amount_of_nonneg (by rw [hdvalue]; exact (ev.ordered.positive t ht).le), hdvalue]
      exact hm.whole t ht
  · have ht : t ∈ recovered ++ rest := by rw [hsplit]; simp
    have hprefix : ∀ u ∈ a ++ [t], Whole e u.quantity.value := by
      intro u hu
      refine hm.whole u ?_
      rw [hsplit]
      simp only [List.mem_append, List.mem_cons, List.not_mem_nil, or_false] at hu ⊢
      tauto
    obtain ⟨hanchor, hdelta⟩ := hrec.report (by rw [hvalue]; exact ev.worth_pos hsplit)
    obtain ⟨d, hd, hdvalue⟩ := hrec.delta
    refine ⟨hrec.numbers, ⟨?_, ?_⟩, ?_, hm.prices row hrow⟩
    · rw [hanchor, hvalue]; exact worth_whole hprefix
    · rw [hdelta]; exact Whole.zero e
    · rw [hd, amount_of_nonneg (by rw [hdvalue, hlast]; exact (ev.ordered.positive t ht).le), hdvalue,
        hlast]
      exact hm.whole t ht

/-- The deltas of all rows, each trade once, are what the trades are worth. -/
theorem Evidence.deltas_le (ev : Evidence unicode recovered rest fills rows)
    (hm : Manageable unicode e m (recovered ++ rest) rows) :
    added (fun _ => true) ∅ (rows.map (deltaReport unicode)) ≤ worth (recovered ++ rest) := by
  have hids : identities (rows.map (deltaReport unicode)) =
      ((recovered ++ rest).map fun t => FillIdentity.trade t.id).toFinset := by
    rw [← ev.identities_eq hm]
    unfold identities
    rw [List.map_map, List.map_map]
    rfl
  rw [added_eq_sum, Finset.sdiff_empty, hids, List.sum_toFinset _ ev.identities_nodup, List.map_map]
  refine List.sum_le_sum fun t ht => ?_
  have hpos := ev.ordered.positive t ht
  show addedBy (fun _ => true) (rows.map (deltaReport unicode)) (.trade t.id) ≤ t.quantity.value
  unfold addedBy
  split
  · next r hr =>
    obtain ⟨row, hrow, rfl⟩ := List.mem_map.mp (List.mem_of_find?_eq_some hr)
    have hid : row.tradeId = some t.id := by
      have hfound := List.find?_some hr
      rw [decide_eq_true_eq] at hfound
      exact (fillIdentity_eq_trade (ev.ordered.named t ht)).mp hfound
    have hquantity : ∃ d, (rowNumbers unicode row).delta = some d ∧ d.value = t.quantity.value := by
      rcases ev.row_cases hm hrow with ⟨u, hu, hlive⟩ | ⟨a, u, b, fill, hsplit, hrec, huid, -, hlast, -⟩
      · rw [← ev.same hu ht (Option.some.inj (hlive.id.symm.trans hid))]
        exact hlive.delta
      · have hu : u ∈ recovered ++ rest := by rw [hsplit]; simp
        rw [← ev.same hu ht (Option.some.inj (huid.symm.trans hid)), ← hlast]
        exact hrec.delta
    obtain ⟨d, hd, hvalue⟩ := hquantity
    show amount (rowNumbers unicode row).delta ≤ _
    rw [hd, amount_of_nonneg (by rw [hvalue]; exact hpos.le), hvalue]
  · exact hpos.le

end Mixture

/-- **Live and recovered fills come to the trades** exactly when the recovery stops
cleanly, or the row already knows the whole quantity. -/
theorem filledQty_eq_iff {env : Env} {recovered rest : List Trade} {fills : List RecoveredFill}
    {table : List ExecutionEvent} {key : OrderKey} {e m : Int}
    (ev : Evidence env.unicode recovered rest fills (fillRows env table key))
    (hm : Manageable env.unicode e m (recovered ++ rest) (fillRows env table key))
    (payload : Dict Json.Value) (current : Option OrderRow) :
    (∃ reduced, fillPayload env.unicode (fillRows env table key) payload current = .ok reduced ∧
      filledQty env.unicode reduced = some (worth (recovered ++ rest))) ↔
    knownFilled current ≤ worth (recovered ++ rest) ∧
      (knownFilled current = worth (recovered ++ rest) ∨
        StopsCleanly env.unicode recovered rest (fillRows env table key)) := by
  have hs := fillReports_sorted env table key
  set rows := fillRows env table key
  set whole := worth (recovered ++ rest) with hwhole
  have hle := ev.tally_le hm hs
  -- the tally is the trades or short of them
  have htally : tally (rows.map (fillReport env.unicode)) = whole ↔
      StopsCleanly env.unicode recovered rest rows := by
    constructor
    · intro heq next hnext t ht htime
      by_contra hfirst
      exact absurd heq (ev.tally_lt hm hs (List.mem_of_mem_head? hnext) ht htime hfirst).ne
    · exact fun hclean => le_antisymm hle (ev.le_tally hm hs hclean)
  rw [← htally]
  rcases fillPayload_cases hm.places (fun row hrow => ev.readable hm hrow) (hle.trans_lt hm.total)
    ((ev.deltas_le hm).trans_lt hm.total) payload current with
    ⟨hknown, hraises⟩ | ⟨reduced, known, hok, hknown, hfilled⟩
  · rw [hknown]
    constructor
    · rintro ⟨reduced, hok, -⟩
      exact absurd hok (hraises reduced)
    · rintro ⟨hle, -⟩
      exact absurd hle (by simp)
  · rw [hknown]
    norm_cast
    constructor
    · rintro ⟨reduced', hok', hfilled'⟩
      cases hok.symm.trans hok'
      have hmax := Option.some.inj (hfilled.symm.trans hfilled')
      refine ⟨hmax ▸ le_max_right _ _, ?_⟩
      rcases max_choice (tally (rows.map (fillReport env.unicode))) known with h | h
      · exact .inr (h.symm.trans hmax)
      · exact .inl (h.symm.trans hmax)
    · intro hcases
      refine ⟨reduced, hok, ?_⟩
      rw [hfilled]
      congr 1
      rcases hcases with ⟨hk, h | h⟩
      · rw [h, max_eq_right hle]
      · rw [h, max_eq_left hk]

/-! ## A recovery that stops inside a timestamp -/

/-- A quantity of one. -/
def oneUnit : FiniteDecimal := ⟨false, 1, 0, .one⟩

/-- Trades of one unit at one timestamp. -/
def unitTrade (id : String) : Trade := ⟨id, 1000, oneUnit⟩

def unitRow (eventId tradeId : String) (fields : List (String × Json.Value)) : ExecutionEvent where
  eventId := eventId
  nodeId := "node"
  accountId := "acct"
  intentId := none
  clientOrderId := some "coid"
  venueOrderId := none
  tradeId := some tradeId
  eventType := "OrderFilled"
  tsEvent := 1000
  tsIngest := 1000
  payload := fields.foldl (fun d kv => d.set kv.1 kv.2) Dict.empty

def unitFill (id : String) : RecoveredFill := ⟨id, 1000, oneUnit, oneUnit⟩

/-- The first trade recovered and live, the second live. -/
def stoppedRows (recoveredId liveId : String) : List ExecutionEvent :=
  [unitRow recoveredId "1" [("filled_qty", .str "1"), ("last_qty", .str "1")],
    unitRow liveId "1" [("last_qty", .str "1")], unitRow "c" "2" [("last_qty", .str "1")]]

theorem mem_stoppedRows {recoveredId liveId : String} {row : ExecutionEvent} :
    row ∈ fillRows Env.plain (stoppedRows recoveredId liveId) ⟨"acct", "coid"⟩ ↔
      row ∈ stoppedRows recoveredId liveId := by
  rw [fillRows, List.mem_insertionSort, List.filter_eq_self.mpr]
  intro r hr
  simp only [stoppedRows, List.mem_cons, List.not_mem_nil, or_false] at hr
  rcases hr with rfl | rfl | rfl <;> simp [unitRow]

theorem unitRow_live (eventId tradeId : String) :
    IsLive Env.plain.unicode (unitTrade tradeId)
      (unitRow eventId tradeId [("last_qty", .str "1")]) := by
  have hn : fillNumbers Env.plain.unicode (unitRow eventId tradeId [("last_qty", .str "1")]) =
      .ok ⟨none, some oneUnit, none, none⟩ := by rfl
  refine ⟨rfl, rfl, ?_, ?_, oneUnit, ?_, rfl⟩ <;> rw [rowNumbers_eq hn]
  exact hn

theorem unitRow_recovered (eventId tradeId : String) :
    IsRecovered Env.plain.unicode (unitFill tradeId)
      (unitRow eventId tradeId [("filled_qty", .str "1"), ("last_qty", .str "1")]) := by
  have hn : fillNumbers Env.plain.unicode
      (unitRow eventId tradeId [("filled_qty", .str "1"), ("last_qty", .str "1")]) =
      .ok ⟨some oneUnit, some oneUnit, none, none⟩ := by rfl
  refine ⟨rfl, rfl, ?_, ⟨oneUnit, ?_, rfl⟩, oneUnit, ?_, rfl⟩ <;> rw [rowNumbers_eq hn]
  exact hn

theorem oneUnit_value : oneUnit.value = 1 := by
  simp [FiniteDecimal.value, FiniteDecimal.signed, oneUnit]

theorem worth_stopped : worth ([unitTrade "1"] ++ [unitTrade "2"]) = 2 := by
  simp only [List.cons_append, List.nil_append, worth_cons, worth_nil, unitTrade, oneUnit_value]
  norm_num

theorem stopped_evidence (recoveredId liveId : String) :
    Evidence Env.plain.unicode [unitTrade "1"] [unitTrade "2"] [unitFill "1"]
      (fillRows Env.plain (stoppedRows recoveredId liveId) ⟨"acct", "coid"⟩) := by
  have hmem : ∀ t ∈ [unitTrade "1"] ++ [unitTrade "2"], t = unitTrade "1" ∨ t = unitTrade "2" := by
    simp
  refine ⟨⟨by simp [unitTrade], by simp [unitTrade], ?_, ?_⟩, by rfl, ?_, ?_, ?_⟩
  · intro t ht
    rcases hmem t ht with rfl | rfl <;> decide
  · intro t ht
    rcases hmem t ht with rfl | rfl <;> simp [unitTrade, oneUnit_value]
  · intro row hrow
    rw [mem_stoppedRows] at hrow
    simp only [stoppedRows, List.mem_cons, List.not_mem_nil, or_false] at hrow
    rcases hrow with rfl | rfl | rfl
    · exact .inr ⟨unitFill "1", by simp, unitRow_recovered _ _⟩
    · exact .inl ⟨unitTrade "1", by simp, unitRow_live _ _⟩
    · exact .inl ⟨unitTrade "2", by simp, unitRow_live _ _⟩
  · intro fill hfill
    rw [List.mem_singleton.mp hfill]
    exact ⟨_, mem_stoppedRows.mpr (by simp [stoppedRows]), unitRow_recovered recoveredId "1"⟩
  · intro t ht
    rw [List.mem_singleton.mp ht]
    exact ⟨_, mem_stoppedRows.mpr (by simp [stoppedRows]), unitRow_live "c" "2"⟩

theorem stopped_manageable (recoveredId liveId : String) :
    Manageable Env.plain.unicode 0 0 ([unitTrade "1"] ++ [unitTrade "2"])
      (fillRows Env.plain (stoppedRows recoveredId liveId) ⟨"acct", "coid"⟩) := by
  refine ⟨⟨⟨by decide, by decide⟩, ⟨by decide, by decide⟩, by decide, by decide⟩, ?_, ?_, ?_⟩
  · intro t ht
    have hone : t.quantity = oneUnit := by
      simp only [List.cons_append, List.nil_append, List.mem_cons, List.not_mem_nil, or_false] at ht
      rcases ht with rfl | rfl <;> rfl
    rw [hone, oneUnit_value]
    exact ⟨1, by simp⟩
  · rw [worth_stopped, limit]
    norm_num [prec]
  · intro row hrow p hp
    rw [mem_stoppedRows] at hrow
    simp only [stoppedRows, List.mem_cons, List.not_mem_nil, or_false] at hrow
    rcases hrow with rfl | rfl | rfl
    · cases hp
    · cases hp
    · cases hp

theorem filledQty_eq_iff_stopped :
    (∃ reduced, fillPayload Env.plain.unicode
        (fillRows Env.plain (stoppedRows "b" "a") ⟨"acct", "coid"⟩) Dict.empty none = .ok reduced ∧
      filledQty Env.plain.unicode reduced = some (worth ([unitTrade "1"] ++ [unitTrade "2"]))) ↔
    knownFilled none ≤ worth ([unitTrade "1"] ++ [unitTrade "2"]) ∧
      (knownFilled none = worth ([unitTrade "1"] ++ [unitTrade "2"]) ∨
        StopsCleanly Env.plain.unicode [unitTrade "1"] [unitTrade "2"]
          (fillRows Env.plain (stoppedRows "b" "a") ⟨"acct", "coid"⟩)) :=
  filledQty_eq_iff (stopped_evidence "b" "a") (stopped_manageable "b" "a") Dict.empty none

/-- The `filled_qty` text a reduction leaves. -/
def reducedText (rows : List ExecutionEvent) : Option Json.Value :=
  (fillPayload Env.plain.unicode rows Dict.empty none).toOption.bind fun p => p.get? "filled_qty"

theorem filledQty_of_text (rows : List ExecutionEvent) (d : FiniteDecimal)
    (h : reducedText rows = some (finiteStr d)) :
    ∃ reduced, fillPayload Env.plain.unicode rows Dict.empty none = .ok reduced ∧
      filledQty Env.plain.unicode reduced = some d.value := by
  unfold reducedText at h
  cases hp : fillPayload Env.plain.unicode rows Dict.empty none with
  | error failure => rw [hp] at h; cases h
  | ok reduced =>
    rw [hp] at h
    refine ⟨reduced, rfl, ?_⟩
    have hget : reduced.get? "filled_qty" = some (finiteStr d) := h
    unfold filledQty
    rw [hget, decimal_finiteStr]

/-- Two trades of one unit at one timestamp, the first recovered: with the
recovered row's event id before the live one's the reduction gives one unit, with
the ids the other way round it gives both. -/
theorem filledQty_depends_on_event_ids :
    (∀ recoveredId liveId, Evidence Env.plain.unicode [unitTrade "1"] [unitTrade "2"] [unitFill "1"]
      (fillRows Env.plain (stoppedRows recoveredId liveId) ⟨"acct", "coid"⟩)) ∧
    (¬ ∃ reduced, fillPayload Env.plain.unicode
        (fillRows Env.plain (stoppedRows "a" "b") ⟨"acct", "coid"⟩) Dict.empty none = .ok reduced ∧
      filledQty Env.plain.unicode reduced = some (worth ([unitTrade "1"] ++ [unitTrade "2"]))) ∧
    ∃ reduced, fillPayload Env.plain.unicode
        (fillRows Env.plain (stoppedRows "b" "a") ⟨"acct", "coid"⟩) Dict.empty none = .ok reduced ∧
      filledQty Env.plain.unicode reduced = some (worth ([unitTrade "1"] ++ [unitTrade "2"])) := by
  refine ⟨stopped_evidence, ?_, ?_⟩
  · obtain ⟨p, hp, hvalue⟩ := filledQty_of_text
      (fillRows Env.plain (stoppedRows "a" "b") ⟨"acct", "coid"⟩) oneUnit (by decide +kernel)
    rintro ⟨reduced, hok, hfilled⟩
    rw [hp] at hok
    cases hok
    rw [hvalue, worth_stopped, oneUnit_value] at hfilled
    norm_num at hfilled
  · obtain ⟨p, hp, hvalue⟩ := filledQty_of_text
      (fillRows Env.plain (stoppedRows "b" "a") ⟨"acct", "coid"⟩) ⟨false, 2, 0, by decide⟩
      (by decide +kernel)
    refine ⟨p, hp, ?_⟩
    rw [hvalue, worth_stopped]
    simp [FiniteDecimal.value, FiniteDecimal.signed]

end TraderBot.Orders
