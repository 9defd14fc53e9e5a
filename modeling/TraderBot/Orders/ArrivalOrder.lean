import TraderBot.Orders.Fills

/-! # Fills in any order

The filled quantity after a run of fills of one order is the tally of the rows
recorded, whatever order the calls came in and however often (`Tracks.step`): a
call reduces all rows recorded so far, and more rows never tally less. So any two
runs that apply the same fills end with the same quantity
(`filledQuantity_of_any_order`), as long as the sums fit the decimal context. -/
namespace TraderBot.Orders
open TraderBot.Lib TraderBot.Lib.Text TraderBot.Lib.Decimal

/-- The row an event leaves, the time of ingestion apart. -/
def storedRow (n : Normalized) : ExecutionEvent where
  eventId := n.event.eventId
  nodeId := n.event.nodeId.getD "unknown"
  accountId := n.key.accountId
  intentId := n.event.intentId
  clientOrderId := some n.key.clientOrderId
  venueOrderId := n.event.venueOrderId
  tradeId := n.event.tradeId
  eventType := n.event.eventType
  tsEvent := n.tsEvent
  tsIngest := 0
  payload := (Jsonb.storedDict n.payload).getD Dict.empty

/-- What an event reports. -/
def eventReport (unicode : Unicode) (n : Normalized) : Report Nat FillIdentity ℚ :=
  fillReport unicode (storedRow n)

/-- A set of fills of one order: normalized events, one for each id, that agree
on time and payload where they name one trade. -/
structure FillSet (env : Env) (key : OrderKey) (fills : List Normalized) : Prop where
  normal : ∀ n ∈ fills, ∀ now, normalizeEvent env now n.event = .ok n
  order : ∀ n ∈ fills, n.key = key
  fill : ∀ n ∈ fills, n.event.eventType = "OrderFilled"
  ids : ∀ n ∈ fills, ∀ n' ∈ fills, n.event.eventId = n'.event.eventId → n = n'
  agree : ∀ n ∈ fills, ∀ n' ∈ fills, ∀ id, nonEmpty n.event.tradeId = some id →
    nonEmpty n'.event.tradeId = some id → n.tsEvent = n'.tsEvent ∧ n.payload = n'.payload

/-- Quantities in whole units; the largest cumulative one and the deltas of all
trades together have at most 28 digits. -/
structure FillsFit (unicode : Unicode) (e : Int) (fills : List Normalized) : Prop where
  place : InContext e
  whole : ∀ n ∈ fills, ReportInUnits e (eventReport unicode n)
  deltas : added (fun _ => true) ∅ (fills.map (eventReport unicode)) < limit e
  cumulative : ∀ n ∈ fills, (eventReport unicode n).anchor +
    added (fun _ => true) ∅ (fills.map (eventReport unicode)) < limit e

/-- Tables in which nothing is filled and none of these fills is known. -/
structure Unfilled (env : Env) (key : OrderKey) (fills : List Normalized) (t : Tables) : Prop where
  rows : fillRows env t.executionEvents.rows key = []
  fresh : ∀ n ∈ fills, n.event.eventId ∉ t.executionEvents.rows.map ExecutionEvent.eventId ∧
    t.orderEvents.has n.event.eventId = false
  known : knownFilled (t.orders.find? key) = 0

/-- A run of calls for these fills in which each of them is applied: a call for it
returns. Calls may come in any order, more than once, and raise. -/
structure AppliesAll (env : Env) (fills : List Normalized) (t : Tables) (calls : List Call) :
    Prop where
  only : ∀ call ∈ calls, ∃ n ∈ fills, call.event = n.event
  all : ∀ n ∈ fills, ∃ before call later result, calls = before ++ call :: later ∧
    call.event = n.event ∧ (machine env).answer ((machine env).after t before) call = .ok result

/-! ## What the tables track -/

/-- The rows of the order are those of fills that were applied, and the filled
quantity is what they reduce to. -/
structure Tracks (env : Env) (key : OrderKey) (fills : List Normalized) (t : Tables) : Prop where
  rows : ∀ row ∈ fillRows env t.executionEvents.rows key,
    ∃ n ∈ fills, fillReport env.unicode row = eventReport env.unicode n
  recorded : ∀ n ∈ fills, ∀ row ∈ t.executionEvents.rows, row.eventId = n.event.eventId →
    row ∈ fillRows env t.executionEvents.rows key ∧
      fillReport env.unicode row = eventReport env.unicode n
  applied : ∀ n ∈ fills, t.orderEvents.has n.event.eventId = true →
    ∃ row ∈ t.executionEvents.rows, row.eventId = n.event.eventId
  reduced : ∃ s, reduceFills env.unicode (fillRows env t.executionEvents.rows key) = .ok s ∧
    knownFilled (t.orders.find? key) = (s.total.value : WithTop ℚ)

section
variable {env : Env} {key : OrderKey} {fills : List Normalized} {t : Tables} {e : Int}

theorem Unfilled.tracks (h : Unfilled env key fills t) : Tracks env key fills t := by
  refine ⟨?_, ?_, ?_, {}, ?_, ?_⟩
  · rw [h.rows]
    simp
  · intro n hn row hrow hid
    exact absurd (hid ▸ List.mem_map_of_mem hrow) (h.fresh n hn).1
  · intro n hn hhas
    rw [(h.fresh n hn).2] at hhas
    cases hhas
  · rw [h.rows]
    rfl
  · rw [h.known, FiniteDecimal.zero_value]
    rfl

variable {n : Normalized} {unicode : Unicode} {payload : Dict Json.Value}
  {current : Option OrderRow} {call : Call} {calls : List Call}

/-- The row a call records reports what its event does. -/
theorem executionRow_report {now : DateTime} {row : ExecutionEvent}
    (h : executionRow now n = .ok row) :
    fillReport env.unicode row = eventReport env.unicode n := by
  obtain ⟨hid, -, -, htrade, -, hts, hpayload⟩ := executionRow_ok h
  have hp : row.payload = (storedRow n).payload := by
    show row.payload = (Jsonb.storedDict n.payload).getD Dict.empty
    rw [hpayload]
    rfl
  have hnumbers : rowNumbers env.unicode row = rowNumbers env.unicode (storedRow n) := by
    unfold rowNumbers fillNumbers
    rw [hp]
  have hidentity : fillIdentity row = fillIdentity (storedRow n) := by
    unfold fillIdentity
    rw [htrade, hid]
    rfl
  unfold eventReport fillReport
  rw [hnumbers]
  unfold reportOf
  rw [hidentity, hts]
  rfl

/-- Fills of one set are consistent reports. -/
theorem FillSet.consistent (h : FillSet env key fills) :
    Consistent (fills.map (eventReport env.unicode)) := by
  intro a ha b hb hab
  obtain ⟨n, hn, rfl⟩ := List.mem_map.mp ha
  obtain ⟨n', hn', rfl⟩ := List.mem_map.mp hb
  change fillIdentity (storedRow n) = fillIdentity (storedRow n') at hab
  unfold fillIdentity at hab
  dsimp only [storedRow] at hab
  cases htrade : nonEmpty n.event.tradeId with
  | some id =>
    cases htrade' : nonEmpty n'.event.tradeId with
    | some id' =>
      rw [htrade, htrade'] at hab
      cases hab
      obtain ⟨htime, hpayload⟩ := h.agree n hn n' hn' id htrade htrade'
      refine ⟨htime, ?_⟩
      have hnumbers : rowNumbers env.unicode (storedRow n) = rowNumbers env.unicode (storedRow n') := by
        unfold rowNumbers fillNumbers storedRow
        rw [hpayload]
      show (reportOf (storedRow n) _).delta = (reportOf (storedRow n') _).delta
      rw [hnumbers]
      rfl
    | none =>
      rw [htrade, htrade'] at hab
      cases hab
  | none =>
    cases htrade' : nonEmpty n'.event.tradeId with
    | some id' =>
      rw [htrade, htrade'] at hab
      cases hab
    | none =>
      rw [htrade, htrade'] at hab
      injection hab with hid
      rw [h.ids n hn n' hn' hid]
      exact ⟨rfl, rfl⟩

/-- Rows that report fills of the set tally below the limit. -/
theorem FillsFit.tally_lt (hfit : FillsFit env.unicode e fills) (hset : FillSet env key fills)
    {rs : List (Report Nat FillIdentity ℚ)} (hs : rs.Pairwise fun a b => a.time ≤ b.time)
    (hsub : rs ⊆ fills.map (eventReport env.unicode)) : tally rs < limit e := by
  have hle := added_subset (p := fun _ => true) hset.consistent hsub
  refine (tally_lt_iff hs).mpr ⟨hle.trans_lt hfit.deltas, fun r hr => ?_⟩
  obtain ⟨n, hn, rfl⟩ := List.mem_map.mp (hsub hr)
  have hafter : added (fun u => decide ((eventReport env.unicode n).time < u)) ∅ rs ≤
      added (fun _ => true) ∅ rs := added_mono _ fun _ _ _ => rfl
  exact (add_le_add le_rfl (hafter.trans hle)).trans_lt (hfit.cumulative n hn)

theorem Tracks.reports_subset (h : Tracks env key fills t) :
    (fillRows env t.executionEvents.rows key).map (fillReport env.unicode) ⊆
      fills.map (eventReport env.unicode) := by
  intro r hr
  obtain ⟨row, hrow, rfl⟩ := List.mem_map.mp hr
  obtain ⟨n, hn, heq⟩ := h.rows row hrow
  rw [heq]
  exact List.mem_map_of_mem hn

/-- The reduced total of such rows is their tally. -/
theorem FillsFit.reduced (hfit : FillsFit env.unicode e fills) (hset : FillSet env key fills)
    {table : List ExecutionEvent} {s : FillState}
    (hsub : (fillRows env table key).map (fillReport env.unicode) ⊆ fills.map (eventReport env.unicode))
    (h : reduceFills env.unicode (fillRows env table key) = .ok s) :
    s.total.value = tally ((fillRows env table key).map (fillReport env.unicode)) := by
  refine reduceFills_total hfit.place (fun row hrow => ?_)
    (hfit.tally_lt hset (fillReports_sorted env table key) hsub) h
  obtain ⟨n, hn, heq⟩ := List.mem_map.mp (hsub (List.mem_map_of_mem hrow))
  rw [← heq]
  exact hfit.whole n hn

/-! ## The quantity a call writes -/

theorem amountColumn_rank {d : FiniteDecimal} {a : Option Amount}
    (h : amountColumn (some (.finite d)) = .ok a) :
    (a.getD .zero).value.rank = (d.value : WithTop ℚ) := by
  unfold amountColumn numericColumn at h
  dsimp only at h
  cases hn : Numeric.ofDecimal (.finite d) with
  | none =>
    rw [hn] at h
    cases h
  | some n =>
    rw [hn] at h
    change (orRaise .database (Amount.ofNumeric? n) >>= fun a => pure (some a)) = .ok a at h
    unfold Amount.ofNumeric? at h
    split_ifs at h with hnonneg
    · cases h
      exact Numeric.ofDecimal_rank hn
    · cases h

theorem knownFilled_nonneg (current : Option OrderRow) : 0 ≤ knownFilled current := by
  cases current with
  | none => exact le_rfl
  | some row =>
    have hle : Numeric.zero ≤ row.filledQuantity.value := by
      simpa [Numeric.nonneg] using row.filledQuantity.nonneg
    have hzero : Numeric.zero.rank = 0 := by simp [Numeric.rank, Numeric.zero]
    show 0 ≤ row.filledQuantity.value.rank
    rw [← hzero]
    exact hle

/-- The parameter is the reduced quantity, or where that is zero another zero. -/
theorem filledParameter_value {c : FiniteDecimal}
    (hpayload : decimal unicode (payload.get? "filled_qty") = some (.finite c))
    (hknown : knownFilled current ≤ (c.value : WithTop ℚ)) :
    ∃ d, filledParameter unicode payload current = .finite d ∧ d.value = c.value := by
  unfold filledParameter
  rw [decimalOrNone_eq, hpayload]
  by_cases hc : c.coeff = 0
  · have hzero : c.value = 0 := by
      have habs := c.abs_value
      rw [hc, Nat.cast_zero, zero_mul, abs_eq_zero] at habs
      exact habs
    rw [Option.filter_some, if_neg (by simp [Decimal.truthy, hc])]
    dsimp only
    cases current with
    | none => exact ⟨.zero, rfl, by rw [hzero, FiniteDecimal.zero_value]⟩
    | some row =>
      dsimp only
      split_ifs
      · rw [hzero] at hknown
        have hrank : row.filledQuantity.value.rank = ((0 : ℚ) : WithTop ℚ) :=
          le_antisymm hknown (knownFilled_nonneg (some row))
        rcases Numeric.toDecimal_cases row.filledQuantity.value with ⟨htop, -⟩ | ⟨d, hd, hvalue⟩
        · rw [hrank] at htop
          cases htop
        · refine ⟨d, hd, ?_⟩
          rw [hzero]
          exact_mod_cast hvalue.symm.trans hrank
      · exact ⟨.zero, rfl, by rw [hzero, FiniteDecimal.zero_value]⟩
  · rw [Option.filter_some, if_pos (by simp [Decimal.truthy, hc])]
    exact ⟨c, rfl, rfl⟩

/-- What `_fill_payload` did where it returned. -/
theorem fillPayload_ok {rows : List ExecutionEvent} {reduced : Dict Json.Value}
    (h : fillPayload unicode rows payload current = .ok reduced) :
    ∃ s c average, reduceFills unicode rows = .ok s ∧ fillTotal s.total current = .ok c ∧
      reduced = ((withQuantity payload current).set "filled_qty" (finiteStr c)).set "avg_px" average := by
  unfold fillPayload at h
  obtain ⟨s, hs, h⟩ := bind_ok h
  obtain ⟨c, hc, h⟩ := bind_ok h
  obtain ⟨average, -, h⟩ := bind_ok h
  cases pure_ok h
  exact ⟨s, c, average, hs, hc, rfl⟩

/-- With fills there is always a row to write. -/
theorem decision_projects (tsEvent : Nat) (current : Option OrderRow) (target : OrderStatus) :
    ∃ status, decision tsEvent current true target = .project status := by
  cases current with
  | none => exact ⟨target, rfl⟩
  | some row =>
    unfold decision
    simp only [if_true]
    split_ifs <;> exact ⟨_, rfl⟩

theorem greatest_rank {a b : Amount} (h : b.value.rank ≤ a.value.rank) :
    (Amount.greatest a b).value.rank = a.value.rank := by
  unfold Amount.greatest
  rw [if_pos (show b.value ≤ a.value from h)]

/-- The quantity after the upsert is the one proposed, where that is no less. -/
theorem upsertedRow_filled {given : Bool} {new : OrderRow}
    (h : knownFilled current ≤ new.filledQuantity.value.rank) :
    knownFilled (some (upsertedRow current given new)) = new.filledQuantity.value.rank := by
  cases current with
  | none => rfl
  | some old => exact greatest_rank h

/-- **What a new fill leaves**: its row recorded, and the order's quantity reduced
from all rows there are. -/
theorem fill_applied {r : Reading} {t₁ t' : Tables} {result : OrderApplyResult}
    (hfill : n.event.eventType = "OrderFilled") (hkey : n.key = key)
    (hread : readPhase env call.now n t = .ok (r, t₁))
    (hwrite : writePhase env call.draws r t₁ = .ok (result, t')) :
    ∃ row s c, executionRow call.now n = .ok row ∧
      t'.executionEvents = t.executionEvents.insert row ∧
      reduceFills env.unicode (fillRows env t'.executionEvents.rows key) = .ok s ∧
      fillTotal s.total (t.orders.find? key) = .ok c ∧
      (knownFilled (t.orders.find? key) ≤ (c.value : WithTop ℚ) →
        knownFilled (t'.orders.find? key) = (c.value : WithTop ℚ)) := by
  subst hkey
  obtain ⟨hensure, horders, -, -, hcurrent, hhas, hreduced, -⟩ := readPhase_ok hread
  obtain ⟨row, hrow, ht₁⟩ := ensureExecutionEvent_ok hensure
  have hfills : hasFills n r.current = true := by simp [hasFills, hfill]
  obtain ⟨hevents, -⟩ := writePhase_events hwrite
  have hinsert : t'.executionEvents = t.executionEvents.insert row := by
    rw [hevents, ht₁]
    rfl
  obtain ⟨-, hrkey, -⟩ := reducedEvent_ok hreduced
  unfold reducedEvent at hreduced
  rw [if_pos hfills] at hreduced
  obtain ⟨payload, hpayload, hreduced⟩ := bind_ok hreduced
  obtain ⟨s, c, average, hs, hc, hpeq⟩ := fillPayload_ok hpayload
  have hrpayload : r.event.payload = payload := by
    rw [← pure_ok hreduced]
  refine ⟨row, s, c, hrow, hinsert, by rw [hevents]; exact hs, by rw [← hcurrent]; exact hc, ?_⟩
  intro hknown
  obtain ⟨status, hstatus⟩ := decision_projects r.event.tsEvent r.current r.target
  rw [hfills] at hhas
  rcases writePhase_cases hwrite with ⟨hd, -⟩ | ⟨_, hd, -⟩ | ⟨status', new, -, hnew, horders', -⟩
  · rw [hhas, hstatus] at hd
    cases hd
  · rw [hhas, hstatus] at hd
    cases hd
  · obtain ⟨hnewkey, -, -, -, filled, hamount, hnewfilled⟩ := proposedRow_ok hnew
    have hdecimal : decimal env.unicode (r.event.payload.get? "filled_qty") = some (.finite c) := by
      rw [hrpayload, hpeq, Dict.get?_set_ne (by decide), Dict.get?_set_self, decimal_finiteStr]
    rw [← hcurrent] at hknown
    obtain ⟨d, hd, hdvalue⟩ := filledParameter_value hdecimal hknown
    rw [hd] at hamount
    have hrank : new.filledQuantity.value.rank = (c.value : WithTop ℚ) := by
      rw [hnewfilled, amountColumn_rank hamount, hdvalue]
    rw [horders', find?_upserted hnewkey, if_pos hrkey.symm, upsertedRow_filled, hrank]
    rw [hrank, hrkey, horders, ← hcurrent]
    exact hknown

/-! ## One call -/

/-- A call for one of the fills keeps track, and where it returns the fill is in
the history. -/
theorem Tracks.step (hset : FillSet env key fills) (hfit : FillsFit env.unicode e fills)
    (h : Tracks env key fills t) (hn : n ∈ fills) (hcall : call.event = n.event) :
    Tracks env key fills ((machine env).next t call) ∧
      (∀ id, t.orderEvents.has id = true → ((machine env).next t call).orderEvents.has id = true) ∧
      ((∃ result, (machine env).answer t call = .ok result) →
        ((machine env).next t call).orderEvents.has n.event.eventId = true) := by
  rcases next_eq env t call with ⟨result, hok, -⟩ | ⟨failure, herror, hsame⟩
  · set t' := (machine env).next t call
    obtain ⟨event, hevent, -, hcases⟩ := applyEvent_ok hok
    have hne : event = n := by
      rw [hcall, hset.normal n hn call.now] at hevent
      cases hevent
      rfl
    subst hne
    rcases hcases with ⟨hseen, -, -, hsame⟩ | ⟨hseen, r, t₁, hread, hwrite⟩
    · rw [hsame]
      exact ⟨h, fun _ hid => hid, fun _ => hseen⟩
    · obtain ⟨row, s, c, hrow, hinsert, hreduce, htotal, hwritten⟩ :=
        fill_applied (hset.fill event hn) (hset.order event hn) hread hwrite
      have hreport : fillReport env.unicode row = eventReport env.unicode event :=
        executionRow_report hrow
      obtain ⟨hid, hacc, hcoid, -, htype, -⟩ := executionRow_ok hrow
      have hmem : ∀ x, x ∈ t'.executionEvents.rows ↔ x ∈ t.executionEvents.rows ∨
          (x = row ∧ row.eventId ∉ t.executionEvents.rows.map ExecutionEvent.eventId) := by
        intro x
        rw [hinsert]
        exact Table.mem_insert
      have hhas : ∀ id, t'.orderEvents.has id = true ↔
          id = event.event.eventId ∨ t.orderEvents.has id = true := by
        obtain ⟨-, -, horderEvents, -, -, -, hreduced, -⟩ := readPhase_ok hread
        rw [← (reducedEvent_ok hreduced).1, ← horderEvents]
        exact (writePhase_events hwrite).2
      have hkept : ∀ x ∈ fillRows env t.executionEvents.rows key,
          x ∈ fillRows env t'.executionEvents.rows key := by
        intro x hx
        obtain ⟨hxt, hx⟩ := mem_fillRows.mp hx
        exact mem_fillRows.mpr ⟨(hmem x).mpr (.inl hxt), hx⟩
      have hnewrows : ∀ x ∈ fillRows env t'.executionEvents.rows key,
          ∃ n ∈ fills, fillReport env.unicode x = eventReport env.unicode n := by
        intro x hx
        obtain ⟨hxt, hx⟩ := mem_fillRows.mp hx
        rcases (hmem x).mp hxt with hold | ⟨rfl, -⟩
        · exact h.rows x (mem_fillRows.mpr ⟨hold, hx⟩)
        · exact ⟨event, hn, hreport⟩
      refine ⟨⟨hnewrows, ?_, ?_, s, hreduce, ?_⟩, fun id hid => (hhas id).mpr (.inr hid),
        fun _ => (hhas _).mpr (.inl rfl)⟩
      · intro n' hn' x hx hxid
        rcases (hmem x).mp hx with hold | ⟨rfl, -⟩
        · obtain ⟨hin, heq⟩ := h.recorded n' hn' x hold hxid
          exact ⟨hkept x hin, heq⟩
        · have hsame : event = n' := hset.ids event hn n' hn' (hid.symm.trans hxid)
          subst hsame
          rw [hset.order event hn] at hacc hcoid
          exact ⟨mem_fillRows.mpr ⟨hx, hacc, hcoid, htype.trans (hset.fill event hn)⟩, hreport⟩
      · intro n' hn' hhas'
        rcases (hhas _).mp hhas' with hnow | hold
        · by_cases hin : row.eventId ∈ t.executionEvents.rows.map ExecutionEvent.eventId
          · obtain ⟨x, hx, hxid⟩ := List.mem_map.mp hin
            exact ⟨x, (hmem x).mpr (.inl hx), by rw [hxid, hid, hnow]⟩
          · exact ⟨row, (hmem row).mpr (.inr ⟨rfl, hin⟩), by rw [hid, hnow]⟩
        · obtain ⟨x, hx, hxid⟩ := h.applied n' hn' hold
          exact ⟨x, (hmem x).mpr (.inl hx), hxid⟩
      · -- the rows tally no less than before, so the quantity is their tally
        have hsub : (fillRows env t'.executionEvents.rows key).map (fillReport env.unicode) ⊆
            fills.map (eventReport env.unicode) := by
          intro x hx
          obtain ⟨y, hy, rfl⟩ := List.mem_map.mp hx
          obtain ⟨n', hn', heq⟩ := hnewrows y hy
          rw [heq]
          exact List.mem_map_of_mem hn'
        have hvalue := hfit.reduced hset hsub hreduce
        obtain ⟨s₀, hreduce₀, hknown₀⟩ := h.reduced
        have hvalue₀ := hfit.reduced hset h.reports_subset hreduce₀
        have hgrows : s₀.total.value ≤ s.total.value := by
          rw [hvalue, hvalue₀]
          refine tally_subset (fun a ha b hb => hset.consistent a (hsub ha) b (hsub hb)) ?_
            (fillReports_sorted env _ key) (fillReports_sorted env _ key)
          exact List.map_subset _ hkept
        have hnonneg : 0 ≤ s.total.value := by
          rw [hvalue]
          exact (Tally.foldl_result le_rfl _).1.trans (le_max_left _ _)
        have hc : c.value = s.total.value := by
          rcases fillTotal_cases hnonneg (t.orders.find? key) with ⟨-, herror⟩ | ⟨c', known, hc', hk, hmax⟩
          · rw [herror] at htotal
            cases htotal
          · rw [hc'] at htotal
            cases htotal
            rw [hknown₀] at hk
            have hk' : s₀.total.value = known := by exact_mod_cast hk
            rw [hmax, ← hk', max_eq_left hgrows]
        rw [← hc]
        refine hwritten ?_
        rw [hknown₀, hc]
        exact_mod_cast hgrows
  · rw [hsame]
    refine ⟨h, fun _ hid => hid, ?_⟩
    rintro ⟨result, hok⟩
    rw [herror] at hok
    cases hok

/-! ## Runs -/

theorem Tracks.run (hset : FillSet env key fills) (hfit : FillsFit env.unicode e fills)
    (h : Tracks env key fills t) (honly : ∀ call ∈ calls, ∃ n ∈ fills, call.event = n.event) :
    Tracks env key fills ((machine env).after t calls) ∧
      ∀ id, t.orderEvents.has id = true → ((machine env).after t calls).orderEvents.has id = true := by
  induction calls generalizing t with
  | nil => exact ⟨h, fun _ hid => hid⟩
  | cons call calls ih =>
    obtain ⟨n, hn, hcall⟩ := honly call (by simp)
    obtain ⟨hnext, hkeep, -⟩ := h.step hset hfit hn hcall
    obtain ⟨hlast, hkeep'⟩ := ih hnext fun c hc => honly c (List.mem_cons_of_mem _ hc)
    exact ⟨hlast, fun id hid => hkeep' id (hkeep id hid)⟩

/-- After a run that applies all fills the rows of the order report all of them. -/
theorem AppliesAll.reports (hset : FillSet env key fills) (hfit : FillsFit env.unicode e fills)
    (hstart : Unfilled env key fills t) (h : AppliesAll env fills t calls) :
    Tracks env key fills ((machine env).after t calls) ∧
      fills.map (eventReport env.unicode) ⊆
        (fillRows env ((machine env).after t calls).executionEvents.rows key).map
          (fillReport env.unicode) := by
  obtain ⟨htracks, -⟩ := hstart.tracks.run hset hfit h.only
  refine ⟨htracks, ?_⟩
  intro r hr
  obtain ⟨n, hn, rfl⟩ := List.mem_map.mp hr
  have hhas : ((machine env).after t calls).orderEvents.has n.event.eventId = true := by
    obtain ⟨before, call, later, result, rfl, hcall, hok⟩ := h.all n hn
    have hbefore := (hstart.tracks.run hset hfit
      (fun c hc => h.only c (List.mem_append_left _ hc))).1
    obtain ⟨hnext, -, hdone⟩ := hbefore.step hset hfit hn hcall
    rw [Machine.after_append, Machine.after_cons]
    refine (hnext.run hset hfit (fun c hc => h.only c ?_)).2 _ (hdone ⟨result, hok⟩)
    exact List.mem_append_right _ (List.mem_cons_of_mem _ hc)
  obtain ⟨row, hrow, hid⟩ := htracks.applied n hn hhas
  obtain ⟨hin, hreport⟩ := htracks.recorded n hn row hrow hid
  rw [← hreport]
  exact List.mem_map_of_mem hin

/-- **The filled quantity does not depend on the order of arrival**: any two runs
that apply the same fills end with what all rows together reduce to. -/
theorem filledQuantity_of_any_order (hset : FillSet env key fills)
    (hfit : FillsFit env.unicode e fills) {t₁ t₂ : Tables} (h₁ : Unfilled env key fills t₁)
    (h₂ : Unfilled env key fills t₂) {calls₁ calls₂ : List Call}
    (hall₁ : AppliesAll env fills t₁ calls₁) (hall₂ : AppliesAll env fills t₂ calls₂) :
    ∃ s, reduceFills env.unicode
        (fillRows env ((machine env).after t₁ calls₁).executionEvents.rows key) = .ok s ∧
      knownFilled (((machine env).after t₁ calls₁).orders.find? key) = (s.total.value : WithTop ℚ) ∧
      knownFilled (((machine env).after t₂ calls₂).orders.find? key) = (s.total.value : WithTop ℚ) := by
  obtain ⟨htracks₁, hrows₁⟩ := hall₁.reports hset hfit h₁
  obtain ⟨htracks₂, hrows₂⟩ := hall₂.reports hset hfit h₂
  obtain ⟨s₁, hs₁, hknown₁⟩ := htracks₁.reduced
  obtain ⟨s₂, hs₂, hknown₂⟩ := htracks₂.reduced
  refine ⟨s₁, hs₁, hknown₁, ?_⟩
  have hsub : ∀ {rs : List (Report Nat FillIdentity ℚ)}, rs ⊆ fills.map (eventReport env.unicode) →
      Consistent rs := fun hrs a ha b hb => hset.consistent a (hrs ha) b (hrs hb)
  have heq : s₂.total.value = s₁.total.value := by
    rw [hfit.reduced hset htracks₁.reports_subset hs₁, hfit.reduced hset htracks₂.reports_subset hs₂]
    refine le_antisymm ?_ ?_
    · exact tally_subset (hsub htracks₁.reports_subset) (List.Subset.trans htracks₂.reports_subset hrows₁)
        (fillReports_sorted env _ key) (fillReports_sorted env _ key)
    · exact tally_subset (hsub htracks₂.reports_subset) (List.Subset.trans htracks₁.reports_subset hrows₂)
        (fillReports_sorted env _ key) (fillReports_sorted env _ key)
  rw [hknown₂, heq]

end

/-! ## Two fills -/

/-- A fill with one quantity, some seconds after noon. -/
def oneFill (eventId : String) (second : Nat) (h : second < 60) (field text : String) : Normalized where
  event := {
    eventId, accountId := "acct", clientOrderId := some "coid", eventType := "OrderFilled",
    tsEvent := .datetime (noon second h) none,
    payload := some (Dict.empty.set field (.str text)) }
  key := ⟨"acct", "coid"⟩
  tsEvent := (noon second h).toMicros
  payload := Dict.empty.set field (.str text)
where
  noon (second : Nat) (h : second < 60) : DateTime :=
    ⟨2026, 6, 21, 12, 0, second, 0, by refine ⟨?_, ?_, ?_, ?_, ?_, ?_, ?_, ?_, h, ?_⟩ <;> decide⟩

/-- A cumulative quantity, and a second later a delta of one. -/
def anchorThenDelta (cumulative : String) : List Normalized :=
  [oneFill "e1" 1 (by omega) "filled_qty" cumulative, oneFill "e2" 2 (by omega) "last_qty" "1"]

def callFor (n : Normalized) : Call :=
  { event := n.event, now := oneFill.noon 59 (by omega), draws := ⟨"row", "run", "finding"⟩ }

variable (cumulative : String)

theorem anchorThenDelta_fillSet :
    FillSet Env.plain ⟨"acct", "coid"⟩ (anchorThenDelta cumulative) := by
  have hmem : ∀ n ∈ anchorThenDelta cumulative, n = oneFill "e1" 1 (by omega) "filled_qty" cumulative ∨
      n = oneFill "e2" 2 (by omega) "last_qty" "1" := by simp [anchorThenDelta]
  refine ⟨?_, ?_, ?_, ?_, ?_⟩
  · intro n hn now
    have hacc : canonicalAccountId "acct" = .ok "acct" := by decide +kernel
    rcases hmem n hn with rfl | rfl
    · unfold normalizeEvent
      rw [show (oneFill "e1" 1 (by omega) "filled_qty" cumulative).event.accountId = "acct" from rfl,
        hacc]
      rfl
    · unfold normalizeEvent
      rw [show (oneFill "e2" 2 (by omega) "last_qty" "1").event.accountId = "acct" from rfl, hacc]
      rfl
  · intro n hn
    rcases hmem n hn with rfl | rfl <;> rfl
  · intro n hn
    rcases hmem n hn with rfl | rfl <;> rfl
  · intro n hn n' hn' hid
    rcases hmem n hn with rfl | rfl
    · rcases hmem n' hn' with rfl | rfl
      · rfl
      · exact absurd hid (show ("e1" : String) ≠ "e2" by decide)
    · rcases hmem n' hn' with rfl | rfl
      · exact absurd hid (show ("e2" : String) ≠ "e1" by decide)
      · rfl
  · intro n hn n' hn' id hid
    rcases hmem n hn with rfl | rfl <;> cases hid

theorem empty_unfilled :
    Unfilled Env.plain ⟨"acct", "coid"⟩ (anchorThenDelta cumulative) Tables.empty :=
  ⟨rfl, fun _ _ => ⟨by simp [Tables.empty, Table.empty], rfl⟩, rfl⟩

/-- The calls for the two fills in the given order, all of which return. -/
theorem appliesAll_of_returns {fills : List Normalized} {t : Tables} {calls : List Call}
    (honly : ∀ call ∈ calls, ∃ n ∈ fills, call.event = n.event)
    (hall : ∀ n ∈ fills, ∃ call ∈ calls, call.event = n.event)
    (hok : (machine Env.plain).Meets (fun s c => ((machine Env.plain).answer s c).isOk = true) t calls) :
    AppliesAll Env.plain fills t calls := by
  refine ⟨honly, fun n hn => ?_⟩
  obtain ⟨call, hcall, hevent⟩ := hall n hn
  obtain ⟨before, later, rfl⟩ := List.append_of_mem hcall
  have hreturn : ((machine Env.plain).answer ((machine Env.plain).after t before) call).isOk = true :=
    (Machine.meets_append.mp hok).2.1
  cases hanswer : (machine Env.plain).answer ((machine Env.plain).after t before) call with
  | error failure => rw [hanswer] at hreturn; cases hreturn
  | ok result => exact ⟨before, call, later, result, rfl, hevent, hanswer⟩

/-- The anchor first. -/
def inOrder (cumulative : String) : List Call := (anchorThenDelta cumulative).map callFor

/-- The delta first, and once more at the end. -/
def outOfOrder (cumulative : String) : List Call :=
  (anchorThenDelta cumulative).reverse.map callFor ++
    [callFor (oneFill "e2" 2 (by omega) "last_qty" "1")]

theorem calls_only {cumulative : String} {call : Call}
    (h : call ∈ inOrder cumulative ∨ call ∈ outOfOrder cumulative) :
    ∃ n ∈ anchorThenDelta cumulative, call.event = n.event := by
  have hcall : call = callFor (oneFill "e1" 1 (by omega) "filled_qty" cumulative) ∨
      call = callFor (oneFill "e2" 2 (by omega) "last_qty" "1") := by
    simp [inOrder, outOfOrder, anchorThenDelta] at h
    tauto
  rcases hcall with rfl | rfl
  · exact ⟨_, List.mem_cons_self, rfl⟩
  · exact ⟨_, List.mem_cons_of_mem _ List.mem_cons_self, rfl⟩

theorem calls_all {cumulative : String} {n : Normalized} (h : n ∈ anchorThenDelta cumulative) :
    (∃ call ∈ inOrder cumulative, call.event = n.event) ∧
      ∃ call ∈ outOfOrder cumulative, call.event = n.event :=
  ⟨⟨callFor n, List.mem_map_of_mem h, rfl⟩,
    ⟨callFor n, List.mem_append_left _ (List.mem_map_of_mem (List.mem_reverse.mpr h)), rfl⟩⟩

theorem appliesAll_inOrder
    (hok : (machine Env.plain).Meets (fun s c => ((machine Env.plain).answer s c).isOk = true)
      Tables.empty (inOrder cumulative)) :
    AppliesAll Env.plain (anchorThenDelta cumulative) Tables.empty (inOrder cumulative) :=
  appliesAll_of_returns (fun _ h => calls_only (.inl h)) (fun _ h => (calls_all h).1) hok

theorem appliesAll_outOfOrder
    (hok : (machine Env.plain).Meets (fun s c => ((machine Env.plain).answer s c).isOk = true)
      Tables.empty (outOfOrder cumulative)) :
    AppliesAll Env.plain (anchorThenDelta cumulative) Tables.empty (outOfOrder cumulative) :=
  appliesAll_of_returns (fun _ h => calls_only (.inr h)) (fun _ h => (calls_all h).2) hok

/-- What an order's row holds as filled. -/
def filledOf (t : Tables) : Option Numeric :=
  (t.orders.find? ⟨"acct", "coid"⟩).map fun row => row.filledQuantity.value

theorem twoThenOne_fit : FillsFit Env.plain.unicode 0 (anchorThenDelta "2") := by
  have h1 : (eventReport Env.plain.unicode (oneFill "e1" 1 (by omega) "filled_qty" "2")).anchor = 2 ∧
      (eventReport Env.plain.unicode (oneFill "e1" 1 (by omega) "filled_qty" "2")).delta = 0 := by
    have hn : fillNumbers Env.plain.unicode (storedRow (oneFill "e1" 1 (by omega) "filled_qty" "2")) =
        .ok ⟨some ⟨false, 2, 0, by decide⟩, none, none, none⟩ := rfl
    unfold eventReport fillReport
    rw [rowNumbers_eq hn]
    simp [reportOf, amount, FiniteDecimal.value, FiniteDecimal.signed]
  have h2 : (eventReport Env.plain.unicode (oneFill "e2" 2 (by omega) "last_qty" "1")).anchor = 0 ∧
      (eventReport Env.plain.unicode (oneFill "e2" 2 (by omega) "last_qty" "1")).delta = 1 := by
    have hn : fillNumbers Env.plain.unicode (storedRow (oneFill "e2" 2 (by omega) "last_qty" "1")) =
        .ok ⟨none, some ⟨false, 1, 0, by decide⟩, none, none⟩ := rfl
    unfold eventReport fillReport
    rw [rowNumbers_eq hn]
    simp [reportOf, amount, FiniteDecimal.value, FiniteDecimal.signed]
  have hadded : added (fun _ => true) ∅
      ((anchorThenDelta "2").map (eventReport Env.plain.unicode)) ≤ 1 := by
    simp only [anchorThenDelta, List.map_cons, List.map_nil, added, h1.2, h2.2]
    split_ifs <;> norm_num
  have hlimit : (10 : ℚ) < limit 0 := by norm_num [limit, prec]
  have hmem : ∀ n ∈ anchorThenDelta "2", n = oneFill "e1" 1 (by omega) "filled_qty" "2" ∨
      n = oneFill "e2" 2 (by omega) "last_qty" "1" := by simp [anchorThenDelta]
  refine ⟨⟨by decide, by decide⟩, ?_, by linarith, ?_⟩
  · intro n hn
    rcases hmem n hn with rfl | rfl
    · exact ⟨⟨2, by rw [h1.1]; norm_num⟩, ⟨0, by rw [h1.2]; norm_num⟩⟩
    · exact ⟨⟨0, by rw [h2.1]; norm_num⟩, ⟨1, by rw [h2.2]; norm_num⟩⟩
  · intro n hn
    rcases hmem n hn with rfl | rfl
    · rw [h1.1]; linarith
    · rw [h2.1]; linarith

theorem filledQuantity_of_two_then_one :
    ∃ s, reduceFills Env.plain.unicode (fillRows Env.plain
        ((machine Env.plain).after Tables.empty (inOrder "2")).executionEvents.rows ⟨"acct", "coid"⟩) =
          .ok s ∧
      knownFilled (((machine Env.plain).after Tables.empty (inOrder "2")).orders.find?
        ⟨"acct", "coid"⟩) = (s.total.value : WithTop ℚ) ∧
      knownFilled (((machine Env.plain).after Tables.empty (outOfOrder "2")).orders.find?
        ⟨"acct", "coid"⟩) = (s.total.value : WithTop ℚ) :=
  filledQuantity_of_any_order (anchorThenDelta_fillSet "2") twoThenOne_fit (empty_unfilled "2")
    (empty_unfilled "2") (appliesAll_inOrder "2" (by decide +kernel))
    (appliesAll_outOfOrder "2" (by decide +kernel))

/-- A cumulative quantity of 29 digits: adding to it rounds it away, so the delta
before it leaves less than the delta after it. -/
theorem filledQuantity_depends_on_order :
    FillSet Env.plain ⟨"acct", "coid"⟩ (anchorThenDelta "10000000000000000000000000001") ∧
      AppliesAll Env.plain (anchorThenDelta "10000000000000000000000000001") Tables.empty
        (inOrder "10000000000000000000000000001") ∧
      AppliesAll Env.plain (anchorThenDelta "10000000000000000000000000001") Tables.empty
        (outOfOrder "10000000000000000000000000001") ∧
      filledOf ((machine Env.plain).after Tables.empty (inOrder "10000000000000000000000000001")) =
        Numeric.mk? 10000000000000000000000000001 0 ∧
      filledOf ((machine Env.plain).after Tables.empty (outOfOrder "10000000000000000000000000001")) =
        Numeric.mk? 10000000000000000000000000000 0 ∧
      filledOf ((machine Env.plain).after Tables.empty (inOrder "10000000000000000000000000001")) ≠
        filledOf ((machine Env.plain).after Tables.empty
          (outOfOrder "10000000000000000000000000001")) := by
  have hin : filledOf ((machine Env.plain).after Tables.empty
      (inOrder "10000000000000000000000000001")) =
      Numeric.mk? 10000000000000000000000000001 0 := by decide +kernel
  have hout : filledOf ((machine Env.plain).after Tables.empty
      (outOfOrder "10000000000000000000000000001")) =
      Numeric.mk? 10000000000000000000000000000 0 := by decide +kernel
  refine ⟨anchorThenDelta_fillSet _, appliesAll_inOrder _ (by decide +kernel),
    appliesAll_outOfOrder _ (by decide +kernel), hin, hout, ?_⟩
  rw [hin, hout]
  decide +kernel

end TraderBot.Orders
