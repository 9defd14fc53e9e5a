import TraderBot.Lib.Transactions
import TraderBot.Orders.FullFill

/-! # First events at the same time

Two calls for one order that has no row yet. Each records its event and reads
the row, which locks nothing as there is none, and later upserts and commits.
When the upsert of each finds the row it has read, the outcome is that of the
two calls one after the other. When both have read an order without a row, the
second upsert writes over what it has not seen. -/
namespace TraderBot.Orders
open TraderBot.Lib TraderBot.Lib.Text TraderBot.Lib.Json

/-! ## A call in two phases -/

/-- What the first phase of a call comes to: a duplicate, or the event's row and
what was read beside it. -/
inductive Begun where
  | duplicate (result : OrderApplyResult)
  | reading (row : ExecutionEvent) (r : Reading)

def beginCall (env : Env) (call : Call) (t : Tables) : Except Failure Begun := do
  let event ← normalizeEvent env call.now call.event
  if call.refused then .error .database
  else if t.orderEvents.has event.event.eventId then
    let status := (t.orders.find? event.key).map OrderRow.status
    return .duplicate
      { eventId := event.event.eventId, status, applied := false, duplicate := true }
  else
    let row ← executionRow call.now event
    let (r, _) ← readPhase env call.now event t
    return .reading row r

/-- The second phase, on the tables as they are by then: the transaction sees
its own event. -/
def finishCall (env : Env) (call : Call) (begun : Begun) (t : Tables) :
    Except Failure (OrderApplyResult × Tables) :=
  match begun with
  | .duplicate result => .ok (result, t)
  | .reading row r => writePhase env call.draws r (t.record row)

/-- A call is its two phases on the same tables. -/
theorem applyEvent_eq (env : Env) (call : Call) (t : Tables) :
    applyEvent env call t = (beginCall env call t).bind fun begun => finishCall env call begun t := by
  unfold applyEvent beginCall
  cases hevent : normalizeEvent env call.now call.event with
  | error failure => rfl
  | ok event =>
    simp only [bind, Except.bind]
    cases hrefused : call.refused with
    | true => rfl
    | false =>
      simp only [Bool.false_eq_true, if_false]
      cases hseen : t.orderEvents.has event.event.eventId with
      | true => rfl
      | false =>
        simp only [Bool.false_eq_true, if_false]
        cases hread : readPhase env call.now event t with
        | error failure =>
          cases hrow : executionRow call.now event with
          | error failure' =>
            have hread' : readPhase env call.now event t = .error failure' := by
              simp only [readPhase, ensureExecutionEvent, hrow, bind, Except.bind]
            rw [hread] at hread'
            cases hread'
            rfl
          | ok row => rfl
        | ok p =>
          obtain ⟨r, t₁⟩ := p
          obtain ⟨hensure, -⟩ := readPhase_ok hread
          obtain ⟨row, hrow, rfl⟩ := ensureExecutionEvent_ok hensure
          rw [hrow]
          rfl

/-! ## Two transactions -/

/-- A transaction waits for another one that has read the order's row, which
locks it, or that has inserted the same event. -/
def blocked (env : Env) (calls : Bool → Call) (t : Tables)
    (progress : Bool → Progress (ExecutionEvent × Reading)) (i : Bool) : Bool :=
  match progress i, progress (!i), normalizeEvent env (calls i).now (calls i).event with
  | .waiting, .reading (row, r), .ok event =>
    !t.orderEvents.has event.event.eventId &&
      (row.eventId == event.event.eventId || (r.current.isSome && r.event.key == event.key))
  | _, _, _ => false

/-- Two calls as transactions; one that raises is rolled back. -/
def transactions (env : Env) (calls : Bool → Call) :
    Transactions Bool Tables (ExecutionEvent × Reading) where
  start i t :=
    match beginCall env (calls i) t with
    | .ok (.reading row r) => some (row, r)
    | _ => none
  finish i read t :=
    match finishCall env (calls i) (.reading read.1 read.2) t with
    | .ok (_, t') => t'
    | .error _ => t
  blocked := blocked env calls

/-- One transaction on its own is one step of the reducer. -/
theorem serial_eq_next (env : Env) (calls : Bool → Call) (t : Tables) (i : Bool) :
    (transactions env calls).serial t i = (machine env).next t (calls i) := by
  unfold Transactions.serial Machine.next machine transactions
  dsimp only
  rw [applyEvent_eq]
  cases beginCall env (calls i) t with
  | error failure => rfl
  | ok begun =>
    cases begun with
    | duplicate result => rfl
    | reading row r =>
      dsimp only [Except.bind]
      cases finishCall env (calls i) (.reading row r) t with
      | error failure => rfl
      | ok p => rfl

/-- What the two calls leave of an order. -/
def outcome (key : OrderKey) (t : Tables) : Option (OrderStatus × Amount) :=
  (t.orders.find? key).map fun row => (row.status, row.filledQuantity)

abbrev Interleaving := Transactions.State Bool Tables (ExecutionEvent × Reading)

/-- Once both have committed, the order is as after one of the serial runs. -/
def Serializable (env : Env) (calls : Bool → Call) (key : OrderKey) (t : Tables)
    (s : Interleaving) : Prop :=
  (∀ i, s.progress i = .finished) →
    ∃ i, outcome key s.store = outcome key ((machine env).after t [calls i, calls !i])

/-- The upsert of a transaction finds the row that the transaction has read. -/
def FindsWhatItRead (key : OrderKey) (s : Interleaving) (i : Bool) : Prop :=
  ∀ row r, s.progress i = .reading (row, r) → s.store.orders.find? key = r.current

/-- `FindsWhatItRead`, computed. -/
def findsWhatItRead? (key : OrderKey) (s : Interleaving) (i : Bool) : Bool :=
  match s.progress i with
  | .reading p => decide (s.store.orders.find? key = p.2.current)
  | .waiting | .finished => true

instance (key : OrderKey) (s : Interleaving) (i : Bool) : Decidable (FindsWhatItRead key s i) :=
  decidable_of_iff (findsWhatItRead? key s i = true) (by
    unfold findsWhatItRead? FindsWhatItRead
    cases s.progress i with
    | reading p =>
      obtain ⟨row, r⟩ := p
      simp
    | waiting => simp
    | finished => simp)

section Serial
variable {env : Env} {key : OrderKey} {calls : Bool → Call} {t : Tables} {call : Call}

/-- A call for the order; one that cannot be read is for none. -/
def IsFor (env : Env) (key : OrderKey) (call : Call) : Prop :=
  ∀ event, normalizeEvent env call.now call.event = .ok event → event.key = key

/-- A call that leaves the order without a row has done nothing. -/
theorem next_eq_self (hfor : IsFor env key call) (hnone : t.orders.find? key = none)
    (hstill : ((machine env).next t call).orders.find? key = none) : (machine env).next t call = t := by
  rcases next_eq env t call with ⟨result, hok, -⟩ | ⟨failure, -, hnext⟩
  · obtain ⟨event, hevent, -, hcase⟩ := applyEvent_ok hok
    have hkey := hfor event hevent
    rcases hcase with ⟨-, -, -, hsame⟩ | ⟨-, r, t₁, hr, hw⟩
    · exact hsame
    · obtain ⟨-, -, -, -, hcurrent, -, hreduced, -⟩ := readPhase_ok hr
      rw [hkey, hnone] at hcurrent
      obtain ⟨-, hkey', -⟩ := reducedEvent_ok hreduced
      rw [hkey] at hkey'
      rcases writePhase_cases hw with ⟨hd, -⟩ | ⟨row, -, hrow, -⟩ | ⟨status, new, -, hnew, ho, -⟩
      · obtain ⟨row, hrow, -⟩ := decision_backfill hd
        rw [hcurrent] at hrow
        cases hrow
      · rw [hcurrent] at hrow
        cases hrow
      · obtain ⟨hnewKey, -⟩ := proposedRow_ok hnew
        rw [ho, find?_upserted hnewKey, if_pos hkey'.symm] at hstill
        cases hstill
  · exact hnext

theorem beginCall_current {row : ExecutionEvent} {r : Reading} (hfor : IsFor env key call)
    (h : beginCall env call t = .ok (.reading row r)) : r.current = t.orders.find? key := by
  unfold beginCall at h
  obtain ⟨event, hevent, h⟩ := bind_ok h
  split_ifs at h with h1 h2
  · cases pure_ok h
  · obtain ⟨row', -, h⟩ := bind_ok h
    obtain ⟨⟨r', t₁⟩, hr, h⟩ := bind_ok h
    cases pure_ok h
    obtain ⟨-, -, -, -, hcurrent, -⟩ := readPhase_ok hr
    rw [hcurrent, hfor event hevent]

/-- Of two transactions, the one that has not committed is after none or after
the other. -/
theorem commits_of_not_mem {commits : List Bool} {i : Bool} (hnodup : commits.Nodup)
    (hi : i ∉ commits) : commits = [] ∨ commits = [!i] := by
  cases commits with
  | nil => exact .inl rfl
  | cons a rest =>
    have ha : a = !i := by
      cases a <;> cases i <;> simp_all
    have hrest : rest = [] := by
      rw [List.nodup_cons] at hnodup
      refine List.eq_nil_iff_forall_not_mem.mpr fun b hb => ?_
      have hbi : b ≠ i := fun h => hi (List.mem_cons_of_mem _ (h ▸ hb))
      have hba : b ≠ a := fun h => hnodup.1 (h ▸ hb)
      subst ha
      cases b <;> cases i <;> simp_all
    rw [ha, hrest]
    exact .inr rfl

/-- Finding what it read, a transaction writes what it would write reading now. -/
theorem fresh_of_findsWhatItRead (hfor : ∀ i, IsFor env key (calls i))
    (hnone : t.orders.find? key = none) {s : Interleaving} {i : Bool}
    (hs : (transactions env calls).IsSerial t s) (hfinds : FindsWhatItRead key s i) :
    (transactions env calls).Fresh s i := by
  intro r hr
  have hfresh : ∀ {store}, (transactions env calls).start i store = some r → s.store = store →
      (transactions env calls).finish i r s.store = (transactions env calls).serial s.store i := by
    intro store hstart hstore
    rw [Transactions.serial, hstore, hstart]
  obtain ⟨before, hbefore, hstart⟩ := hs.read i r hr
  have hnot : i ∉ s.commits := by
    rw [hs.committed, hr]
    intro hdone
    cases hdone
  by_cases hall : before = s.commits
  · exact hfresh hstart (by rw [hs.store, hall])
  · -- read before the other committed: finding no row now, the other has left none
    have hc : s.commits = [!i] := by
      refine (commits_of_not_mem hs.nodup hnot).resolve_left fun hc => hall ?_
      rw [hc, List.prefix_nil] at hbefore
      rw [hbefore, hc]
    have hb : before = [] := by
      rw [hc] at hbefore hall
      rcases List.prefix_cons_iff.mp hbefore with hb | ⟨rest, hb, hrest⟩
      · exact hb
      · rw [List.prefix_nil] at hrest
        exact absurd (by rw [hb, hrest]) hall
    subst hb
    have hstore : s.store = (machine env).next t (calls !i) := by
      rw [hs.store, hc, List.foldl_cons, List.foldl_nil, serial_eq_next]
    have hcurrent : r.2.current = none := by
      unfold transactions at hstart
      dsimp only at hstart
      split at hstart
      · rename_i row reading hbegin
        cases hstart
        rw [beginCall_current (hfor i) hbegin, List.foldl_nil, hnone]
      · cases hstart
    have hstill := hfinds r.1 r.2 hr
    rw [hcurrent, hstore] at hstill
    exact hfresh hstart (by rw [hstore, next_eq_self (hfor !i) hnone hstill, List.foldl_nil])

end Serial

/-- **Two first calls whose upserts find what they read are serial**: in every
interleaving, once both have committed the order is as after one of the serial
runs. -/
theorem serializable_of_findsWhatItRead (env : Env) (key : OrderKey) (calls : Bool → Call)
    (t : Tables) (schedule : List Bool) (hfor : ∀ i, IsFor env key (calls i))
    (hnone : t.orders.find? key = none)
    (hfinds : (transactions env calls).machine.Meets (FindsWhatItRead key)
      (Transactions.init t) schedule) :
    Serializable env calls key t
      ((transactions env calls).machine.after (Transactions.init t) schedule) := by
  intro hall
  have hserial := Transactions.isSerial_of_meets
    (fun s i hs => fresh_of_findsWhatItRead hfor hnone hs) hfinds
  generalize (transactions env calls).machine.after (Transactions.init t) schedule = s at hall hserial
  have hmem : ∀ i, i ∈ s.commits := fun i => (hserial.committed i).mpr (hall i)
  have hstore := hserial.store
  cases hc : s.commits with
  | nil =>
    have hm := hmem true
    rw [hc] at hm
    cases hm
  | cons i rest =>
    have hnodup := hserial.nodup
    rw [hc, List.nodup_cons] at hnodup
    have hrest : rest = [!i] := by
      refine (commits_of_not_mem hnodup.2 hnodup.1).resolve_left fun hnil => ?_
      have hm := hmem !i
      rw [hc, hnil] at hm
      simp at hm
    rw [hc, hrest, List.foldl_cons, List.foldl_cons, List.foldl_nil, serial_eq_next,
      serial_eq_next] at hstore
    exact ⟨i, by rw [hstore]; rfl⟩

/-! ## Sample runs -/

def firstFill : Call :=
  sampleCall "e1" "OrderFilled" 1 one_lt_sixty (some "t1")
    [("quantity", .str "1"), ("last_qty", .str "1")]

def firstAccept : Call :=
  sampleCall "e2" "OrderAccepted" 2 two_lt_sixty none [("quantity", .str "1")]

/-- Half of an order, by one of two trades. -/
def halfFill (i : Bool) : Call :=
  if i then sampleCall "e2" "OrderFilled" 2 two_lt_sixty (some "t2") [("last_qty", .str "0.5")]
  else sampleCall "e1" "OrderFilled" 1 one_lt_sixty (some "t1") [("last_qty", .str "0.5")]

def fillAndAccept (i : Bool) : Call := if i then firstAccept else firstFill

theorem isFor_sample {call : Call}
    (h : (normalizeEvent Env.plain call.now call.event).map Normalized.key = .ok sampleKey) :
    IsFor Env.plain sampleKey call := by
  intro event hevent
  rw [hevent] at h
  exact Except.ok.inj h

/-- Both calls have read an order without a row. -/
theorem not_serializable {calls : Bool → Call} {schedule : List Bool}
    (hfinished : (∀ i, (((transactions Env.plain calls).machine.after
      (Transactions.init Tables.empty) schedule).progress i).isFinished = true))
    (hne : ∀ i, outcome sampleKey ((transactions Env.plain calls).machine.after
        (Transactions.init Tables.empty) schedule).store ≠
      outcome sampleKey ((machine Env.plain).after Tables.empty [calls i, calls !i])) :
    ¬ Serializable Env.plain calls sampleKey Tables.empty
      ((transactions Env.plain calls).machine.after (Transactions.init Tables.empty) schedule) := by
  intro h
  obtain ⟨i, hi⟩ := h fun i => Progress.eq_finished (hfinished i)
  exact hne i hi

/-- A terminal status is written over, and of two half fills one is lost. -/
theorem not_serializable_first_events :
    ¬ Serializable Env.plain fillAndAccept sampleKey Tables.empty
        ((transactions Env.plain fillAndAccept).machine.after (Transactions.init Tables.empty)
          [false, true, false, true]) ∧
      ¬ Serializable Env.plain halfFill sampleKey Tables.empty
        ((transactions Env.plain halfFill).machine.after (Transactions.init Tables.empty)
          [false, true, false, true]) := by
  constructor
  · exact not_serializable (by decide +kernel) (by decide +kernel)
  · exact not_serializable (by decide +kernel) (by decide +kernel)

/-- `FindsWhatItRead` of a run that starts one call after the other has committed. -/
theorem serializable_one_after_the_other :
    Serializable Env.plain fillAndAccept sampleKey Tables.empty
      ((transactions Env.plain fillAndAccept).machine.after (Transactions.init Tables.empty)
        [false, false, true, true]) := by
  refine serializable_of_findsWhatItRead Env.plain sampleKey fillAndAccept Tables.empty
    [false, false, true, true] ?_ (by decide +kernel) ?_
  · intro i
    apply isFor_sample
    revert i
    decide +kernel
  · decide +kernel

end TraderBot.Orders
