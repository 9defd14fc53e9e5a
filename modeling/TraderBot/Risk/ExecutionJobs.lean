import TraderBot.Risk.Budget

/-! # Reservations of execution jobs

`create_execution_job_for_approved_intent` also writes a held reservation, from
what the intent's payload says, without a look at the budget. In a sequence of
such calls and `reserve_risk` calls the open risk stays within the budget if and
only if each new reservation of a job happens to have room
(`withinBudget_throughout_iff`).

The intent's row, the drawn id and whether the database refuses the job come with
a call; the job's own row and the outbox are left out, they are not read here. -/
namespace TraderBot.Risk
open TraderBot.Lib TraderBot.Lib.Text TraderBot.Lib.Json TraderBot.Lib.Decimal

/-! ## Arithmetic with what is not finite -/

/-- A signaling NaN raises wherever it is used. -/
def isSignaling : Decimal → Bool
  | .nan _ signaling _ => signaling
  | .finite _ | .infinity _ => false

def isNegativeSign : Decimal → Bool
  | .finite d => d.negative
  | .infinity negative => negative
  | .nan negative _ _ => negative

/-- `a * b`. -/
def times (a b : Decimal) : Option Decimal :=
  if isSignaling a || isSignaling b then none
  else
    match a, b with
    | .nan n s p, _ => some (.nan n s p)
    | _, .nan n s p => some (.nan n s p)
    | .infinity n, b => if b.truthy then some (.infinity (n != isNegativeSign b)) else none
    | a, .infinity n => if a.truthy then some (.infinity (isNegativeSign a != n)) else none
    | .finite a, .finite b => (Decimal.mul a b).map .finite

/-- `a / b` of a positive `b`. -/
def dividedBy (a b : Decimal) : Option Decimal :=
  if isSignaling a || isSignaling b then none
  else
    match a, b with
    | .nan n s p, _ => some (.nan n s p)
    | _, .nan n s p => some (.nan n s p)
    | .infinity _, .infinity _ => none
    | .infinity n, .finite b => some (.infinity (n != b.negative))
    | .finite a, .infinity n => (FiniteDecimal.mk? (a.negative != n) 0 etiny).map .finite
    | .finite a, .finite b => (Decimal.div a b).map .finite

/-- `_fmt`, read by the database: rounded to the context and without zeros at the
end. -/
def formatted : Decimal → Option Decimal
  | .finite d =>
    if d.coeff = 0 then some (.finite .zero)
    else do
      let r ← Decimal.fix d.negative d.coeff d.exponent
      let (coeff, exponent) := dropZeros (width r.coeff) r.coeff r.exponent
      (FiniteDecimal.mk? r.negative coeff exponent).map .finite
  | .infinity n => some (.infinity n)
  | .nan n signaling p => if signaling then none else some (.nan n signaling p)

/-! ## The reservation of an intent -/

/-- `_decimal`: what is no number counts as zero. -/
def decimalOrZero (unicode : Unicode) (v : Value) : Decimal :=
  (Decimal.ofValue unicode v).getD (.finite .zero)

structure ReservationPayload where
  notional : Decimal
  riskAmount : Decimal
  marginAmount : Decimal

/-- `_reservation_payload`; `none` raises. -/
def reservationPayload (unicode : Unicode) (riskBudget orderPlan : Dict Value) :
    Option ReservationPayload := do
  let maxNotional := decimalOrZero unicode ((orElse (riskBudget.get? "notional")
    (orElse (riskBudget.get? "max_notional") (orElse (orderPlan.get? "notional") none))).getD (.str "0"))
  let riskFraction := decimalOrZero unicode ((orElse (riskBudget.get? "risk_fraction") none).getD (.str "0"))
  let riskAmount ←
    match orElse (riskBudget.get? "risk_amount") (orElse (riskBudget.get? "max_risk") none) with
    | some v => some (decimalOrZero unicode v)
    | none => times maxNotional riskFraction
  let leverage := decimalOrZero unicode ((orElse (riskBudget.get? "max_leverage") none).getD (.str "0"))
  let unlevered ← Decimal.le? leverage (.finite .zero)
  let margin ← if unlevered then some (.finite .zero) else dividedBy maxNotional leverage
  return {
    notional := ← formatted maxNotional
    riskAmount := ← formatted riskAmount
    marginAmount := ← formatted margin }

/-- What the hashes are. -/
structure Hashes where
  unicode : Unicode
  sha256 : String → String
  jobId : String → String

structure Intent where
  intentId : String
  accountId : String
  instrumentId : String
  action : String
  status : String
  orderPlan : Dict Value
  riskBudget : Dict Value

/-- `execution_job_key`. -/
def executionJobKey (h : Hashes) (intent : Intent) : String :=
  h.sha256 ("execution_job|" ++ intent.intentId ++ "|" ++ intent.action ++ "|" ++ intent.instrumentId ++
    "|" ++ intent.accountId)

/-- A column under `CHECK (column >= 0)`, from the text of a number. Infinity is
kept where NaN is, above every number; the database reads no sign or digits on NaN. -/
def amountOfText : Decimal → Option Amount
  | .finite d => amountOf (.finite d)
  | .infinity negative => if negative then none else Amount.ofNumeric? .nan
  | .nan negative _ payload => if negative || payload ≠ 0 then none else Amount.ofNumeric? .nan

/-- A call for an intent, with its row as the call finds it. -/
structure JobCall where
  intent : Option Intent
  reserve : Bool
  reservationId : String
  refused : Bool

/-- The row `_ensure_risk_reservation` proposes; `none` raises. -/
def JobCall.row? (h : Hashes) (c : JobCall) : Option Reservation := do
  let intent ← c.intent
  if intent.status ≠ "approved" ∨ c.refused = true then none
  else
    let payload ← reservationPayload h.unicode intent.riskBudget intent.orderPlan
    return {
      id := c.reservationId
      executionJobId := some (h.jobId (executionJobKey h intent))
      accountId := intent.accountId
      venueSymbol := intent.instrumentId
      idempotencyKey := h.sha256 (executionJobKey h intent ++ "|risk")
      status := .held
      notional := ← amountOfText payload.notional
      riskAmount := ← amountOfText payload.riskAmount
      marginAmount := ← amountOfText payload.marginAmount
      expiresAt := none }

local instance lawfulKeys : LawfulBEq (String × String) := inferInstance

/-- `INSERT ... ON CONFLICT (account_id, idempotency_key) DO UPDATE`. -/
def Reservations.ensure (t : Reservations) (row : Reservation) : Reservations :=
  if row.key ∈ t.rows.map Reservation.key then
    t.update (fun r => decide (r.key = row.key))
      (fun r => { r with executionJobId := r.executionJobId.or row.executionJobId })
      (fun _ => rfl) fun _ => rfl
  else t.insert row

/-- `create_execution_job_for_approved_intent`, as far as reservations go. A call
that raises is rolled back. -/
def createExecutionJob (h : Hashes) (c : JobCall) (t : Reservations) : Reservations :=
  match c.row? h with
  | none => t
  | some row => if c.reserve then t.ensure row else t

/-! ## Sequences of calls -/

inductive RiskCall where
  | reserveRisk (request : ReservationRequest)
  | createJob (call : JobCall)

/-- `reserve_risk` on its own: its transaction with no other one. -/
def reserveRisk (settings : Settings) (q : ReservationRequest) (t : Reservations) : Reservations :=
  ((code settings fun _ : Unit => Request.reserve q).machine.after
    ((code settings fun _ : Unit => Request.reserve q).init t) (List.replicate 7 (.run ()))).store

def calls (settings : Settings) (h : Hashes) : Machine Reservations RiskCall Unit where
  step t
    | .reserveRisk q => ((), reserveRisk settings q t)
    | .createJob c => ((), createExecutionJob h c t)

/-- The row a call for an intent adds, if it adds one. -/
def addedRow (h : Hashes) (c : JobCall) (t : Reservations) : Option Reservation :=
  (c.row? h).filter fun row => c.reserve && !t.conflicts row

/-- `equity * max_total_open_risk_pct`. -/
def maxTotalOpenRisk (settings : Settings) (a : String) : ℚ :=
  (settings.equity a).value * settings.maxTotalOpenRiskPct.value

/-- A new reservation of a job on the account has room in the budget. -/
def HasRoom (settings : Settings) (h : Hashes) (a : String) (t : Reservations) : RiskCall → Prop
  | .reserveRisk _ => True
  | .createJob c => ∀ row, addedRow h c t = some row → row.accountId = a →
    openRisk a t + row.riskAmount.value.rank ≤ maxTotalOpenRisk settings a

/-- What the decimal context asks of the calls on the account: amounts in whole
units of a place. -/
structure FittingCalls (settings : Settings) (h : Hashes) (a : String) (e : Int) (history : List RiskCall) :
    Prop where
  place : InContext e
  budget : Fits e (maxTotalOpenRisk settings a)
  reserved : ∀ q, .reserveRisk q ∈ history → q.accountId = a →
    ∃ d, q.riskAmount = .finite d ∧ Whole e d.value
  jobs : ∀ c, .createJob c ∈ history → ∀ row, c.row? h = some row → row.accountId = a →
    ∃ x : ℚ, row.riskAmount.value.rank = (x : WithTop ℚ) ∧ Whole e x

section
variable {settings : Settings} {h : Hashes} {a : String} {e : Int} {t : Reservations}

/-- Some risk within the budget, so the budget is not negative. -/
theorem budget_eq (h : openRisk a t ≤ maxTotalOpenRisk settings a) :
    budget settings a = maxTotalOpenRisk settings a := by
  have hnonneg : 0 ≤ openRisk a t := by
    refine List.sum_nonneg fun x hx => ?_
    obtain ⟨row, -, rfl⟩ := List.mem_map.mp hx
    exact rank_nonneg _
  have hzero : ((0 : ℚ) : WithTop ℚ) ≤ maxTotalOpenRisk settings a := hnonneg.trans h
  exact max_eq_left (WithTop.coe_le_coe.mp hzero)

/-- A reservation on its own keeps the budget. -/
theorem reserveRisk_within {q : ReservationRequest} (he : InContext e)
    (hbudget : Fits e (maxTotalOpenRisk settings a))
    (hq : q.accountId = a → ∃ d, q.riskAmount = .finite d ∧ Whole e d.value)
    (ht : Within a e (maxTotalOpenRisk settings a) t) :
    Within a e (maxTotalOpenRisk settings a) (reserveRisk settings q t) := by
  have hbound := budget_eq ht.le
  rw [← hbound] at ht ⊢
  have hfit : Fitting settings a e fun _ : Unit => Request.reserve q := by
    refine ⟨he, hbudget, fun _ q' hq' hacc => ?_⟩
    cases hq'
    exact hq hacc
  exact (Machine.invariant (m := (code settings fun _ : Unit => Request.reserve q).machine)
    (I := Guarded settings a e _) (fun _ m hg => hg.move hfit m) (guarded_init _ ht) _).store

/-- The amounts that are active on the account. -/
def amounts (a : String) (t : Reservations) : List Amount := (active a t).map Reservation.riskAmount

theorem openRisk_eq_amounts : openRisk a t = ((amounts a t).map fun x => x.value.rank).sum := by
  rw [amounts, List.map_map]
  rfl

theorem amounts_update {p : Reservation → Bool} {f : Reservation → Reservation}
    {hid : ∀ r, (f r).id = r.id} {hkey : ∀ r, (f r).key = r.key}
    (hf : ∀ r, (f r).accountId = r.accountId ∧ (f r).status = r.status ∧ (f r).riskAmount = r.riskAmount) :
    amounts a (t.update p f hid hkey) = amounts a t := by
  show ((t.rows.map fun r => if p r then f r else r).filter _).map _ = (t.rows.filter _).map _
  rw [List.filter_map, List.map_map]
  have hfilter : ((fun row : Reservation => decide (row.accountId = a) && row.status.isActive) ∘
      fun r => if p r then f r else r) = fun row => decide (row.accountId = a) && row.status.isActive := by
    funext r
    by_cases hp : p r <;> simp [hp, hf]
  rw [hfilter]
  refine List.map_congr_left fun r _ => ?_
  by_cases hp : p r <;> simp [hp, hf]

theorem JobCall.row?_held {c : JobCall} {row : Reservation} (hrow : c.row? h = some row) :
    row.status = .held := by
  unfold JobCall.row? at hrow
  obtain ⟨intent, -, hrow⟩ := Option.bind_eq_some_iff.mp hrow
  split_ifs at hrow
  obtain ⟨payload, -, hrow⟩ := Option.bind_eq_some_iff.mp hrow
  obtain ⟨notional, -, hrow⟩ := Option.bind_eq_some_iff.mp hrow
  obtain ⟨riskAmount, -, hrow⟩ := Option.bind_eq_some_iff.mp hrow
  obtain ⟨marginAmount, -, hrow⟩ := Option.bind_eq_some_iff.mp hrow
  cases hrow
  rfl

/-- **What a call for an intent does to the amounts.** -/
theorem amounts_createJob (c : JobCall) :
    (addedRow h c t = none ∧ amounts a (createExecutionJob h c t) = amounts a t) ∨
      ∃ row, c.row? h = some row ∧ addedRow h c t = some row ∧ amounts a (createExecutionJob h c t) =
        amounts a t ++ if row.accountId = a then [row.riskAmount] else [] := by
  unfold addedRow createExecutionJob
  cases hrow : c.row? h with
  | none => exact .inl ⟨rfl, rfl⟩
  | some row =>
    cases hreserve : c.reserve with
    | false => exact .inl ⟨by simp, rfl⟩
    | true =>
      have hheld := JobCall.row?_held hrow
      simp only [if_true, Reservations.ensure]
      by_cases hkey : row.key ∈ t.rows.map Reservation.key
      · have hconflict : t.conflicts row = true := decide_eq_true (.inr hkey)
        refine .inl ⟨by simp [hconflict], ?_⟩
        · rw [if_pos hkey]
          exact amounts_update fun r => ⟨rfl, rfl, rfl⟩
      · rw [if_neg hkey]
        unfold amounts
        rw [active_insert]
        by_cases hconflict : t.conflicts row = true
        · exact .inl ⟨by simp [hconflict], by rw [if_pos hconflict]⟩
        · refine .inr ⟨row, rfl, by simp [hconflict], ?_⟩
          rw [if_neg hconflict, List.map_append, counted]
          by_cases ha : row.accountId = a
          · simp [ha, hheld, ReservationStatus.isActive]
          · simp [ha]

/-- The amounts that are active are whole units. -/
def WholeAmounts (a : String) (e : Int) (t : Reservations) : Prop :=
  ∀ x ∈ amounts a t, ∃ q : ℚ, x.value.rank = (q : WithTop ℚ) ∧ Whole e q

theorem within_iff {bound : ℚ} : Within a e bound t ↔ WholeAmounts a e t ∧ openRisk a t ≤ bound := by
  constructor
  · intro h
    refine ⟨fun x hx => ?_, h.le⟩
    obtain ⟨row, hrow, rfl⟩ := List.mem_map.mp hx
    exact h.whole row hrow
  · rintro ⟨hwhole, hle⟩
    exact ⟨hle, fun row hrow => hwhole _ (List.mem_map_of_mem hrow)⟩

/-- One call keeps whole units. -/
theorem wholeAmounts_next {history : List RiskCall} (hfit : FittingCalls settings h a e history)
    {call : RiskCall} (hcall : call ∈ history) (hwhole : WholeAmounts a e t)
    (hle : openRisk a t ≤ maxTotalOpenRisk settings a) : WholeAmounts a e ((calls settings h).next t call) := by
  cases call with
  | reserveRisk q =>
    exact (within_iff.mp (reserveRisk_within hfit.place hfit.budget (hfit.reserved q hcall)
      (within_iff.mpr ⟨hwhole, hle⟩))).1
  | createJob c =>
    intro x hx
    change x ∈ amounts a (createExecutionJob h c t) at hx
    rcases amounts_createJob (h := h) (a := a) (t := t) c with ⟨-, hsame⟩ | ⟨row, hrow, -, hadded⟩
    · rw [hsame] at hx
      exact hwhole x hx
    · rw [hadded, List.mem_append] at hx
      rcases hx with hx | hx
      · exact hwhole x hx
      · split_ifs at hx with hacc
        · rw [List.mem_singleton.mp hx]
          exact hfit.jobs c hcall row hrow hacc
        · cases hx

/-- One call stays within the budget exactly when it has room. -/
theorem openRisk_next_iff {history : List RiskCall} (hfit : FittingCalls settings h a e history)
    {call : RiskCall} (hcall : call ∈ history) (hwhole : WholeAmounts a e t)
    (hle : openRisk a t ≤ maxTotalOpenRisk settings a) :
    openRisk a ((calls settings h).next t call) ≤ maxTotalOpenRisk settings a ↔ HasRoom settings h a t call := by
  cases call with
  | reserveRisk q =>
    refine iff_of_true ?_ trivial
    exact (reserveRisk_within hfit.place hfit.budget (hfit.reserved q hcall)
      (within_iff.mpr ⟨hwhole, hle⟩)).le
  | createJob c =>
    show openRisk a (createExecutionJob h c t) ≤ maxTotalOpenRisk settings a ↔ ∀ row, addedRow h c t = some row → _
    rcases amounts_createJob (h := h) (a := a) (t := t) c with ⟨hnone, hsame⟩ | ⟨row, -, hrow, hadded⟩
    · rw [openRisk_eq_amounts, hsame, ← openRisk_eq_amounts, hnone]
      exact iff_of_true hle fun row hrow => by cases hrow
    · rw [hrow]
      have hrisk : openRisk a (createExecutionJob h c t) =
          openRisk a t + if row.accountId = a then row.riskAmount.value.rank else 0 := by
        rw [openRisk_eq_amounts, hadded, List.map_append, List.sum_append, ← openRisk_eq_amounts]
        split_ifs <;> simp
      rw [hrisk]
      constructor
      · intro hroom row' hrow' hacc
        cases hrow'
        rwa [if_pos hacc] at hroom
      · intro hroom
        split_ifs with hacc
        · exact hroom row rfl hacc
        · rw [add_zero]
          exact hle

/-- **The open risk stays within the budget exactly when every new reservation of
a job has room**, over any sequence of calls. -/
theorem withinBudget_throughout_iff {history : List RiskCall}
    (hfit : FittingCalls settings h a e history) (ht : Within a e (maxTotalOpenRisk settings a) t) :
    (∀ calls', calls' <+: history → openRisk a ((calls settings h).after t calls') ≤ maxTotalOpenRisk settings a) ↔
      (calls settings h).Meets (HasRoom settings h a) t history :=
  Machine.throughout_iff (m := calls settings h) (I := WholeAmounts a e)
    (C := fun t => openRisk a t ≤ maxTotalOpenRisk settings a)
    (fun _ _ hcall hwhole hle => wholeAmounts_next hfit hcall hwhole hle)
    (fun _ _ hcall hwhole hle => openRisk_next_iff hfit hcall hwhole hle)
    (within_iff.mp ht).1 ht.le

end

/-! ## A job beyond the budget -/

def plainHashes : Hashes := ⟨Unicode.ascii, id, id⟩

/-- An approved intent that names its risk amount. -/
def approvedJob (riskAmount : String) : JobCall where
  intent := some
    { intentId := "intent", accountId := "acct", instrumentId := "BTCUSDT", action := "open",
      status := "approved", orderPlan := Dict.empty,
      riskBudget := Dict.empty.set "risk_amount" (.str riskAmount) }
  reserve := true
  reservationId := "job"
  refused := false

def two : FiniteDecimal := ⟨false, 2, 0, .two⟩

theorem two_value : two.value = 2 := by
  simp [FiniteDecimal.value, FiniteDecimal.signed, two]

/-- The amount of a row is the one its text stands for. -/
theorem approvedJob_rank {c : JobCall} {d : FiniteDecimal} {row : Reservation}
    (hamount : (c.row? plainHashes).map Reservation.riskAmount = amountOf (.finite d))
    (hrow : c.row? plainHashes = some row) : row.riskAmount.value.rank = (d.value : WithTop ℚ) := by
  rw [hrow] at hamount
  exact amountOf_rank hamount.symm

theorem approvedJob_one :
    ((approvedJob "1").row? plainHashes).map Reservation.riskAmount = amountOf (.finite one) := by
  decide +kernel

theorem approvedJob_two :
    ((approvedJob "2").row? plainHashes).map Reservation.riskAmount = amountOf (.finite two) := by
  decide +kernel

theorem approvedJob_fitting :
    FittingCalls (unitEquity one) plainHashes "acct" 0 [.createJob (approvedJob "1")] := by
  refine ⟨⟨by decide, by decide⟩, ?_, ?_, ?_⟩
  · rw [maxTotalOpenRisk, unitEquity_budget]
    exact ⟨1, by decide, by simp⟩
  · intro q hq
    cases List.mem_singleton.mp hq
  · intro c hc row hrow _
    cases List.mem_singleton.mp hc
    refine ⟨1, ?_, 1, by simp⟩
    rw [approvedJob_rank approvedJob_one hrow, one_value]

/-- A job for the whole budget has room in an empty table. -/
theorem withinBudget_one :
    openRisk "acct" ((calls (unitEquity one) plainHashes).after .empty [.createJob (approvedJob "1")]) ≤
      maxTotalOpenRisk (unitEquity one) "acct" := by
  have hbudget : maxTotalOpenRisk (unitEquity one) "acct" = 1 := unitEquity_budget _
  have hstart : Within "acct" 0 (maxTotalOpenRisk (unitEquity one) "acct") .empty :=
    within_empty _ _ (by rw [hbudget]; norm_num)
  refine (withinBudget_throughout_iff approvedJob_fitting hstart).mpr ⟨fun row hrow _ => ?_, trivial⟩ _
    (List.prefix_refl _)
  have hrow' : (approvedJob "1").row? plainHashes = some row := (Option.filter_eq_some_iff.mp hrow).1
  rw [approvedJob_rank approvedJob_one hrow', one_value, hbudget]
  show (0 : WithTop ℚ) + ((1 : ℚ) : WithTop ℚ) ≤ _
  rw [zero_add]

/-- The second writer passes the budget. -/
theorem createExecutionJob_passes_budget :
    openRisk "acct" .empty ≤ maxTotalOpenRisk (unitEquity one) "acct" ∧
      ¬ openRisk "acct" ((calls (unitEquity one) plainHashes).after .empty [.createJob (approvedJob "2")]) ≤
        maxTotalOpenRisk (unitEquity one) "acct" := by
  have hbudget : maxTotalOpenRisk (unitEquity one) "acct" = 1 := unitEquity_budget _
  rw [hbudget]
  constructor
  · show (0 : WithTop ℚ) ≤ ((1 : ℚ) : WithTop ℚ)
    exact_mod_cast zero_le_one
  · have hrows : (active "acct" (createExecutionJob plainHashes (approvedJob "2") .empty)).map some =
        [(approvedJob "2").row? plainHashes] := by decide +kernel
    obtain ⟨row, rest, hactive, hrow, hrest⟩ := List.map_eq_cons_iff.mp hrows
    rw [List.map_eq_nil_iff] at hrest
    subst hrest
    have hrisk : openRisk "acct" (createExecutionJob plainHashes (approvedJob "2") .empty) =
        ((2 : ℚ) : WithTop ℚ) := by
      unfold openRisk
      rw [hactive, List.map_singleton, List.sum_singleton, approvedJob_rank approvedJob_two hrow.symm,
        two_value]
    show ¬ openRisk "acct" (createExecutionJob plainHashes (approvedJob "2") .empty) ≤ _
    rw [hrisk, not_le]
    exact_mod_cast (by norm_num : (1 : ℚ) < 2)

end TraderBot.Risk
