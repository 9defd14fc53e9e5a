import TraderBot.Lib.DecimalValue
import TraderBot.Lib.ReadCommitted

/-! # Risk reservations

`reserve_risk` holds a part of an account's risk budget under an advisory lock of
the account; `release_reservation`, `consume_reservation` and
`expire_reservations` give it up without the lock. Each call is a transaction of
the statements it runs (`Request.action`).

The equity and the setting it is multiplied with are fixed; whether the account's
data are fresh and margin is free, the id drawn and the clock come with a
request. Rows of a query come in the order of the table. The payload column is
left out, nothing here reads it. -/
namespace TraderBot.Risk
open TraderBot.Lib

/-! ## Rows -/

inductive ReservationStatus where
  | held
  | reserved
  | released
  | consumed
  | expired
  deriving DecidableEq, Repr

/-- `ACTIVE_STATUSES`. -/
def ReservationStatus.isActive : ReservationStatus → Bool
  | .held | .reserved => true
  | .released | .consumed | .expired => false

structure Reservation where
  id : String
  executionJobId : Option String := none
  accountId : String
  positionKey : Option String := none
  venueSymbol : String
  idempotencyKey : String
  status : ReservationStatus
  notional : Amount
  riskAmount : Amount
  marginAmount : Amount
  expiresAt : Option Int
  releasedAt : Option Int := none
  deriving DecidableEq, Repr

/-- `uq_risk_reservations_account_idempotency`. -/
def Reservation.key (row : Reservation) : String × String := (row.accountId, row.idempotencyKey)

/-- `risk_reservations` with its two unique constraints. -/
structure Reservations where
  rows : List Reservation
  ids : (rows.map Reservation.id).Nodup
  keys : (rows.map Reservation.key).Nodup

namespace Reservations

def empty : Reservations := ⟨[], List.nodup_nil, List.nodup_nil⟩

/-- A row with this id or under this key is there. -/
def conflicts (t : Reservations) (row : Reservation) : Bool :=
  decide (row.id ∈ t.rows.map Reservation.id ∨ row.key ∈ t.rows.map Reservation.key)

/-- `INSERT` of a row no other conflicts with. -/
def insert (t : Reservations) (row : Reservation) : Reservations :=
  if h : t.conflicts row = true then t
  else
    have hnew : row.id ∉ t.rows.map Reservation.id ∧ row.key ∉ t.rows.map Reservation.key := by
      simpa only [conflicts, decide_eq_true_eq, not_or] using h
    { rows := t.rows ++ [row]
      ids := by
        rw [List.map_append, List.map_singleton]
        exact List.Nodup.append t.ids (List.nodup_singleton _) (by simpa using hnew.1)
      keys := by
        rw [List.map_append, List.map_singleton]
        exact List.Nodup.append t.keys (List.nodup_singleton _) (by simpa using hnew.2) }

/-- `UPDATE ... WHERE p`, with both keys left alone. -/
def update (t : Reservations) (p : Reservation → Bool) (f : Reservation → Reservation)
    (hid : ∀ r, (f r).id = r.id) (hkey : ∀ r, (f r).key = r.key) : Reservations where
  rows := t.rows.map fun r => if p r then f r else r
  ids := by
    have hkeep : (t.rows.map fun r => if p r then f r else r).map Reservation.id =
        t.rows.map Reservation.id := by
      rw [List.map_map]
      refine List.map_congr_left fun r _ => ?_
      by_cases h : p r <;> simp [h, hid]
    rw [hkeep]
    exact t.ids
  keys := by
    have hkeep : (t.rows.map fun r => if p r then f r else r).map Reservation.key =
        t.rows.map Reservation.key := by
      rw [List.map_map]
      refine List.map_congr_left fun r _ => ?_
      by_cases h : p r <;> simp [h, hkey]
    rw [hkeep]
    exact t.keys

end Reservations

/-! ## Requests -/

/-- `ReservationRequest`, with what the call finds beside the table: the id it
draws and whether the account's data are fresh and margin is free. -/
structure ReservationRequest where
  accountId : String
  instrumentId : String
  idempotencyKey : String
  riskAmount : Decimal
  notional : Decimal
  marginAmount : Decimal
  ttlSeconds : Int
  now : Int
  positionKey : Option String
  reservationId : String
  freshWithMargin : Bool

/-- What is fixed: the equity of each account, the part of it that may be at risk,
and the hash the advisory lock is taken by. -/
structure Settings where
  equity : String → FiniteDecimal
  maxTotalOpenRiskPct : FiniteDecimal
  hashtext : String → Int

inductive Request where
  | reserve (request : ReservationRequest)
  | release (id : String) (now : Int)
  | consume (id : String)
  | expire (now : Int)

structure ReservationResult where
  status : String
  reason : String
  reservationId : Option String
  accountId : String
  instrumentId : Option String
  riskAmount : Decimal
  notional : Decimal
  expiresAt : Option Int := none
  remainingBudget : Option FiniteDecimal := none

inductive Result where
  | reservation (result : ReservationResult)
  | count (n : Nat)

def ReservationStatus.text : ReservationStatus → String
  | .held => "held"
  | .reserved => "reserved"
  | .released => "released"
  | .consumed => "consumed"
  | .expired => "expired"

/-- `_row_result`. -/
def Reservation.result (row : Reservation) (reason : String)
    (remainingBudget : Option FiniteDecimal) : ReservationResult where
  status := row.status.text
  reason
  reservationId := some row.id
  accountId := row.accountId
  instrumentId := some row.venueSymbol
  riskAmount := row.riskAmount.value.toDecimal
  notional := row.notional.value.toDecimal
  expiresAt := row.expiresAt
  remainingBudget

/-- A result without a row. -/
def ReservationRequest.refused (r : ReservationRequest) (status reason : String)
    (remainingBudget : FiniteDecimal) : ReservationResult where
  status
  reason
  reservationId := none
  accountId := r.accountId
  instrumentId := some r.instrumentId
  riskAmount := r.riskAmount
  notional := r.notional
  remainingBudget := some remainingBudget

/-! ## The statements -/

/-- `expires_at IS NOT NULL AND expires_at <= now`. -/
def Reservation.timedOut (now : Int) (row : Reservation) : Bool :=
  row.expiresAt.any fun at' => decide (at' ≤ now)

/-- The active rows of `p` whose time is over. -/
def Reservations.timedOutIds (t : Reservations) (p : Reservation → Bool) (now : Int) : List String :=
  (t.rows.filter fun row => p row && row.status.isActive && row.timedOut now).map Reservation.id

/-- A status given to rows by id. -/
def Reservations.setStatus (t : Reservations) (ids : List String) (status : ReservationStatus)
    (releasedAt : Option Int) : Reservations :=
  t.update (fun row => decide (row.id ∈ ids))
    (fun row => { row with status, releasedAt := releasedAt.or row.releasedAt })
    (fun _ => rfl) fun _ => rfl

/-- The rows `_active_risk_amount` reads. -/
def Reservations.unexpired (t : Reservations) (accountId : String) (now : Int) : List Reservation :=
  t.rows.filter fun row => row.accountId = accountId && row.status.isActive && !row.timedOut now

/-- A decimal that is stored, and read into a sum; NaN ends in `InvalidOperation`. -/
def addAmount (total : FiniteDecimal) (amount : Amount) : Option FiniteDecimal :=
  match amount.value.toDecimal with
  | .finite d => Decimal.add total d
  | .infinity _ | .nan _ _ _ => none

/-- `_active_risk_amount`. -/
def activeRiskAmount (rows : List Reservation) : Option FiniteDecimal :=
  rows.foldlM (fun total row => addAmount total row.riskAmount) .zero

/-- `max(max_budget - active_risk, 0)`; `none` raises. -/
def remainingBudget (equity pct : FiniteDecimal) (rows : List Reservation) : Option FiniteDecimal := do
  let activeRisk ← activeRiskAmount rows
  let maxBudget ← Decimal.mul equity pct
  let left ← Decimal.sub maxBudget activeRisk
  return left.max .zero

/-- A column under `CHECK (column >= 0)`. -/
def amountOf (d : Decimal) : Option Amount := (Numeric.ofDecimal d).bind Amount.ofNumeric?

/-- The row that is inserted, where its columns can be written. -/
def ReservationRequest.row? (r : ReservationRequest) : Option Reservation := do
  let notional ← amountOf r.notional
  let riskAmount ← amountOf r.riskAmount
  let marginAmount ← amountOf r.marginAmount
  return {
    id := r.reservationId
    accountId := r.accountId
    positionKey := r.positionKey
    venueSymbol := r.instrumentId
    idempotencyKey := r.idempotencyKey
    status := .held
    notional
    riskAmount
    marginAmount
    expiresAt := some (r.now + r.ttlSeconds * 1000000) }

inductive Lock where
  | advisory (hash : Int)
  | row (id : String)
  | key (key : String × String)
  | projection (accountId : String)
  deriving DecidableEq, Repr

/-- Where a transaction is. -/
inductive Point where
  | lock
  | expire
  | existing
  | projection
  | active
  | insert (remaining : FiniteDecimal)
  | update
  | done (result : Result)
  | raise

/-- `_set_status`: any row under the id, whatever its status. -/
def setStatusAction (id : String) (status : ReservationStatus) (releasedAt : Option Int) :
    Action Reservations Lock Point :=
  .statement (fun view => if id ∈ view.rows.map Reservation.id then [.row id] else [])
    (fun _ t => t.setStatus [id] status releasedAt)
    (fun view =>
      match view.rows.find? fun row => row.id = id with
      | some row => .done (.reservation
          (({ row with status } : Reservation).result ("reservation " ++ status.text) none))
      | none => .done (.reservation
          { status := status.text, reason := "reservation not found", reservationId := none,
            accountId := "", instrumentId := none, riskAmount := .finite .zero,
            notional := .finite .zero }))

/-- The active rows of `p` that have timed out are given up. -/
def expireAction (p : Reservation → Bool) (now : Int) (next : Reservations → Point) :
    Action Reservations Lock Point :=
  .statement (fun view => (view.timedOutIds p now).map .row)
    (fun view t => t.setStatus (view.timedOutIds p now) .expired none) next

/-- `reserve_risk`. -/
def reserveAction (settings : Settings) (r : ReservationRequest) : Point → Action Reservations Lock Point
  | .lock => .statement (fun _ => [.advisory (settings.hashtext r.accountId)]) (fun _ => id) fun _ => .expire
  | .expire => expireAction (fun row => row.accountId = r.accountId) r.now fun _ => .existing
  | .existing =>
    .statement
      (fun view => (view.rows.filter fun row => row.key = (r.accountId, r.idempotencyKey)).map
        fun row => .row row.id)
      (fun _ => id)
      (fun view =>
        match view.rows.find? fun row => row.key = (r.accountId, r.idempotencyKey) with
        | some row => .done (.reservation (row.result "idempotent reservation" none))
        | none => .projection)
  | .projection =>
    .statement (fun _ => [.projection r.accountId]) (fun _ => id)
      (fun _ =>
        if r.freshWithMargin && (settings.equity r.accountId).isPositive then .active
        else .done (.reservation
          (r.refused "needs_review" "account budget stale or unavailable" .zero)))
  | .active =>
    .statement (fun view => (view.unexpired r.accountId r.now).map fun row => .row row.id) (fun _ => id)
      (fun view =>
        match remainingBudget (settings.equity r.accountId) settings.maxTotalOpenRiskPct
            (view.unexpired r.accountId r.now) with
        | none => .raise
        | some remaining =>
          -- `request.risk_amount > remaining`
          match Decimal.le? r.riskAmount (.finite remaining) with
          | none => .raise
          | some false =>
            .done (.reservation (r.refused "rejected" "risk reservation budget exceeded" remaining))
          | some true => .insert remaining)
  | .insert remaining =>
    .statement (fun _ => [.row r.reservationId, .key (r.accountId, r.idempotencyKey)])
      (fun _ t => match r.row? with
        | some row => t.insert row
        | none => t)
      (fun view =>
        match r.row? with
        | none => .raise
        | some row =>
          if view.conflicts row then .raise
          else .done (.reservation (row.result "risk reserved" (match r.riskAmount with
            | .finite d => Decimal.sub remaining d
            | .infinity _ | .nan _ _ _ => none))))
  | .update | .raise => .rollback
  | .done _ => .commit

def Request.action (settings : Settings) (r : Request) (p : Point) : Action Reservations Lock Point :=
  match r with
  | .reserve request => reserveAction settings request p
  | .release id now =>
    match p with
    | .update => setStatusAction id .released (some now)
    | .done _ => .commit
    | _ => .rollback
  | .consume id =>
    match p with
    | .update => setStatusAction id .consumed none
    | .done _ => .commit
    | _ => .rollback
  | .expire now =>
    match p with
    | .update => expireAction (fun _ => true) now fun view =>
        .done (.count (view.timedOutIds (fun _ => true) now).length)
    | .done _ => .commit
    | _ => .rollback

def Request.start : Request → Point
  | .reserve _ => .lock
  | .release _ _ | .consume _ | .expire _ => .update

def code {ι : Type} (settings : Settings) (requests : ι → Request) : Code ι Reservations Lock Point where
  start i := (requests i).start
  action i := (requests i).action settings

end TraderBot.Risk
