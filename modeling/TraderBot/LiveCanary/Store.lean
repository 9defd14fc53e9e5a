import TraderBot.LiveCanary.Accounting

/-! # The operations of the store

Each operation reads the records and, when it changes one, writes the file. A write
may fail before the new file is in place, or after it. -/
namespace TraderBot.LiveCanary
open TraderBot.Lib TraderBot.Lib.Text

abbrev Records := Dict LiveCanaryExecutionRecord

inductive LiveCanaryRegisterResult where
  | registered
  | replay
  | permitConflict
  deriving DecidableEq, Repr

inductive LiveCanaryClaimResult where
  | acquired
  | recoveryRequired
  | permitConflict
  deriving DecidableEq, Repr

/-! ## Looking up -/

/-- `_record_for_permit`. -/
def recordForPermit (records : Records) (i : LiveCanaryExecutionIdentity) : Option LiveCanaryExecutionRecord :=
  records.get? (permitKey i)

/-- `_record_for_claim`: under its key, else any record of the permit. -/
def recordForClaim (records : Records) (i : LiveCanaryExecutionIdentity) : Option LiveCanaryExecutionRecord :=
  match recordForPermit records i with
  | some r => some r
  | none => (records.items.find? fun p => p.2.permitId = i.permitId).map Prod.snd

/-- `_record_entry_for_client_order_id`. -/
def entryForClientOrderId (records : Records) (clientOrderId : String) :
    Option (String × LiveCanaryExecutionRecord) :=
  records.items.find? fun p => p.2.clientOrderId = clientOrderId ∨ p.2.closeClientOrderId = clientOrderId

/-- `_put_record`. -/
def putRecord (records : Records) (i : LiveCanaryExecutionIdentity) (state : LiveCanaryExecutionState)
    (now : String) : Records := records.set (permitKey i) (newRecord i state now)

/-! ## Operations -/

inductive Operation where
  | registerReceived (identity : LiveCanaryExecutionIdentity)
  | claim (identity : LiveCanaryExecutionIdentity)
  | markDispatched (identity : LiveCanaryExecutionIdentity)
  | markExchangeConfirmed (identity : LiveCanaryExecutionIdentity)
  | markExchangeConfirmedByClientOrderId (clientOrderId : String)
  | recordFill (fill : LiveCanaryFill)
  | recordMark (mark : LiveCanaryMark)
  | markCloseDispatched (identity : LiveCanaryExecutionIdentity)

inductive Answer where
  | registered (result : LiveCanaryRegisterResult)
  | claimed (result : LiveCanaryClaimResult)
  | confirmed (found : Bool)
  | decision (decision : Option LiveCanaryLossDecision)
  | done
  deriving DecidableEq, Repr

/-- What an operation answers, and the records it writes where it changes one. -/
abbrev Outcome := Except Failure (Answer × Option Records)

/-- States past the dispatch, which a transition leaves. -/
def pastDispatch (state : LiveCanaryExecutionState) : Bool :=
  state = .exchangeConfirmed ∨ state = .lossLimitHalted ∨ state = .closeDispatched ∨ state = .closed

section
variable (unicode : Unicode) (now : String) (records : Records)

def registerReceived (identity : LiveCanaryExecutionIdentity) : Outcome := do
  let normalized ← identity.normalized unicode
  match recordForClaim records normalized with
  | none => return (.registered .registered, some (putRecord records normalized .received now))
  | some r =>
    let same ← sameIdentity unicode r.identity normalized
    return (.registered (if same then .replay else .permitConflict), none)

def claim (identity : LiveCanaryExecutionIdentity) : Outcome := do
  let normalized ← identity.normalized unicode
  match recordForClaim records normalized with
  | none => return (.claimed .acquired, some (putRecord records normalized .claimed now))
  | some r =>
    let same ← sameIdentity unicode r.identity normalized
    if !same then return (.claimed .permitConflict, none)
    else if r.state = .received then
      return (.claimed .acquired, some (putRecord records normalized .claimed now))
    else return (.claimed .recoveryRequired, none)

/-- The record an identity is about, for `_transition` and `mark_close_dispatched`. -/
def recordOf (normalized : LiveCanaryExecutionIdentity) : Except Failure LiveCanaryExecutionRecord :=
  match recordForPermit records normalized with
  | none => .error (.executionError "execution claim does not exist")
  | some r => do
    let same ← sameIdentity unicode r.identity normalized
    refuseIf (!same) "execution identity conflicts with claimed permit"
    return r

/-- `_transition`; it is allowed from every state but `received`. -/
def transition (identity : LiveCanaryExecutionIdentity) (target : LiveCanaryExecutionState) : Outcome := do
  let normalized ← identity.normalized unicode
  let r ← recordOf unicode records normalized
  refuseIf (r.state = .received) ("invalid execution transition " ++ r.state.value)
  if pastDispatch r.state then return (.done, none)
  else if r.state = target then return (.done, none)
  else return (.done, some (putRecord records normalized target now))

def markExchangeConfirmedByClientOrderId (clientOrderId : String) : Outcome :=
  if strip clientOrderId = "" then .ok (.confirmed false, none)
  else
    match entryForClientOrderId records (strip clientOrderId) with
    | none => .ok (.confirmed false, none)
    | some (key, r) =>
      if pastDispatch r.state then .ok (.confirmed true, none)
      else if r.state = .claimed ∨ r.state = .dispatched then
        .ok (.confirmed true,
          some (records.set key { r with state := .exchangeConfirmed, updatedAt := now }))
      else .error (.executionError "invalid exchange confirmation transition")

def recordFill (fill : LiveCanaryFill) : Outcome := do
  let fill ← fill.normalized unicode
  match entryForClientOrderId records fill.clientOrderId with
  | none => return (.decision none, none)
  | some (key, r) =>
    if fill.fillId ∈ r.processedFillIds then return (.decision (lossDecision r fill.instrumentId), none)
    else
      let updated ← recordWithFill unicode r fill now
      return (.decision (lossDecision updated fill.instrumentId), some (records.set key updated))

def recordMark (mark : LiveCanaryMark) : Outcome := do
  let mark ← mark.normalized unicode
  match entryForClientOrderId records mark.clientOrderId with
  | none => return (.decision none, none)
  | some (key, r) =>
    if r.state = .closed ∨ isZero r.netQuantity = true then return (.decision none, none)
    else
      let updated ← recordWithMark unicode r mark now
      return (.decision (lossDecision updated mark.instrumentId), some (records.set key updated))

def markCloseDispatched (identity : LiveCanaryExecutionIdentity) : Outcome := do
  let normalized ← identity.normalized unicode
  let r ← recordOf unicode records normalized
  if r.state = .closed ∨ r.state = .closeDispatched then return (.done, none)
  else
    refuseIf (r.state ≠ .lossLimitHalted) "live canary close is not pending"
    return (.done,
      some (records.set (permitKey normalized) { r with state := .closeDispatched, updatedAt := now }))

def operate : Operation → Outcome
  | .registerReceived identity => registerReceived unicode now records identity
  | .claim identity => claim unicode now records identity
  | .markDispatched identity => transition unicode now records identity .dispatched
  | .markExchangeConfirmed identity => transition unicode now records identity .exchangeConfirmed
  | .markExchangeConfirmedByClientOrderId clientOrderId =>
    markExchangeConfirmedByClientOrderId now records clientOrderId
  | .recordFill fill => recordFill unicode now records fill
  | .recordMark mark => recordMark unicode now records mark
  | .markCloseDispatched identity => markCloseDispatched unicode now records identity

end

/-- `pending_close_decisions`. -/
def pendingCloseDecisions (records : Records) : List LiveCanaryLossDecision :=
  records.items.filterMap fun p => lossDecision p.2 ""

/-! ## Runs -/

/-- What becomes of a write: it is done, or it raises before or after the new file is in place. -/
inductive Write where
  | done
  | raisedBefore
  | raisedAfter
  deriving DecidableEq, Repr

/-- A call, the time it reads, and what becomes of its write. -/
structure Call where
  operation : Operation
  now : String
  write : Write := .done

/-- `_mutate`: what the call answers or raises, and the file it leaves. -/
def mutate (records : Records) (write : Write) : Outcome → Except Failure Answer × Records
  | .error failure => (.error failure, records)
  | .ok (answer, none) => (.ok answer, records)
  | .ok (answer, some written) =>
    match write with
    | .done => (.ok answer, written)
    | .raisedBefore => (.error .notSaved, records)
    | .raisedAfter => (.error .notSaved, written)

/-- Calls of the store, one after the other, across restarts. -/
def store (unicode : Unicode) : Machine Records Call (Except Failure Answer) where
  step records call := mutate records call.write (operate unicode call.now records call.operation)

end TraderBot.LiveCanary
