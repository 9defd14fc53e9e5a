import TraderBot.Planner.Model

/-! # The intent planner

`plan_intent_execution` turns an intent into an entry order, a management plan or
a denial. An entry is checked against the cached positions and against the
reconciled state of the venue (`TraderBot.Venue`); a management intent selects its
position from the cache, or from the venue where the cache has none. -/
namespace TraderBot.Planner
open TraderBot.Lib TraderBot.Lib.Text TraderBot.Lib.Json
open TraderBot.Venue (Interpreter PositionSnapshot PositionState PositionAssessment BookKey Evidence
  ReconciledExecutionState)

section
variable (A : Arithmetic) (py : Interpreter)

/-! ## Positions -/

variable {py} in
/-- `_context_positions`. -/
def PlannerContext.cached (context : PlannerContext py) : List PositionSnapshot :=
  if context.positions ≠ [] then context.positions else context.position.toList

/-- `quantity == 0`; `none` is what a signaling NaN raises. -/
def isZero? : Decimal → Option Bool
  | .finite d => some (d.coeff = 0)
  | .infinity _ => some false
  | .nan _ signaling _ => if signaling then none else some false

/-- The first cached position with a quantity whose side meets `p`; one whose
quantity is no number is passed over. -/
def findCached (p : String → Bool) : List PositionSnapshot → Except Stop (Option PositionSnapshot)
  | [] => .ok none
  | position :: rest =>
    match Decimal.ofText py.unicode position.quantity.toList with
    | none => findCached p rest
    | some quantity => do
      if ← raising (isZero? quantity) then findCached p rest
      else if p (py.unicode.upper position.side) then return some position
      else findCached p rest

/-- `_reconciled_assessment`: without a state, and where the assessment raises, none. -/
def reconciledAssessment (context : PlannerContext py) (instrumentId side : String) : Option PositionAssessment :=
  context.reconciledState.bind fun r => r.state.assess py ⟨context.accountId, instrumentId, side⟩

/-- `_risk_increase_state_denial`. -/
def riskIncreaseState (context : PlannerContext py) (assessment : Option PositionAssessment) : Except Stop Unit :=
  match assessment with
  | none =>
    if context.simulation then .ok ()
    else .error (.denied "position_state_unknown" "reconciled_state_missing")
  | some a =>
    match a.state with
    | .unknown => .error (.denied "position_state_unknown" a.detail)
    | .conflicted => .error (.denied "position_state_conflicted" a.detail)
    | .knownFlat | .knownOpen => .ok ()

def OrderSide.book : OrderSide → String
  | .buy => "LONG"
  | .sell => "SHORT"

/-- `_validate_position` of an entry. -/
def validatePosition (adds : Bool) (side : OrderSide) (context : PlannerContext py) (instrumentId : String) :
    Except Stop Unit := do
  let cached ← findCached py (fun s => s = side.book) context.cached
  let assessment := reconciledAssessment py context instrumentId side.book
  riskIncreaseState py context assessment
  if adds then
    match assessment.map PositionAssessment.state, cached with
    | some .knownFlat, _ => .error (.denied "position_required" instrumentId)
    | some .knownOpen, _ => return ()
    | _, some _ => return ()
    | _, none =>
      match ← findCached py (fun s => s ≠ side.book) context.cached with
      | some opposite => .error (.denied "position_side_mismatch" (py.unicode.upper opposite.side))
      | none => .error (.denied "position_required" instrumentId)
  else
    match cached, assessment with
    | some _, _ => .error (.denied "position_exists" instrumentId)
    | none, some a => if a.state = .knownOpen then .error (.denied "position_exists" a.detail) else return ()
    | none, none => return ()

/-! ## Entries -/

/-- A member of a plan, where a value for it is found. -/
def withMember (plan : Dict Value) (k : String) (v : Option Value) : Dict Value :=
  match v with
  | some v => plan.set k v
  | none => plan

/-- `_entry_order_plan`, its members one after the other. -/
def entryOrderPlan (intent : Intent) (context : PlannerContext py) : Except Stop (Dict Value) :=
  let plan := intent.plan
  let execution := attribute? intent.execution
  let sizing := attribute? intent.sizing
  let settings := (context.effectiveSettings.getD Dict.empty).get?
  if intent.execution.isNone ∧ intent.sizing.isNone then .ok plan
  else if execution "reduce_only" = some (.bool true) then unsupported "entry.reduce_only"
  else
    let orderType := firstPresent [execution "order_type", plan.get? "type", settings "order_type"]
    let plan := withMember plan "type" (orderType.map fun v => .str (py.str v))
    let quantity := firstPresent [sizing "quantity", plan.get? "quantity"]
    if quantity.isNone ∧ (Json.present (sizing "fraction")).isSome then unsupported "sizing.fraction"
    else
      let plan := withMember plan "quantity" quantity
      let orderType := py.unicode.lower (shown py (plan.get? "type") "")
      let plan := withMember plan "time_in_force" (firstPresent [execution "time_in_force",
        plan.get? "time_in_force", settings "time_in_force", settings (orderType ++ "_time_in_force")])
      let plan := withMember plan "post_only" ((firstPresent [execution "post_only", plan.get? "post_only",
        settings "post_only"]).map fun v => .bool v.truthy)
      let plan := withMember plan "max_slippage_bps" (firstPresent [execution "max_slippage_bps",
        plan.get? "max_slippage_bps", settings "max_slippage_bps"])
      let plan :=
        if orderType = "limit" then
          withMember plan "price" (firstPresent [execution "limit_price", plan.get? "price"])
        else plan
      if orderType = "zone" then
        let zone k := (execution "zone").bind fun zone => zone.get? k
        .ok (withMember (withMember plan "price_min" (firstPresent [zone "low", plan.get? "price_min"])) "price_max"
          (firstPresent [zone "high", plan.get? "price_max"]))
      else .ok plan

/-- `_approved_max_notional`. -/
def approvedMaxNotional (intent : Intent) : Except Stop FiniteDecimal :=
  match (Json.present (attribute? intent.riskBudget "max_notional")).bind (Decimal.ofValue py.unicode) with
  | some (.finite d) =>
    if d.le .zero then .error (.denied "approved_max_notional_invalid" "risk_budget.max_notional") else .ok d
  | _ => .error (.denied "approved_max_notional_invalid" "risk_budget.max_notional")

/-- `_deny_if_order_exceeds_approved_notional`. A product that raises no
`InvalidOperation` raises. -/
def checkNotional (quantity price : String) (approved : FiniteDecimal) : Except Stop Unit :=
  match Decimal.ofText py.unicode quantity.toList, Decimal.ofText py.unicode price.toList with
  | some (.finite quantity), some (.finite price) => do
    let actual ← raising (A.mul quantity price)
    if approved.lt actual then
      .error (.denied "approved_max_notional_exceeded" ("actual=" ++ fixed actual ++ ":approved=" ++ fixed approved))
    else return ()
  | _, _ => .error (.denied "approved_max_notional_invalid" "order quantity or price")

/-- An order without a price has no notional to check. -/
def checkSpecNotional (spec : OrderSpec) (approved : FiniteDecimal) : Except Stop Unit :=
  match spec.price with
  | some price => checkNotional A py spec.quantity price approved
  | none => .ok ()

/-- `_optional_decimal_string`. -/
def optionalDecimalString (v : Option Value) : Except Stop (Option String) :=
  match (Json.present v).bind (Decimal.ofValue py.unicode) with
  | some (.finite d) => do return some (fixed (← raising (A.normalize d)))
  | some (.nan _ true _) => .error .raised
  | some d => .ok (some (fixedDecimal d))
  | none => .ok none

/-- A rounding that is denied gives nothing; one that raises raises. -/
def denialAsNone {α : Type} (x : Except Stop α) : Except Stop (Option α) :=
  match x with
  | .ok a => .ok (some a)
  | .error (.denied _ _) => .ok none
  | .error .raised => .error .raised

/-- `_guard_price`. -/
def guardPrice (plan : Dict Value) (instrument : InstrumentSpec) : Except Stop (Option String) :=
  match firstPresent [plan.get? "guard_price", plan.get? "reference_price", plan.get? "entry_price",
    plan.get? "entry", plan.get? "price"] with
  | none => .ok none
  | some raw => denialAsNone (roundedPositive A py (some raw) instrument.priceIncrement "guard_price")

/-- The entry path of `plan_intent_execution`. -/
def planEntryIntent (intent : Intent) (action : Action) (context : PlannerContext py) (instrument : InstrumentSpec) :
    Except Stop OrderPlan := do
  let plan ← entryOrderPlan py intent context
  let side ← parseSide py (plan.get? "side")
  validatePosition py (action = .addPosition) side context intent.instrumentId
  let spec ← buildOrderSpec A py plan instrument
  let approved ← approvedMaxNotional py intent
  checkSpecNotional A py spec approved
  return {
    intentId := intent.intentId, clientOrderId := ← raising (encodeClientOrderId intent.intentId 1)
    tags := intentTags py intent action none none, instrumentId := intent.instrumentId, side
    orderType := spec.orderType, quantity := spec.quantity, price := spec.price, timeInForce := spec.timeInForce
    postOnly := ((plan.get? "post_only").map Value.truthy).getD false
    maxSlippageBps := ← optionalDecimalString A py (plan.get? "max_slippage_bps")
    guardPrice := ← guardPrice A py plan instrument, approvedMaxNotional := some (fixed approved) }

/-! ## The target of a management intent -/

/-- `str(target_position_id or "")`. -/
def targetText (target : Option String) : String := target.getD ""

/-- `s.endswith(w)`. -/
def endsWith (w s : String) : Bool := w.toList.isSuffixOf s.toList

/-- `_target_position_id_side`. -/
def targetSide (target : Option String) : String :=
  let text := py.unicode.upper (strip (targetText target))
  if endsWith "-LONG" text then "LONG" else if endsWith "-SHORT" text then "SHORT" else ""

/-- The instrument a target id with a side begins with. -/
def targetPrefix (target : Option String) (idSide : String) : String :=
  let text := (strip (targetText target)).toList
  strip (String.ofList (text.take (text.length - (idSide.length + 1))))

/-- What the books of some sides say together: the one that is open. -/
def openBook (instrumentId : String) (detail : String) (books : List (String × PositionAssessment)) :
    Except Stop PositionSnapshot :=
  match books.find? fun b => b.2.state = .unknown with
  | some b => .error (.denied "position_state_unknown" b.2.detail)
  | none =>
    match books.find? fun b => b.2.state = .conflicted with
    | some b => .error (.denied "position_state_conflicted" b.2.detail)
    | none =>
      match books.filter fun b => b.2.state = .knownOpen with
      | [] => .error (.denied "position_required" detail)
      | [(side, a)] => .ok {
          instrumentId, side, quantity := fixed a.quantity, positionId := some (instrumentId ++ "-" ++ side) }
      | _ :: _ :: _ => .error (.denied "position_not_unique" instrumentId)

/-- `_reconciled_target_position`; `none` falls back to the denial of the cache. -/
def reconciledTargetPosition (context : PlannerContext py) (instrumentId requestedSide : String)
    (target : Option String) : Option (Except Stop PositionSnapshot) :=
  if context.reconciledState.isNone then none
  else
    let idSide := targetSide py target
    let foreign := idSide ≠ "" ∧ targetPrefix target idSide ≠ "" ∧
      py.unicode.upper (targetPrefix target idSide) ≠ py.unicode.upper (strip instrumentId)
    if foreign then some (.error (.denied "position_required" (targetText target)))
    else if requestedSide ≠ "" ∧ idSide ≠ "" ∧ requestedSide ≠ idSide then
      some (.error (.denied "position_side_mismatch" ("requested=" ++ requestedSide ++ ",target_position_id=" ++
        targetText target)))
    else
      let bookSide := if requestedSide ≠ "" then requestedSide else idSide
      let sides := if bookSide ≠ "" then [bookSide] else ["LONG", "SHORT"]
      let detail :=
        if targetText target ≠ "" then targetText target
        else if bookSide ≠ "" then instrumentId ++ ":" ++ bookSide
        else instrumentId
      (sides.mapM fun side => (reconciledAssessment py context instrumentId side).map fun a => (side, a)).map
        (openBook instrumentId detail)

/-- The cached positions on an instrument that have a quantity; one whose
quantity is no number raises. -/
def cachedOn (context : PlannerContext py) (instrumentId : String) : Except Stop (List PositionSnapshot) :=
  context.cached.filterM fun position =>
    if position.instrumentId ≠ instrumentId then .ok false
    else do return !(← raising (isZero? (← decimalText py position.quantity)))

/-- A position that stands alone, or the venue's where the cache has none. -/
def theOnly (positions : List PositionSnapshot) (detail : String) (fallback : Option (Except Stop PositionSnapshot)) :
    Except Stop PositionSnapshot :=
  match positions with
  | [] => fallback.getD (.error (.denied "position_required" detail))
  | [position] => .ok position
  | _ :: _ :: _ => .error (.denied "position_not_unique" detail)

/-- The position of a target id. -/
def selectById (requested target : String) (matching : List PositionSnapshot)
    (fallback : Option (Except Stop PositionSnapshot)) : Except Stop PositionSnapshot :=
  match matching with
  | [selected] =>
    let actual := py.unicode.upper selected.side
    -- a restart may attach the other side to the id
    if requested ≠ "" ∧ actual ≠ requested then
      fallback.getD (.error (.denied "position_side_mismatch" ("requested=" ++ requested ++ ",actual=" ++ actual)))
    else .ok selected
  | matching => theOnly matching target fallback

/-- `_select_target_position`. -/
def selectTargetPosition (intent : Intent) (context : PlannerContext py) : Except Stop PositionSnapshot := do
  let instrumentId := intent.instrumentId
  let requested := py.unicode.upper (strip (py.textOf (intent.plan.get? "position_side")))
  if requested ≠ "" ∧ requested ≠ "LONG" ∧ requested ≠ "SHORT" then unsupported "position_side"
  else
    let positions ← cachedOn py context instrumentId
    let target := intent.targetPositionId
    let fallback := reconciledTargetPosition py context instrumentId requested target
    if targetText target ≠ "" then
      selectById py requested (targetText target) (positions.filter fun p => p.positionId = target) fallback
    else if requested = "" then theOnly positions instrumentId fallback
    else
      theOnly (positions.filter fun p => py.unicode.upper p.side = requested) (instrumentId ++ ":" ++ requested)
        fallback

/-! ## Management orders -/

/-- `_exit_side`. -/
def exitSide (position : PositionSnapshot) : OrderSide :=
  if py.unicode.upper position.side = "LONG" then .sell else .buy

/-- A position's quantity times a fraction. -/
def fractionOf (quantity : Decimal) (fraction : FiniteDecimal) : Except Stop Decimal :=
  match quantity with
  | .finite quantity => do return .finite (← raising (A.mul quantity fraction))
  | .infinity negative => .ok (.infinity negative)
  | .nan _ true _ => .error .raised
  | .nan negative false payload => .ok (.nan negative false payload)

/-- A fraction: more than zero, at most one. -/
def readFraction (raw : Option Value) : Except Stop FiniteDecimal := do
  match ← decimalOf py raw "fraction" with
  | .finite d => if d.le .zero ∨ FiniteDecimal.lt ⟨false, 1, 0, .one⟩ d then unsupported "fraction" else return d
  | .infinity _ => unsupported "fraction"
  | .nan _ _ _ => .error .raised

/-- `_resolve_exit_quantity`. -/
def resolveExitQuantity (plan : Dict Value) (position : PositionSnapshot) (required : Bool) :
    Except Stop (Option Decimal) := do
  match Json.present (plan.get? "quantity"), Json.present (plan.get? "fraction") with
  | some _, some _ => unsupported "quantity_and_fraction"
  | none, some raw =>
    let fraction ← readFraction py (some raw)
    return some (← fractionOf A (← decimalText py position.quantity) fraction)
  | some raw, none =>
    let quantity ← decimalOf py (some raw) "quantity"
    if ← notPositive quantity then unsupported "quantity" else return some quantity
  | none, none => if required then unsupported "quantity_or_fraction_required" else return none

/-- `str(d)` in a plan, as it is read again. -/
def decimalTextValue (d : Decimal) : Value :=
  match d with
  | .finite d => .str (String.ofList (Decimal.finiteText d))
  | d => .str (fixedDecimal d)

/-- `_deny_if_quantity_exceeds_position`. -/
def checkQuantity (quantity positionQuantity : String) : Except Stop Unit := do
  let asked ← decimalText py quantity
  let held ← decimalText py positionQuantity
  if ← raising (held.lt? asked) then
    .error (.denied "quantity_exceeds_position" (quantity ++ ">" ++ positionQuantity))
  else return ()

/-- `_build_exit_order`, of a plan with a quantity. -/
def buildExitOrder (intent : Intent) (action : Action) (plan : Dict Value) (instrument : InstrumentSpec)
    (position : PositionSnapshot) (side : OrderSide) : Except Stop OrderPlan := do
  let spec ← buildOrderSpec A py (plan.set "side" (.str (py.unicode.lower side.text))) instrument
  checkQuantity py spec.quantity position.quantity
  return {
    intentId := intent.intentId, clientOrderId := ← raising (encodeClientOrderId intent.intentId 1)
    tags := intentTags py intent action (some "exit") position.positionId, instrumentId := intent.instrumentId
    side, orderType := spec.orderType, quantity := spec.quantity, price := spec.price
    timeInForce := spec.timeInForce, reduceOnly := true }

/-- The plan of an exit, with its quantity in place of a fraction. -/
def exitPlan (plan : Dict Value) (quantity : Value) : Dict Value := (plan.erase "fraction").set "quantity" quantity

/-- `partial_close`. -/
def partialCloseOrder (intent : Intent) (instrument : InstrumentSpec) (position : PositionSnapshot) (side : OrderSide) :
    Except Stop OrderPlan := do
  match ← resolveExitQuantity A py intent.plan position true with
  | some sized => buildExitOrder A py intent .partialClose (exitPlan intent.plan (decimalTextValue sized)) instrument position side
  -- a required quantity is resolved or denied
  | none => .error .raised

/-- `close_position` closes all: a quantity of its own must be the position's. -/
def checkWhole (sized : Option Decimal) (positionQuantity : String) : Except Stop Unit := do
  let full ← decimalText py positionQuantity
  match sized with
  | none => return ()
  | some sized =>
    if ← raising (sized.lt? full) then
      .error (.denied "ambiguous_partial_on_close" (fixedDecimal sized ++ "<" ++ fixedDecimal full))
    else if ← raising (full.lt? sized) then
      .error (.denied "quantity_exceeds_position" (fixedDecimal sized ++ ">" ++ fixedDecimal full))
    else return ()

def closePositionOrder (intent : Intent) (instrument : InstrumentSpec) (position : PositionSnapshot) (side : OrderSide) :
    Except Stop OrderPlan := do
  let sized ← resolveExitQuantity A py intent.plan position false
  checkWhole py sized position.quantity
  buildExitOrder A py intent .closePosition (exitPlan intent.plan (.str position.quantity)) instrument position side

/-- The limit price of a stop order, if it has one. -/
def stopLimit (orderType : String) (plan : Dict Value) (instrument : InstrumentSpec) :
    Except Stop (OrderType × Option String) := do
  if orderType = "stop_limit" then
    let price ← roundedPositive A py ((plan.get? "limit_price").or (plan.get? "price")) instrument.priceIncrement
      "limit_price"
    return (.stopLimit, some price)
  else return (.stopMarket, none)

/-- `_build_stop_order`. -/
def buildStopOrder (intent : Intent) (action : Action) (plan : Dict Value) (instrument : InstrumentSpec)
    (position : PositionSnapshot) (side : OrderSide) : Except Stop OrderPlan := do
  let orderType := py.unicode.lower (shown py (plan.get? "type") "stop_market")
  if orderType ≠ "stop_market" ∧ orderType ≠ "stop_limit" then unsupported ("type=" ++ orderType)
  else
    let trigger ← roundedPositive A py ((plan.get? "stop_price").or (plan.get? "trigger_price"))
      instrument.priceIncrement "stop_price"
    let (planned, price) ← stopLimit A py orderType plan instrument
    let quantity ← roundedPositive A py (some (.str position.quantity)) instrument.quantityIncrement "quantity"
    let timeInForce ← parseTif py (plan.get? "time_in_force") "GTC"
    return {
      intentId := intent.intentId, clientOrderId := ← raising (encodeClientOrderId intent.intentId 1)
      tags := intentTags py intent action (some "stop_loss") position.positionId
      instrumentId := intent.instrumentId, side, orderType := planned, quantity, price, timeInForce
      reduceOnly := true, triggerPrice := some trigger }

/-- The field of a take profit in a message. -/
def targetField (index : Nat) (name : String) : String := "take_profits[" ++ toString (index - 1) ++ "]" ++ name

/-- `total += Decimal(quantity)`. -/
def addQuantity (total : FiniteDecimal) (quantity : String) : Except Stop FiniteDecimal := do
  match ← decimalText py quantity with
  | .finite d => raising (A.add total d)
  | _ => .error .raised

/-- The order of one take profit. -/
def takeProfitOrder (intent : Intent) (instrument : InstrumentSpec) (position : PositionSnapshot) (side : OrderSide)
    (target : Value) (index : Nat) (quantity : String) : Except Stop OrderPlan := do
  let trigger ← roundedPositive A py ((target.get? "trigger_price").or (target.get? "price"))
    instrument.priceIncrement (targetField index ".price")
  let timeInForce ← parseTif py ((target.get? "time_in_force").or (intent.plan.get? "time_in_force")) "GTC"
  return {
    intentId := intent.intentId, clientOrderId := ← raising (encodeClientOrderId intent.intentId index)
    tags := intentTags py intent .replaceTakeProfits (some "take_profit") position.positionId ++
      ["take_profit_index=" ++ toString index]
    instrumentId := intent.instrumentId, side, orderType := .marketIfTouched, quantity, price := none, timeInForce
    reduceOnly := true, triggerPrice := some trigger }

/-- One turn of the loop of `_build_take_profit_orders`: the orders and their
total so far. -/
def takeProfitStep (intent : Intent) (instrument : InstrumentSpec) (position : PositionSnapshot) (side : OrderSide)
    (state : List OrderPlan × FiniteDecimal) (target : Value × Nat) :
    Except Stop (List OrderPlan × FiniteDecimal) := do
  match target.1 with
  | .obj _ =>
    let quantity ← roundedPositive A py (target.1.get? "quantity") instrument.quantityIncrement
      (targetField target.2 ".quantity")
    let total ← addQuantity A py state.2 quantity
    let order ← takeProfitOrder A py intent instrument position side target.1 target.2 quantity
    return (state.1 ++ [order], total)
  | _ => unsupported (targetField target.2 "")

/-- `_build_take_profit_orders`. -/
def buildTakeProfitOrders (intent : Intent) (instrument : InstrumentSpec) (position : PositionSnapshot)
    (side : OrderSide) : Except Stop (List OrderPlan) := do
  match (intent.plan.get? "take_profits").or (intent.plan.get? "targets") with
  | some (.arr []) =>
    if intent.plan.get? "disable_take_profits" ≠ some (.bool true) then
      unsupported "disable_take_profits=true required for empty take_profits"
    else return []
  | some (.arr targets) =>
    let (orders, total) ← (targets.zipIdx 1).foldlM (takeProfitStep A py intent instrument position side) ([], .zero)
    let held ← decimalText py position.quantity
    if ← raising (held.lt? (.finite total)) then
      .error (.denied "quantity_exceeds_position" (fixed total ++ ">" ++ position.quantity))
    else return orders
  | _ => unsupported "take_profits"

/-- `_matching_lifecycle_order_ids`. -/
def matchingLifecycleOrderIds (orders : List OrderSnapshot) (role : String) (positionId : Option String)
    (instrumentId : String) : List String :=
  (orders.filter fun order => order.instrumentId = instrumentId ∧ order.tags.contains ("lifecycle_role=" ++ role) ∧
    ∀ id ∈ positionId, order.tags.contains ("position_id=" ++ id)).map OrderSnapshot.clientOrderId

/-- What an action does with the orders of its position: its own orders, the role
of those it cancels, and whether it does so after. -/
structure Lifecycle where
  orders : List OrderPlan
  cancelRole : Option String := none
  cancelAfterSubmit : Bool := false
  disableTakeProfits : Bool := false

def lifecycleOf (intent : Intent) (action : Action) (instrument : InstrumentSpec) (position : PositionSnapshot)
    (side : OrderSide) : Except Stop Lifecycle := do
  match action with
  | .partialClose => return { orders := [← partialCloseOrder A py intent instrument position side] }
  | .closePosition => return { orders := [← closePositionOrder A py intent instrument position side] }
  | .moveStopLoss =>
    return {
      orders := [← buildStopOrder A py intent action intent.plan instrument position side]
      cancelRole := some "stop_loss", cancelAfterSubmit := true }
  | .moveStopToEntry =>
    let entryPrice := match position.entryPrice with
      | some price => if price = "" then intent.plan.get? "entry_price" else some (.str price)
      | none => intent.plan.get? "entry_price"
    match Json.present entryPrice with
    | none => .error (.denied "position_entry_price_required" (match position.positionId with
      | some id => if id = "" then intent.instrumentId else id
      | none => intent.instrumentId))
    | some price =>
      let plan := intent.plan.set "stop_price" price
      return {
        orders := [← buildStopOrder A py intent action plan instrument position side]
        cancelRole := some "stop_loss", cancelAfterSubmit := true }
  | .replaceTakeProfits =>
    return {
      orders := ← buildTakeProfitOrders A py intent instrument position side
      cancelRole := some "take_profit"
      disableTakeProfits := intent.plan.get? "disable_take_profits" = some (.bool true) }
  | _ => .error (.denied "unsupported_action" action.text)

/-- `_plan_management_intent`. -/
def planManagementIntent (intent : Intent) (action : Action) (context : PlannerContext py)
    (instrument : InstrumentSpec) : Except Stop ManagementPlan := do
  let position ← selectTargetPosition py intent context
  let authorization ← authorizationSource py intent
  let lifecycle ← lifecycleOf A py intent action instrument position (exitSide py position)
  return {
    intentId := intent.intentId, action, instrumentId := intent.instrumentId
    targetPositionId := position.positionId, targetPositionSide := some position.side
    cancelOrderIds := match lifecycle.cancelRole with
      | some role => matchingLifecycleOrderIds context.existingOrders role position.positionId intent.instrumentId
      | none => []
    orders := lifecycle.orders, cancelAfterSubmit := lifecycle.cancelAfterSubmit, authorization
    disableTakeProfits := lifecycle.disableTakeProfits }

/-! ## Cancelling one order -/

/-- `_tag_values`. -/
def tagValues (tags : List String) (key : String) : List String :=
  (tags.filterMap fun tag => (Json.after? (key ++ "=").toList tag.toList).map fun rest =>
    strip (String.ofList rest)).filter fun v => v ≠ ""

/-- Tags that name a value name this one. -/
def tagsAgree (tags : List String) (key value : String) : Bool := (tagValues tags key).all fun v => v = value

/-- `_validate_cancel_order_ownership`. -/
def validateCancelOrderOwnership (order : OrderSnapshot) (context : PlannerContext py) : Except Stop Unit :=
  match decodeClientOrderId py.unicode order.clientOrderId with
  | none => .error (.denied "order_ownership_unverified" order.clientOrderId)
  | some trace =>
    if tagsAgree order.tags "account_id" context.accountId ∧ tagsAgree order.tags "intent_id" trace.intentId.str then
      .ok ()
    else .error (.denied "order_ownership_unverified" order.clientOrderId)

/-- `_plan_cancel_order_intent`. -/
def planCancelOrderIntent (intent : Intent) (context : PlannerContext py) : Except Stop ManagementPlan := do
  let target := strip (py.textOf (intent.plan.get? "cancel_client_order_id"))
  if target = "" then unsupported "cancel_client_order_id"
  else
    match context.existingOrders.filter fun order =>
      order.instrumentId = intent.instrumentId ∧ order.clientOrderId = target with
    | [] => .error (.denied "order_not_found" target)
    | [order] =>
      validateCancelOrderOwnership py order context
      return {
        intentId := intent.intentId, action := .cancelOrder, instrumentId := intent.instrumentId
        targetPositionId := none, targetPositionSide := none, cancelOrderIds := [target], orders := []
        authorization := ← authorizationSource py intent }
    | _ :: _ :: _ => .error (.denied "order_not_unique" target)

/-! ## The planner -/

/-- `ACTION_PERMISSION_MATRIX`. -/
def haltedActionAllowed (action : Action) (mode : String) : Bool :=
  if mode = "ACTIVE" then true else if mode = "REDUCING" ∨ mode = "HALTED" then !action.isEntry else false

/-- The instrument of the context, where it is the intent's. -/
def instrumentFor (intent : Intent) (context : PlannerContext py) : Except Stop InstrumentSpec :=
  match context.instrument with
  | some instrument =>
    if instrument.instrumentId = intent.instrumentId then .ok instrument
    else .error (.denied "instrument_not_found" intent.instrumentId)
  | none => .error (.denied "instrument_not_found" intent.instrumentId)

/-- The time with its offset; a naive one is in UTC. -/
def awareText (value : Clock) : String := DateTime.isoText (value.1, some (value.2.getD 0))

def planIntentExecution (intent : Intent) (context : PlannerContext py) : Except Stop Plan := do
  match Action.ofText? intent.action with
  | none => .error (.denied "unsupported_action" intent.action)
  | some action =>
    let _ ← authorizationSource py intent
    let mode := py.unicode.upper (py.unicode.upper context.tradingState)
    if haltedActionAllowed action mode = false then
      .error (.denied "trading_not_active" (py.unicode.upper context.tradingState))
    else if context.existingIntentIds.contains intent.intentId.str then
      .error (.denied "duplicate_intent" intent.intentId.str)
    else if intent.accountId ≠ context.accountId then .error (.denied "wrong_account" intent.accountId)
    else
      let instrument ← instrumentFor py intent context
      if DateTime.instant intent.validUntil ≤ DateTime.instant context.now then
        .error (.denied "expired" (awareText intent.validUntil))
      else if action = .cancelOrder then return .management (← planCancelOrderIntent py intent context)
      else if action.isEntry then return .entry (← planEntryIntent A py intent action context instrument)
      else return .management (← planManagementIntent A py intent action context instrument)

end
end TraderBot.Planner
