import TraderBot.Ownership.Ledger

/-! # Rebaselines

A rebaseline is a recorded event that says what the robot owns of a symbol at a
point of the history; the balance is then that quantity and the fills strictly
after it. `load_latest_ownership_baselines` reads the latest of each symbol, and
`build_rebaseline_payload` writes one; what it writes is read back as what it was
given (`parseBaseline_built`). -/
namespace TraderBot.Ownership
open TraderBot.Lib TraderBot.Lib.Text TraderBot.Lib.Json TraderBot.Lib.Decimal TraderBot.Orders

/-! ## Reading -/

def rebaselineEventType : String := "OwnershipRebaseline"

def rebaselineSchemaVersion : String := "ownership-rebaseline/v1"

/-- What a rebaseline says, all of it. -/
structure OwnershipBaseline extends Baseline where
  accountId : String
  symbol : String
  reason : String
  adjudicatedBy : String
  requestId : String
  exchangeQuantity : Option FiniteDecimal
  manualQuantity : Option FiniteDecimal
  payload : Dict Value

/-- `Decimal(str(value))`, refused unless it is finite. -/
def finiteDecimal (env : Env) (v : Option Value) : Except LedgerFailure FiniteDecimal :=
  match v.bind (Decimal.ofValue env.unicode) with
  | some (.finite d) => .ok d
  | _ => .error .invalidEvidence

/-- `_payload_decimal` of a field that may be absent. -/
def optionalDecimal (env : Env) (payload : Dict Value) (fieldName : String) :
    Except LedgerFailure (Option FiniteDecimal) :=
  match Json.present (payload.get? fieldName) with
  | none => .ok none
  | some v => (finiteDecimal env (some v)).map some

/-- `str(payload.get(field) or "").strip()`. -/
def strippedText (env : Env) (payload : Dict Value) (fieldName : String) : String :=
  match Json.orElse (payload.get? fieldName) none with
  | some v => strip (env.str v)
  | none => ""

/-- `quantity + manual_quantity != exchange_quantity`, where both are there. -/
def disagrees (quantity : FiniteDecimal) : Option FiniteDecimal → Option FiniteDecimal →
    Except LedgerFailure Bool
  | some manual, some exchange => do
    let sum ← ledgerSum quantity manual
    return !sum.eq exchange
  | _, _ => .ok false

/-- `_parse_baseline`. -/
def parseBaseline (env : Env) (accountId : String) (row : LedgerRow) :
    Except LedgerFailure OwnershipBaseline := do
  let payload := row.event.payload
  if payload.get? "ownership_schema_version" ≠ some (.str rebaselineSchemaVersion) then
    throw .invalidEvidence
  let symbol := canonicalSymbol env
    (Json.orElse (payload.get? "symbol") (payload.get? "instrument_id"))
  let reason := strippedText env payload "reason"
  let adjudicatedBy := strippedText env payload "adjudicated_by"
  let requestId := strippedText env payload "request_id"
  if symbol = "" ∨ reason = "" ∨ adjudicatedBy = "" ∨ requestId = "" then
    throw .invalidEvidence
  let quantity ← finiteDecimal env (payload.get? "baseline_quantity")
  let exchangeQuantity ← optionalDecimal env payload "exchange_quantity_at_baseline"
  let manualQuantity ← optionalDecimal env payload "manual_quantity_at_baseline"
  if ← disagrees quantity manualQuantity exchangeQuantity then
    throw .invalidEvidence
  return { quantity, tsEvent := row.event.tsEvent, createdAt := row.createdAt,
           eventId := row.event.eventId, accountId, symbol, reason, adjudicatedBy, requestId,
           exchangeQuantity, manualQuantity, payload }

/-- The rows of an account that are rebaselines. -/
def isRebaseline (accountId : String) (row : LedgerRow) : Bool :=
  row.event.accountId == accountId && row.event.eventType == rebaselineEventType

/-- One turn of the loop: a symbol keeps the first rebaseline the query gives. -/
def keepLatest (env : Env) (accountId : String) (baselines : Dict OwnershipBaseline)
    (row : LedgerRow) : Except LedgerFailure (Dict OwnershipBaseline) := do
  let baseline ← parseBaseline env accountId row
  return if (baselines.get? baseline.symbol).isSome then baselines
    else baselines.set baseline.symbol baseline

/-- The order of the query, latest first. -/
def latestFirst (env : Env) (accountId : String) (rows : List LedgerRow) : List LedgerRow :=
  (rows.filter (isRebaseline accountId)).insertionSort fun a b => ledgerBefore env b a

def loadLatestOwnershipBaselines (env : Env) (accountId : String) (rows : List LedgerRow) :
    Except LedgerFailure (Dict OwnershipBaseline) :=
  (latestFirst env accountId rows).foldlM (keepLatest env accountId) Dict.empty

/-- `load_robot_owned_balances` as it is called: the baselines first, where they apply. -/
def loadRebasedBalances (env : Env) (accountId : String) (applyRebaseline : Bool)
    (rows : List LedgerRow) : Except LedgerFailure (List OwnershipBalance) := do
  let baselines ←
    if applyRebaseline then loadLatestOwnershipBaselines env accountId rows else pure Dict.empty
  loadRobotOwnedBalances env (baselines.map OwnershipBaseline.toBaseline) accountId rows

/-! ## Writing -/

inductive RebaselineError where
  | symbolRequired
  | reasonRequired
  | adjudicatorRequired
  | requestIdRequired
  | quantityInvalid
  | quantitiesDisagree
  | decimalSignal
  deriving DecidableEq, Repr

/-- The text of an `OwnershipLedgerError`; a signal of the decimal context is none. -/
def RebaselineError.message : RebaselineError → Option String
  | symbolRequired => some "ownership symbol is required"
  | reasonRequired => some "ownership rebaseline reason is required"
  | adjudicatorRequired => some "ownership rebaseline adjudicator is required"
  | requestIdRequired => some "ownership rebaseline request id is required"
  | quantityInvalid => some "ownership rebaseline quantity is invalid"
  | quantitiesDisagree => some "exchange quantity must equal robot baseline plus manual quantity"
  | decimalSignal => none

/-- What `build_rebaseline_payload` is given. -/
structure RebaselineRequest where
  symbol : String
  baselineQuantity : Decimal
  reason : String
  adjudicatedBy : String
  requestId : String
  exchangeQuantity : Decimal
  manualQuantity : Decimal
  previousRobotOwnedQuantity : Decimal
  rawRobotFillQuantity : Decimal

def requireFinite : Decimal → Except RebaselineError FiniteDecimal
  | .finite d => .ok d
  | _ => .error .quantityInvalid

/-- `format(quantity, "f")`. -/
def formatted (d : FiniteDecimal) : Value := .str (String.ofList (fixedText d))

/-- The payload of a rebaseline. -/
def rebaselinePayload (targetSymbol reason adjudicatedBy requestId : String)
    (baselineQuantity exchangeQuantity manualQuantity previousRobotOwnedQuantity
      rawRobotFillQuantity : FiniteDecimal) : Dict Value :=
  Dict.empty
    |>.set "ownership_schema_version" (.str rebaselineSchemaVersion)
    |>.set "symbol" (.str targetSymbol)
    |>.set "instrument_id" (.str (targetSymbol ++ "-PERP.BINANCE"))
    |>.set "baseline_quantity" (formatted baselineQuantity)
    |>.set "exchange_quantity_at_baseline" (formatted exchangeQuantity)
    |>.set "manual_quantity_at_baseline" (formatted manualQuantity)
    |>.set "previous_robot_owned_quantity" (formatted previousRobotOwnedQuantity)
    |>.set "raw_robot_fill_quantity" (formatted rawRobotFillQuantity)
    |>.set "reason" (.str reason)
    |>.set "adjudicated_by" (.str adjudicatedBy)
    |>.set "request_id" (.str requestId)
    |>.set "cutoff_semantics" (.str "fills strictly after marker (ts_event,created_at,event_id)")

/-- `build_rebaseline_payload`. -/
def buildRebaselinePayload (env : Env) (request : RebaselineRequest) :
    Except RebaselineError (Dict Value) := do
  let targetSymbol := canonicalSymbol env (some (.str request.symbol))
  if targetSymbol = "" then throw .symbolRequired
  if strip request.reason = "" then throw .reasonRequired
  if strip request.adjudicatedBy = "" then throw .adjudicatorRequired
  if strip request.requestId = "" then throw .requestIdRequired
  let baselineQuantity ← requireFinite request.baselineQuantity
  let exchangeQuantity ← requireFinite request.exchangeQuantity
  let manualQuantity ← requireFinite request.manualQuantity
  let previousRobotOwnedQuantity ← requireFinite request.previousRobotOwnedQuantity
  let rawRobotFillQuantity ← requireFinite request.rawRobotFillQuantity
  let sum ← (Decimal.add baselineQuantity manualQuantity).elim (throw .decimalSignal) pure
  if sum.eq exchangeQuantity = false then throw .quantitiesDisagree
  return rebaselinePayload targetSymbol (strip request.reason) (strip request.adjudicatedBy)
    (strip request.requestId) baselineQuantity exchangeQuantity manualQuantity
    previousRobotOwnedQuantity rawRobotFillQuantity

/-! ## Positions -/

/-- `(ts_event, created_at, event_id)`. -/
def position (row : LedgerRow) : Nat ×ₗ Nat ×ₗ String :=
  toLex (row.event.tsEvent, toLex (row.createdAt, row.event.eventId))

/-- `cutoff`. -/
def Baseline.cutoff (b : Baseline) : Nat ×ₗ Nat ×ₗ String :=
  toLex (b.tsEvent, toLex (b.createdAt, b.eventId))

variable {row : LedgerRow} {rows : List LedgerRow}

theorem covered_iff {b : Baseline} : covered (some b) row = true ↔ position row ≤ b.cutoff := by
  simp only [covered, Option.any_some, decide_eq_true_eq, position, Baseline.cutoff, Prod.Lex.toLex_le_toLex]

/-- The database orders the ids of these events as Python does. -/
def Collates (env : Env) (rows : List LedgerRow) : Prop :=
  ∀ a ∈ rows, ∀ b ∈ rows,
    env.collate a.event.eventId b.event.eventId = true ↔ a.event.eventId ≤ b.event.eventId

theorem Collates.ledgerBefore_iff {env : Env} (h : Collates env rows) {a b : LedgerRow}
    (ha : a ∈ rows) (hb : b ∈ rows) : ledgerBefore env a b ↔ position a ≤ position b := by
  simp only [ledgerBefore, h a ha b hb, position, Prod.Lex.toLex_le_toLex]

theorem position_inj (hids : (rows.map fun row => row.event.eventId).Nodup) {a b : LedgerRow}
    (ha : a ∈ rows) (hb : b ∈ rows) (h : position a = position b) : a = b := by
  refine List.inj_on_of_nodup_map hids ha hb ?_
  have hpair := (Prod.mk.inj (toLex.injective h)).2
  exact (Prod.mk.inj (toLex.injective hpair)).2

/-! ## The latest rebaseline -/

theorem parseBaseline_cutoff {env : Env} {accountId : String} {b : OwnershipBaseline}
    (h : parseBaseline env accountId row = .ok b) : b.cutoff = position row := by
  unfold parseBaseline at h
  dsimp only at h
  split at h
  · cases h
  · split at h
    · cases h
    · obtain ⟨quantity, -, h⟩ := bind_ok h
      obtain ⟨exchange, -, h⟩ := bind_ok h
      obtain ⟨manual, -, h⟩ := bind_ok h
      obtain ⟨wrong, -, h⟩ := bind_ok h
      split at h
      · cases h
      · cases pure_ok h
        rfl

/-- Of these rebaselines, the one of a symbol with the greatest position, if any is one of it. -/
def IsLatest (env : Env) (accountId : String) (markers : List LedgerRow) (symbol : String) :
    Option OwnershipBaseline → Prop
  | none => ∀ row ∈ markers, ∀ b, parseBaseline env accountId row = .ok b → b.symbol ≠ symbol
  | some b => (∃ row ∈ markers, parseBaseline env accountId row = .ok b) ∧ b.symbol = symbol ∧
      ∀ row ∈ markers, ∀ other, parseBaseline env accountId row = .ok other → other.symbol = symbol →
        other.cutoff ≤ b.cutoff

section
variable {env : Env} {accountId symbol : String} {markers markers' : List LedgerRow}
  {baselines baselines' : Dict OwnershipBaseline}

/-- Only which rebaselines of the symbol there are counts. -/
theorem IsLatest.congr {latest : Option OwnershipBaseline}
    (hsame : ∀ b, b.symbol = symbol → ((∃ row ∈ markers, parseBaseline env accountId row = .ok b) ↔
      ∃ row ∈ markers', parseBaseline env accountId row = .ok b))
    (h : IsLatest env accountId markers symbol latest) : IsLatest env accountId markers' symbol latest := by
  cases latest with
  | none =>
    intro row hrow b hparse hsymbol
    obtain ⟨row', hrow', hparse'⟩ := (hsame b hsymbol).mpr ⟨row, hrow, hparse⟩
    exact h row' hrow' b hparse' hsymbol
  | some b =>
    obtain ⟨hfrom, hsymbol, hgreatest⟩ := h
    refine ⟨(hsame b hsymbol).mp hfrom, hsymbol, fun row hrow other hparse hother => ?_⟩
    obtain ⟨row', hrow', hparse'⟩ := (hsame other hother).mpr ⟨row, hrow, hparse⟩
    exact hgreatest row' hrow' other hparse' hother

theorem IsLatest.unique {first second : Option OwnershipBaseline}
    (hids : (markers.map fun row => row.event.eventId).Nodup)
    (h : IsLatest env accountId markers symbol first) (h' : IsLatest env accountId markers symbol second) :
    first = second := by
  cases first with
  | none =>
    cases second with
    | none => rfl
    | some b =>
      obtain ⟨⟨row, hrow, hparse⟩, hsymbol, -⟩ := h'
      exact absurd hsymbol (h row hrow b hparse)
  | some a =>
    obtain ⟨⟨row, hrow, hparse⟩, hsymbol, hgreatest⟩ := h
    cases second with
    | none => exact absurd hsymbol (h' row hrow a hparse)
    | some b =>
      obtain ⟨⟨row', hrow', hparse'⟩, hsymbol', hgreatest'⟩ := h'
      have hcutoff : a.cutoff = b.cutoff :=
        le_antisymm (hgreatest' row hrow a hparse hsymbol) (hgreatest row' hrow' b hparse' hsymbol')
      rw [parseBaseline_cutoff hparse, parseBaseline_cutoff hparse'] at hcutoff
      cases position_inj hids hrow hrow' hcutoff
      rw [hparse] at hparse'
      cases hparse'
      rfl

/-- One turn of the loop. -/
theorem keepLatest_ok {row : LedgerRow} (h : keepLatest env accountId baselines row = .ok baselines') :
    ∃ b, parseBaseline env accountId row = .ok b ∧
      ∀ symbol, baselines'.get? symbol =
        (baselines.get? symbol).or (if b.symbol = symbol then some b else none) := by
  unfold keepLatest at h
  obtain ⟨b, hparse, h⟩ := bind_ok h
  refine ⟨b, hparse, fun symbol => ?_⟩
  rw [← pure_ok h]
  by_cases hsymbol : b.symbol = symbol
  · subst hsymbol
    cases hget : baselines.get? b.symbol with
    | none => simp
    | some kept => simp [hget]
  · rw [if_neg hsymbol, Option.or_none]
    split_ifs
    · rfl
    · exact Dict.get?_set_ne (Ne.symm hsymbol)

/-- Over rows with the latest first, what is not there yet becomes the latest. -/
theorem foldlM_keepLatest (hsorted : markers.Pairwise fun a b => position b ≤ position a)
    (h : markers.foldlM (keepLatest env accountId) baselines = .ok baselines') :
    (∀ b, baselines.get? symbol = some b → baselines'.get? symbol = some b) ∧
      (baselines.get? symbol = none →
        IsLatest env accountId markers symbol (baselines'.get? symbol)) := by
  induction markers generalizing baselines with
  | nil =>
    cases pure_ok h
    refine ⟨fun b hb => hb, fun hnone => ?_⟩
    rw [hnone]
    exact fun row hrow => by simp at hrow
  | cons row markers ih =>
    rw [List.foldlM_cons] at h
    obtain ⟨next, hnext, h⟩ := bind_ok h
    obtain ⟨b, hparse, hget⟩ := keepLatest_ok hnext
    obtain ⟨hkept, hlatest⟩ := ih hsorted.of_cons h
    refine ⟨fun b hb => hkept b (by rw [hget, hb]; rfl), fun hnone => ?_⟩
    have hnext : next.get? symbol = if b.symbol = symbol then some b else none := by
      rw [hget, hnone, Option.none_or]
    by_cases hsymbol : b.symbol = symbol
    · -- this row is the first of the symbol, and no later one has a greater position
      rw [hkept b (by rw [hnext, if_pos hsymbol])]
      refine ⟨⟨row, List.mem_cons_self, hparse⟩, hsymbol, fun row' hrow' other hother _ => ?_⟩
      rw [parseBaseline_cutoff hparse, parseBaseline_cutoff hother]
      cases hrow' with
      | head => exact le_rfl
      | tail _ hrow' => exact List.rel_of_pairwise_cons hsorted hrow'
    · refine (hlatest (by rw [hnext, if_neg hsymbol])).congr fun other hother => ?_
      constructor
      · intro hfrom
        obtain ⟨row', hrow', hother'⟩ := hfrom
        exact ⟨row', List.mem_cons_of_mem _ hrow', hother'⟩
      · intro hfrom
        obtain ⟨row', hrow', hother'⟩ := hfrom
        cases hrow' with
        | head =>
          rw [hparse] at hother'
          cases hother'
          exact absurd hother hsymbol
        | tail _ hrow' => exact ⟨row', hrow', hother'⟩

theorem latestFirst_perm (rows : List LedgerRow) :
    (latestFirst env accountId rows).Perm (rows.filter (isRebaseline accountId)) :=
  List.perm_insertionSort _ _

theorem ledgerBefore_total (env : Env) (a b : LedgerRow) : ledgerBefore env a b ∨ ledgerBefore env b a := by
  rcases lt_trichotomy a.event.tsEvent b.event.tsEvent with h | h | h
  · exact .inl (.inl h)
  · rcases lt_trichotomy a.createdAt b.createdAt with h' | h' | h'
    · exact .inl (.inr ⟨h, .inl h'⟩)
    · rcases env.collate_total a.event.eventId b.event.eventId with hc | hc
      · exact .inl (.inr ⟨h, .inr ⟨h', hc⟩⟩)
      · exact .inr (.inr ⟨h.symm, .inr ⟨h'.symm, hc⟩⟩)
    · exact .inr (.inr ⟨h.symm, .inl h'⟩)
  · exact .inr (.inl h)

theorem ledgerBefore_trans {a b c : LedgerRow} (hab : ledgerBefore env a b) (hbc : ledgerBefore env b c) :
    ledgerBefore env a c := by
  have hcollate := env.collate_trans a.event.eventId b.event.eventId c.event.eventId
  unfold ledgerBefore at *
  grind

theorem latestFirst_sorted {rows : List LedgerRow} (hcollates : Collates env rows) :
    (latestFirst env accountId rows).Pairwise fun a b => position b ≤ position a := by
  have hmem {row : LedgerRow} (h : row ∈ latestFirst env accountId rows) : row ∈ rows :=
    List.mem_of_mem_filter ((latestFirst_perm rows).mem_iff.mp h)
  have : Std.Total fun a b => ledgerBefore env b a := ⟨fun a b => ledgerBefore_total env b a⟩
  have : IsTrans LedgerRow fun a b => ledgerBefore env b a := ⟨fun a b c hab hbc =>
    ledgerBefore_trans hbc hab⟩
  have hpair := List.pairwise_insertionSort (fun a b => ledgerBefore env b a)
    (rows.filter (isRebaseline accountId))
  exact hpair.imp_of_mem fun ha hb hab => (hcollates.ledgerBefore_iff (hmem hb) (hmem ha)).mp hab

end

/-! ## Writing and reading back -/

section
variable {env : Env}

variable (d : FiniteDecimal) {payload : Dict Value} {request : RebaselineRequest}

theorem spread_value : d.spread.value = d.value := by
  rw [FiniteDecimal.value_of_sign, FiniteDecimal.value_of_sign d, FiniteDecimal.abs_value,
    FiniteDecimal.abs_value d]
  have hsplit : (10 : ℚ) ^ d.exponent = ((10 ^ d.exponent.toNat : Nat) : ℚ) * 10 ^ min d.exponent 0 := by
    rw [ten_zpow_split (min_le_left d.exponent 0)]
    congr 3
    omega
  show (if d.negative then -(((d.coeff * 10 ^ d.exponent.toNat : Nat) : ℚ) * 10 ^ min d.exponent 0)
    else ((d.coeff * 10 ^ d.exponent.toNat : Nat) : ℚ) * 10 ^ min d.exponent 0) = _
  rw [hsplit, Nat.cast_mul, mul_assoc]

theorem finiteDecimal_formatted : finiteDecimal env (some (formatted d)) = .ok d.spread := by
  have hread : Decimal.ofValue env.unicode (formatted d) =
      Decimal.ofText env.unicode (String.ofList (fixedText d)).toList := rfl
  unfold finiteDecimal
  rw [Option.bind_some, hread, String.toList_ofList, ofText_fixedText]

theorem optionalDecimal_formatted (env : Env) {fieldName : String} {d : FiniteDecimal}
    (h : payload.get? fieldName = some (formatted d)) :
    optionalDecimal env payload fieldName = .ok (some d.spread) := by
  unfold optionalDecimal
  rw [h]
  show (finiteDecimal env (some (formatted d))).map some = _
  rw [finiteDecimal_formatted]
  rfl

theorem truthy_text {s : String} (h : s ≠ "") : (Value.str s).truthy = true := by
  rw [Value.truthy]
  exact decide_eq_true h

theorem strippedText_of {fieldName text : String} (htext : text ≠ "")
    (h : payload.get? fieldName = some (.str text)) :
    strippedText env payload fieldName = strip text := by
  unfold strippedText Json.orElse
  rw [h]
  dsimp only
  rw [if_pos (truthy_text htext)]
  dsimp only
  rw [env.str_str]

theorem requireFinite_ok {d : Decimal} {r : FiniteDecimal} (h : requireFinite d = .ok r) : d = .finite r := by
  cases d with
  | finite d =>
    cases h
    rfl
  | infinity negative => cases h
  | nan negative signaling payload => cases h

/-- What a payload that is built says. -/
theorem buildRebaselinePayload_ok (h : buildRebaselinePayload env request = .ok payload) :
    canonicalSymbol env (some (.str request.symbol)) ≠ "" ∧ strip request.reason ≠ "" ∧
      strip request.adjudicatedBy ≠ "" ∧ strip request.requestId ≠ "" ∧
      ∃ baseline exchange manual previous raw sum, request.baselineQuantity = .finite baseline ∧
        request.manualQuantity = .finite manual ∧
        Decimal.add baseline manual = some sum ∧ sum.value = exchange.value ∧
        payload = rebaselinePayload (canonicalSymbol env (some (.str request.symbol)))
          (strip request.reason) (strip request.adjudicatedBy) (strip request.requestId)
          baseline exchange manual previous raw := by
  unfold buildRebaselinePayload at h
  dsimp only at h
  split at h
  · cases h
  rename_i hsymbol
  split at h
  · cases h
  rename_i hreason
  split at h
  · cases h
  rename_i hadjudicated
  split at h
  · cases h
  rename_i hrequest
  obtain ⟨baseline, hbaseline, h⟩ := bind_ok h
  obtain ⟨exchange, -, h⟩ := bind_ok h
  obtain ⟨manual, hmanual, h⟩ := bind_ok h
  obtain ⟨previous, -, h⟩ := bind_ok h
  obtain ⟨raw, -, h⟩ := bind_ok h
  obtain ⟨sum, hsum, h⟩ := bind_ok h
  split at h
  · cases h
  rename_i heq
  refine ⟨hsymbol, hreason, hadjudicated, hrequest, baseline, exchange, manual, previous, raw, sum,
    requireFinite_ok hbaseline, requireFinite_ok hmanual, ?_, ?_, (pure_ok h).symm⟩
  · cases hadd : Decimal.add baseline manual with
    | none =>
      rw [hadd] at hsum
      cases hsum
    | some c =>
      rw [hadd] at hsum
      cases hsum
      rfl
  · rw [Bool.not_eq_false] at heq
    exact FiniteDecimal.eq_iff.mp heq

/-- A rebaseline that was built is read back as what it was built from, while its sum fits. -/
theorem parseBaseline_built {e : Int} (he : InContext e) {accountId : String} {row : LedgerRow}
    {baseline manual : FiniteDecimal}
    (h : buildRebaselinePayload env request = .ok row.event.payload)
    (hbaseline : request.baselineQuantity = .finite baseline)
    (hmanual : request.manualQuantity = .finite manual)
    (hfits : Fits e (baseline.value + manual.value))
    (hsettled : canonicalSymbol env (some (.str (canonicalSymbol env (some (.str request.symbol))))) =
      canonicalSymbol env (some (.str request.symbol))) :
    ∃ b, parseBaseline env accountId row = .ok b ∧
      b.symbol = canonicalSymbol env (some (.str request.symbol)) ∧ b.quantity.value = baseline.value := by
  obtain ⟨hsymbol, hreason, hadjudicated, hrequest, baseline', exchange, manual', previous, raw, sum,
    hb, hm, hsum, hexchange, hpayload⟩ := buildRebaselinePayload_ok h
  rw [hbaseline] at hb
  cases hb
  rw [hmanual] at hm
  cases hm
  -- what is written with `format(.., "f")` is read back as the same number
  obtain ⟨c, hc, hcvalue⟩ := add_exact he hfits
  rw [hsum] at hc
  cases hc
  obtain ⟨c, hc, hcvalue'⟩ := add_exact (a := baseline.spread) (b := manual.spread) he
    (by rw [spread_value, spread_value]; exact hfits)
  have hagrees : disagrees baseline.spread (some manual.spread) (some exchange.spread) = .ok false := by
    unfold disagrees ledgerSum
    dsimp only
    rw [hc]
    have heq : c.eq exchange.spread = true := by
      rw [FiniteDecimal.eq_iff, hcvalue', spread_value, spread_value, spread_value, ← hcvalue, hexchange]
    show Except.ok (!c.eq exchange.spread) = _
    rw [heq]
    rfl
  have hsymbolField : Json.orElse (row.event.payload.get? "symbol") (row.event.payload.get? "instrument_id") =
      some (.str (canonicalSymbol env (some (.str request.symbol)))) := by
    rw [hpayload]
    simp [rebaselinePayload, Dict.get?_set, Json.orElse, truthy_text hsymbol]
  have hschema : row.event.payload.get? "ownership_schema_version" = some (.str rebaselineSchemaVersion) := by
    rw [hpayload]
    simp [rebaselinePayload, Dict.get?_set]
  have htext (name text : String) (htext : strip text ≠ "")
      (hget : row.event.payload.get? name = some (.str (strip text))) :
      strippedText env row.event.payload name = strip text := by
    rw [strippedText_of htext hget, strip_strip]
  have hreasonText := htext "reason" _ hreason (by rw [hpayload]; simp [rebaselinePayload, Dict.get?_set])
  have hadjudicatedText := htext "adjudicated_by" _ hadjudicated
    (by rw [hpayload]; simp [rebaselinePayload, Dict.get?_set])
  have hrequestText := htext "request_id" _ hrequest
    (by rw [hpayload]; simp [rebaselinePayload, Dict.get?_set])
  have hquantity : finiteDecimal env (row.event.payload.get? "baseline_quantity") = .ok baseline.spread := by
    rw [show row.event.payload.get? "baseline_quantity" = some (formatted baseline) by
      rw [hpayload]; simp [rebaselinePayload, Dict.get?_set]]
    exact finiteDecimal_formatted baseline
  have hexchangeRead := optionalDecimal_formatted env
    (show row.event.payload.get? "exchange_quantity_at_baseline" = some (formatted exchange) by
      rw [hpayload]; simp [rebaselinePayload, Dict.get?_set])
  have hmanualRead := optionalDecimal_formatted env
    (show row.event.payload.get? "manual_quantity_at_baseline" = some (formatted manual) by
      rw [hpayload]; simp [rebaselinePayload, Dict.get?_set])
  unfold parseBaseline
  dsimp only
  rw [if_neg (not_not_intro hschema), hsymbolField, hsettled, hreasonText, hadjudicatedText, hrequestText,
    if_neg (by simp [hsymbol, hreason, hadjudicated, hrequest]), hquantity, ok_bind, hexchangeRead, ok_bind,
    hmanualRead, ok_bind, hagrees, ok_bind]
  exact ⟨_, rfl, rfl, spread_value baseline⟩

end

end TraderBot.Ownership
