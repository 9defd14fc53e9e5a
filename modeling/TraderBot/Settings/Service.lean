import TraderBot.Settings.Schema

/-! # The settings service

Settings are kept in layers: one for all, one for each account and one for each
instrument, every one with its versions. `resolve_effective_settings` merges the
layers of a target over the defaults; `SettingsService` changes one layer at a time,
by a patch, by a rollback to an earlier version, or by an import, which is a patch.

The rows of the two tables are kept without who wrote them and why. Whether the audit
row, the outbox event and the connection let a transaction commit is answered from
outside. -/
namespace TraderBot.Settings
open TraderBot.Lib TraderBot.Lib.Text TraderBot.Lib.Json
open TraderBot.Lib.Decimal (Extended)

/-- What the interpreter does with texts: `str`, `repr` and `float` of a text. -/
structure Env where
  unicode : Unicode
  str : Value → String
  repr : String → String
  floatText : String → Option JsonFloat

/-! ## Scopes -/

inductive Scope where
  | global
  | account
  | instrument
  deriving DecidableEq, Repr

/-- Where an effective value comes from. -/
inductive Source where
  | systemDefault
  | layer (scope : Scope)
  deriving DecidableEq, Repr

def Scope.text : Scope → String
  | .global => "global"
  | .account => "account"
  | .instrument => "instrument"

section
variable (env : Env)

/-- `canonical_account_id`. -/
def canonicalAccountId (x : String) : Except String String :=
  if strip x = "" then .error "account_id must not be empty" else .ok (strip x)

/-- `venue_symbol`. -/
def venueSymbol (x : String) : String :=
  env.unicode.upper (strip (before '-' (before '.' (strip x))))

/-- `canonical_scope_key` of a scope there is. -/
def canonicalScopeKey (scope : Scope) (scopeKey : Option String) : Except String String :=
  match scope with
  | .global => .ok "global"
  | .account => canonicalAccountId (scopeKey.getD "")
  | .instrument => .ok (venueSymbol env (scopeKey.getD ""))

/-- The scope a text names; the error is a `ValueError`'s. -/
def parseScope (text : String) : Except String Scope :=
  let value := env.unicode.lower (strip (if text = "" then "global" else text))
  if value = "global" then .ok .global
  else if value = "account" then .ok .account
  else if value = "instrument" then .ok .instrument
  else .error ("unsupported settings scope " ++ env.repr value)

/-- `scope_chain`. -/
def scopeChain (accountId instrumentId : Option String) : Except String (List (Scope × String)) := do
  let account ← match accountId with
    | some _ => do pure [(Scope.account, ← canonicalScopeKey env .account accountId)]
    | none => pure []
  let instrument ← match instrumentId with
    | some _ => do pure [(Scope.instrument, ← canonicalScopeKey env .instrument instrumentId)]
    | none => pure []
  return (.global, "global") :: account ++ instrument

/-- `target_scope`. -/
def targetScope (accountId instrumentId : Option String) : Scope :=
  if instrumentId.isSome then .instrument else if accountId.isSome then .account else .global

/-! ## Effective settings -/

/-- The settings of a scope and a key, empty where there are none. -/
abbrev Layers : Type := Scope → String → Settings

structure Current where
  value : Value
  source : Source
  deriving DecidableEq

/-- `_merge_layer`, seen from one field. -/
def mergeLayer (category fieldName : String) (current : Current) (scope : Scope) (layer : Settings) :
    Current :=
  match layer.set? category fieldName with
  | some value => ⟨value, .layer scope⟩
  | none => current

/-- A field's default, with the layers of a chain merged over it. -/
def mergeLayers (layers : Layers) (chain : List (Scope × String)) (category fieldName : String)
    (field : FieldDescriptor) : Current :=
  chain.foldl (fun current s => mergeLayer category fieldName current s.1 (layers s.1 s.2))
    ⟨field.default, .systemDefault⟩

structure ResolvedField where
  value : Value
  sourceScope : Source
  inherited : Bool
  errors : List SettingsError
  applyMode : ApplyMode

abbrev Effective : Type := List (String × List (String × ResolvedField))

def Effective.field? (effective : Effective) (category fieldName : String) : Option ResolvedField :=
  (Dict.lookup category effective).bind (Dict.lookup fieldName)

/-- What is returned of one field. -/
def resolveField (layers : Layers) (chain : List (Scope × String)) (target : Scope)
    (category fieldName : String)
    (field : FieldDescriptor) : ResolvedField :=
  let current := mergeLayers layers chain category fieldName field
  { value := current.value
    sourceScope := current.source
    inherited := decide (current.source ≠ .layer target)
    errors := categoryErrors category (.obj [(fieldName, current.value)])
    applyMode := field.applyMode }

/-- `resolve_effective_settings`. -/
def resolveEffectiveSettings (layers : Layers) (accountId instrumentId : Option String) :
    Except String Effective := do
  let chain ← scopeChain env accountId instrumentId
  return categories.map fun c =>
    (c.1, c.2.map fun f => (f.1, resolveField layers chain (targetScope accountId instrumentId) c.1 f.1 f.2))

/-! ## Permissions -/

inductive WriteOperation where
  | patch
  | rollback
  | importing
  deriving DecidableEq, Repr

def WriteOperation.text : WriteOperation → String
  | .patch => "patch"
  | .rollback => "rollback"
  | .importing => "import"

/-- `SETTINGS_ROLE_PERMISSIONS`. -/
def rolePermissions : List (String × List String) :=
  [ ("viewer", ["read", "validate", "export"]),
    ("operator", ["read", "validate", "export", "patch"]),
    ("risk_admin", ["read", "validate", "export", "patch", "rollback", "import"]) ]

/-- `has_settings_permission`. -/
def hasSettingsPermission (role operation : String) : Bool :=
  (Dict.lookup role rolePermissions).any (·.contains operation)

/-- `RISK_INCREASE_FIELDS`, of the category `money`. -/
def riskIncreaseFields : List String :=
  ["fixed_notional", "equity_fraction", "risk_per_trade_pct", "max_notional_per_order", "max_leverage",
    "max_open_positions", "max_instrument_exposure", "max_correlated_exposure", "max_total_risk_pct",
    "daily_loss_limit_pct", "max_drawdown_pct"]

/-- `RISK_DECREASE_FIELDS`, of the category `money`. -/
def riskDecreaseFields : List String := ["minimum_free_margin_pct", "reserve_balance_pct"]

/-- `DISCONNECT_ACTION_RANK.get(action, 0)`. -/
def disconnectActionRank (action : String) : Nat :=
  if action = "reducing" then 1 else if action = "hold" then 2 else 0

/-- `_path` of `_with_defaults`: a layer's value of a field, else the default. -/
def withDefaults (settings : Settings) (category fieldName : String) : Value :=
  match fieldDescriptor category fieldName with
  | some field => (settings.set? category fieldName).getD field.default
  | none => .null

/-- `_number`; `none` is NaN. -/
def number (value : Value) : Option Extended :=
  match value with
  | .int _ | .float _ => value.rank
  | .bool b => some (((if b then 1 else 0 : ℚ) : WithTop ℚ) : Extended)
  | .str s =>
    match env.floatText s with
    | some x => x.rank
    | none => some (((0 : ℚ) : WithTop ℚ) : Extended)
  | .null | .arr _ | .obj _ => some (((0 : ℚ) : WithTop ℚ) : Extended)

/-- `a < b` of floats. -/
def floatLt (a b : Option Extended) : Bool :=
  match a, b with
  | some a, some b => decide (a < b)
  | _, _ => false

/-- `requires_live_risk_confirmation`. -/
def requiresLiveRiskConfirmation (before after : Settings) : Bool :=
  let live := Value.str "live"
  if withDefaults after "general" "execution_mode" ≠ live ∧
      withDefaults before "general" "execution_mode" ≠ live then false
  else
    (riskIncreaseFields.any fun name =>
      floatLt (number env (withDefaults before "money" name)) (number env (withDefaults after "money" name))) ||
    (riskDecreaseFields.any fun name =>
      floatLt (number env (withDefaults after "money" name)) (number env (withDefaults before "money" name))) ||
    (withDefaults before "protection" "require_stop" == .bool true &&
      withDefaults after "protection" "require_stop" == .bool false) ||
    decide (disconnectActionRank (env.str (withDefaults before "price_monitor" "disconnect_action")) <
      disconnectActionRank (env.str (withDefaults after "price_monitor" "disconnect_action")))

structure Actor where
  actorId : String
  role : String
  deriving DecidableEq, Repr

/-- `confirm=true` and an `operator_signoff` that is not blank. -/
def signedOff (confirm : Option Bool) (operatorSignoff : Option String) : Bool :=
  confirm == some true && strip (operatorSignoff.getD "") != ""

/-- `assert_can_write_settings`; the error is a `SettingsPermissionDenied`'s. -/
def assertCanWriteSettings (actor : Actor) (operation : WriteOperation) (before after : Settings)
    (confirm : Option Bool) (operatorSignoff : Option String) : Except String Actor :=
  let actorId := strip actor.actorId
  let role := strip actor.role
  if actorId = "" ∨ role = "" then .error "settings actor required"
  else if hasSettingsPermission role operation.text = false then
    .error (role ++ " cannot " ++ operation.text ++ " order-management settings")
  else if requiresLiveRiskConfirmation env before after = true ∧
    signedOff confirm operatorSignoff = false then
    .error "live risk relaxation requires confirm=true and operator_signoff"
  else .ok ⟨actorId, role⟩

end

/-! ## The tables -/

/-- A row of `order_management_settings`. -/
structure SettingsRow where
  scope : Scope
  scopeKey : String
  version : Nat
  settings : Settings

/-- A row of `order_management_setting_versions`. -/
structure VersionRow extends SettingsRow where
  previousVersion : Option Nat

structure Store where
  rows : List SettingsRow
  versions : List VersionRow

namespace Store

def empty : Store := ⟨[], []⟩

def isOf (scope : Scope) (scopeKey : String) (row : SettingsRow) : Bool :=
  row.scope == scope && row.scopeKey == scopeKey

/-- `ORDER BY version DESC LIMIT 1`. -/
def latest (rows : List SettingsRow) : Option SettingsRow :=
  rows.foldl (fun best row => if best.all fun b => b.version < row.version then some row else best) none

/-- `get_current_settings`: the version, 0 where there is none, and the settings. -/
def getCurrentSettings (store : Store) (scope : Scope) (scopeKey : String) : Nat × Settings :=
  match latest (store.rows.filter (isOf scope scopeKey)) with
  | some row => (row.version, row.settings)
  | none => (0, Dict.empty)

/-- The layers `fetch_latest_settings_by_scope` reads. -/
def layers (store : Store) : Layers := fun scope scopeKey => (store.getCurrentSettings scope scopeKey).2

/-- `get_version`; `none` is a `KeyError`. -/
def getVersion (store : Store) (scope : Scope) (scopeKey : String) (version : Int) : Option VersionRow :=
  store.versions.find? fun row => isOf scope scopeKey row.toSettingsRow && (row.version : Int) == version

end Store

/-- What a `jsonb` column keeps of settings; `none` is refused. -/
def storedSettings (settings : Settings) : Option Settings :=
  let kept := fun (category : String) (fields : Dict Value) =>
    if Jsonb.storableText category then Jsonb.storedDict fields else none
  if settings.items.all fun p => (kept p.1 p.2).isSome then some (settings.filterMap kept) else none

/-- The largest value of an `integer` column. -/
def maxVersion : Nat := 2147483647

/-- `insert_settings_version`; `none` is an error of the database. -/
def insertSettingsVersion (store : Store) (scope : Scope) (scopeKey : String) (version : Nat)
    (previousVersion : Option Nat) (settings : Settings) : Option Store :=
  let taken := store.rows.any (fun row => Store.isOf scope scopeKey row && row.version == version) ||
    store.versions.any fun row => Store.isOf scope scopeKey row.toSettingsRow && row.version == version
  match storedSettings settings with
  | some kept =>
    if taken = false ∧ 0 < version ∧ version ≤ maxVersion ∧ Jsonb.storableText scopeKey = true then
      let row : SettingsRow := { scope, scopeKey, version, settings := kept }
      some { rows := store.rows ++ [row], versions := store.versions ++ [{ row with previousVersion }] }
    else none
  | none => none

/-! ## The service -/

inductive Refusal where
  | serviceError (code message : String) (statusCode : Nat) (errors : List SettingsError)
  | permissionDenied (message : String)
  /-- An exception of the transaction, which is rolled back. -/
  | aborted
  deriving DecidableEq

/-- What every change of settings is asked with. -/
structure Change where
  scope : String
  scopeKey : Option String
  expectedVersion : Option Int
  reason : String
  requestId : String
  actor : Actor
  confirm : Option Bool
  operatorSignoff : Option String

/-- `apply_patch_to_settings` of one field: a null takes the field away. -/
def applyField (target : Dict Value) (p : String × Value) : Dict Value :=
  match p.2 with
  | .null => target.erase p.1
  | value => target.set p.1 value

/-- `apply_patch_to_settings` of one category: one without fields is taken away. -/
def applyCategory (merged : Settings) (p : String × Dict Value) : Settings :=
  let target := p.2.items.foldl applyField ((merged.get? p.1).getD Dict.empty)
  if target.items = [] then merged.erase p.1 else merged.set p.1 target

/-- `apply_patch_to_settings`. -/
def applyPatchToSettings (current patch : Settings) : Settings := patch.items.foldl applyCategory current

section
variable (env : Env) (store : Store)

/-- `_scope`. -/
def scopeOf (change : Change) : Except Refusal (Scope × String) :=
  match parseScope env change.scope with
  | .error message => .error (.serviceError "invalid_scope" message 400 [])
  | .ok scope =>
    match canonicalScopeKey env scope change.scopeKey with
    | .error message => .error (.serviceError "invalid_scope" message 400 [])
    | .ok key => .ok (scope, key)

def refuseUnless (p : Prop) [Decidable p] (refusal : Refusal) : Except Refusal Unit :=
  if p then .ok () else .error refusal

def orRefuse {α : Type} (x : Option α) (refusal : Refusal) : Except Refusal α :=
  match x with
  | some a => .ok a
  | none => .error refusal

/-- The checks on the reason and the id of a request. -/
def checkReasons (change : Change) : Except Refusal Unit := do
  refuseUnless (strip change.reason ≠ "") (.serviceError "reason_required" "reason is required" 400 [])
  refuseUnless (strip change.requestId ≠ "") (.serviceError "request_id_required" "request_id is required" 400 [])

def versionConflict (errors : List SettingsError) : Refusal :=
  .serviceError "version_conflict" "settings version conflict" 409 errors

/-- The transaction of a change of a layer, from the check of the actor on. -/
def writeSettings (operation : WriteOperation) (change : Change) (scope : Scope) (scopeKey : String)
    (after : Settings) (commits : Bool) : Except Refusal Store :=
  let current := store.getCurrentSettings scope scopeKey
  match assertCanWriteSettings env change.actor operation current.2 after change.confirm
      change.operatorSignoff with
  | .error message => .error (.permissionDenied message)
  | .ok _ =>
    let previous := if current.1 = 0 then none else some current.1
    match insertSettingsVersion store scope scopeKey (current.1 + 1) previous after with
    | some store => if commits then .ok store else .error .aborted
    | none => .error .aborted

/-- The settings a patch makes of a layer. -/
def patched (store : Store) (scope : Scope) (scopeKey : String) (patch : Dict Value) : Settings :=
  applyPatchToSettings (store.layers scope scopeKey) (validateSettings patch).normalized

/-- `patch_settings`. -/
def patchSettings (change : Change) (patch : Dict Value) (commits : Bool) : Except Refusal Store := do
  let expected ← orRefuse change.expectedVersion
    (.serviceError "expected_version_required" "expected_version is required" 400 [])
  checkReasons change
  let layer ← scopeOf env change
  let errors := (validateSettings patch).errors
  refuseUnless (errors = []) (.serviceError "validation_failed" "settings patch failed validation" 400 errors)
  let version := (store.getCurrentSettings layer.1 layer.2).1
  refuseUnless ((version : Int) = expected) (versionConflict
    [⟨"expected_version", "expected " ++ toString expected ++ ", current " ++ toString version⟩])
  let after := patched store layer.1 layer.2 patch
  let errors := (validateSettings after.raw).errors
  refuseUnless (errors = [])
    (.serviceError "validation_failed" "resulting settings failed validation" 400 errors)
  writeSettings env store .patch change layer.1 layer.2 after commits

/-- `rollback_settings`. -/
def rollbackSettings (change : Change) (targetVersion : Int) (commits : Bool) : Except Refusal Store := do
  refuseUnless (change.confirm = some true)
    (.serviceError "confirmation_required" "rollback requires confirm=true" 400 [])
  checkReasons change
  let layer ← scopeOf env change
  let target ← orRefuse (store.getVersion layer.1 layer.2 targetVersion) (.serviceError "version_not_found"
    (env.repr ("settings version not found: " ++ layer.1.text ++ ":" ++ layer.2 ++ ":" ++ toString targetVersion))
    404 [])
  -- `int(None)` raises
  let expected ← orRefuse change.expectedVersion .aborted
  refuseUnless (((store.getCurrentSettings layer.1 layer.2).1 : Int) = expected) (versionConflict [])
  writeSettings env store .rollback change layer.1 layer.2 target.settings commits

structure ImportValidation where
  errors : List SettingsError
  /-- Codes and messages. -/
  warnings : List (String × String)
  settings : Settings

/-- The categories of a payload that are objects. -/
def objectCategories (settings : Dict Value) : Settings :=
  settings.filterMap fun _ value =>
    match value with
    | .obj members => some (Dict.ofPairs members)
    | _ => none

/-- The settings a payload carries. -/
def payloadSettings (payload : Dict Value) : Option (Dict Value) :=
  match payload.get? "settings" with
  | some (.obj members) => some (Dict.ofPairs members)
  | _ => none

/-- `validate_import_payload`. -/
def validateImportPayload (payload : Dict Value) (currentEnvironment : String) (before : Settings) :
    ImportValidation :=
  let settings := payloadSettings payload
  let validation := validateSettings (settings.getD Dict.empty)
  let environment := strip ((orElse (payload.get? "environment") none).elim "" env.str)
  { errors := validation.errors
    warnings :=
      (if environment ≠ "" ∧ environment ≠ currentEnvironment then
        [("environment_mismatch",
          "import environment " ++ environment ++ " differs from " ++ currentEnvironment)]
      else []) ++
      if settings.any fun settings => requiresLiveRiskConfirmation env before (objectCategories settings) then
        [("risk_relaxation", "import relaxes live risk settings and requires confirmation")]
      else []
    settings := if validation.errors = [] then validation.normalized else Dict.empty }

/-- `import_settings`. -/
def importSettings (change : Change) (payload : Dict Value) (currentEnvironment : String) (commits : Bool) :
    Except Refusal Store := do
  let layer ← scopeOf env change
  let validation := validateImportPayload env payload currentEnvironment (store.layers layer.1 layer.2)
  refuseUnless (validation.errors = [])
    (.serviceError "validation_failed" "settings import failed validation" 400 validation.errors)
  match assertCanWriteSettings env change.actor .importing Dict.empty Dict.empty none none with
  | .error message => throw (.permissionDenied message)
  | .ok _ => patchSettings env store change validation.settings.raw commits

end

/-! ## Runs -/

inductive Operation where
  | patch (settings : Dict Value)
  | rollback (targetVersion : Int)
  | importing (payload : Dict Value) (currentEnvironment : String)

/-- A change that is asked for, and whether its transaction can commit. -/
structure Request where
  change : Change
  operation : Operation
  commits : Bool

/-- What a request comes to. -/
def perform (env : Env) (store : Store) (request : Request) : Except Refusal Store :=
  match request.operation with
  | .patch settings => patchSettings env store request.change settings request.commits
  | .rollback targetVersion => rollbackSettings env store request.change targetVersion request.commits
  | .importing payload currentEnvironment =>
    importSettings env store request.change payload currentEnvironment request.commits

/-- A refused request leaves the tables as they are. -/
def step (env : Env) (store : Store) (request : Request) : Store :=
  match perform env store request with
  | .ok store => store
  | .error _ => store

/-- The tables after requests of any kind on any scopes. -/
def run (env : Env) (requests : List Request) : Store := requests.foldl (step env) Store.empty

end TraderBot.Settings
