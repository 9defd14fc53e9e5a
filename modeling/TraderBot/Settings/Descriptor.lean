import TraderBot.Lib.JsonNumber

/-! # The descriptor of the order-management settings

`order_management_settings.v1.json`: the fields a setting can have, category by
category, with their types, defaults and bounds, when a change applies, and whether
the layer of an account or an instrument may set them. -/
namespace TraderBot.Settings
open TraderBot.Lib TraderBot.Lib.Json

inductive FieldType where
  | number
  | integer
  | boolean
  | string
  | enum
  deriving DecidableEq, Repr

inductive ApplyMode where
  | hotReload
  | restartRequired
  deriving DecidableEq, Repr

structure FieldDescriptor where
  type : FieldType
  default : Value
  min : Option Int
  max : Option Int
  enum : List String
  applyMode : ApplyMode
  scopeOverridable : Bool

namespace FieldDescriptor

/-- A field of a type and a default that applies at once and that every scope may set. -/
def plain (type : FieldType) (default : Value) : FieldDescriptor where
  type
  default
  min := none
  max := none
  enum := []
  applyMode := .hotReload
  scopeOverridable := true

def flag (default : Bool) : FieldDescriptor := plain .boolean (.bool default)

def text (default : String) : FieldDescriptor := plain .string (.str default)

def whole (default min max : Int) : FieldDescriptor :=
  { plain .integer (.int default) with min := some min, max := some max }

def amount (default : Value) (min max : Int) : FieldDescriptor :=
  { plain .number default with min := some min, max := some max }

def choice (default : String) (enum : List String) : FieldDescriptor :=
  { plain .enum (.str default) with enum }

def onRestart (field : FieldDescriptor) : FieldDescriptor := { field with applyMode := .restartRequired }

def globalOnly (field : FieldDescriptor) : FieldDescriptor := { field with scopeOverridable := false }

end FieldDescriptor

open FieldDescriptor

/-! ## The categories -/

def generalFields : List (String × FieldDescriptor) :=
  [ ("order_manager_enabled", flag false),
    ("execution_mode", (choice "shadow" ["shadow", "testnet", "live"]).onRestart),
    ("risk_posture", choice "HALTED" ["ACTIVE", "REDUCING", "HALTED"]),
    ("allowed_instruments", (text "").onRestart),
    ("default_account_id", (text "").onRestart.globalOnly),
    ("max_concurrent_execution_jobs", whole 1 1 100),
    ("intent_ttl_seconds", whole 300 1 86400),
    ("idempotency_retention_days", (whole 30 1 365).globalOnly),
    ("default_command_timeout_seconds", whole 30 1 3600) ]

def entryFields : List (String × FieldDescriptor) :=
  [ ("default_order_type", choice "limit" ["market", "limit", "zone"]),
    ("time_in_force", choice "GTC" ["GTC", "IOC", "FOK", "GTD"]),
    ("post_only", flag false),
    ("max_slippage_bps", amount (.int 25) 0 1000),
    ("limit_offset_bps", amount (.int 5) 0 1000),
    ("unfilled_timeout_seconds", whole 60 1 86400),
    ("reprice_interval_seconds", whole 10 1 3600),
    ("max_reprices", whole 3 0 100),
    ("max_submit_retries", whole 3 0 100),
    ("submit_retry_backoff_seconds", amount (.int 1) 0 3600),
    ("partial_fill_policy", choice "cancel_remainder"
      ["keep_remainder", "cancel_remainder", "convert_remainder_to_market", "abort_and_reduce_filled"]),
    ("minimum_fill_ratio", amount (.float (.finite ['0', '.', '9', '5'] rfl)) 0 1),
    ("partial_fill_timeout_seconds", whole 30 1 86400),
    ("market_conversion_max_slippage_bps", amount (.int 50) 0 2000) ]

def protectionFields : List (String × FieldDescriptor) :=
  [ ("require_stop", flag true),
    ("stop_order_type", choice "stop_market" ["stop_market", "stop_limit"]),
    ("stop_trigger_basis", choice "mark" ["mark", "last"]),
    ("protection_install_timeout_seconds", whole 15 1 3600),
    ("take_profit_ladder", text ""),
    ("breakeven_enabled", flag false),
    ("breakeven_trigger_r", amount (.int 1) 0 100),
    ("breakeven_offset_bps", amount (.int 0) (-1000) 1000),
    ("trailing_stop_enabled", flag false),
    ("trailing_activation_r", amount (.float (.finite ['1', '.', '5'] rfl)) 0 100),
    ("trailing_callback_rate", amount (.float (.finite ['0', '.', '5'] rfl)) 0 100),
    ("trailing_min_step_bps", amount (.int 5) 0 10000),
    ("trailing_update_rate_limit_seconds", whole 5 1 3600),
    ("partial_close_default_fraction", amount (.float (.finite ['0', '.', '2', '5'] rfl)) 0 1),
    ("replace_protection_behavior", choice "cancel_replace" ["cancel_replace", "amend_in_place"]),
    ("protection_repair_policy", choice "reducing" ["halt", "reducing", "auto_repair", "alert_only"]) ]

def moneyFields : List (String × FieldDescriptor) :=
  [ ("sizing_mode", choice "fixed_risk" ["fixed_risk", "fixed_notional", "equity_fraction"]),
    ("fixed_notional", amount (.int 0) 0 1000000000),
    ("equity_fraction", amount (.int 0) 0 1),
    ("risk_per_trade_pct", amount (.int 0) 0 10),
    ("max_notional_per_order", amount (.int 0) 0 1000000000),
    ("max_leverage", amount (.int 1) 1 125),
    ("max_open_positions", whole 0 0 1000),
    ("max_instrument_exposure", amount (.int 0) 0 1000000000),
    ("max_correlated_exposure", amount (.int 0) 0 1000000000),
    ("max_total_risk_pct", amount (.int 0) 0 100),
    ("minimum_free_margin_pct", amount (.int 100) 0 100),
    ("reserve_balance_pct", amount (.int 100) 0 100),
    ("daily_loss_limit_pct", amount (.int 0) 0 100),
    ("max_drawdown_pct", amount (.int 0) 0 100),
    ("loss_cooldown_minutes", whole 1440 0 10080),
    ("risk_reservation_ttl_seconds", whole 300 1 86400) ]

def priceMonitorFields : List (String × FieldDescriptor) :=
  [ ("market_data_stale_seconds", whole 10 1 3600),
    ("account_data_stale_seconds", whole 15 1 3600),
    ("execution_event_stale_seconds", whole 30 1 3600),
    ("projection_lag_threshold_ms", whole 5000 1 600000),
    ("reconciliation_stale_seconds", whole 300 1 86400),
    ("price_deviation_bps", amount (.int 200) 0 10000),
    ("evaluation_interval_seconds", whole 5 1 3600),
    ("protection_watchdog_interval_seconds", whole 10 1 3600),
    ("disconnect_action", choice "halt" ["halt", "reducing", "hold"]) ]

def reconciliationFields : List (String × FieldDescriptor) :=
  [ ("startup_reconciliation_required", (flag true).onRestart),
    ("reconciliation_interval_seconds", whole 300 1 86400),
    ("orphan_order_policy", choice "halt" ["halt", "cancel", "adopt", "ignore"]),
    ("external_position_policy", choice "halt" ["halt", "reduce", "adopt", "ignore"]),
    ("drift_policy", choice "halt" ["halt", "reducing", "auto_repair", "alert_only"]),
    ("auto_adopt_enabled", flag false),
    ("retry_limit", whole 3 0 100),
    ("retry_backoff_seconds", amount (.int 1) 0 3600),
    ("restart_recovery_mode",
      (choice "halt_until_reconciled" ["halt_until_reconciled", "resume_after_reconcile"]).onRestart) ]

def emergencyFields : List (String × FieldDescriptor) :=
  [ ("cancel_batch_size", whole 10 1 1000),
    ("close_batch_size", whole 5 1 1000),
    ("inter_order_delay_ms", whole 250 0 60000),
    ("command_max_retries", whole 3 0 100),
    ("verify_timeout_seconds", whole 30 1 86400),
    ("close_all_final_state", choice "flat" ["flat", "cancelled_and_flat"]),
    ("allow_close_while_halted", flag true),
    ("command_retention_days", (whole 30 1 3650).onRestart.globalOnly) ]

def notificationsFields : List (String × FieldDescriptor) :=
  [ ("order_accepted_enabled", flag true),
    ("order_rejected_enabled", flag true),
    ("order_filled_enabled", flag true),
    ("partial_fill_enabled", flag true),
    ("protection_missing_enabled", flag true),
    ("stale_market_enabled", flag true),
    ("stale_account_enabled", flag true),
    ("reconciliation_drift_enabled", flag true),
    ("daily_loss_enabled", flag true),
    ("drawdown_enabled", flag true),
    ("emergency_command_results_enabled", flag true),
    ("notification_channels", text "dashboard"),
    ("severity_routing", text "critical:operator,high:operator,medium:dashboard") ]

def advancedFields : List (String × FieldDescriptor) :=
  [ ("outbox_batch_size", (whole 100 1 10000).globalOnly),
    ("spool_max_items", (whole 10000 0 1000000).onRestart.globalOnly),
    ("spool_max_age_seconds", (whole 3600 1 2592000).globalOnly),
    ("reducer_replay_window_hours", (whole 24 1 8760).onRestart.globalOnly),
    ("event_retention_days", (whole 90 1 3650).onRestart.globalOnly),
    ("rate_limit_per_minute", whole 60 1 100000),
    ("diagnostics_bundle_enabled", (flag true).globalOnly),
    ("import_export_enabled", (flag true).globalOnly) ]

/-- `descriptor["categories"]`. -/
def categories : List (String × List (String × FieldDescriptor)) :=
  [ ("general", generalFields),
    ("entry", entryFields),
    ("protection", protectionFields),
    ("money", moneyFields),
    ("price_monitor", priceMonitorFields),
    ("reconciliation", reconciliationFields),
    ("emergency", emergencyFields),
    ("notifications", notificationsFields),
    ("advanced", advancedFields) ]

/-- `field_descriptor`; `none` is a `KeyError`. -/
def fieldDescriptor (category fieldName : String) : Option FieldDescriptor :=
  (Dict.lookup category categories).bind (Dict.lookup fieldName)

/-- What holds of every entry holds of every field that is looked up. -/
theorem forall_fieldDescriptor {P : FieldDescriptor → Prop}
    (h : ∀ c ∈ categories, ∀ f ∈ c.2, P f.2) {category fieldName : String} {field : FieldDescriptor}
    (hfield : fieldDescriptor category fieldName = some field) : P field := by
  obtain ⟨fields, hfields, hlookup⟩ := Option.bind_eq_some_iff.mp hfield
  exact h (category, fields) (Dict.mem_of_lookup hfields) (fieldName, field) (Dict.mem_of_lookup hlookup)

end TraderBot.Settings
