import TraderBot.Settings.Service
import TraderBot.Lib.Returns

/-! # What effective settings keep to

Every layer the service writes was validated as a whole, and a rollback brings back one
that was, so over any history every effective value has the declared type and lies
within the declared bounds. Which scopes may set a field is declared as well, in
`scope_overridable`, and nothing in the service looks at it: effective settings keep to
it as long as no patch and no import sets such a field on an account or an instrument
(`effective_respects`). -/
namespace TraderBot.Settings
open TraderBot.Lib TraderBot.Lib.Json

/-! ## Merged layers -/

section
variable {layers : Layers} {category fieldName : String} {field : FieldDescriptor}

/-- A merged value is the default, or it is set by a layer of the chain. -/
theorem mergeLayers_cases (chain : List (Scope × String)) :
    mergeLayers layers chain category fieldName field = ⟨field.default, .systemDefault⟩ ∨
      ∃ s ∈ chain, ∃ value, (layers s.1 s.2).set? category fieldName = some value ∧
        mergeLayers layers chain category fieldName field = ⟨value, .layer s.1⟩ := by
  unfold mergeLayers
  induction chain using List.reverseRecOn with
  | nil => exact .inl rfl
  | append_singleton chain s ih =>
    rw [List.foldl_append, List.foldl_cons, List.foldl_nil]
    cases hset : (layers s.1 s.2).set? category fieldName with
    | some value =>
      refine .inr ⟨s, by simp, value, hset, ?_⟩
      rw [mergeLayer, hset]
    | none =>
      rw [mergeLayer, hset]
      refine ih.imp id fun ⟨t, ht, value, hvalue, hmerge⟩ => ⟨t, ?_, value, hvalue, hmerge⟩
      exact List.mem_append_left _ ht

end

section
variable {env : Env} {layers : Layers} {accountId instrumentId : Option String} {effective : Effective}

theorem resolve_ok (h : resolveEffectiveSettings env layers accountId instrumentId = .ok effective) :
    ∃ chain, scopeChain env accountId instrumentId = .ok chain ∧
      ∀ category fieldName, effective.field? category fieldName =
        (fieldDescriptor category fieldName).map
          (resolveField layers chain (targetScope accountId instrumentId) category fieldName) := by
  unfold resolveEffectiveSettings at h
  obtain ⟨chain, hchain, h⟩ := bind_ok h
  refine ⟨chain, hchain, fun category fieldName => ?_⟩
  rw [← pure_ok h, Effective.field?, fieldDescriptor]
  have hcategory := Dict.lookup_map (k := category) (d := categories) fun c (fields : List (String × FieldDescriptor)) =>
    fields.map fun f => (f.1, resolveField layers chain (targetScope accountId instrumentId) c f.1 f.2)
  rw [hcategory]
  cases Dict.lookup category categories with
  | none => rfl
  | some fields => exact Dict.lookup_map _

end

/-! ## Patches -/

section
variable {α β : Type} {set : Dict α → String × β → Dict α} (change : β → Option α → Option α)

/-- A loop over the keys of a dict, each of which changes its own key only. -/
theorem get?_foldl (hself : ∀ d p, (set d p).get? p.1 = change p.2 (d.get? p.1))
    (hne : ∀ d p l, l ≠ p.1 → (set d p).get? l = d.get? l) (d : Dict α) (e : Dict β) (k : String) :
    (e.items.foldl set d).get? k = (e.get? k).elim (d.get? k) fun v => change v (d.get? k) := by
  obtain ⟨items, hsorted⟩ := e
  show (items.foldl set d).get? k = (Dict.lookup k items).elim (d.get? k) fun v => change v (d.get? k)
  induction items generalizing d with
  | nil => rfl
  | cons p items ih =>
    obtain ⟨l, v⟩ := p
    rw [List.map_cons, List.pairwise_cons] at hsorted
    rw [List.foldl_cons, ih _ hsorted.2, Dict.lookup_cons]
    by_cases hk : l = k
    · subst hk
      have hnone : Dict.lookup l items = none := by
        refine Option.eq_none_iff_forall_ne_some.mpr fun w hw => ?_
        exact (hsorted.1 l (List.mem_map.mpr ⟨_, Dict.mem_of_lookup hw, rfl⟩)).ne rfl
      rw [hnone, if_pos rfl]
      exact hself d (l, v)
    · rw [if_neg hk, hne d (l, v) k (Ne.symm hk)]

end

section
variable {category fieldName : String}

theorem get?_applyFields (target fields : Dict Value) :
    (fields.items.foldl applyField target).get? fieldName =
      (fields.get? fieldName).elim (target.get? fieldName) fun value => present (some value) := by
  refine get?_foldl (fun value _ => present (some value)) ?_ ?_ target fields fieldName
  · intro d p
    unfold applyField
    split
    · rename_i hnull
      rw [Dict.get?_erase, if_pos rfl, hnull]
      rfl
    · rename_i hvalue
      rw [Dict.get?_set_self]
      exact (present_eq_some.mpr ⟨rfl, hvalue⟩).symm
  · intro d p l hl
    unfold applyField
    split
    · rw [Dict.get?_erase, if_neg hl]
    · exact Dict.get?_set_ne hl

/-- What a patch makes of a category. -/
def patchedCategory (fields : Dict Value) (target : Option (Dict Value)) : Option (Dict Value) :=
  let target := fields.items.foldl applyField (target.getD Dict.empty)
  if target.items = [] then none else some target

theorem get?_applyPatch (current patch : Settings) :
    (applyPatchToSettings current patch).get? category =
      (patch.get? category).elim (current.get? category) fun fields =>
        patchedCategory fields (current.get? category) := by
  refine get?_foldl patchedCategory ?_ ?_ current patch category
  · intro d p
    unfold applyCategory patchedCategory
    dsimp only
    split_ifs
    · rw [Dict.get?_erase, if_pos rfl]
    · exact Dict.get?_set_self
  · intro d p l hl
    unfold applyCategory
    dsimp only
    split_ifs
    · rw [Dict.get?_erase, if_neg hl]
    · exact Dict.get?_set_ne hl

/-- A patch sets the fields it gives a value, and takes away those it gives a null. -/
theorem field?_applyPatch (current patch : Settings) :
    (applyPatchToSettings current patch).field? category fieldName =
      (patch.field? category fieldName).elim (current.field? category fieldName) fun value =>
        present (some value) := by
  rw [Settings.field?, get?_applyPatch]
  cases hpatch : patch.get? category with
  | none =>
    have hnone : patch.field? category fieldName = none := by rw [Settings.field?, hpatch]; rfl
    rw [hnone]
    rfl
  | some fields =>
    have hfields : patch.field? category fieldName = fields.get? fieldName :=
      by rw [Settings.field?, hpatch]; rfl
    have htarget : ((current.get? category).getD Dict.empty).get? fieldName =
        current.field? category fieldName := by
      rw [Settings.field?]
      cases current.get? category with
      | none => rfl
      | some target => rfl
    rw [hfields, ← htarget, ← get?_applyFields]
    show (patchedCategory fields (current.get? category)).bind _ = _
    unfold patchedCategory
    dsimp only
    split_ifs with hempty
    · -- a category without fields is not kept
      have hnone : (fields.items.foldl applyField ((current.get? category).getD Dict.empty)).get? fieldName =
          none := by
        rw [Dict.get?, hempty]
        rfl
      rw [hnone]
      rfl
    · rfl

end

/-! ## What the service writes -/

/-- The tables with a version more. -/
def Store.append (store : Store) (row : SettingsRow) (previousVersion : Option Nat) : Store :=
  { rows := store.rows ++ [row], versions := store.versions ++ [{ row with previousVersion }] }

theorem insert_eq_some {store store' : Store} {scope : Scope} {scopeKey : String} {version : Nat}
    {previousVersion : Option Nat} {settings : Settings}
    (h : insertSettingsVersion store scope scopeKey version previousVersion settings = some store') :
    ∃ kept, storedSettings settings = some kept ∧
      store' = store.append ⟨scope, scopeKey, version, kept⟩ previousVersion := by
  unfold insertSettingsVersion at h
  dsimp only at h
  split at h
  · rename_i kept hkept
    split_ifs at h
    cases h
    exact ⟨kept, hkept, rfl⟩
  · cases h

/-- The settings a request writes into a layer: those a patch makes of it, or those of a version. -/
def Asks (store : Store) (scope : Scope) (scopeKey : String) (after : Settings) : Operation → Prop
  | .patch patch => after = patched store scope scopeKey patch
  | .rollback version => ∃ row, store.getVersion scope scopeKey version = some row ∧ after = row.settings
  | .importing payload _ =>
    after = patched store scope scopeKey (validateSettings ((payloadSettings payload).getD Dict.empty)).normalized.raw

/-- What a request that is accepted did: a version more of one layer, within what the check of the
actor lets pass. -/
structure Wrote (env : Env) (store store' : Store) (request : Request) (scope : Scope) (scopeKey : String)
    (after kept : Settings) : Prop where
  layer : scopeOf env request.change = .ok (scope, scopeKey)
  asked : Asks store scope scopeKey after request.operation
  validated : (∀ version, request.operation ≠ .rollback version) → (validateSettings after.raw).errors = []
  checked : requiresLiveRiskConfirmation env (store.layers scope scopeKey) after = true →
    signedOff request.change.confirm request.change.operatorSignoff = true
  stored : storedSettings after = some kept
  written : ∃ version previousVersion, version = (store.getCurrentSettings scope scopeKey).1 + 1 ∧
    store' = store.append ⟨scope, scopeKey, version, kept⟩ previousVersion

section
variable {env : Env} {store store' : Store}

variable {refusal : Refusal} {operation : WriteOperation} {change : Change} {commits : Bool}

theorem refuseUnless_ok {p : Prop} [Decidable p] {u : Unit} (h : refuseUnless p refusal = .ok u) :
    p := by
  unfold refuseUnless at h
  split_ifs at h with hp
  exact hp

theorem orRefuse_ok {α : Type} {x : Option α} {a : α} (h : orRefuse x refusal = .ok a) :
    x = some a := by
  cases x with
  | none => cases h
  | some b =>
    cases h
    rfl

theorem assertCanWrite_ok {actor user : Actor} {before after : Settings} {confirm : Option Bool}
    {operatorSignoff : Option String}
    (h : assertCanWriteSettings env actor operation before after confirm operatorSignoff = .ok user) :
    requiresLiveRiskConfirmation env before after = true → signedOff confirm operatorSignoff = true := by
  intro hlive
  unfold assertCanWriteSettings at h
  dsimp only at h
  split_ifs at h with hactor hrole hsigned
  by_contra hunsigned
  exact hsigned ⟨hlive, Bool.of_not_eq_true hunsigned⟩

theorem writeSettings_ok {scope : Scope} {scopeKey : String} {after : Settings}
    (h : writeSettings env store operation change scope scopeKey after commits = .ok store') :
    (requiresLiveRiskConfirmation env (store.layers scope scopeKey) after = true →
      signedOff change.confirm change.operatorSignoff = true) ∧
    ∃ kept, storedSettings after = some kept ∧ ∃ version previousVersion,
      version = (store.getCurrentSettings scope scopeKey).1 + 1 ∧
        store' = store.append ⟨scope, scopeKey, version, kept⟩ previousVersion := by
  unfold writeSettings at h
  dsimp only at h
  split at h
  · cases h
  · rename_i user hassert
    split at h
    · rename_i written hinsert
      split_ifs at h
      cases h
      obtain ⟨kept, hkept, hstore⟩ := insert_eq_some hinsert
      exact ⟨assertCanWrite_ok hassert, kept, hkept, _, _, rfl, hstore⟩
    · cases h

theorem patchSettings_ok {patch : Dict Value}
    (h : patchSettings env store change patch commits = .ok store') :
    ∃ layer, scopeOf env change = .ok layer ∧
      (validateSettings (patched store layer.1 layer.2 patch).raw).errors = [] ∧
        writeSettings env store .patch change layer.1 layer.2 (patched store layer.1 layer.2 patch) commits =
          .ok store' := by
  unfold patchSettings at h
  obtain ⟨expected, -, h⟩ := bind_ok h
  obtain ⟨-, -, h⟩ := bind_ok h
  obtain ⟨layer, hlayer, h⟩ := bind_ok h
  obtain ⟨-, -, h⟩ := bind_ok h
  obtain ⟨-, -, h⟩ := bind_ok h
  obtain ⟨_, hvalid, h⟩ := bind_ok h
  exact ⟨layer, hlayer, refuseUnless_ok hvalid, h⟩

theorem rollbackSettings_ok {version : Int}
    (h : rollbackSettings env store change version commits = .ok store') :
    ∃ layer row, scopeOf env change = .ok layer ∧ store.getVersion layer.1 layer.2 version = some row ∧
      writeSettings env store .rollback change layer.1 layer.2 row.settings commits = .ok store' := by
  unfold rollbackSettings at h
  obtain ⟨-, -, h⟩ := bind_ok h
  obtain ⟨-, -, h⟩ := bind_ok h
  obtain ⟨layer, hlayer, h⟩ := bind_ok h
  obtain ⟨row, hrow, h⟩ := bind_ok h
  obtain ⟨_, -, h⟩ := bind_ok h
  obtain ⟨-, -, h⟩ := bind_ok h
  exact ⟨layer, row, hlayer, orRefuse_ok hrow, h⟩

theorem importSettings_ok {payload : Dict Value} {currentEnvironment : String}
    (h : importSettings env store change payload currentEnvironment commits = .ok store') :
    patchSettings env store change
      (validateSettings ((payloadSettings payload).getD Dict.empty)).normalized.raw commits =
        .ok store' := by
  unfold importSettings at h
  obtain ⟨layer, -, h⟩ := bind_ok h
  obtain ⟨_, hvalid, h⟩ := bind_ok h
  split at h
  · cases h
  · have hnone := refuseUnless_ok hvalid
    have hsettings : (validateImportPayload env payload currentEnvironment (store.layers layer.1 layer.2)).settings =
        (validateSettings ((payloadSettings payload).getD Dict.empty)).normalized := if_pos hnone
    rwa [hsettings] at h

/-- What an accepted request did. -/
theorem perform_ok {request : Request} (h : perform env store request = .ok store') :
    ∃ scope scopeKey after kept, Wrote env store store' request scope scopeKey after kept := by
  unfold perform at h
  split at h
  · rename_i patch hoperation
    obtain ⟨layer, hlayer, hvalid, hwrite⟩ := patchSettings_ok h
    obtain ⟨hchecked, kept, hkept, hwritten⟩ := writeSettings_ok hwrite
    exact ⟨layer.1, layer.2, _, kept, hlayer, by rw [hoperation]; rfl, fun _ => hvalid, hchecked, hkept, hwritten⟩
  · rename_i version hoperation
    obtain ⟨layer, row, hlayer, hrow, hwrite⟩ := rollbackSettings_ok h
    obtain ⟨hchecked, kept, hkept, hwritten⟩ := writeSettings_ok hwrite
    exact ⟨layer.1, layer.2, _, kept, hlayer, by rw [hoperation]; exact ⟨row, hrow, rfl⟩,
      fun hno => absurd hoperation (hno version), hchecked, hkept, hwritten⟩
  · rename_i payload currentEnvironment hoperation
    obtain ⟨layer, hlayer, hvalid, hwrite⟩ := patchSettings_ok (importSettings_ok h)
    obtain ⟨hchecked, kept, hkept, hwritten⟩ := writeSettings_ok hwrite
    exact ⟨layer.1, layer.2, _, kept, hlayer, by rw [hoperation]; rfl, fun _ => hvalid, hchecked, hkept, hwritten⟩

end

/-! ## Layers that conform -/

variable {s : Settings}

theorem Settings.Sound.valid (h : s.Sound) : s.Valid := by
  intro category fieldName value hset
  obtain ⟨field, hfield, hconforms⟩ := h category fieldName value hset
  exact ⟨field, hfield, validateValue_of_conforms hconforms⟩

theorem set?_of_stored {kept : Settings} (h : storedSettings s = some kept)
    {category fieldName : String} {value : Value} (hset : kept.set? category fieldName = some value) :
    ∃ given, s.set? category fieldName = some given ∧ Jsonb.stored given = some value := by
  unfold storedSettings at h
  dsimp only at h
  split_ifs at h
  cases h
  obtain ⟨hfield, hnull⟩ := present_eq_some.mp hset
  obtain ⟨fields, hfields, hvalue⟩ := field?_eq_some.mp hfield
  rw [Dict.get?_filterMap] at hfields
  obtain ⟨given, hgiven, hkept⟩ := Option.bind_eq_some_iff.mp hfields
  split_ifs at hkept
  rw [Jsonb.get?_storedDict hkept] at hvalue
  obtain ⟨w, hw, hstored⟩ := Option.bind_eq_some_iff.mp hvalue
  refine ⟨w, present_eq_some.mpr ⟨field?_eq_some.mpr ⟨given, hgiven, hw⟩, ?_⟩, hstored⟩
  intro hwnull
  rw [hwnull] at hstored
  exact hnull (Option.some.inj hstored).symm

/-- Valid settings are sound as a column keeps them. -/
theorem Settings.Valid.stored {kept : Settings} (h : s.Valid) (hkept : storedSettings s = some kept) :
    kept.Sound := by
  intro category fieldName value hset
  obtain ⟨given, hgiven, hstored⟩ := set?_of_stored hkept hset
  obtain ⟨field, hfield, hvalid⟩ := h category fieldName given hgiven
  exact ⟨field, hfield, conforms_of_stored hfield hvalid hstored⟩

theorem set?_empty (category fieldName : String) :
    Settings.set? Dict.empty category fieldName = none := rfl

/-- The tables hold sound settings only. -/
structure Store.Sound (store : Store) : Prop where
  rows : ∀ row ∈ store.rows, row.settings.Sound
  versions : ∀ row ∈ store.versions, row.settings.Sound

theorem Store.latest_mem {rows : List SettingsRow} {row : SettingsRow} (h : latest rows = some row) :
    row ∈ rows := by
  unfold latest at h
  induction rows using List.reverseRecOn with
  | nil => cases h
  | append_singleton rows last ih =>
    rw [List.foldl_append, List.foldl_cons, List.foldl_nil] at h
    split_ifs at h
    · cases h
      simp
    · exact List.mem_append_left _ (ih h)

section
variable {env : Env} {store store' : Store}

theorem layers_cases (store : Store) (scope : Scope) (scopeKey : String) :
    store.layers scope scopeKey = Dict.empty ∨
      ∃ row ∈ store.rows, row.scope = scope ∧ row.scopeKey = scopeKey ∧
        row.settings = store.layers scope scopeKey := by
  unfold Store.layers Store.getCurrentSettings
  cases hlatest : Store.latest (store.rows.filter (Store.isOf scope scopeKey)) with
  | none => exact .inl rfl
  | some row =>
    obtain ⟨hrow, hof⟩ := List.mem_filter.mp (Store.latest_mem hlatest)
    simp only [Store.isOf, Bool.and_eq_true, beq_iff_eq] at hof
    exact .inr ⟨row, hrow, hof.1, hof.2, rfl⟩

theorem Store.Sound.layers (h : store.Sound) (scope : Scope) (scopeKey : String) :
    (store.layers scope scopeKey).Sound := by
  rcases layers_cases store scope scopeKey with hempty | ⟨row, hrow, -, -, hsettings⟩
  · rw [hempty]
    intro category fieldName value hset
    rw [set?_empty] at hset
    cases hset
  · exact hsettings ▸ h.rows row hrow

variable {scope : Scope} {scopeKey : String} {request : Request}

theorem getVersion_mem {version : Int} {row : VersionRow}
    (h : store.getVersion scope scopeKey version = some row) :
    row ∈ store.versions ∧ row.scope = scope ∧ row.scopeKey = scopeKey := by
  have hof := List.find?_some h
  simp only [Store.isOf, Bool.and_eq_true, beq_iff_eq] at hof
  exact ⟨List.mem_of_find?_eq_some h, hof.1.1, hof.1.2⟩

/-- What a request writes is valid: it was validated, or it is a version of before. -/
theorem Wrote.valid {after kept : Settings}
    (hwrote : Wrote env store store' request scope scopeKey after kept) (h : store.Sound) :
      after.Valid := by
  have hasked := hwrote.asked
  have hvalidated := hwrote.validated
  cases hoperation : request.operation with
  | patch patch => exact valid_of_validate (hvalidated fun version hno => by rw [hoperation] at hno; cases hno)
  | rollback version =>
    rw [hoperation] at hasked
    obtain ⟨row, hrow, rfl⟩ := hasked
    exact (h.versions row (getVersion_mem hrow).1).valid
  | importing payload currentEnvironment =>
    exact valid_of_validate (hvalidated fun version hno => by rw [hoperation] at hno; cases hno)

theorem Store.Sound.append (h : store.Sound) {row : SettingsRow} (hrow : row.settings.Sound)
    (previousVersion : Option Nat) : (store.append row previousVersion).Sound := by
  constructor
  · intro x hx
    rcases List.mem_append.mp hx with hx | hx
    · exact h.rows x hx
    · rw [List.mem_singleton.mp hx]
      exact hrow
  · intro x hx
    rcases List.mem_append.mp hx with hx | hx
    · exact h.versions x hx
    · rw [List.mem_singleton.mp hx]
      exact hrow

theorem Store.Sound.perform (h : store.Sound) (hok : perform env store request = .ok store') :
    store'.Sound := by
  obtain ⟨scope, scopeKey, after, kept, hwrote⟩ := perform_ok hok
  obtain ⟨version, previousVersion, -, rfl⟩ := hwrote.written
  exact h.append ((hwrote.valid h).stored hwrote.stored) previousVersion

/-- What an accepted request keeps, a run keeps. -/
theorem run_keeps {I : Store → Prop} {requests : List Request} (hempty : I Store.empty)
    (hperform : ∀ request ∈ requests, ∀ store store', I store → perform env store request = .ok store' → I store') :
    I (run env requests) := by
  unfold run
  generalize Store.empty = store at hempty
  induction requests generalizing store with
  | nil => exact hempty
  | cons request requests ih =>
    refine ih (fun r hr => hperform r (List.mem_cons_of_mem _ hr)) (step env store request) ?_
    unfold step
    cases hok : perform env store request with
    | ok store' => exact hperform request List.mem_cons_self store store' hempty hok
    | error refusal => exact hempty

/-- Over any history the tables hold sound settings. -/
theorem run_sound (env : Env) (requests : List Request) : (run env requests).Sound :=
  run_keeps ⟨nofun, nofun⟩ fun _ _ _ _ h hok => h.perform hok

end

/-! ## Layers that keep to their scope -/

/-- Only fields that every scope may set are set. -/
def Settings.Overridable (s : Settings) : Prop :=
  ∀ category fieldName value field, s.set? category fieldName = some value →
    fieldDescriptor category fieldName = some field → field.scopeOverridable = true

/-- The settings a request gives, category by category. -/
def Operation.given : Operation → Settings
  | .patch settings => objectCategories settings
  | .rollback _ => Dict.empty
  | .importing payload _ => objectCategories ((payloadSettings payload).getD Dict.empty)

/-- A request that sets a field of the global scope only in the global scope. -/
def KeepsScopes (env : Env) (request : Request) : Prop :=
  ∀ scope scopeKey, scopeOf env request.change = .ok (scope, scopeKey) → scope ≠ .global →
    request.operation.given.Overridable

/-- The layers of accounts and instruments set what every scope may set. -/
structure Store.Scoped (store : Store) : Prop where
  rows : ∀ row ∈ store.rows, row.scope ≠ .global → row.settings.Overridable
  versions : ∀ row ∈ store.versions, row.scope ≠ .global → row.settings.Overridable

section
variable {category fieldName : String} {value : Value}

theorem get?_objectCategories_raw (s : Settings) :
    (objectCategories s.raw).get? category = s.get? category := by
  rw [objectCategories, Dict.get?_filterMap, Settings.raw, Dict.get?_map]
  cases s.get? category with
  | none => rfl
  | some fields => exact congrArg some (Dict.ofPairs_items fields)

/-- Normalized settings are among those that were given. -/
theorem set?_normalized {settings : Dict Value}
    (h : (validateSettings settings).normalized.set? category fieldName = some value) :
    (objectCategories settings).set? category fieldName = some value := by
  obtain ⟨hfield, hnull⟩ := present_eq_some.mp h
  obtain ⟨fields, hfields, hvalue⟩ := field?_eq_some.mp hfield
  refine present_eq_some.mpr ⟨field?_eq_some.mpr ?_, hnull⟩
  rw [validateSettings, Dict.get?_filterMap] at hfields
  obtain ⟨given, hgiven, hnormalized⟩ := Option.bind_eq_some_iff.mp hfields
  unfold normalizedCategory at hnormalized
  split at hnormalized
  · rename_i members hknown
    dsimp only at hnormalized
    split_ifs at hnormalized
    cases hnormalized
    rw [Dict.get?_filterMap] at hvalue
    obtain ⟨w, hw, hkept⟩ := Option.bind_eq_some_iff.mp hvalue
    split_ifs at hkept
    cases hkept
    refine ⟨Dict.ofPairs members, ?_, hw⟩
    rw [objectCategories, Dict.get?_filterMap, hgiven]
    rfl
  · cases hnormalized

/-- A patched layer sets what the patch sets, or what it set before. -/
theorem set?_patched {store : Store} {scope : Scope} {scopeKey : String} {patch : Dict Value}
    (h : (patched store scope scopeKey patch).set? category fieldName = some value) :
    (objectCategories patch).set? category fieldName = some value ∨
      (store.layers scope scopeKey).set? category fieldName = some value := by
  obtain ⟨hfield, hnull⟩ := present_eq_some.mp h
  rw [patched, field?_applyPatch] at hfield
  cases hgiven : (validateSettings patch).normalized.field? category fieldName with
  | some given =>
    rw [hgiven] at hfield
    obtain ⟨heq, -⟩ := present_eq_some.mp hfield
    exact .inl (set?_normalized (present_eq_some.mpr ⟨hgiven.trans heq, hnull⟩))
  | none =>
    rw [hgiven] at hfield
    exact .inr (present_eq_some.mpr ⟨hfield, hnull⟩)

end

section
variable {env : Env} {store store' : Store}

variable {scope : Scope} {request : Request}

theorem Store.Scoped.layers (h : store.Scoped) (hscope : scope ≠ .global) (scopeKey : String) :
    (store.layers scope scopeKey).Overridable := by
  rcases layers_cases store scope scopeKey with hempty | ⟨row, hrow, hof, -, hsettings⟩
  · rw [hempty]
    intro category fieldName value field hset
    rw [set?_empty] at hset
    cases hset
  · exact hsettings ▸ h.rows row hrow (hof ▸ hscope)

/-- What a request writes into a layer keeps to the layer's scope if what it gives does. -/
theorem Wrote.overridable {scopeKey : String} {after kept : Settings}
    (hwrote : Wrote env store store' request scope scopeKey after kept) (h : store.Scoped)
    (hkeeps : KeepsScopes env request) (hscope : scope ≠ .global) : kept.Overridable := by
  have hgiven := hkeeps scope scopeKey hwrote.layer hscope
  have hlayer := h.layers hscope scopeKey
  have hasked := hwrote.asked
  intro category fieldName value field hset hfield
  obtain ⟨written, hwritten, -⟩ := set?_of_stored hwrote.stored hset
  cases hoperation : request.operation with
  | patch patch =>
    rw [hoperation] at hgiven hasked
    rw [show after = _ from hasked] at hwritten
    rcases set?_patched hwritten with hpatch | hbefore
    · exact hgiven category fieldName written field hpatch hfield
    · exact hlayer category fieldName written field hbefore hfield
  | rollback version =>
    rw [hoperation] at hasked
    obtain ⟨row, hrow, rfl⟩ := hasked
    obtain ⟨hmem, hof, -⟩ := getVersion_mem hrow
    exact h.versions row hmem (hof ▸ hscope) category fieldName written field hwritten hfield
  | importing payload currentEnvironment =>
    rw [hoperation] at hgiven hasked
    rw [show after = _ from hasked] at hwritten
    rcases set?_patched hwritten with hpatch | hbefore
    · refine hgiven category fieldName written field (set?_normalized ?_) hfield
      rwa [Settings.set?, Settings.field?, get?_objectCategories_raw] at hpatch
    · exact hlayer category fieldName written field hbefore hfield

theorem Store.Scoped.perform (h : store.Scoped) (hkeeps : KeepsScopes env request)
    (hok : perform env store request = .ok store') : store'.Scoped := by
  obtain ⟨scope, scopeKey, after, kept, hwrote⟩ := perform_ok hok
  have hkept := hwrote.overridable h hkeeps
  obtain ⟨version, previousVersion, -, rfl⟩ := hwrote.written
  constructor
  · intro row hrow
    rcases List.mem_append.mp hrow with hrow | hrow
    · exact h.rows row hrow
    · rw [List.mem_singleton.mp hrow]
      exact hkept
  · intro row hrow
    rcases List.mem_append.mp hrow with hrow | hrow
    · exact h.versions row hrow
    · rw [List.mem_singleton.mp hrow]
      exact hkept

end

/-! ## Effective settings -/

/-- Every effective value is that of a known field and conforms to it. -/
def Effective.Conforming (effective : Effective) : Prop :=
  ∀ category fieldName resolved, effective.field? category fieldName = some resolved →
    ∃ field, fieldDescriptor category fieldName = some field ∧ Conforms field resolved.value

/-- What only the global scope may set is a default or set in the global scope. -/
def Effective.FromItsScope (effective : Effective) : Prop :=
  ∀ category fieldName resolved field, effective.field? category fieldName = some resolved →
    fieldDescriptor category fieldName = some field → field.scopeOverridable = false →
      resolved.sourceScope = .systemDefault ∨ resolved.sourceScope = .layer .global

section
variable {env : Env} {store : Store} {accountId instrumentId : Option String} {effective : Effective}

theorem Store.Sound.conforming (h : store.Sound)
    (hok : resolveEffectiveSettings env store.layers accountId instrumentId = .ok effective) :
    effective.Conforming := by
  obtain ⟨chain, -, heffective⟩ := resolve_ok hok
  intro category fieldName resolved hresolved
  rw [heffective] at hresolved
  obtain ⟨field, hfield, rfl⟩ := Option.map_eq_some_iff.mp hresolved
  refine ⟨field, hfield, ?_⟩
  show Conforms field (mergeLayers store.layers chain category fieldName field).value
  rcases mergeLayers_cases chain with hdefault | ⟨s, -, value, hset, hmerge⟩
  · rw [hdefault]
    exact default_conforms hfield
  · obtain ⟨field', hfield', hconforms⟩ := h.layers s.1 s.2 category fieldName value hset
    cases hfield.symm.trans hfield'
    rw [hmerge]
    exact hconforms

theorem Store.Scoped.fromItsScope (h : store.Scoped)
    (hok : resolveEffectiveSettings env store.layers accountId instrumentId = .ok effective) :
    effective.FromItsScope := by
  obtain ⟨chain, -, heffective⟩ := resolve_ok hok
  intro category fieldName resolved field hresolved hfield hglobal
  rw [heffective] at hresolved
  obtain ⟨field', hfield', rfl⟩ := Option.map_eq_some_iff.mp hresolved
  cases hfield.symm.trans hfield'
  show (mergeLayers store.layers chain category fieldName field).source = _ ∨
    (mergeLayers store.layers chain category fieldName field).source = _
  rcases mergeLayers_cases chain with hdefault | ⟨s, -, value, hset, hmerge⟩
  · rw [hdefault]
    exact .inl rfl
  · rw [hmerge]
    by_cases hscope : s.1 = .global
    · exact .inr (by rw [hscope])
    · have hoverridable := h.layers hscope s.2 category fieldName value field hset hfield
      rw [hglobal] at hoverridable
      cases hoverridable

end

/-- After any requests, effective values conform to the descriptor; and they come from where the
descriptor lets them come from if every request keeps to the scopes it declares. -/
theorem effective_respects (env : Env) (requests : List Request) {accountId instrumentId : Option String}
    {effective : Effective}
    (h : resolveEffectiveSettings env (run env requests).layers accountId instrumentId = .ok effective) :
    effective.Conforming ∧ ((∀ request ∈ requests, KeepsScopes env request) → effective.FromItsScope) := by
  refine ⟨(run_sound env requests).conforming h, fun hkeeps => ?_⟩
  have hscoped : (run env requests).Scoped :=
    run_keeps ⟨nofun, nofun⟩ fun request hmem _ _ hstore hok => hstore.perform (hkeeps request hmem) hok
  exact hscoped.fromItsScope h

/-! ## Sample requests -/

/-- An interpreter of plain texts. -/
def plainEnv : Env where
  unicode := .ascii
  str := fun | .str s => s | _ => ""
  repr := fun s => "'" ++ s ++ "'"
  floatText := fun _ => none

/-- A patch of one field of the account `a`, by an operator, that commits. -/
def accountPatch (category fieldName : String) (value : Value) : Request where
  change :=
    { scope := "account", scopeKey := some "a", expectedVersion := some 0, reason := "tuning"
      requestId := "r-1", actor := ⟨"ops", "operator"⟩, confirm := none, operatorSignoff := none }
  operation := .patch (Dict.empty.set category (.obj [(fieldName, value)]))
  commits := true

theorem Settings.overridable_of_items
    (h : ∀ c ∈ s.items, ∀ f ∈ c.2.items, ∀ field ∈ fieldDescriptor c.1 f.1, field.scopeOverridable = true) :
    s.Overridable := by
  intro category fieldName value field hset hfield
  obtain ⟨fields, hfields, hvalue⟩ := field?_eq_some.mp (present_eq_some.mp hset).1
  exact h _ (Dict.mem_items.mpr hfields) _ (Dict.mem_items.mpr hvalue) field hfield

/-- The leverage of an account is its own to set. -/
theorem effective_leverage : ∃ effective,
    resolveEffectiveSettings plainEnv (run plainEnv [accountPatch "money" "max_leverage" (.int 3)]).layers
        (some "a") none = .ok effective ∧
      effective.Conforming ∧ effective.FromItsScope := by
  obtain ⟨effective, heffective⟩ : ∃ effective, resolveEffectiveSettings plainEnv
      (run plainEnv [accountPatch "money" "max_leverage" (.int 3)]).layers (some "a") none =
        .ok effective :=
    ⟨_, rfl⟩
  have hrespects := effective_respects plainEnv _ heffective
  refine ⟨effective, heffective, hrespects.1, hrespects.2 fun request hmem _ _ _ _ => ?_⟩
  rw [List.mem_singleton.mp hmem]
  exact Settings.overridable_of_items (by decide +kernel)

/-- An operator sets the size of the outbox's batches, which is global, for one account. -/
theorem batch_size_of_account :
    ((resolveEffectiveSettings plainEnv
        (run plainEnv [accountPatch "advanced" "outbox_batch_size" (.int 1)]).layers (some "a") none).toOption.bind
          fun effective => effective.field? "advanced" "outbox_batch_size").map
        (fun resolved => (resolved.value, resolved.sourceScope)) = some (.int 1, .layer .account) ∧
      (fieldDescriptor "advanced" "outbox_batch_size").map (·.scopeOverridable) = some false := by
  decide +kernel

end TraderBot.Settings
