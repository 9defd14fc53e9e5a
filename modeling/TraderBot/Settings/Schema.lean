import TraderBot.Settings.Descriptor

/-! # Settings and their validation

Settings are values under a category and a field. `validate_settings` goes over what
is given, category by category and field by field, and keeps what has no error; a null
is no value, and none is checked. What passes and is then kept by a `jsonb` column has
the declared type and lies within the declared bounds (`sound_of_stored`); NaN passes
too, and no column keeps it. -/
namespace TraderBot.Settings
open TraderBot.Lib TraderBot.Lib.Json

/-! ## Settings -/

abbrev Settings : Type := Dict (Dict Value)

namespace Settings

/-- `settings[category][field_name]`. -/
def field? (s : Settings) (category fieldName : String) : Option Value :=
  (s.get? category).bind (·.get? fieldName)

/-- The value of a field that is set to one. -/
def set? (s : Settings) (category fieldName : String) : Option Value :=
    present (s.field? category fieldName)

/-- Settings as a JSON object. -/
def raw (s : Settings) : Dict Value := s.map fun fields => .obj fields.items

end Settings

/-! ## Values -/

structure SettingsError where
  path : String
  message : String
  deriving DecidableEq, Repr

def fieldPath (category fieldName : String) : String := category ++ "." ++ fieldName

/-- `str` of a list of plain texts. -/
def listText (values : List String) : String :=
  "[" ++ ", ".intercalate (values.map fun value => "'" ++ value ++ "'") ++ "]"

namespace FieldDescriptor

/-- The check of a value's type. -/
def accepts (field : FieldDescriptor) (value : Value) : Bool :=
  match field.type, value with
  | .boolean, .bool _ => true
  | .integer, .int _ => true
  | .number, .int _ | .number, .float _ => true
  | .string, .str _ => true
  | .enum, .str s => field.enum.contains s
  | _, _ => false

/-- What is said of a value of another type. -/
def complaint (field : FieldDescriptor) : String :=
  match field.type with
  | .boolean => "value must be boolean"
  | .integer => "value must be integer"
  | .number => "value must be number"
  | .string => "value must be string"
  | .enum => "value must be one of " ++ listText field.enum

end FieldDescriptor

/-- `value < bound`, of numbers only. -/
def lessThan (value : Value) (bound : Int) : Bool :=
  value.rank.any fun r => decide (r < (((bound : ℚ) : WithTop ℚ) : Decimal.Extended))

/-- `value > bound`, of numbers only. -/
def moreThan (value : Value) (bound : Int) : Bool :=
  value.rank.any fun r => decide ((((bound : ℚ) : WithTop ℚ) : Decimal.Extended) < r)

/-- `_validate_value`. -/
def validateValue (category fieldName : String) (value : Value) (field : FieldDescriptor) :
    List SettingsError :=
  let path := fieldPath category fieldName
  if field.accepts value = false then [⟨path, field.complaint⟩]
  else
    (match field.min with
      | some min => if lessThan value min then [⟨path, "value must be >= " ++ toString min⟩] else []
      | none => []) ++
    match field.max with
      | some max => if moreThan value max then [⟨path, "value must be <= " ++ toString max⟩] else []
      | none => []

/-! ## `validate_settings` -/

/-- The errors of one value of a known category. -/
def fieldErrors (category fieldName : String) (value : Value) : List SettingsError :=
  match fieldDescriptor category fieldName, value with
  | none, _ => [⟨fieldPath category fieldName, "unknown settings field"⟩]
  | some _, .null => []
  | some field, value => validateValue category fieldName value field

def isCategory (category : String) : Bool := (Dict.lookup category categories).isSome

/-- The errors of what is given under one category. -/
def categoryErrors (category : String) (value : Value) : List SettingsError :=
  if isCategory category = false then [⟨category, "unknown settings category"⟩]
  else
    match value with
    | .null => []
    | .obj members => (Dict.ofPairs members).items.flatMap fun p => fieldErrors category p.1 p.2
    | _ => [⟨category, "category settings must be an object"⟩]

/-- The fields of a category that have no error, if there are any. -/
def normalizedCategory (category : String) (value : Value) : Option (Dict Value) :=
  match isCategory category, value with
  | true, .obj members =>
    let fields := (Dict.ofPairs members).filterMap fun fieldName value =>
      if fieldErrors category fieldName value = [] then some value else none
    if fields.items = [] then none else some fields
  | _, _ => none

structure Validation where
  errors : List SettingsError
  normalized : Settings

/-- `validate_settings`, `partial` as it always is. -/
def validateSettings (settings : Dict Value) : Validation where
  errors := settings.items.flatMap fun p => categoryErrors p.1 p.2
  normalized := settings.filterMap normalizedCategory

/-! ## What conforms to the descriptor -/

/-- A value of the declared type, within the bounds that are declared. -/
structure Conforms (field : FieldDescriptor) (value : Value) : Prop where
  typed : field.accepts value = true
  above : ∀ min ∈ field.min, ∃ r ∈ value.rank, (((min : ℚ) : WithTop ℚ) : Decimal.Extended) ≤ r
  below : ∀ max ∈ field.max, ∃ r ∈ value.rank, r ≤ (((max : ℚ) : WithTop ℚ) : Decimal.Extended)

instance (field : FieldDescriptor) (value : Value) : Decidable (Conforms field value) :=
  decidable_of_iff
    (field.accepts value = true ∧
      (∀ min ∈ field.min, ∃ r ∈ value.rank, (((min : ℚ) : WithTop ℚ) : Decimal.Extended) ≤ r) ∧
      ∀ max ∈ field.max, ∃ r ∈ value.rank, r ≤ (((max : ℚ) : WithTop ℚ) : Decimal.Extended))
    ⟨fun ⟨ht, ha, hb⟩ => ⟨ht, ha, hb⟩, fun ⟨ht, ha, hb⟩ => ⟨ht, ha, hb⟩⟩

/-- Every value that is set is that of a known field, and conforms to it. -/
def Settings.Sound (s : Settings) : Prop :=
  ∀ category fieldName value, s.set? category fieldName = some value →
    ∃ field, fieldDescriptor category fieldName = some field ∧ Conforms field value

section
variable {category fieldName : String} {field : FieldDescriptor}

/-- Every default conforms. -/
theorem default_conforms (h : fieldDescriptor category fieldName = some field) :
    Conforms field field.default := by
  refine forall_fieldDescriptor (P := fun field => Conforms field field.default) ?_ h
  decide +kernel

/-- Bounds are declared of numbers only. -/
theorem numeric_of_bounded (h : fieldDescriptor category fieldName = some field)
    (hbound : field.min.isSome = true ∨ field.max.isSome = true) :
    field.type = .integer ∨ field.type = .number := by
  revert hbound
  refine forall_fieldDescriptor
    (P := fun field => field.min.isSome = true ∨ field.max.isSome = true →
      field.type = .integer ∨ field.type = .number) ?_ h
  decide +kernel

end

/-! ## Validated settings -/

/-- Every value that is set is that of a known field, and passes its check. -/
def Settings.Valid (s : Settings) : Prop :=
  ∀ category fieldName value, s.set? category fieldName = some value →
    ∃ field, fieldDescriptor category fieldName = some field ∧
      validateValue category fieldName value field = []

theorem present_eq_some {v : Option Value} {w : Value} : present v = some w ↔ v = some w ∧ w ≠ .null := by
  unfold present
  split
  · exact iff_of_false nofun fun ⟨h, hne⟩ => hne (Option.some.inj h).symm
  · rename_i hne
    exact ⟨fun h => ⟨h, fun hnull => hne (hnull ▸ h)⟩, fun h => h.1⟩

variable {s : Settings} {category fieldName : String} {value kept : Value} {field : FieldDescriptor}

theorem field?_eq_some :
    s.field? category fieldName = some value ↔
      ∃ fields, s.get? category = some fields ∧ fields.get? fieldName = some value :=
  Option.bind_eq_some_iff

/-- Settings whose object has no errors are valid. -/
theorem valid_of_validate (h : (validateSettings s.raw).errors = []) : s.Valid := by
  intro category fieldName value hset
  obtain ⟨hfield, hnull⟩ := present_eq_some.mp hset
  obtain ⟨fields, hfields, hvalue⟩ := field?_eq_some.mp hfield
  have hmem : (category, Value.obj fields.items) ∈ s.raw.items := by
    rw [Dict.mem_items, Settings.raw, Dict.get?_map, hfields]
    rfl
  have hcategory : categoryErrors category (.obj fields.items) = [] :=
    List.flatMap_eq_nil_iff.mp h _ hmem
  unfold categoryErrors at hcategory
  split_ifs at hcategory
  simp only [Dict.ofPairs_items] at hcategory
  have herrors : fieldErrors category fieldName value = [] :=
    List.flatMap_eq_nil_iff.mp hcategory _ (Dict.mem_items.mpr hvalue)
  unfold fieldErrors at herrors
  split at herrors
  · cases herrors
  · exact absurd rfl hnull
  · rename_i hdescriptor _
    exact ⟨_, hdescriptor, herrors⟩

theorem validateValue_eq_nil (h : validateValue category fieldName value field = []) :
    field.accepts value = true ∧ (∀ min ∈ field.min, lessThan value min = false) ∧
      ∀ max ∈ field.max, moreThan value max = false := by
  unfold validateValue at h
  dsimp only at h
  split_ifs at h with haccepts
  obtain ⟨hmin, hmax⟩ := List.append_eq_nil_iff.mp h
  refine ⟨by simpa using haccepts, fun min hm => ?_, fun max hm => ?_⟩
  · rw [Option.mem_def.mp hm] at hmin
    by_contra hless
    simp [Bool.of_not_eq_false hless] at hmin
  · rw [Option.mem_def.mp hm] at hmax
    by_contra hmore
    simp [Bool.of_not_eq_false hmore] at hmax

theorem validateValue_of_conforms (h : Conforms field value) :
    validateValue category fieldName value field = [] := by
  unfold validateValue
  dsimp only
  rw [if_neg (by simp [h.typed])]
  refine List.append_eq_nil_iff.mpr ⟨?_, ?_⟩
  · split
    · rename_i min hm
      obtain ⟨r, hr, hle⟩ := h.above min hm
      rw [if_neg]
      simp [lessThan, Option.mem_def.mp hr, hle]
    · rfl
  · split
    · rename_i max hm
      obtain ⟨r, hr, hle⟩ := h.below max hm
      rw [if_neg]
      simp [moreThan, Option.mem_def.mp hr, hle]
    · rfl

/-! ## What a column keeps -/

/-- A value of a type stays one of the type. -/
theorem accepts_of_stored (h : Jsonb.stored value = some kept)
    (haccepts : field.accepts value = true) : field.accepts kept = true := by
  cases value with
  | null => simp [FieldDescriptor.accepts] at haccepts
  | bool b =>
    cases h
    exact haccepts
  | int n =>
    cases h
    exact haccepts
  | float x =>
    rw [Jsonb.stored] at h
    obtain ⟨hnumber, -⟩ := Jsonb.storedFloat_rank h
    cases htype : field.type with
    | number =>
      rcases hnumber with ⟨n, rfl⟩ | ⟨y, rfl⟩
      · simp [FieldDescriptor.accepts, htype]
      · simp [FieldDescriptor.accepts, htype]
    | integer => simp [FieldDescriptor.accepts, htype] at haccepts
    | boolean => simp [FieldDescriptor.accepts, htype] at haccepts
    | string => simp [FieldDescriptor.accepts, htype] at haccepts
    | enum => simp [FieldDescriptor.accepts, htype] at haccepts
  | str s =>
    rw [Jsonb.stored] at h
    split_ifs at h
    cases h
    exact haccepts
  | arr items => simp [FieldDescriptor.accepts] at haccepts
  | obj members => simp [FieldDescriptor.accepts] at haccepts

/-- A number that is kept is worth the same, and finite. -/
theorem rank_of_stored (h : Jsonb.stored value = some kept)
    (htype : field.type = .integer ∨ field.type = .number) (haccepts : field.accepts value = true) :
    kept.rank = value.rank ∧ ∃ r, value.rank = some r := by
  cases value with
  | int n =>
    cases h
    exact ⟨rfl, _, rfl⟩
  | float x =>
    rw [Jsonb.stored] at h
    obtain ⟨-, hrank, q, hq⟩ := Jsonb.storedFloat_rank h
    exact ⟨hrank, _, hq⟩
  | null => simp [FieldDescriptor.accepts] at haccepts
  | bool b => rcases htype with htype | htype <;> simp [FieldDescriptor.accepts, htype] at haccepts
  | str s => rcases htype with htype | htype <;> simp [FieldDescriptor.accepts, htype] at haccepts
  | arr items => simp [FieldDescriptor.accepts] at haccepts
  | obj members => simp [FieldDescriptor.accepts] at haccepts

/-- A value that passes its check and that a column keeps conforms, as it is kept. -/
theorem conforms_of_stored (hfield : fieldDescriptor category fieldName = some field)
    (hvalid : validateValue category fieldName value field = [])
    (h : Jsonb.stored value = some kept) : Conforms field kept := by
  obtain ⟨haccepts, hmin, hmax⟩ := validateValue_eq_nil hvalid
  refine ⟨accepts_of_stored h haccepts, fun min hm => ?_, fun max hm => ?_⟩
  · have htype := numeric_of_bounded hfield (.inl (Option.isSome_of_mem hm))
    obtain ⟨hrank, r, hr⟩ := rank_of_stored h htype haccepts
    refine ⟨r, hrank.trans hr, ?_⟩
    simpa [lessThan, hr] using hmin min hm
  · have htype := numeric_of_bounded hfield (.inr (Option.isSome_of_mem hm))
    obtain ⟨hrank, r, hr⟩ := rank_of_stored h htype haccepts
    refine ⟨r, hrank.trans hr, ?_⟩
    simpa [moreThan, hr] using hmax max hm

end TraderBot.Settings
