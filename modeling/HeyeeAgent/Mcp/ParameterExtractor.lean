import HeyeeAgent.Rag.LlmResponseCleaner

/-! # Arguments of a tool call

The reply of a model gives the arguments of a tool as a JSON object. Only the properties that the
tool's schema declares are taken from it, each after its conversion, and the defaults of the schema
stand for the others.
-/

namespace HeyeeAgent.Mcp

open Python

abbrev Arguments := Dict Str Object
/-- What a schema says of one property. -/
abbrev Definition := Dict Str Object
abbrev Schema := Dict Str Object

/-- The types that a property can be converted to. -/
inductive JsonType where
  | string
  | integer
  | number
  | boolean
  | array
  | object
deriving DecidableEq

def JsonType.name : JsonType → String
  | .string => "string"
  | .integer => "integer"
  | .number => "number"
  | .boolean => "boolean"
  | .array => "array"
  | .object => "object"

def JsonType.all : List JsonType := [.string, .integer, .number, .boolean, .array, .object]

def JsonType.ofName (name : Str) : Option JsonType :=
  all.find? fun type => Str.lit type.name = name

structure ParameterExtractionResult where
  arguments : Arguments
  missingRequired : List Str
  invalidFields : List Str
  usedDefaults : Bool
  fallbackUsed : Bool

section Schema

/-- `_schema_properties` -/
def schemaProperties (schema : Schema) : Dict Str Definition :=
  match schema.get (Str.lit "properties") with
  | some (.dict properties) =>
    properties.foldl (fun declared (name, definition) =>
      match definition with
      | .dict definition => declared.set name definition
      | _ => declared) []
  | _ => []

/-- `_required_names` -/
def requiredNames (schema : Schema) : List Str :=
  match schema.get (Str.lit "required") with
  | some (.list names) => names.filterMap fun name =>
    match name with
    | .str name => some name
    | _ => none
  | _ => []

end Schema

section Reply

/-- `_strip_code_fence` -/
def stripCodeFence (reply : Str) : Str :=
  Rag.stripFence (fun line => Rag.fence.isPrefixOf line.lstrip) reply

/-- No white space stands before a fence at the start of a text. -/
theorem stripCodeFence_eq (reply : Str) : stripCodeFence reply = Rag.stripCodeFence reply := by
  unfold stripCodeFence Rag.stripCodeFence Rag.stripFence
  split_ifs with fenced
  · obtain ⟨rest, rfl⟩ := List.isPrefixOf_iff_prefix.mp fenced
    have plain : ∀ c ∈ Rag.fence, Str.isLineBreak c = false := by decide
    obtain ⟨line, first⟩ := Str.head_splitlines plain (by decide) rest
    have here : Rag.fence.isPrefixOf (Rag.fence ++ line) = true :=
      List.isPrefixOf_iff_prefix.mpr (List.prefix_append _ _)
    have kept : Str.lstrip (Rag.fence ++ line) = Rag.fence ++ line := rfl
    simp only [first, Option.any_some, kept, here, if_true]
  · rfl

/-- `_parse_json_object`; none where it raises. -/
def parseJsonObject (reply : Str) : Option Arguments :=
  match Object.loads (stripCodeFence reply) with
  | some (.dict parsed) => some parsed
  | _ => none

/-- What a reply gives, if there was one and it is an object. -/
def rawArguments (reply : Option Str) : Option Arguments :=
  reply.bind fun reply => parseJsonObject reply.strip

end Reply

section Conversion

variable (repr : Object → Str)

/-- `str(definition.get("type") or "string")` -/
def typeName (definition : Definition) : Str :=
  ((Object.get definition (Str.lit "type")).orElse (.str (Str.lit "string"))).text repr

/-- The value as the type has it, if it does. -/
def convertTo (type : JsonType) (value : Object) : Option Object :=
  match type, value with
  | .string, .str text => if text.strip = [] then none else some (.str text.strip)
  | .integer, .int value => some (.int value)
  | .integer, .float (.finite value) => if value.isInt then some (.int value.num) else none
  | .number, .int value => some (.int value)
  | .number, .float value => some (.float value)
  | .boolean, .bool value => some (.bool value)
  | .array, .list items => some (.list items)
  | .object, .dict entries => some (.dict entries)
  | _, _ => none

/-- `_convert_value`; none for an invalid value. -/
def convertValue (value : Object) (definition : Definition) : Option Object :=
  match (JsonType.ofName (typeName repr definition)).bind fun type => convertTo type value with
  | none => none
  | some converted =>
    match definition.get (Str.lit "enum") with
    | some (.list values) => if converted.isIn values then some converted else none
    | _ => some converted

/-- What is given for a property, converted into the arguments or listed as invalid. -/
def allowProperty (raw : Arguments) (state : Arguments × List Str) (property : Str × Definition) :
    Arguments × List Str :=
  match raw.get property.1 with
  | none | some .none => state
  | some value =>
    match convertValue repr value property.2 with
    | some converted => (state.1.set property.1 converted, state.2)
    | none => (state.1, state.2 ++ [property.1])

/-- `_allow_list_and_convert` -/
def allowListAndConvert (raw : Arguments) (properties : Dict Str Definition) :
    Arguments × List Str :=
  properties.foldl (allowProperty repr raw) ([], [])

/-- A default stands for what is not among the arguments. -/
def fillDefault (state : Arguments × Bool) (property : Str × Definition) : Arguments × Bool :=
  if state.1.has property.1 then state
  else
    match property.2.get (Str.lit "default") with
    | some default => (state.1.set property.1 default, true)
    | none => state

/-- `_fill_defaults` -/
def fillDefaults (arguments : Arguments) (properties : Dict Str Definition) : Arguments × Bool :=
  properties.foldl fillDefault (arguments, false)

/-- `McpParameterExtractor.extract` with the reply that the model gives to the question, if it does
not fail. -/
def extract (schema : Schema) (reply : Option Str) : ParameterExtractionResult :=
  let properties := schemaProperties schema
  if properties.isEmpty then
    { arguments := [], missingRequired := [], invalidFields := [], usedDefaults := false,
      fallbackUsed := false }
  else
    let raw := (rawArguments reply).getD []
    let allowed := allowListAndConvert repr raw properties
    let filled := fillDefaults allowed.1 properties
    { arguments := filled.1
      missingRequired := (requiredNames schema).filter fun name => !filled.1.has name
      invalidFields := allowed.2
      usedDefaults := filled.2
      fallbackUsed := (rawArguments reply).isNone }

end Conversion

section Specification

/-- What a value of a JSON type is. -/
def HasType : JsonType → Object → Prop
  | .string, .str text => text ≠ [] ∧ text.strip = text
  | .integer, .int _ => True
  | .number, .int _ | .number, .float _ => True
  | .boolean, .bool _ => True
  | .array, .list _ => True
  | .object, .dict _ => True
  | _, _ => False

/-- A text is trimmed and an integral float becomes an integer; the rest stays as it is. -/
inductive Converts : JsonType → Object → Object → Prop where
  | trimmed {text : Str} (shown : text.strip ≠ []) :
    Converts .string (.str text) (.str text.strip)
  | integral (value : ℤ) : Converts .integer (.float (.finite value)) (.int value)
  | same {type : JsonType} {value : Object} (other : type ≠ .string) (typed : HasType type value) :
    Converts type value value

variable (repr : Object → Str)

/-- The value is one of its property's type, and of its enumeration if there is one. -/
structure Valid (definition : Definition) (value : Object) : Prop where
  typed : ∃ type, JsonType.ofName (typeName repr definition) = some type ∧ HasType type value
  listed : ∀ values, definition.get (Str.lit "enum") = some (.list values) → value.isIn values

/-- What is given for a property can be converted into a valid value. -/
structure Accepts (definition : Definition) (value converted : Object) : Prop where
  valid : Valid repr definition converted
  converts : ∃ type, JsonType.ofName (typeName repr definition) = some type ∧
    Converts type value converted

/-- The value other than `null` that is given for a property. -/
def given (raw : Arguments) (name : Str) : Option Object :=
  match raw.get name with
  | none | some .none => none
  | some value => some value

/-- The arguments are those that the schema and what is given for its properties allow. -/
structure Bound (schema : Schema) (raw arguments : Arguments) : Prop where
  /-- An argument is declared; it is what was given for it, or else its default. -/
  declared : ∀ name value, (name, value) ∈ arguments →
    ∃ definition, (name, definition) ∈ schemaProperties schema ∧
      match given raw name with
      | some original => Accepts repr definition original value
      | none => definition.get (Str.lit "default") = some value
  required : ∀ name ∈ requiredNames schema, name ∈ arguments.keys
  /-- Nothing that was given fails the checks of its property. -/
  checked : ∀ name definition, (name, definition) ∈ schemaProperties schema →
    ∀ original, given raw name = some original → ∃ value, Accepts repr definition original value

end Specification

section Conversion

variable {repr : Object → Str} {type : JsonType} {definition : Definition}
  {value converted : Object}

theorem Converts.hasType (converts : Converts type value converted) : HasType type converted := by
  cases converts with
  | trimmed shown => exact ⟨shown, Str.strip_strip _⟩
  | integral value => trivial
  | same other typed => exact typed

theorem convertTo_eq_some_iff : convertTo type value = some converted ↔
    Converts type value converted := by
  constructor
  · intro result
    unfold convertTo at result
    split at result
    case h_1 text =>
      split_ifs at result with empty
      cases result
      exact .trimmed empty
    case h_3 value =>
      split_ifs at result with integral
      cases result
      have whole := Rat.eq_num_of_isInt integral
      rw [whole]
      exact .integral value.num
    case h_9 => cases result
    all_goals
      cases result
      exact .same (by decide) trivial
  · intro converts
    cases converts with
    | trimmed shown => exact if_neg shown
    | integral value => rfl
    | same other typed =>
      cases type <;> cases value <;> first | exact typed.elim | exact absurd rfl other | rfl

theorem convertValue_eq_some_iff : convertValue repr value definition = some converted ↔
    Accepts repr definition value converted := by
  constructor
  · intro result
    unfold convertValue at result
    split at result
    case h_1 => cases result
    case h_2 converted' found =>
      obtain ⟨type, named, conversion⟩ := Option.bind_eq_some_iff.mp found
      have converts := convertTo_eq_some_iff.mp conversion
      split at result
      case h_1 values enumerated =>
        split_ifs at result with member
        cases result
        refine ⟨⟨⟨type, named, converts.hasType⟩, fun values' listed => ?_⟩, type, named, converts⟩
        cases enumerated.symm.trans listed
        exact member
      case h_2 other =>
        cases result
        exact ⟨⟨⟨type, named, converts.hasType⟩, fun values listed => absurd listed (other values)⟩,
          type, named, converts⟩
  · rintro ⟨⟨-, listed⟩, type, named, converts⟩
    have found : (JsonType.ofName (typeName repr definition)).bind
        (fun type => convertTo type value) = some converted := by
      rw [named]
      exact convertTo_eq_some_iff.mpr converts
    unfold convertValue
    rw [found]
    dsimp only
    split
    case h_1 values enumerated => exact if_pos (listed values enumerated)
    case h_2 => rfl

end Conversion

section Extraction

variable {repr : Object → Str} {raw arguments : Arguments} {properties : Dict Str Definition}
  {name : Str} {value : Object} {definition : Definition}

/-- What one property adds to the arguments and to the invalid fields. -/
theorem allowProperty_cases (repr : Object → Str) (raw : Arguments)
    (state : Arguments × List Str) (name : Str) (definition : Definition) :
    given raw name = none ∧ allowProperty repr raw state (name, definition) = state ∨
    ∃ original, given raw name = some original ∧
      ((∃ converted, Accepts repr definition original converted ∧
        allowProperty repr raw state (name, definition) = (state.1.set name converted, state.2)) ∨
      (¬ ∃ converted, Accepts repr definition original converted) ∧
        allowProperty repr raw state (name, definition) = (state.1, state.2 ++ [name])) := by
  unfold given allowProperty
  dsimp only
  cases found : raw.get name with
  | none => exact .inl ⟨rfl, rfl⟩
  | some original =>
    cases original with
    | none => exact .inl ⟨rfl, rfl⟩
    | _ =>
      refine .inr ⟨_, rfl, ?_⟩
      dsimp only
      cases result : convertValue repr _ definition with
      | some converted => exact .inl ⟨converted, convertValue_eq_some_iff.mp result, rfl⟩
      | none =>
        refine .inr ⟨?_, rfl⟩
        rintro ⟨converted, accepted⟩
        have := convertValue_eq_some_iff.mpr accepted
        rw [result] at this
        cases this

/-- After some properties: what was accepted is an argument, and the rest is listed. -/
structure Allowed (repr : Object → Str) (raw : Arguments) (done : Dict Str Definition)
    (state : Arguments × List Str) : Prop where
  accepted : ∀ name value, (name, value) ∈ state.1 → ∃ definition, (name, definition) ∈ done ∧
    ∃ original, given raw name = some original ∧ Accepts repr definition original value
  treated : ∀ name definition, (name, definition) ∈ done →
    ∀ original, given raw name = some original →
      name ∈ state.2 ∨ name ∈ state.1.keys ∧ ∃ value, Accepts repr definition original value

/-- A further property keeps the state of the others. -/
theorem Allowed.extend {done : Dict Str Definition} {state next : Arguments × List Str}
    (allowed : Allowed repr raw done state) (keys : ∀ other ∈ state.1.keys, other ∈ next.1.keys)
    (invalid : ∀ other ∈ state.2, other ∈ next.2)
    (accepted : ∀ other value, (other, value) ∈ next.1 → (other, value) ∈ state.1 ∨
      other = name ∧ ∃ original, given raw name = some original ∧
        Accepts repr definition original value)
    (treated : ∀ original, given raw name = some original →
      name ∈ next.2 ∨ name ∈ next.1.keys ∧ ∃ value, Accepts repr definition original value) :
    Allowed repr raw (done ++ [(name, definition)]) next where
  accepted other value member := by
    rcases accepted other value member with before | ⟨rfl, source⟩
    · obtain ⟨definition', listed, source⟩ := allowed.accepted other value before
      exact ⟨definition', List.mem_append_left _ listed, source⟩
    · exact ⟨definition, List.mem_append_right _ List.mem_cons_self, source⟩
  treated other definition' member original present := by
    rcases List.mem_append.mp member with before | new
    · exact (allowed.treated other definition' before original present).imp (invalid other)
        fun ⟨key, accepts⟩ => ⟨keys other key, accepts⟩
    · cases List.mem_singleton.mp new
      exact treated original present

theorem Allowed.step {done : Dict Str Definition} {state : Arguments × List Str}
    (allowed : Allowed repr raw done state) (name : Str) (definition : Definition) :
    Allowed repr raw (done ++ [(name, definition)])
      (allowProperty repr raw state (name, definition)) := by
  rcases allowProperty_cases repr raw state name definition with
    ⟨absent, same⟩ | ⟨original, present, ⟨converted, accepts, set⟩ | ⟨fails, listed⟩⟩
  · rw [same]
    refine allowed.extend (fun _ => id) (fun _ => id) (fun _ _ => .inl) ?_
    intro original present
    cases absent.symm.trans present
  · rw [set]
    refine allowed.extend (fun _ key => Dict.mem_keys_set.mpr (.inl key)) (fun _ => id) ?_ ?_
    · intro other value member
      rcases Dict.mem_of_mem_set member with before | new
      · exact .inl before
      · cases new
        exact .inr ⟨rfl, original, present, accepts⟩
    · intro original' present'
      cases present.symm.trans present'
      exact .inr ⟨Dict.mem_keys_set.mpr (.inr rfl), converted, accepts⟩
  · rw [listed]
    refine allowed.extend (fun _ => id) (fun _ => List.mem_append_left _) (fun _ _ => .inl) ?_
    exact fun _ _ => .inl (List.mem_append_right _ List.mem_cons_self)

theorem allowed_allowListAndConvert (repr : Object → Str) (raw : Arguments)
    (properties : Dict Str Definition) :
    Allowed repr raw properties (allowListAndConvert repr raw properties) := by
  have general (done : Dict Str Definition) (state : Arguments × List Str)
      (allowed : Allowed repr raw done state) :
      Allowed repr raw (done ++ properties) (properties.foldl (allowProperty repr raw) state) := by
    induction properties generalizing done state with
    | nil =>
      rw [List.append_nil]
      exact allowed
    | cons property properties ih =>
      rw [List.append_cons]
      exact ih _ _ (allowed.step property.1 property.2)
  refine general [] ([], []) ⟨?_, ?_⟩
  · exact fun name value member => absurd member List.not_mem_nil
  · exact fun name definition member => absurd member List.not_mem_nil

/-- While defaults are filled in, the arguments keep their names, and the others are defaults. -/
structure Filled (arguments : Arguments) (properties : Dict Str Definition)
    (state : Arguments × Bool) : Prop where
  kept : ∀ name ∈ arguments.keys, name ∈ state.1.keys
  source : ∀ name value, (name, value) ∈ state.1 → (name, value) ∈ arguments ∨
    name ∉ arguments.keys ∧ ∃ definition, (name, definition) ∈ properties ∧
      definition.get (Str.lit "default") = some value

theorem filled_fillDefaults (arguments : Arguments) (properties : Dict Str Definition) :
    Filled arguments properties (fillDefaults arguments properties) := by
  refine List.foldlRecOn properties fillDefault ⟨fun _ => id, fun _ _ => .inl⟩ ?_
  intro state filled property declared
  unfold fillDefault
  split_ifs with there
  · exact filled
  · rw [Dict.has_iff] at there
    split
    case h_1 default found =>
      constructor
      · exact fun name key => Dict.mem_keys_set.mpr (.inl (filled.kept name key))
      · intro name value member
        rcases Dict.mem_of_mem_set member with before | new
        · exact filled.source name value before
        · cases new
          exact .inr ⟨fun key => there (filled.kept _ key), property.2, declared, found⟩
    case h_2 => exact filled

/-- Without properties nothing is asked for, and nothing is missing. -/
theorem extract_of_no_properties {schema : Schema} (none : schemaProperties schema = [])
    (repr : Object → Str) (reply : Option Str) : extract repr schema reply =
      { arguments := [], missingRequired := [], invalidFields := [], usedDefaults := false,
        fallbackUsed := false } := by
  unfold extract
  rw [none]
  rfl

/-- What the extractor calls ready is bound to the schema, if the schema declares a property. -/
theorem bound_extract {schema : Schema} {reply : Option Str}
    (declares : schemaProperties schema ≠ [])
    (valid : (extract repr schema reply).invalidFields = [])
    (complete : (extract repr schema reply).missingRequired = []) :
    Bound repr schema ((rawArguments reply).getD []) (extract repr schema reply).arguments := by
  have nonempty : (schemaProperties schema).isEmpty = false := by
    rw [List.isEmpty_eq_false_iff]
    exact declares
  unfold extract at *
  simp only [nonempty, Bool.false_eq_true, if_false] at *
  have allowed := allowed_allowListAndConvert repr ((rawArguments reply).getD [])
    (schemaProperties schema)
  have filled := filled_fillDefaults
    (allowListAndConvert repr ((rawArguments reply).getD []) (schemaProperties schema)).1
    (schemaProperties schema)
  constructor
  · intro name value member
    rcases filled.source name value member with converted | ⟨fresh, definition, declared, default⟩
    · obtain ⟨definition, declared, original, present, accepts⟩ :=
        allowed.accepted name value converted
      refine ⟨definition, declared, ?_⟩
      rw [present]
      exact accepts
    · refine ⟨definition, declared, ?_⟩
      cases present : given ((rawArguments reply).getD []) name with
      | none => exact default
      | some original =>
        rcases allowed.treated name definition declared original present with listed | ⟨key, -⟩
        · rw [valid] at listed
          cases listed
        · exact absurd key fresh
  · intro name required
    have there := List.filter_eq_nil_iff.mp complete name required
    simpa using there
  · intro name definition declared original present
    rcases allowed.treated name definition declared original present with listed | ⟨-, accepts⟩
    · rw [valid] at listed
      cases listed
    · exact accepts

end Extraction

end HeyeeAgent.Mcp
