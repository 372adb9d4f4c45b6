import N8nSystems.Lib.Json

/-! JSON Schema, for the assertions that speak of one value and the applicators
`properties`, `items`, `anyOf` and `oneOf`. -/

namespace N8nSystems.Lib

open Py (Text text)

namespace Json

/-- The value of a number. -/
def number : Json → Option Rat
  | .int value => some value
  | .float value => some value
  | _ => none

mutual

/-- Equality of JSON values: numbers by their value, objects without an order. -/
def same : Json → Json → Bool
  | .null, .null => true
  | .bool first, .bool second => first == second
  | .int first, second => second.number == some (first : Rat)
  | .float first, second => second.number == some first
  | .infinite first, .infinite second => first == second
  | .string first, .string second => first == second
  | .array first, .array second => sameItems first second
  | .object first, .object second => first.length == second.length && sameFields first second
  | _, _ => false
  termination_by structural value => value

def sameItems : List Json → List Json → Bool
  | [], [] => true
  | item :: items, other :: others => same item other && sameItems items others
  | _, _ => false
  termination_by structural items => items

def sameFields : List (Text × Json) → List (Text × Json) → Bool
  | [], _ => true
  | field :: fields, others => sameField field others && sameFields fields others
  termination_by structural fields => fields

def sameField : Text × Json → List (Text × Json) → Bool
  | (key, value), others => match lookup key others with
    | some other => same value other
    | none => false
  termination_by structural field => field

end

/-- The types of the standard. A number without a fraction is an integer. -/
def hasType (name : Text) : Json → Bool
  | .null => name = text "null"
  | .bool _ => name = text "boolean"
  | .int _ => name = text "integer" ∨ name = text "number"
  | .float value => name = text "number" ∨ (value.den = 1 ∧ name = text "integer")
  | .infinite _ => name = text "number"
  | .string _ => name = text "string"
  | .array _ => name = text "array"
  | .object _ => name = text "object"

/-- A `type` keyword, with one name or a list of them. -/
def TypeAllows : Json → Json → Prop
  | .string name, value => hasType name value = true
  | .array names, value => ∃ name, .string name ∈ names ∧ hasType name value = true
  | _, _ => True

/-- The assertions that need no other schema. -/
structure Asserts (schema : List (Text × Json)) (value : Json) : Prop where
  const : ∀ expected, lookup (text "const") schema = some expected → same expected value = true
  enum : ∀ choices, lookup (text "enum") schema = some (.array choices) →
    ∃ choice ∈ choices, same choice value = true
  type : ∀ kind, lookup (text "type") schema = some kind → TypeAllows kind value
  required : ∀ names fields, lookup (text "required") schema = some (.array names) →
    value = .object fields → ∀ name, .string name ∈ names → (lookup name fields).isSome = true
  minItems : ∀ bound least items, lookup (text "minItems") schema = some bound →
    bound.number = some least → value = .array items → least ≤ items.length
  minimum : ∀ bound least given, lookup (text "minimum") schema = some bound →
    bound.number = some least → value.number = some given → least ≤ given

/-- The value validates against the schema. -/
def Valid : Json → Json → Prop
  | .object schema, value =>
    Asserts schema value ∧
    (∀ properties, ∀ _listed : lookup (text "properties") schema = some (.object properties),
      ∀ key child, ∀ _held : lookup key properties = some child,
        ∀ item, value.get key = some item → Valid child item) ∧
    (∀ child, ∀ _held : lookup (text "items") schema = some child,
      ∀ items, value = .array items → ∀ item ∈ items, Valid child item) ∧
    (∀ options, ∀ _listed : lookup (text "anyOf") schema = some (.array options),
      ∃ option, ∃ _member : option ∈ options, Valid option value) ∧
    (∀ options, ∀ _listed : lookup (text "oneOf") schema = some (.array options),
      ∃ index : Fin options.length, Valid (options.get index) value ∧
        ∀ other : Fin options.length, Valid (options.get other) value → other = index)
  | .bool allowed, _ => allowed = true
  | _, _ => False
  termination_by schema => sizeOf schema
  decreasing_by
    · exact (sizeOf_lookup _held).trans (sizeOf_lookup _listed)
    · exact sizeOf_lookup _held
    · exact (sizeOf_item _member).trans (sizeOf_lookup _listed)
    · exact (sizeOf_item (List.get_mem _ _)).trans (sizeOf_lookup _listed)
    · exact (sizeOf_item (List.get_mem _ _)).trans (sizeOf_lookup _listed)

end Json

end N8nSystems.Lib
