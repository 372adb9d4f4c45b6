import N8nSystems.Lib.JsonSchema

/-! `default_from_schema` of `platform/services/mock-llm`. -/

namespace N8nSystems.MockLlm

open Lib Lib.Py
open Lib.Json (lookup)

inductive OverflowError where
  | overflow
  deriving DecidableEq

/-- `{"ok": True}`. -/
def okTrue : Json := .object [(text "ok", .bool true)]

/-- `int(value)` of a finite float. -/
def truncate (value : Rat) : Int := value.num.tdiv value.den

/-- `int(value) if isinstance(value, int | float) else 0`. -/
def intOrZero : Option Json → Except OverflowError Int
  | some (.int value) => .ok value
  | some (.float value) => .ok (truncate value)
  | some (.infinite _) => .error .overflow
  | some (.bool value) => .ok (if value then 1 else 0)
  | _ => .ok 0

/-- The nearest double of a natural number, ties to even, before the check of the
range: 53 bits are kept. -/
def roundNat (n : Nat) : Nat :=
  let shift := n.log2 + 1 - 53
  let kept := n / 2 ^ shift
  let rest := 2 * (n % 2 ^ shift)
  let up := rest > 2 ^ shift ∨ (rest = 2 ^ shift ∧ kept % 2 = 1)
  (if up then kept + 1 else kept) * 2 ^ shift

/-- `float(value)` of an int. -/
def floatOfInt (value : Int) : Except OverflowError Rat :=
  let rounded := roundNat value.natAbs
  if 2 ^ 1024 ≤ rounded then .error .overflow
  else .ok (if value < 0 then -(rounded : Rat) else rounded)

/-- `float(minimum) if isinstance(minimum, int | float) else 0.0`. -/
def floatOrZero : Option Json → Except OverflowError Json
  | some (.int value) => do return .float (← floatOfInt value)
  | some (.float value) => .ok (.float value)
  | some (.infinite negative) => .ok (.infinite negative)
  | some (.bool value) => .ok (.float (if value then 1 else 0))
  | _ => .ok (.float 0)

def isNullName : Json → Bool
  | .string name => name = text "null"
  | _ => false

/-- `type_name`, as far as it is a text. In a list `"null"` counts only when nothing
else is left. -/
def typeName : Option Json → Option Text
  | some (.array items) =>
    match items.find? fun item => !isNullName item with
    | some (.string name) => some name
    | some .null | none =>
      match items.head? with
      | some (.string name) => some name
      | _ => none
    | some _ => none
  | some (.string name) => some name
  | _ => none

/-- The branches for an empty schema, `const`, `enum` and `default`. -/
def fixedValue (fields : List (Text × Json)) : Option Json :=
  if fields.isEmpty then some okTrue
  else match lookup (text "const") fields with
    | some value => some value
    | none =>
      match lookup (text "enum") fields with
      | some (.array (first :: _)) => some first
      | _ => lookup (text "default") fields

def propertiesOf (fields : List (Text × Json)) : List (Text × Json) :=
  match lookup (text "properties") fields with
  | some (.object properties) => properties
  | _ => []

def textsOf (items : List Json) : List Text :=
  items.filterMap fun item =>
    match item with
    | .string value => some value
    | _ => none

/-- The keys that the object gets: the required ones, or else all properties. -/
def objectKeys (fields : List (Text × Json)) : List Text :=
  match lookup (text "required") fields with
  | some (.array (first :: rest)) => textsOf (first :: rest)
  | _ => (propertiesOf fields).map Prod.fst

/-- `out[key] = value`. -/
def assign (key : Text) (value : Json) (out : List (Text × Json)) : List (Text × Json) :=
  if (lookup key out).isSome then Json.setField key value out else out ++ [(key, value)]

/-- The loop over the keys. -/
def buildObject (child : Text → Except OverflowError Json) (keys : List Text) :
    Except OverflowError (List (Text × Json)) :=
  keys.foldlM (fun out key => do return assign key (← child key) out) []

/-- The values of the types without parts. -/
def scalarDefault (name : Option Text) (minimum : Option Json) : Option (Except OverflowError Json) :=
  if name = some (text "string") then some (.ok (.string (text "default")))
  else if name = some (text "integer") then some do return .int (← intOrZero minimum)
  else if name = some (text "number") then some (floatOrZero minimum)
  else if name = some (text "boolean") then some (.ok (.bool false))
  else if name = some (text "null") then some (.ok .null)
  else none

/-- The first option of a union keyword, if it is an object. -/
def firstOf (union : Option Json) : Option Json :=
  match union with
  | some (.array (.object first :: _)) => some (.object first)
  | _ => none

def firstOption (fields : List (Text × Json)) : Option Json :=
  (firstOf (lookup (text "anyOf") fields)).or (firstOf (lookup (text "oneOf") fields))

theorem sizeOf_property {fields : List (Text × Json)} {key : Text} {child : Json}
    (held : lookup key (propertiesOf fields) = some child) :
    sizeOf child < sizeOf (Json.object fields) := by
  unfold propertiesOf at held
  split at held
  · rename_i properties listed
    exact (Json.sizeOf_lookup held).trans (Json.sizeOf_lookup listed)
  · cases held

theorem firstOf_eq_some {union : Option Json} {option : Json} (first : firstOf union = some option) :
    ∃ rest, union = some (.array (option :: rest)) := by
  unfold firstOf at first
  split at first
  · cases first
    exact ⟨_, rfl⟩
  · cases first

theorem sizeOf_firstOption {fields : List (Text × Json)} {option : Json}
    (first : firstOption fields = some option) : sizeOf option < sizeOf (Json.object fields) := by
  have smaller {key : Text} (found : firstOf (lookup key fields) = some option) :
      sizeOf option < sizeOf (Json.object fields) := by
    obtain ⟨rest, listed⟩ := firstOf_eq_some found
    exact (Json.sizeOf_item List.mem_cons_self).trans (Json.sizeOf_lookup listed)
  rcases Option.or_eq_some_iff.mp first with found | ⟨-, found⟩
  · exact smaller found
  · exact smaller found

def defaultFromSchema : Json → Except OverflowError Json
  | .object fields =>
    match fixedValue fields with
    | some value => .ok value
    | none =>
      let name := typeName (lookup (text "type") fields)
      if name = some (text "object") ∨ (lookup (text "properties") fields).isSome then do
        let out ← buildObject (fun key =>
          match _held : lookup key (propertiesOf fields) with
          | some child => defaultFromSchema child
          | none => .ok okTrue) (objectKeys fields)
        return if out.isEmpty then okTrue else .object out
      else if name = some (text "array") then do
        let least ← intOrZero (lookup (text "minItems") fields)
        match _held : lookup (text "items") fields with
        | some (.object items) =>
          if 0 < least then do
            let item ← defaultFromSchema (.object items)
            return .array (List.replicate least.toNat item)
          else return .array []
        | _ => return .array []
      else match scalarDefault name (lookup (text "minimum") fields) with
        | some result => result
        | none =>
          match _first : firstOption fields with
          | some option => defaultFromSchema option
          | none => .ok okTrue
  -- A subschema that is no mapping is taken for an empty one.
  | _ => .ok okTrue
  termination_by schema => sizeOf schema
  decreasing_by
    · exact sizeOf_property _held
    · exact Json.sizeOf_lookup _held
    · exact sizeOf_firstOption _first

end N8nSystems.MockLlm
