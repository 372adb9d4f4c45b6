import N8nSystems.Lib.PyText

/-! JSON values as a program holds them after parsing. -/

namespace N8nSystems.Lib

open Py (Text)

/-- A number literal without fraction and exponent is an `int`, another one the
double it denotes or an infinity. An object keeps its keys in order. -/
inductive Json where
  | null
  | bool (value : Bool)
  | int (value : Int)
  | float (value : Rat)
  | infinite (negative : Bool)
  | string (value : Text)
  | array (items : List Json)
  | object (fields : List (Text × Json))

namespace Json

def lookup (key : Text) (fields : List (Text × Json)) : Option Json :=
  (fields.find? (·.1 = key)).map Prod.snd

def isNull : Json → Bool
  | .null => true
  | _ => false

/-- The fields of an object; another value has none. -/
def fields : Json → List (Text × Json)
  | .object fields => fields
  | _ => []

def get (value : Json) (key : Text) : Option Json := lookup key value.fields

theorem mem_of_lookup {key : Text} {fields : List (Text × Json)} {value : Json}
    (found : lookup key fields = some value) : (key, value) ∈ fields := by
  obtain ⟨⟨name, item⟩, first, rfl⟩ := Option.map_eq_some_iff.mp found
  have named : name = key := by simpa using List.find?_some first
  subst named
  exact List.mem_of_find?_eq_some first

theorem sizeOf_field {field : Text × Json} {fields : List (Text × Json)} (member : field ∈ fields) :
    sizeOf field.2 < sizeOf (Json.object fields) := by
  have inner := List.sizeOf_lt_of_mem member
  obtain ⟨key, value⟩ := field
  simp only [Prod.mk.sizeOf_spec, object.sizeOf_spec] at inner ⊢
  omega

theorem isSome_lookup {key : Text} {fields : List (Text × Json)} :
    (lookup key fields).isSome = true ↔ key ∈ fields.map Prod.fst := by
  simp [lookup, List.mem_map, List.find?_isSome]

theorem sizeOf_item {item : Json} {items : List Json} (member : item ∈ items) :
    sizeOf item < sizeOf (Json.array items) := by
  have inner := List.sizeOf_lt_of_mem member
  rw [array.sizeOf_spec]
  omega

theorem sizeOf_lookup {key : Text} {value : Json} {fields : List (Text × Json)}
    (found : lookup key fields = some value) : sizeOf value < sizeOf (Json.object fields) :=
  sizeOf_field (mem_of_lookup found)

/-- `fields[key] = value` for a key that is there. -/
def setField (key : Text) (value : Json) (fields : List (Text × Json)) : List (Text × Json) :=
  fields.map fun field => if field.1 = key then (key, value) else field

theorem lookup_setField_self {key : Text} {value old : Json} {fields : List (Text × Json)}
    (present : lookup key fields = some old) : lookup key (setField key value fields) = some value := by
  induction fields with
  | nil => cases present
  | cons field fields ih =>
    by_cases here : field.1 = key
    · simp [lookup, setField, here]
    · simp only [lookup, setField, List.map_cons, here, if_false, decide_false, List.find?_cons] at present ih ⊢
      exact ih present

theorem lookup_setField_other {key other : Text} {value : Json} {fields : List (Text × Json)}
    (different : other ≠ key) : lookup other (setField key value fields) = lookup other fields := by
  induction fields with
  | nil => rfl
  | cons field fields ih =>
    simp only [lookup, setField, List.map_cons, List.find?_cons] at ih ⊢
    by_cases here : field.1 = key
    · have apart : field.1 ≠ other := fun same => different (same.symm.trans here)
      simp only [if_pos here, Ne.symm different, apart, decide_false]
      exact ih
    · simp only [if_neg here]
      split
      · rfl
      · exact ih

theorem keys_setField (key : Text) (value : Json) (fields : List (Text × Json)) :
    (setField key value fields).map Prod.fst = fields.map Prod.fst := by
  rw [setField, List.map_map]
  refine List.map_congr_left fun field _ => ?_
  rw [Function.comp_apply]
  split
  · rename_i here
    exact here.symm
  · rfl

theorem setField_setField (key : Text) (value : Json) (fields : List (Text × Json)) :
    setField key value (setField key value fields) = setField key value fields := by
  rw [setField, setField, List.map_map]
  apply List.map_congr_left
  intro field _
  by_cases here : field.1 = key <;> simp [here]

/-- Induction over the items of arrays and the values of objects. -/
@[elab_as_elim]
theorem induction {motive : Json → Prop}
    (null : motive .null) (bool : ∀ value, motive (.bool value)) (int : ∀ value, motive (.int value))
    (float : ∀ value, motive (.float value)) (infinite : ∀ negative, motive (.infinite negative))
    (string : ∀ value, motive (.string value))
    (array : ∀ items, (∀ item ∈ items, motive item) → motive (.array items))
    (object : ∀ fields, (∀ field ∈ fields, motive field.2) → motive (.object fields))
    (value : Json) : motive value := by
  refine @Json.rec motive (fun items => ∀ item ∈ items, motive item)
    (fun fields => ∀ field ∈ fields, motive field.2) (fun field => motive field.2)
    null bool int float infinite string array object ?_ ?_ ?_ ?_ ?_ value
  · intro item member
    cases member
  · intro head tail first rest item member
    rcases List.mem_cons.mp member with rfl | later
    · exact first
    · exact rest item later
  · intro field member
    cases member
  · intro head tail first rest field member
    rcases List.mem_cons.mp member with rfl | later
    · exact first
    · exact rest field later
  · exact fun _ _ inner => inner

/-- The value stands somewhere inside the other one. -/
inductive Inside (value : Json) : Json → Prop
  | self : Inside value value
  | item {items : List Json} (member : item ∈ items) (inside : Inside value item) :
      Inside value (.array items)
  | field {fields : List (Text × Json)} (member : (key, item) ∈ fields)
      (inside : Inside value item) : Inside value (.object fields)

theorem Inside.trans {inner middle outer : Json} (first : Inside inner middle)
    (second : Inside middle outer) : Inside inner outer := by
  induction second with
  | self => exact first
  | item member _ ih => exact .item member ih
  | field member _ ih => exact .field member ih

/-- The text is a key of the value, or of an object somewhere in it. -/
inductive KeyOf (key : Text) : Json → Prop
  | here {fields : List (Text × Json)} (member : field ∈ fields) (named : field.1 = key) :
      KeyOf key (.object fields)
  | field {fields : List (Text × Json)} (member : field ∈ fields) (inner : KeyOf key field.2) :
      KeyOf key (.object fields)
  | item (member : item ∈ items) (inner : KeyOf key item) : KeyOf key (.array items)

/-- The text stands in the value, as a string or as a key, at any depth. -/
def Occurs (found : Text) (value : Json) : Prop := Inside (.string found) value ∨ KeyOf found value

/-- No text, and nothing that holds one. -/
def isScalar : Json → Bool
  | .string _ | .array _ | .object _ => false
  | _ => true

theorem not_occurs_scalar {found : Text} {value : Json} (scalar : value.isScalar = true) :
    ¬ Occurs found value := by
  rintro (inside | key)
  · cases inside <;> cases scalar
  · cases key <;> cases scalar

theorem occurs_string {found value : Text} : Occurs found (.string value) ↔ found = value := by
  constructor
  · rintro (inside | key)
    · cases inside
      rfl
    · cases key
  · rintro rfl
    exact .inl .self

theorem occurs_array {found : Text} {items : List Json} :
    Occurs found (.array items) ↔ ∃ item ∈ items, Occurs found item := by
  constructor
  · rintro (inside | key)
    · cases inside with
      | item member inside => exact ⟨_, member, .inl inside⟩
    · cases key with
      | item member inner => exact ⟨_, member, .inr inner⟩
  · rintro ⟨item, member, inside | key⟩
    · exact .inl (.item member inside)
    · exact .inr (.item member key)

theorem occurs_object {found : Text} {fields : List (Text × Json)} :
    Occurs found (.object fields) ↔ ∃ field ∈ fields, field.1 = found ∨ Occurs found field.2 := by
  constructor
  · rintro (inside | key)
    · cases inside with
      | field member inside => exact ⟨_, member, .inr (.inl inside)⟩
    · cases key with
      | here member named => exact ⟨_, member, .inl named⟩
      | field member inner => exact ⟨_, member, .inr (.inr inner)⟩
  · rintro ⟨field, member, named | inside | key⟩
    · exact .inr (.here member named)
    · exact .inl (.field member inside)
    · exact .inr (.field member key)

/-- The value is the other one, or an element of the lists nested in it. -/
inductive Listed (value : Json) : Json → Prop
  | self : Listed value value
  | item (member : item ∈ items) (listed : Listed value item) : Listed value (.array items)

end Json

end N8nSystems.Lib
