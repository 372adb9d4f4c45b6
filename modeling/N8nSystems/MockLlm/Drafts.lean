import Mathlib.Data.List.Dedup
import N8nSystems.Lib.JsonSchema
import N8nSystems.MockLlm.Branches

/-! What the default of a schema is made of, and how every keyword that speaks of it stands to
that: the keywords that the code goes by, and those that it passes over. -/

namespace N8nSystems.MockLlm

open Lib Lib.Py
open Lib.Json (lookup same sameItems sameFields sameField hasType TypeAllows Valid Asserts)

/-- What an answer is made of: a value that the schema fixes by `const`, `enum` or a type without
parts, the keys of an object schema, or equal items. -/
inductive Draft where
  | value (value : Json)
  | object (fields : List (Text × Json))
  | array (count : Nat) (items : List (Text × Json))

/-- An array has items when both `items` and `minItems` ask for them. -/
def arrayDraft : Option Json → Int → Draft
  | some (.object items), least => if 0 < least then .array least.toNat items else .value (.array [])
  | _, _ => .value (.array [])

/-- The keyword that the code goes by. It fails where a number of the schema is out of range. -/
def draft : Json → Except OverflowError Draft
  | .object fields =>
    match fixedValue fields with
    | some value => .ok (.value value)
    | none =>
      if IsObject fields then .ok (if objectKeys fields = [] then .value okTrue else .object fields)
      else if typeName (lookup (text "type") fields) = some (text "array") then
        (intOrZero (lookup (text "minItems") fields)).map (arrayDraft (lookup (text "items") fields))
      else match scalarDefault (typeName (lookup (text "type") fields)) (lookup (text "minimum") fields) with
        | some chosen => chosen.map .value
        | none =>
          match _first : firstOption fields with
          | some option => draft option
          | none => .ok (.value okTrue)
  | _ => .ok (.value okTrue)
  termination_by schema => sizeOf schema
  decreasing_by exact sizeOf_firstOption _first

/-- The schema for a key of an object schema. -/
def childOf (fields : List (Text × Json)) (key : Text) : Json :=
  (lookup key (propertiesOf fields)).getD (.object [])

namespace Draft

def hasType (name : Text) : Draft → Bool
  | .value given => Json.hasType name given
  | .object _ => name = text "object"
  | .array _ _ => name = text "array"

def number : Draft → Option Rat
  | .value given => given.number
  | _ => none

/-- The keys of an object. -/
def keys : Draft → Option (List Text)
  | .value (.object fields) => some (fields.map Prod.fst)
  | .object fields => some (objectKeys fields)
  | _ => none

/-- What stands under a key. -/
def get : Draft → Text → Option Draft
  | .value given, key => (given.get key).map .value
  | .object fields, key => if key ∈ objectKeys fields then (draft (childOf fields key)).toOption else none
  | .array _ _, _ => none

/-- The items of an array. -/
def items : Draft → Option (List Draft)
  | .value (.array parts) => some (parts.map .value)
  | .array count fields => (draft (.object fields)).toOption.map (List.replicate count)
  | _ => none

/-- The answer equals the value that a schema asks for. -/
inductive Is : Draft → Json → Prop
  | value (equal : same expected given = true) : Is (.value given) expected
  | object (count : members.length = (objectKeys fields).dedup.length)
    (held : ∀ member ∈ members, ((Draft.object fields).get member.1).isSome = true)
    (each : ∀ member ∈ members, ∀ inner, (Draft.object fields).get member.1 = some inner → Is inner member.2) :
    Is (.object fields) (.object members)
  | array (count : members.length = least)
    (each : ∀ member ∈ members, ∀ inner, draft (.object fields) = .ok inner → Is inner member) :
    Is (.array least fields) (.array members)

/-- The answer is of one of the types. -/
def OfType (answer : Draft) : Json → Prop
  | .string name => answer.hasType name = true
  | .array names => ∃ name, .string name ∈ names ∧ answer.hasType name = true
  | _ => True

/-- The assertions of a schema that need no other schema. -/
structure Heeds (answer : Draft) (schema : List (Text × Json)) : Prop where
  const : ∀ expected, lookup (text "const") schema = some expected → answer.Is expected
  enum : ∀ choices, lookup (text "enum") schema = some (.array choices) → ∃ choice ∈ choices, answer.Is choice
  type : ∀ kind, lookup (text "type") schema = some kind → answer.OfType kind
  required : ∀ names keys, lookup (text "required") schema = some (.array names) → answer.keys = some keys →
    ∀ name, .string name ∈ names → name ∈ keys
  minItems : ∀ bound least items, lookup (text "minItems") schema = some bound → bound.number = some least →
    answer.items = some items → least ≤ items.length
  minimum : ∀ bound least given, lookup (text "minimum") schema = some bound → bound.number = some least →
    answer.number = some given → least ≤ given

/-- Every keyword of the schema lets the answer through. -/
def Fits : Json → Draft → Prop
  | .object schema, answer =>
    answer.Heeds schema ∧
    (∀ properties, ∀ _listed : lookup (text "properties") schema = some (.object properties),
      ∀ key child, ∀ _held : lookup key properties = some child,
        ∀ inner, answer.get key = some inner → Fits child inner) ∧
    (∀ child, ∀ _held : lookup (text "items") schema = some child,
      ∀ items, answer.items = some items → ∀ item ∈ items, Fits child item) ∧
    (∀ options, ∀ _listed : lookup (text "anyOf") schema = some (.array options),
      ∃ option, ∃ _member : option ∈ options, Fits option answer) ∧
    (∀ options, ∀ _listed : lookup (text "oneOf") schema = some (.array options),
      ∃ index : Fin options.length, Fits (options.get index) answer ∧
        ∀ other : Fin options.length, Fits (options.get other) answer → other = index)
  | .bool allowed, _ => allowed = true
  | _, _ => False
  termination_by schema => sizeOf schema
  decreasing_by
    · exact (Json.sizeOf_lookup _held).trans (Json.sizeOf_lookup _listed)
    · exact Json.sizeOf_lookup _held
    · exact (Json.sizeOf_item _member).trans (Json.sizeOf_lookup _listed)
    · exact (Json.sizeOf_item (List.get_mem _ _)).trans (Json.sizeOf_lookup _listed)
    · exact (Json.sizeOf_item (List.get_mem _ _)).trans (Json.sizeOf_lookup _listed)

end Draft

/-- No number that the answer is made of is out of range. -/
inductive InRange : Json → Prop
  | value (made : draft schema = .ok (.value value)) : InRange schema
  | object (made : draft schema = .ok (.object fields))
    (each : ∀ key ∈ objectKeys fields, InRange (childOf fields key)) : InRange schema
  | array (made : draft schema = .ok (.array count items)) (inner : InRange (.object items)) : InRange schema

/-- No keyword is passed over that rejects what the code goes by. -/
structure Heeded (schema : Json) : Prop where
  inRange : InRange schema
  fits : ∀ answer, draft schema = .ok answer → answer.Fits schema

/-- The draft describes the value. -/
inductive Drawn : Draft → Json → Prop
  | value : Drawn (.value given) given
  | object (distinct : (out.map Prod.fst).Nodup)
    (keys : ∀ key, key ∈ out.map Prod.fst ↔ key ∈ objectKeys fields)
    (made : ∀ key ∈ objectKeys fields, ∃ inner, draft (childOf fields key) = .ok inner)
    (each : ∀ key item, lookup key out = some item → ∀ inner, draft (childOf fields key) = .ok inner →
      Drawn inner item) : Drawn (.object fields) (.object out)
  | array {inner : Draft} (made : draft (.object fields) = .ok inner) (item : Drawn inner given) :
    Drawn (.array count fields) (.array (List.replicate count given))

section
variable {answer : Draft} {value : Json}

theorem Drawn.hasType (drawn : Drawn answer value) (name : Text) :
    answer.hasType name = Json.hasType name value := by
  cases drawn <;> rfl

theorem Drawn.ofType (drawn : Drawn answer value) (kind : Json) : answer.OfType kind ↔ TypeAllows kind value := by
  cases kind <;> simp only [Draft.OfType, TypeAllows, drawn.hasType]

theorem Drawn.number (drawn : Drawn answer value) : answer.number = value.number := by
  cases drawn <;> rfl

/-- The keys of an object, as the assertion `required` asks for them. -/
theorem Drawn.required (drawn : Drawn answer value) (name : Text) :
    (∀ keys, answer.keys = some keys → name ∈ keys) ↔
      ∀ fields, value = .object fields → (lookup name fields).isSome = true := by
  simp only [Json.isSome_lookup]
  cases drawn with
  | value => cases value <;> simp [Draft.keys]
  | object distinct keys =>
    simp only [Draft.keys, Option.some.injEq, Json.object.injEq, forall_eq', keys]
  | array => simp [Draft.keys]

theorem toOption_ok {draft : Except OverflowError Draft} (made : draft = .ok answer) :
    draft.toOption = some answer := by
  rw [made]
  rfl

theorem Drawn.get (drawn : Drawn answer value) (key : Text) :
    Option.Rel Drawn (answer.get key) (value.get key) := by
  cases drawn with
  | value =>
    rw [Draft.get]
    cases value.get key with
    | none => exact .none
    | some item => exact .some .value
  | object distinct keys made each =>
    rename_i fields out
    rw [Draft.get, Json.get, Json.fields]
    by_cases member : key ∈ objectKeys fields
    · obtain ⟨inner, built⟩ := made key member
      obtain ⟨item, held⟩ := Option.isSome_iff_exists.mp (Json.isSome_lookup.mpr ((keys key).mpr member))
      rw [if_pos member, toOption_ok built, held]
      exact .some (each key item held inner built)
    · have absent : lookup key out = none := by
        rw [← Option.not_isSome_iff_eq_none, Json.isSome_lookup, keys]
        exact member
      rw [if_neg member, absent]
      exact .none
  | array => exact .none

theorem Drawn.get_draft (drawn : Drawn answer value) {key : Text} {inner : Draft}
    (held : answer.get key = some inner) : ∃ item, value.get key = some item ∧ Drawn inner item := by
  have related := drawn.get key
  rw [held] at related
  generalize value.get key = found at related
  cases related with
  | some alike => exact ⟨_, rfl, alike⟩

theorem Drawn.get_value (drawn : Drawn answer value) {key : Text} {item : Json}
    (held : value.get key = some item) : ∃ inner, answer.get key = some inner ∧ Drawn inner item := by
  have related := drawn.get key
  rw [held] at related
  generalize answer.get key = found at related
  cases related with
  | some alike => exact ⟨_, rfl, alike⟩

theorem forall₂_replicate {inner : Draft} {given : Json} (drawn : Drawn inner given) (count : Nat) :
    List.Forall₂ Drawn (List.replicate count inner) (List.replicate count given) := by
  induction count with
  | zero => exact .nil
  | succ count ih => exact .cons drawn ih

theorem Drawn.items (drawn : Drawn answer value) :
    (∃ parts drafts, value = .array parts ∧ answer.items = some drafts ∧ List.Forall₂ Drawn drafts parts) ∨
      (∀ parts, value ≠ .array parts) ∧ answer.items = none := by
  cases drawn with
  | value =>
    cases value with
    | array parts =>
      refine .inl ⟨parts, parts.map .value, rfl, rfl, ?_⟩
      rw [List.forall₂_map_left_iff]
      exact List.forall₂_same.mpr fun _ _ => .value
    | _ => exact .inr ⟨fun _ => Json.noConfusion, rfl⟩
  | object => exact .inr ⟨fun _ => Json.noConfusion, rfl⟩
  | array made item =>
    refine .inl ⟨_, _, rfl, ?_, forall₂_replicate item _⟩
    rw [Draft.items, toOption_ok made]
    rfl

theorem sameItems_replicate {members : List Json} {count : Nat} {given : Json} :
    sameItems members (List.replicate count given) = true ↔
      members.length = count ∧ ∀ member ∈ members, same member given = true := by
  induction members generalizing count with
  | nil => cases count <;> simp [sameItems, List.replicate_succ]
  | cons first rest ih =>
    cases count with
    | zero => simp [sameItems]
    | succ count =>
      rw [List.replicate_succ, sameItems, Bool.and_eq_true, ih, List.length_cons, Nat.succ_inj,
        List.forall_mem_cons]
      exact and_left_comm

theorem sameFields_iff {members out : List (Text × Json)} :
    sameFields members out = true ↔
      ∀ member ∈ members, ∃ item, lookup member.1 out = some item ∧ same member.2 item = true := by
  induction members with
  | nil => simp [sameFields]
  | cons first rest ih =>
    obtain ⟨key, expected⟩ := first
    rw [sameFields, Bool.and_eq_true, ih, List.forall_mem_cons, sameField]
    refine and_congr_left fun _ => ?_
    cases lookup key out <;> simp

theorem length_eq_dedup {out : List (Text × Json)} {keys : List Text} (distinct : (out.map Prod.fst).Nodup)
    (same : ∀ key, key ∈ out.map Prod.fst ↔ key ∈ keys) : out.length = keys.dedup.length := by
  have perm : (out.map Prod.fst).Perm keys.dedup :=
    (List.perm_ext_iff_of_nodup distinct keys.nodup_dedup).mpr fun key => (same key).trans List.mem_dedup.symm
  rw [← perm.length_eq, List.length_map]

theorem is_value {given expected : Json} : (Draft.value given).Is expected ↔ same expected given = true := by
  constructor
  · intro equal
    cases equal with
    | value equal => exact equal
  · exact .value

/-- Equality is decided part by part. -/
theorem Drawn.is_iff (drawn : Drawn answer value) (expected : Json) :
    answer.Is expected ↔ same expected value = true := by
  induction expected using Json.induction generalizing answer value with
  | array members ih =>
    cases drawn with
    | value =>
      exact is_value
    | object =>
      constructor
      · intro equal
        cases equal
      · intro equal
        cases equal
    | array made item =>
      rw [same, sameItems_replicate]
      constructor
      · intro equal
        cases equal with
        | array count each =>
          exact ⟨count, fun member listed => (ih member listed item).mp (each member listed _ made)⟩
      · rintro ⟨count, each⟩
        refine .array count fun member listed inner built => ?_
        cases made.symm.trans built
        exact (ih member listed item).mpr (each member listed)
  | object members ih =>
    cases drawn with
    | value => exact is_value
    | array =>
      constructor
      · intro equal
        cases equal
      · intro equal
        cases equal
    | object distinct keys made each =>
      rename_i fields out
      have drawn : Drawn (.object fields) (.object out) := .object distinct keys made each
      rw [same, Bool.and_eq_true, beq_iff_eq, sameFields_iff, length_eq_dedup distinct keys]
      constructor
      · intro equal
        cases equal with
        | object count held equals =>
          refine ⟨count, fun member listed => ?_⟩
          obtain ⟨inner, found⟩ := Option.isSome_iff_exists.mp (held member listed)
          obtain ⟨item, stored, alike⟩ := drawn.get_draft found
          exact ⟨item, stored, (ih member listed alike).mp (equals member listed inner found)⟩
      · rintro ⟨count, equals⟩
        refine .object count ?_ ?_
        · intro member listed
          obtain ⟨item, stored, -⟩ := equals member listed
          obtain ⟨inner, held, -⟩ := drawn.get_value stored
          rw [held]
          rfl
        · intro member listed inner held
          obtain ⟨item, stored, alike⟩ := drawn.get_draft held
          obtain ⟨other, also, equal⟩ := equals member listed
          cases (show lookup member.1 out = some item from stored).symm.trans also
          exact (ih member listed alike).mpr equal
  | _ =>
    cases drawn with
    | value => exact is_value
    | _ =>
      constructor
      · intro equal
        cases equal
      · intro equal
        cases equal

theorem Drawn.heeds_iff (drawn : Drawn answer value) (schema : List (Text × Json)) :
    answer.Heeds schema ↔ Asserts schema value := by
  have required (names : List Json) : (∀ keys, answer.keys = some keys → ∀ name, .string name ∈ names →
      name ∈ keys) ↔ ∀ fields, value = .object fields → ∀ name, .string name ∈ names →
        (lookup name fields).isSome = true := by
    constructor
    · exact fun held fields same name member =>
        (drawn.required name).mp (fun keys given => held keys given name member) fields same
    · exact fun held keys given name member =>
        (drawn.required name).mpr (fun fields same => held fields same name member) keys given
  have minItems (least : Rat) : (∀ items, answer.items = some items → least ≤ items.length) ↔
      ∀ items, value = .array items → least ≤ items.length := by
    rcases drawn.items with ⟨parts, drafts, rfl, given, each⟩ | ⟨noArray, none⟩
    · simp [given, each.length_eq]
    · simp [none, noArray]
  constructor
  · intro heeds
    exact {
      const := fun expected given => (drawn.is_iff expected).mp (heeds.const expected given)
      enum := by
        intro choices given
        obtain ⟨choice, member, equal⟩ := heeds.enum choices given
        exact ⟨choice, member, (drawn.is_iff choice).mp equal⟩
      type := fun kind given => (drawn.ofType kind).mp (heeds.type kind given)
      required := fun names fields given =>
        (required names).mp (fun keys => heeds.required names keys given) fields
      minItems := fun bound least items given number =>
        (minItems least).mp (fun items => heeds.minItems bound least items given number) items
      minimum := fun bound least given listed number chosen =>
        heeds.minimum bound least given listed number (drawn.number.trans chosen) }
  · intro asserts
    exact {
      const := fun expected given => (drawn.is_iff expected).mpr (asserts.const expected given)
      enum := by
        intro choices given
        obtain ⟨choice, member, equal⟩ := asserts.enum choices given
        exact ⟨choice, member, (drawn.is_iff choice).mpr equal⟩
      type := fun kind given => (drawn.ofType kind).mpr (asserts.type kind given)
      required := fun names keys given =>
        (required names).mpr (fun fields => asserts.required names fields given) keys
      minItems := fun bound least items given number =>
        (minItems least).mpr (fun items => asserts.minItems bound least items given number) items
      minimum := fun bound least given listed number chosen =>
        asserts.minimum bound least given listed number (drawn.number.symm.trans chosen) }

end

/-- A schema lets the draft through when it lets through what the draft describes. -/
theorem Drawn.fits_iff {schema value : Json} {answer : Draft} (drawn : Drawn answer value) :
    answer.Fits schema ↔ Valid schema value := by
  induction measured : sizeOf schema using Nat.strong_induction_on generalizing schema value answer with
  | _ size ih =>
    subst measured
    have smaller {child item : Json} {inner : Draft} (less : sizeOf child < sizeOf schema)
        (drawn : Drawn inner item) : inner.Fits child ↔ Valid child item := ih _ less drawn rfl
    cases schema with
    | object fields =>
      rw [Draft.Fits, Valid]
      refine and_congr (drawn.heeds_iff fields) (and_congr ?_ (and_congr ?_ (and_congr ?_ ?_)))
      · refine forall₂_congr fun properties listed => forall₃_congr fun key child held => ?_
        have less := (Json.sizeOf_lookup held).trans (Json.sizeOf_lookup listed)
        constructor
        · intro fits item stored
          obtain ⟨inner, given, related⟩ := drawn.get_value stored
          exact (smaller less related).mp (fits inner given)
        · intro valid inner given
          obtain ⟨item, stored, related⟩ := drawn.get_draft given
          exact (smaller less related).mpr (valid item stored)
      · refine forall₂_congr fun child held => ?_
        rcases drawn.items with ⟨parts, drafts, rfl, given, each⟩ | ⟨noArray, none⟩
        · simp only [given, Option.some.injEq, forall_eq', Json.array.injEq]
          clear given drawn
          induction each with
          | nil => simp
          | cons related _ later =>
            rw [List.forall_mem_cons, List.forall_mem_cons, smaller (Json.sizeOf_lookup held) related, later]
        · simp [none, noArray]
      · refine forall₂_congr fun options listed => exists_congr fun option => exists_congr fun member => ?_
        exact smaller ((Json.sizeOf_item member).trans (Json.sizeOf_lookup listed)) drawn
      · refine forall₂_congr fun options listed => ?_
        have each (index : Fin options.length) : answer.Fits (options.get index) ↔ Valid (options.get index) value :=
          smaller ((Json.sizeOf_item (List.get_mem _ _)).trans (Json.sizeOf_lookup listed)) drawn
        simp only [each]
    | _ => simp [Draft.Fits, Valid]

end N8nSystems.MockLlm
