import N8nSystems.Lib.Scan
import N8nSystems.MockLlm.Default

/-! The branches of `default_from_schema`. -/

namespace N8nSystems.MockLlm

open Lib Lib.Py
open Lib.Json (lookup)

theorem lookup_assign_self (key : Text) (value : Json) (out : List (Text × Json)) :
    lookup key (assign key value out) = some value := by
  unfold assign
  cases present : lookup key out with
  | some old => exact Json.lookup_setField_self present
  | none =>
    have absent : out.find? (·.1 = key) = none := Option.map_eq_none_iff.mp present
    simp [lookup, List.find?_append, absent]

theorem lookup_assign_other {key other : Text} (different : other ≠ key) (value : Json)
    (out : List (Text × Json)) : lookup other (assign key value out) = lookup other out := by
  unfold assign
  split
  · exact Json.lookup_setField_other different
  · simp [lookup, List.find?_append, Ne.symm different]

theorem nodup_assign {key : Text} {value : Json} {out : List (Text × Json)}
    (distinct : (out.map Prod.fst).Nodup) : ((assign key value out).map Prod.fst).Nodup := by
  unfold assign
  split
  · rwa [Json.keys_setField]
  · rename_i absent
    rw [Json.isSome_lookup] at absent
    rw [List.map_append, List.nodup_append]
    refine ⟨distinct, List.pairwise_singleton _ _, fun held member last added same => absent ?_⟩
    have here : held = key := same.trans (List.mem_singleton.mp added)
    exact here ▸ member

section
variable {child : Text → Except OverflowError Json}

theorem foldlM_assign {keys : List Text} {before out : List (Text × Json)}
    (built : keys.foldlM (fun out key => do return assign key (← child key) out) before = .ok out) :
    (∀ key ∈ keys, ∃ value, child key = .ok value ∧ lookup key out = some value) ∧
      ∀ key, key ∉ keys → lookup key out = lookup key before := by
  induction keys generalizing before with
  | nil =>
    cases built
    simp
  | cons first rest ih =>
    rw [List.foldlM_cons] at built
    obtain ⟨next, assigned, later⟩ := bind_ok_iff.mp built
    obtain ⟨value, read, same⟩ := bind_ok_iff.mp assigned
    cases same
    obtain ⟨inside, outside⟩ := ih later
    constructor
    · intro key member
      by_cases again : key ∈ rest
      · exact inside key again
      · have here : key = first := by simpa [again] using member
        subst here
        exact ⟨value, read, (outside key again).trans (lookup_assign_self key value before)⟩
    · intro key absent
      obtain ⟨different, missing⟩ := not_or.mp (mt List.mem_cons.mpr absent)
      exact (outside key missing).trans (lookup_assign_other different value before)

/-- The object has the keys of the loop, each with its own value. -/
theorem buildObject_ok {keys : List Text} {out : List (Text × Json)}
    (built : buildObject child keys = .ok out) :
    (∀ key ∈ keys, ∃ value, child key = .ok value ∧ lookup key out = some value) ∧
      ∀ key, key ∉ keys → lookup key out = none :=
  foldlM_assign built

theorem mem_keys_buildObject {keys : List Text} {out : List (Text × Json)}
    (built : buildObject child keys = .ok out) {key : Text} : key ∈ out.map Prod.fst ↔ key ∈ keys := by
  obtain ⟨inside, outside⟩ := buildObject_ok built
  rw [← Json.isSome_lookup]
  constructor
  · intro held
    by_contra absent
    rw [outside key absent] at held
    cases held
  · intro member
    obtain ⟨value, -, stored⟩ := inside key member
    rw [stored]
    rfl

theorem buildObject_returns {keys : List Text} (each : ∀ key ∈ keys, ∃ value, child key = .ok value) :
    ∃ out, buildObject child keys = .ok out := by
  have general : ∀ before, ∃ out,
      keys.foldlM (fun out key => do return assign key (← child key) out) before = Except.ok out := by
    induction keys with
    | nil => exact fun before => ⟨before, rfl⟩
    | cons first rest ih =>
      intro before
      obtain ⟨value, read⟩ := each first List.mem_cons_self
      obtain ⟨out, later⟩ := ih (fun key member => each key (List.mem_cons_of_mem first member))
        (assign first value before)
      exact ⟨out, by simpa [List.foldlM_cons, read, bind, Except.bind, pure, Except.pure] using later⟩
  exact general []

theorem isEmpty_buildObject {keys : List Text} {out : List (Text × Json)}
    (built : buildObject child keys = .ok out) : out.isEmpty = true ↔ keys = [] := by
  obtain ⟨inside, -⟩ := buildObject_ok built
  constructor
  · intro empty
    cases keys with
    | nil => rfl
    | cons key rest =>
      obtain ⟨value, -, found⟩ := inside key List.mem_cons_self
      rw [List.isEmpty_iff.mp empty] at found
      cases found
  · rintro rfl
    cases built
    rfl

/-- What one assignment keeps, the loop keeps. -/
theorem buildObject_induction {keys : List Text} {motive : List (Text × Json) → Prop} (empty : motive [])
    (step : ∀ key ∈ keys, ∀ value out, child key = .ok value → motive out → motive (assign key value out))
    {out : List (Text × Json)} (built : buildObject child keys = .ok out) : motive out := by
  suffices general : ∀ before, motive before →
      keys.foldlM (fun out key => do return assign key (← child key) out) before = .ok out → motive out from
    general [] empty built
  clear built
  induction keys with
  | nil =>
    intro before holds built
    cases built
    exact holds
  | cons first rest ih =>
    intro before holds built
    rw [List.foldlM_cons] at built
    obtain ⟨next, assigned, later⟩ := bind_ok_iff.mp built
    obtain ⟨value, read, same⟩ := bind_ok_iff.mp assigned
    cases same
    obtain ⟨here, others⟩ := List.forall_mem_cons.mp step
    exact ih others _ (here value before read holds) later

theorem nodup_buildObject {keys : List Text} {out : List (Text × Json)}
    (built : buildObject child keys = .ok out) : (out.map Prod.fst).Nodup :=
  @buildObject_induction child keys (fun out => (out.map Prod.fst).Nodup) List.nodup_nil
    (fun _ _ _ _ _ distinct => nodup_assign distinct) out built

end

/-- The schema is answered with an object. -/
def IsObject (fields : List (Text × Json)) : Prop :=
  typeName (lookup (text "type") fields) = some (text "object") ∨
    (lookup (text "properties") fields).isSome = true

instance (fields : List (Text × Json)) : Decidable (IsObject fields) :=
  inferInstanceAs (Decidable (_ ∨ _))

def childDefault (fields : List (Text × Json)) (key : Text) : Except OverflowError Json :=
  match lookup key (propertiesOf fields) with
  | some child => defaultFromSchema child
  | none => .ok okTrue

section
variable {fields : List (Text × Json)} (free : fixedValue fields = none)
include free

theorem default_object (isObject : IsObject fields) :
    defaultFromSchema (.object fields) = (do
      let out ← buildObject (childDefault fields) (objectKeys fields)
      return if out.isEmpty then okTrue else .object out) := by
  unfold IsObject at isObject
  rw [defaultFromSchema, free]
  simp only [if_pos isObject]
  congr 2
  funext key
  unfold childDefault
  split <;> simp_all

theorem default_array (notObject : ¬IsObject fields)
    (array : typeName (lookup (text "type") fields) = some (text "array")) :
    defaultFromSchema (.object fields) = (do
      let least ← intOrZero (lookup (text "minItems") fields)
      match lookup (text "items") fields with
      | some (.object items) =>
        if 0 < least then do
          let item ← defaultFromSchema (.object items)
          return .array (List.replicate least.toNat item)
        else return .array []
      | _ => return .array []) := by
  unfold IsObject at notObject
  rw [defaultFromSchema, free]
  simp only [if_neg notObject, if_pos array]
  congr 1
  funext least
  split <;> simp_all

theorem default_scalar (notObject : ¬IsObject fields)
    (notArray : typeName (lookup (text "type") fields) ≠ some (text "array"))
    {result : Except OverflowError Json}
    (scalar : scalarDefault (typeName (lookup (text "type") fields)) (lookup (text "minimum") fields) =
      some result) : defaultFromSchema (.object fields) = result := by
  unfold IsObject at notObject
  rw [defaultFromSchema, free]
  simp only [if_neg notObject, if_neg notArray, scalar]

theorem default_other (notObject : ¬IsObject fields)
    (notArray : typeName (lookup (text "type") fields) ≠ some (text "array"))
    (notScalar : scalarDefault (typeName (lookup (text "type") fields))
      (lookup (text "minimum") fields) = none) :
    defaultFromSchema (.object fields) = match firstOption fields with
      | some option => defaultFromSchema option
      | none => .ok okTrue := by
  unfold IsObject at notObject
  rw [defaultFromSchema, free]
  simp only [if_neg notObject, if_neg notArray, notScalar]
  split <;> simp_all

end

theorem default_fixed {fields : List (Text × Json)} {value : Json} (fixed : fixedValue fields = some value) :
    defaultFromSchema (.object fields) = .ok value := by
  rw [defaultFromSchema, fixed]

section
variable {fields : List (Text × Json)}

theorem default_object_ok (free : fixedValue fields = none) (isObject : IsObject fields) {value : Json}
    (returned : defaultFromSchema (.object fields) = .ok value) :
    ∃ out, buildObject (childDefault fields) (objectKeys fields) = .ok out ∧
      ((out = [] ∧ value = okTrue) ∨ (out ≠ [] ∧ value = .object out)) := by
  rw [default_object free isObject] at returned
  obtain ⟨out, built, same⟩ := bind_ok_iff.mp returned
  refine ⟨out, built, ?_⟩
  cases out with
  | nil =>
    cases same
    exact Or.inl ⟨rfl, rfl⟩
  | cons field rest =>
    cases same
    exact Or.inr ⟨List.cons_ne_nil field rest, rfl⟩

theorem default_array_ok (free : fixedValue fields = none) (plain : ¬IsObject fields)
    (named : typeName (lookup (text "type") fields) = some (text "array")) {value : Json}
    (returned : defaultFromSchema (.object fields) = .ok value) :
    value = .array [] ∨ ∃ child item least, lookup (text "items") fields = some (.object child) ∧
      defaultFromSchema (.object child) = .ok item ∧ 0 < least ∧
      value = .array (List.replicate least item) := by
  rw [default_array free plain named] at returned
  obtain ⟨least, -, rest⟩ := bind_ok_iff.mp returned
  split at rest
  · rename_i child held
    split at rest
    · rename_i positive
      obtain ⟨item, built, same⟩ := bind_ok_iff.mp rest
      cases same
      exact Or.inr ⟨child, item, least.toNat, held, built, by omega, rfl⟩
    · cases rest
      exact Or.inl rfl
  · cases rest
    exact Or.inl rfl

end

end N8nSystems.MockLlm
