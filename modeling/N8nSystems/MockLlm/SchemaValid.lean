import N8nSystems.MockLlm.Drafts

/-! When the default of a schema validates against it. -/

namespace N8nSystems.MockLlm

open Lib Lib.Py
open Lib.Json (lookup same Valid Asserts)

section
variable {fields : List (Text × Json)}

end

/-- The service answers with a value, and the value validates. -/
def Meets (fields : List (Text × Json)) : Prop :=
  ∃ value, defaultFromSchema (.object fields) = .ok value ∧ Valid (.object fields) value

theorem default_childOf (fields : List (Text × Json)) (key : Text) :
    defaultFromSchema (childOf fields key) = childDefault fields key := by
  unfold childOf childDefault
  cases lookup key (propertiesOf fields) with
  | some child => rfl
  | none => exact default_fixed rfl

/-- The value that a draft describes. -/
def Draft.build : Draft → Except OverflowError Json
  | .value given => .ok given
  | .object fields => return .object (← buildObject (childDefault fields) (objectKeys fields))
  | .array count items => return .array (List.replicate count (← defaultFromSchema (.object items)))

section
variable {fields : List (Text × Json)} (free : fixedValue fields = none)
include free

theorem draft_object (isObject : IsObject fields) :
    draft (.object fields) = .ok (if objectKeys fields = [] then .value okTrue else .object fields) := by
  rw [draft, free]
  simp only [if_pos isObject]

theorem draft_array (plain : ¬IsObject fields)
    (named : typeName (lookup (text "type") fields) = some (text "array")) :
    draft (.object fields) =
      (intOrZero (lookup (text "minItems") fields)).map (arrayDraft (lookup (text "items") fields)) := by
  rw [draft, free]
  simp only [if_neg plain, if_pos named]

theorem draft_scalar (plain : ¬IsObject fields)
    (notArray : typeName (lookup (text "type") fields) ≠ some (text "array"))
    {result : Except OverflowError Json}
    (scalar : scalarDefault (typeName (lookup (text "type") fields)) (lookup (text "minimum") fields) =
      some result) : draft (.object fields) = result.map .value := by
  rw [draft, free]
  simp only [if_neg plain, if_neg notArray, scalar]

theorem draft_other (plain : ¬IsObject fields)
    (notArray : typeName (lookup (text "type") fields) ≠ some (text "array"))
    (notScalar : scalarDefault (typeName (lookup (text "type") fields))
      (lookup (text "minimum") fields) = none) :
    draft (.object fields) = match firstOption fields with
      | some option => draft option
      | none => .ok (.value okTrue) := by
  rw [draft, free]
  simp only [if_neg plain, if_neg notArray, notScalar]
  split <;> simp_all

end

/-- The code goes by one keyword, and then by its parts. -/
theorem default_draft (schema : Json) : defaultFromSchema schema = draft schema >>= Draft.build := by
  induction measured : sizeOf schema using Nat.strong_induction_on generalizing schema with
  | _ size ih =>
    subst measured
    cases schema with
    | object fields =>
      cases free : fixedValue fields with
      | some value =>
        rw [default_fixed free, draft, free]
        rfl
      | none =>
        by_cases isObject : IsObject fields
        · rw [default_object free isObject, draft_object free isObject]
          cases built : buildObject (childDefault fields) (objectKeys fields) with
          | error fault =>
            have keys : objectKeys fields ≠ [] := by
              intro none
              rw [none] at built
              cases built
            rw [if_neg keys]
            simp only [Draft.build, built, bind, Except.bind]
          | ok out =>
            have empty := isEmpty_buildObject built
            by_cases keys : objectKeys fields = []
            · rw [if_pos keys]
              simp only [empty.mpr keys, Draft.build, bind, Except.bind, pure, Except.pure, if_pos]
            · rw [if_neg keys]
              simp only [mt empty.mp keys, Draft.build, built, bind, Except.bind, pure, Except.pure]
              rfl
        by_cases array : typeName (lookup (text "type") fields) = some (text "array")
        · rw [default_array free isObject array, draft_array free isObject array]
          cases intOrZero (lookup (text "minItems") fields) with
          | error fault => rfl
          | ok least =>
            cases held : lookup (text "items") fields with
            | none => rfl
            | some given =>
              cases given with
              | object items =>
                simp only [Except.map, bind, Except.bind, arrayDraft]
                split
                · rfl
                · rfl
              | _ => rfl
        cases chosen : scalarDefault (typeName (lookup (text "type") fields)) (lookup (text "minimum") fields) with
        | some result =>
          rw [default_scalar free isObject array chosen, draft_scalar free isObject array chosen]
          cases result <;> rfl
        | none =>
          rw [default_other free isObject array chosen, draft_other free isObject array chosen]
          cases first : firstOption fields with
          | some option => exact ih _ (sizeOf_firstOption first) option rfl
          | none => rfl
    | _ =>
      rw [defaultFromSchema, draft]
      · rfl
      · exact fun _ same => by cases same
      · exact fun _ same => by cases same

/-- Where no number is out of range, the code returns what its draft describes. -/
theorem InRange.drawn {schema : Json} (inRange : InRange schema) :
    ∃ answer value, draft schema = .ok answer ∧ defaultFromSchema schema = .ok value ∧ Drawn answer value := by
  induction inRange with
  | value made => exact ⟨_, _, made, by rw [default_draft, made]; rfl, .value⟩
  | @object schema fields made _ ih =>
    have each : ∀ key ∈ objectKeys fields, ∃ value, childDefault fields key = .ok value := by
      intro key member
      obtain ⟨_, value, -, returned, -⟩ := ih key member
      exact ⟨value, (default_childOf fields key).symm.trans returned⟩
    obtain ⟨out, built⟩ := buildObject_returns each
    have keys (key : Text) : key ∈ out.map Prod.fst ↔ key ∈ objectKeys fields := mem_keys_buildObject built
    refine ⟨_, .object out, made, ?_, .object (nodup_buildObject built) keys ?_ ?_⟩
    · rw [default_draft, made]
      simp only [bind, Except.bind, Draft.build, built]
      rfl
    · intro key member
      obtain ⟨inner, _, built, -, -⟩ := ih key member
      exact ⟨inner, built⟩
    · intro key item held inner drafted
      have listed : (lookup key out).isSome = true := by
        rw [held]
        rfl
      have member := (keys key).mp (Json.isSome_lookup.mp listed)
      obtain ⟨value, read, stored⟩ := (buildObject_ok built).1 key member
      obtain ⟨other, result, built, returned, drawn⟩ := ih key member
      cases built.symm.trans drafted
      rw [default_childOf] at returned
      cases returned.symm.trans read
      cases held.symm.trans stored
      exact drawn
  | array made _ ih =>
    obtain ⟨inner, item, built, returned, drawn⟩ := ih
    refine ⟨_, _, made, ?_, .array built drawn⟩
    rw [default_draft, made]
    simp only [bind, Except.bind, Draft.build, returned]
    rfl

theorem Heeded.meets {fields : List (Text × Json)} (heeded : Heeded (.object fields)) : Meets fields := by
  obtain ⟨answer, value, made, returned, drawn⟩ := heeded.inRange.drawn
  exact ⟨value, returned, drawn.fits_iff.mp (heeded.fits answer made)⟩

end N8nSystems.MockLlm
