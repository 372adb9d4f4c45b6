import N8nSystems.Errors.Agreement

/-! A known status decides the class: two inputs that differ only in their texts are
classified alike. -/

namespace N8nSystems.Errors

open Lib
open Lib.Py (Text text Unicode asciiUnicode)
open Lib.Js (Engine)

variable (unicode : Unicode) (reprFloat : Rat → Text) (engine : Engine)

/-- The statuses of the tables. -/
def knownStatus : List Int :=
  transientStatus ++ rateLimitStatus ++ invalidStatus ++ authStatus ++ permanentStatus

def idempotentKeys : List Text := [text "idempotent_create", text "idempotentCreate"]

/-- The two inputs have the same status keys and idempotent flags in both blocks. -/
def SameStatusFields (first second : Json) : Prop :=
  ∀ key ∈ statusKeys ++ idempotentKeys, (srcOf first).get key = (srcOf second).get key ∧
    (nestedOf first).get key = (nestedOf second).get key

section
variable {first second : Json} (same : SameStatusFields first second)
include same

theorem SameStatusFields.slots_eq :
    slots (srcOf first) (nestedOf first) = slots (srcOf second) (nestedOf second) := by
  unfold slots
  rw [List.flatMap_def, List.flatMap_def]
  congr 1
  apply List.map_congr_left
  intro key member
  obtain ⟨outer, inner⟩ := same key (List.mem_append_left _ member)
  rw [outer, inner]

theorem SameStatusFields.createdOf_eq : createdOf first = createdOf second := by
  have flag (key : Text) (member : key ∈ idempotentKeys) :
      (isTrue ((srcOf first).get key) || isTrue ((nestedOf first).get key)) =
        (isTrue ((srcOf second).get key) || isTrue ((nestedOf second).get key)) := by
    obtain ⟨outer, inner⟩ := same key (List.mem_append_right _ member)
    rw [outer, inner]
  unfold createdOf
  rw [List.any_cons, List.any_cons, List.any_nil, List.any_cons, List.any_cons, List.any_nil,
    flag _ List.mem_cons_self, flag _ (List.mem_cons_of_mem _ List.mem_cons_self)]

end

theorem statusClass_known {status : Int} (known : status ∈ knownStatus) (created : Bool) :
    ∃ cls, statusClass (some status) created = some cls := by
  have listed : ∀ status ∈ knownStatus, ∀ created, (statusClass (some status) created).isSome := by
    decide
  exact Option.isSome_iff_exists.mp (listed status known created)

/-- A classifier that takes the class from the status before the texts gives the same
for the same slots and flags, when the first status in the slots is known. -/
theorem classified_alike {read : Option Json → Except ε (Option Int)} {Means : Option Json → Int → Prop}
    (means : ∀ value status, read value = .ok (some status) ↔ Means value status)
    {values : List (Option Json)} {status : Int} (found : FirstMeans Means values status)
    (known : status ∈ knownStatus) (created : Bool) (last last' : Except ε (Option Int))
    (texts texts' : ErrorClass) :
    (firstReading read last values).map (fun status =>
        ((statusClass status created).getD texts).result) =
      (firstReading read last' values).map fun status =>
        ((statusClass status created).getD texts').result := by
  rcases firstReading_firstMeans means found with returned | ⟨failure, failed⟩
  · obtain ⟨cls, decided⟩ := statusClass_known known created
    rw [returned, returned]
    simp only [Except.map, decided, Option.getD_some]
  · rw [failed, failed]
    rfl

/-- In both languages, a first status under the status keys that is in the tables
decides the result: it is the same for every input with the same status keys and
idempotent flags, whatever the texts. -/
theorem known_status_decides {first second : Json} (same : SameStatusFields first second)
    {status : Int} (known : status ∈ knownStatus) :
    (FirstMeans (Python.Means unicode) (slots (srcOf first) (nestedOf first)) status →
      Python.classifyError unicode reprFloat second = Python.classifyError unicode reprFloat first) ∧
    (FirstMeans (JavaScript.Means engine) (slots (srcOf first) (nestedOf first)) status →
      JavaScript.classifyError engine unicode.lower second =
        JavaScript.classifyError engine unicode.lower first) := by
  constructor
  · intro found
    rw [python_classifyError, python_classifyError, Python.firstStatus, Python.firstStatus,
      ← same.slots_eq, ← same.createdOf_eq]
    exact classified_alike (Python.toStatus_some_iff unicode) found known _ _ _ _ _
  · intro found
    rw [javaScript_classifyError, javaScript_classifyError, JavaScript.firstStatus,
      JavaScript.firstStatus, ← same.slots_eq, ← same.createdOf_eq]
    exact classified_alike (JavaScript.toStatus_some_iff engine) found known _ _ _ _ _

/-- A bad request in the nested block, with a message. -/
def badRequest (message : String) : Json :=
  .object [(text "message", .string (text message)),
    (text "error", .object [(text "httpCode", .int 400)])]

theorem badRequest_whatever :
    Python.classifyError asciiUnicode (fun _ => []) (badRequest "status code 503: timeout") =
        Python.classifyError asciiUnicode (fun _ => []) (badRequest "bad request") ∧
      JavaScript.classifyError exactEngine asciiUnicode.lower (badRequest "status code 503: timeout") =
        JavaScript.classifyError exactEngine asciiUnicode.lower (badRequest "bad request") := by
  have same : SameStatusFields (badRequest "bad request") (badRequest "status code 503: timeout") := by
    have unread : ∀ key ∈ statusKeys ++ idempotentKeys, text "message" ≠ key := by decide
    intro key member
    have skipped (message : Json) (rest : List (Text × Json)) :
        Json.lookup key ((text "message", message) :: rest) = Json.lookup key rest := by
      rw [Json.lookup, List.find?_cons_of_neg (by simpa using unread key member)]
      rfl
    exact ⟨(skipped _ _).trans (skipped _ _).symm, rfl⟩
  have slotsOf : slots (srcOf (badRequest "bad request")) (nestedOf (badRequest "bad request")) =
      List.replicate 5 none ++ some (.int 400) :: List.replicate 4 none := rfl
  obtain ⟨python, javaScript⟩ :=
    known_status_decides asciiUnicode (fun _ => []) exactEngine same (show 400 ∈ knownStatus by decide)
  rw [slotsOf] at python javaScript
  constructor
  · refine python ⟨_, _, _, rfl, ?_, .number (.int (by decide) (by decide))⟩
    intro earlier member other means
    rw [List.eq_of_mem_replicate member] at means
    cases means
  · refine javaScript ⟨_, _, _, rfl, ?_, .number (.int (by decide) (by decide))⟩
    intro earlier member other means
    rw [List.eq_of_mem_replicate member] at means
    cases means

end N8nSystems.Errors
