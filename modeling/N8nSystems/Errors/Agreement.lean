import N8nSystems.Errors.Readings

/-! When the two classifiers give one answer. -/

namespace N8nSystems.Errors

open Lib
open Lib.Py (Text text Unicode asciiUnicode)
open Lib.Js (Engine)

variable (unicode : Unicode) (reprFloat : Rat → Text) (engine : Engine)

/-- Both classifiers return, and return the same class, retry and idempotent success. -/
def Agree (input : Json) : Prop :=
  ∃ result, Python.classifyError unicode reprFloat input = .ok result ∧
    JavaScript.classifyError engine unicode.lower input = .ok result

/-- The two blocks that a status or a text is looked for in. -/
def srcOf (input : Json) : Json := Python.mapping (some input)

def nestedOf (input : Json) : Json := Python.mapping ((srcOf input).get (text "error"))

def codeOf (input : Json) : Text :=
  Python.normCode unicode (firstText (srcOf input) (nestedOf input) codeKeys)

def createdOf (input : Json) : Bool :=
  [text "idempotent_create", text "idempotentCreate"].any fun key =>
    isTrue ((srcOf input).get key) || isTrue ((nestedOf input).get key)

/-- What the texts of the input say to Python. -/
def textClassOf (input : Json) : ErrorClass :=
  textClass Python.isTransient (codeOf unicode input)
    (blobOf unicode.lower (srcOf input) (nestedOf input) (codeOf unicode input))

/-- The classes of the two statuses lead to one class. Where JavaScript is left with
the texts, a code that names a property of every object counts as transient. -/
def SameClass (code : Text) (texts : ErrorClass) : Option ErrorClass → Option ErrorClass → Prop
  | some python, some javaScript => python = javaScript
  | some python, none =>
    if code ∈ JavaScript.objectPrototype then python = .transient else python = texts
  | none, some javaScript => javaScript = texts
  | none, none => code ∈ JavaScript.objectPrototype → texts = .transient

/-- Both languages read a status without failing, and the statuses lead to one class. -/
def Alike (input : Json) : Prop :=
  ∃ python javaScript, Python.Reads unicode reprFloat (srcOf input) (nestedOf input) python ∧
    JavaScript.Reads engine (srcOf input) (nestedOf input) javaScript ∧
    SameClass (codeOf unicode input) (textClassOf unicode input)
      (statusClass python (createdOf input)) (statusClass javaScript (createdOf input))

theorem get_objectOr (value : Option Json) (key : Text) :
    (JavaScript.objectOr value).get key = (Python.mapping value).get key := by
  rcases value with _ | value
  · rfl
  · cases value <;> rfl

theorem javaScript_textClass (code blob : Text) :
    textClass JavaScript.isTransient code blob =
      if code ∈ JavaScript.objectPrototype then .transient
      else textClass Python.isTransient code blob := by
  unfold textClass JavaScript.isTransient Python.isTransient
  by_cases inherited : code ∈ JavaScript.objectPrototype <;> simp [inherited]

theorem sameClass_iff (code blob : Text) (python javaScript : Option ErrorClass) :
    SameClass code (textClass Python.isTransient code blob) python javaScript ↔
      python.getD (textClass Python.isTransient code blob) =
        javaScript.getD (textClass JavaScript.isTransient code blob) := by
  rw [javaScript_textClass]
  cases python with
  | some python =>
    cases javaScript with
    | some javaScript => rfl
    | none =>
      simp only [SameClass, Option.getD_some, Option.getD_none]
      split <;> rfl
  | none =>
    cases javaScript with
    | some javaScript => exact eq_comm
    | none =>
      simp only [SameClass, Option.getD_none]
      split <;> simp [*]

theorem ErrorClass.result_injective {first second : ErrorClass}
    (same : first.result = second.result) : first = second :=
  congrArg Result.cls same

theorem python_classifyError (input : Json) :
    Python.classifyError unicode reprFloat input =
      (Python.firstStatus unicode reprFloat (srcOf input) (nestedOf input)).map fun status =>
        ((statusClass status (createdOf input)).getD (textClassOf unicode input)).result := by
  have parsed : Python.classifyError unicode reprFloat input =
      (Python.firstStatus unicode reprFloat (srcOf input) (nestedOf input)).map fun status =>
        classify Python.isTransient ⟨status, codeOf unicode input,
          blobOf unicode.lower (srcOf input) (nestedOf input) (codeOf unicode input),
          createdOf input⟩ := by
    unfold Python.classifyError Python.parse
    change ((Python.firstStatus unicode reprFloat (srcOf input) (nestedOf input) >>= _) >>= _) = _
    cases Python.firstStatus unicode reprFloat (srcOf input) (nestedOf input) <;> rfl
  rw [parsed]
  simp only [classify_eq]
  rfl

/-- An array has none of the keys, so it counts as an empty object. -/
theorem javaScript_parseInput (input : Json) :
    JavaScript.parseInput engine unicode.lower input =
      (JavaScript.firstStatus engine (srcOf input) (nestedOf input)).map fun status =>
        ⟨status, codeOf unicode input,
          blobOf unicode.lower (srcOf input) (nestedOf input) (codeOf unicode input),
          createdOf input⟩ := by
  have created : createdOf input = (isTrue ((srcOf input).get (text "idempotent_create")) ||
      isTrue ((srcOf input).get (text "idempotentCreate")) ||
      isTrue ((nestedOf input).get (text "idempotent_create")) ||
      isTrue ((nestedOf input).get (text "idempotentCreate"))) := by
    simp only [createdOf, List.any_cons, List.any_nil, Bool.or_false]
    ac_rfl
  rw [created]
  simp only [JavaScript.parseInput, JavaScript.firstStatus, JavaScript.printedMessage,
    JavaScript.normCode, slots, firstText, blobOf, get_objectOr]
  change (JavaScript.firstStatus engine (srcOf input) (nestedOf input) >>= _) =
    (JavaScript.firstStatus engine (srcOf input) (nestedOf input)).map _
  cases JavaScript.firstStatus engine (srcOf input) (nestedOf input) <;> rfl

theorem javaScript_classifyError (input : Json) :
    JavaScript.classifyError engine unicode.lower input =
      (JavaScript.firstStatus engine (srcOf input) (nestedOf input)).map fun status =>
        ((statusClass status (createdOf input)).getD (textClass JavaScript.isTransient
          (codeOf unicode input) (blobOf unicode.lower (srcOf input) (nestedOf input)
            (codeOf unicode input)))).result := by
  rw [JavaScript.classifyError, javaScript_parseInput]
  cases JavaScript.firstStatus engine (srcOf input) (nestedOf input) with
  | error failure => rfl
  | ok status => exact congrArg _ (classify_eq _ _)

/-- The classifiers agree on an input exactly when both read a status without
failing and the two statuses, with the texts, lead to one class. -/
theorem classifiers_agree_iff (input : Json) :
    Agree unicode reprFloat engine input ↔ Alike unicode reprFloat engine input := by
  unfold Agree Alike
  rw [python_classifyError, javaScript_classifyError]
  simp only [← Python.firstStatus_ok_iff, ← JavaScript.firstStatus_ok_iff]
  cases Python.firstStatus unicode reprFloat (srcOf input) (nestedOf input) with
  | error failure => simp [Except.map]
  | ok python =>
    cases JavaScript.firstStatus engine (srcOf input) (nestedOf input) with
    | error failure => simp [Except.map]
    | ok javaScript =>
      constructor
      · rintro ⟨result, first, second⟩
        have same := ErrorClass.result_injective
          ((Except.ok.inj first).trans (Except.ok.inj second).symm)
        exact ⟨python, javaScript, rfl, rfl, (sameClass_iff _ _ _ _).mpr same⟩
      · rintro ⟨_, _, first, second, same⟩
        cases first
        cases second
        refine ⟨_, rfl, ?_⟩
        exact congrArg (fun cls => Except.ok (ErrorClass.result cls))
          ((sameClass_iff _ _ _ _).mp same).symm

/-- An engine on numbers that need no rounding. -/
def exactEngine : Engine where
  round value := .finite value
  numberText _ := []
  round_small _ _ := rfl
  round_large := by
    intro value result large same
    have equal : value = result := Rat.intCast_inj.mp (Js.Number.finite.inj same)
    omega

/-- The code `constructor` alone is unknown to Python and transient to JavaScript. -/
theorem classifiers_disagree : ¬ Agree asciiUnicode (fun _ => []) exactEngine
    (.object [(text "code", .string (text "constructor"))]) := by
  rintro ⟨result, python, javaScript⟩
  have first : Python.classifyError asciiUnicode (fun _ => [])
      (.object [(text "code", .string (text "constructor"))]) = .ok ⟨.unknown, false, false⟩ := by
    decide +kernel
  have second : JavaScript.classifyError exactEngine asciiUnicode.lower
      (.object [(text "code", .string (text "constructor"))]) = .ok ⟨.transient, true, false⟩ := by
    decide +kernel
  cases first.symm.trans python
  cases second.symm.trans javaScript

end N8nSystems.Errors
