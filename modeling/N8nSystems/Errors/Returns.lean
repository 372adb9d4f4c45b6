import N8nSystems.Errors.Agreement

/-! When the Python classifier returns. The guard of `_to_status` is `isdigit` and its
conversion `int`, and the message is printed by `str`. -/

namespace N8nSystems.Errors.Python

open Lib
open Lib.Py (Text text Unicode asciiUnicode LongInt truthy)

variable (unicode : Unicode) (reprFloat : Rat → Text)

/-- The value that a status is looked for in last. -/
def messageOf (input : Json) : Json :=
  firstTruthy truthy [(srcOf input).get (text "message"), (nestedOf input).get (text "message"),
    (srcOf input).get (text "error")]

/-- Every status key with a text that `isdigit` accepts and `int` rejects comes after
one with a status; and where no key has a status, the message has no integer that is
too long to print. -/
structure Classifiable (input : Json) : Prop where
  covered : ∀ before value after, slots (srcOf input) (nestedOf input) = before ++ value :: after →
    Fails unicode value → ∃ earlier ∈ before, ∃ status, Means unicode earlier status
  printable : (∀ value ∈ slots (srcOf input) (nestedOf input), ∀ status, ¬ Means unicode value status) →
    ¬ LongInt (messageOf input)

/-- The status of a message is read whenever the message is printed: the pattern only
finds decimal digits, and three of them. -/
theorem messageStatus_returns_iff (input : Json) :
    (∃ status, messageStatus (printedMessage unicode reprFloat (srcOf input) (nestedOf input))
      (charClasses unicode) (fun digits => toStatus unicode (some (.string digits))) = .ok status) ↔
      ¬ LongInt (messageOf input) := by
  have printed : printedMessage unicode reprFloat (srcOf input) (nestedOf input) =
      Py.str unicode reprFloat (messageOf input) := rfl
  rw [← @Py.str_ok_iff unicode reprFloat, printed]
  constructor
  · rintro ⟨status, returned⟩
    obtain ⟨message, print, _⟩ := bind_ok_iff.mp returned
    exact ⟨message, print⟩
  · rintro ⟨message, print⟩
    rw [print]
    cases hit : messageDigits (charClasses unicode) message with
    | none =>
      refine ⟨none, bind_ok_iff.mpr ⟨message, rfl, ?_⟩⟩
      rw [hit]
      rfl
    | some digits =>
      obtain ⟨values, _, read⟩ := toStatus_messageDigits unicode hit
      refine ⟨inRange (Py.spelled values), bind_ok_iff.mpr ⟨message, rfl, ?_⟩⟩
      rw [hit]
      exact read

/-- The classifier returns exactly on such inputs. -/
theorem classifyError_returns_iff (input : Json) :
    (∃ result, classifyError unicode reprFloat input = .ok result) ↔ Classifiable unicode input := by
  have status : (∃ result, classifyError unicode reprFloat input = .ok result) ↔
      ∃ status, firstStatus unicode reprFloat (srcOf input) (nestedOf input) = .ok status := by
    rw [python_classifyError]
    cases firstStatus unicode reprFloat (srcOf input) (nestedOf input) <;> simp [Except.map]
  rw [status, firstStatus, firstReading_returns_iff (toStatus_some_iff unicode)
    (toStatus_error_iff unicode), messageStatus_returns_iff]
  constructor
  · intro ⟨covered, printable⟩
    exact ⟨covered, printable⟩
  · intro classifiable
    exact ⟨classifiable.covered, classifiable.printable⟩

/-- ASCII and the superscript two, a digit that is not decimal. -/
def superscriptUnicode : Unicode where
  lower := asciiUnicode.lower
  decimal := asciiUnicode.decimal
  isDigit c := asciiUnicode.isDigit c || c == 0xB2
  isWord c := asciiUnicode.isWord c || c == 0xB2
  isPrintable c := asciiUnicode.isPrintable c || c == 0xB2
  decimal_isDigit c digit read := by
    rw [asciiUnicode.decimal_isDigit c digit read]
    rfl
  decimal_not_space := asciiUnicode.decimal_not_space
  decimal_ascii := asciiUnicode.decimal_ascii
  isWord_ascii c small := by
    have other : (c == 0xB2) = false := beq_eq_false_iff_ne.mpr (by omega)
    rw [other, Bool.or_false]
    exact asciiUnicode.isWord_ascii c small

/-- The status `²` is an exception. -/
theorem superscript_status_raises :
    ¬ ∀ (unicode : Unicode) (reprFloat : Rat → Text) (input : Json),
      ∃ result, classifyError unicode reprFloat input = .ok result := by
  intro returns
  obtain ⟨result, returned⟩ := returns superscriptUnicode (fun _ => [])
    (.object [(text "status", .string (text "²"))])
  have raised : classifyError superscriptUnicode (fun _ => [])
      (.object [(text "status", .string (text "²"))]) = .error .invalidLiteral := by
    rfl
  cases raised.symm.trans returned

end N8nSystems.Errors.Python
