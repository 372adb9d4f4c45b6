import N8nSystems.Errors.Taxonomy
import N8nSystems.Lib.Scan
import N8nSystems.Lib.JsValue

/-! `code-snippets/classify_error.js`. -/

namespace N8nSystems.Errors.JavaScript

open Lib Lib.Js
open Lib.Py (Text text)

/-- Without the flag `u`, no other code point than its two cases matches an ASCII letter. -/
def canonicalize (c : Nat) : Nat := if 97 ≤ c ∧ c ≤ 122 then c - 32 else c

def charClasses : CharClasses where
  same letter c := canonicalize letter == canonicalize c
  digit := Py.isAsciiDigit
  word := Py.isAsciiWord

/-- The property names of `Object.prototype`. -/
def objectPrototype : List Text := [text "constructor", text "hasOwnProperty",
  text "isPrototypeOf", text "propertyIsEnumerable", text "toLocaleString", text "toString",
  text "valueOf", text "__proto__", text "__defineGetter__", text "__defineSetter__",
  text "__lookupGetter__", text "__lookupSetter__"]

-- `lower` is `toLowerCase`.
variable (engine : Engine) (lower : Text → Text)

/-- The checks on the number in `toStatus`. -/
def numberStatus (number : Number) : Option Int :=
  match number with
  | .finite value => if number.isInteger then inRange value.num else none
  | _ => none

def toStatus : Option Json → Except TypeError (Option Int)
  | none | some .null | some (.bool _) => .ok none
  | some (.int value) => .ok (numberStatus (engine.round value))
  | some (.float value) => .ok (numberStatus (.finite value))
  | some (.infinite negative) => .ok (numberStatus (.infinite negative))
  | some value => do
    let printed ← toText engine value
    return numberStatus (stringToNumber engine (trim printed))

/-- `String(src.message || nested.message || src.error || "")`. -/
def printedMessage (src nested : Json) : Except TypeError Text :=
  toText engine (firstTruthy truthy
    [src.get (text "message"), nested.get (text "message"), src.get (text "error")])

def firstStatus (src nested : Json) : Except TypeError (Option Int) :=
  firstReading (toStatus engine)
    (messageStatus (printedMessage engine src nested) charClasses
      fun digits => toStatus engine (some (.string digits)))
    (slots src nested)

def normCode (value : Text) : Text := underscored (lower value)

/-- `value && typeof value === "object" ? value : {}`. -/
def objectOr : Option Json → Json
  | some (.object fields) => .object fields
  | some (.array items) => .array items
  | _ => .object []

def parseInput (input : Json) : Except TypeError Parsed := do
  let src := objectOr (some input)
  let nested := objectOr (src.get (text "error"))
  let status ← firstStatus engine src nested
  let code := normCode lower (firstText src nested codeKeys)
  return {
    status := status
    code := code
    blob := blobOf lower src nested code
    idempotentCreate := isTrue (src.get (text "idempotent_create")) ||
      isTrue (src.get (text "idempotentCreate")) ||
      isTrue (nested.get (text "idempotent_create")) ||
      isTrue (nested.get (text "idempotentCreate")) }

/-- The table is a plain object, so a lookup also finds the properties that every
object inherits. -/
def isTransient (code blob : Text) : Bool :=
  code ∈ transientCodes || code ∈ objectPrototype || hasMarker blob transientMarkers

def classifyError (input : Json) : Except TypeError Result := do
  return classify isTransient (← parseInput engine lower input)

end N8nSystems.Errors.JavaScript
