import N8nSystems.Errors.Taxonomy
import N8nSystems.Lib.Scan
import N8nSystems.Lib.Regex

/-! `platform/libs/python/errors.py`. -/

namespace N8nSystems.Errors.Python

open Lib Lib.Py

variable (unicode : Unicode) (reprFloat : Rat → Text)

def charClasses : CharClasses where
  same letter c := foldCase letter == foldCase c
  digit c := (unicode.decimal c).isSome
  word := unicode.isWord

def toStatus : Option Json → Except ValueError (Option Int)
  | some (.int value) => .ok (inRange value)
  | some (.float value) => .ok (if value.den = 1 then inRange value.num else none)
  | some (.string value) =>
    let stripped := strip value
    if stripped ≠ [] ∧ stripped.all unicode.isDigit then do
      let number ← parseInt unicode stripped
      return inRange number
    else .ok none
  | _ => .ok none

/-- `str(src.get("message") or nested.get("message") or src.get("error") or "")`. -/
def printedMessage (src nested : Json) : Except ValueError Text :=
  str unicode reprFloat (firstTruthy truthy
    [src.get (text "message"), nested.get (text "message"), src.get (text "error")])

def firstStatus (src nested : Json) : Except ValueError (Option Int) :=
  firstReading (toStatus unicode)
    (messageStatus (printedMessage unicode reprFloat src nested) (charClasses unicode)
      fun digits => toStatus unicode (some (.string digits)))
    (slots src nested)

def normCode (value : Text) : Text := underscored (unicode.lower value)

/-- A mapping stays; another value counts as an empty one. -/
def mapping : Option Json → Json
  | some (.object fields) => .object fields
  | _ => .object []

def parse (input : Json) : Except ValueError Parsed := do
  let src := mapping (some input)
  let nested := mapping (src.get (text "error"))
  let status ← firstStatus unicode reprFloat src nested
  let code := normCode unicode (firstText src nested codeKeys)
  return {
    status := status
    code := code
    blob := blobOf unicode.lower src nested code
    idempotentCreate := [text "idempotent_create", text "idempotentCreate"].any fun key =>
      isTrue (src.get key) || isTrue (nested.get key) }

def isTransient (code blob : Text) : Bool :=
  code ∈ transientCodes || hasMarker blob transientMarkers

def classifyError (input : Json) : Except ValueError Result := do
  return classify isTransient (← parse unicode reprFloat input)

end N8nSystems.Errors.Python
