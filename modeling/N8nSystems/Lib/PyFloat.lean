import Mathlib.Data.Rat.Defs
import N8nSystems.Lib.JsValue

/-! Python's `float` on texts. -/

namespace N8nSystems.Lib.Py

open Js (Number)

/-- Underscores may stand between two digits only. -/
def dropUnderscores (before : Option Nat) : Text → Option Text
  | [] => some []
  | 95 :: rest =>
    if before.any isAsciiDigit && rest.head?.any isAsciiDigit then dropUnderscores (some 95) rest
    else none
  | c :: rest => (dropUnderscores (some c) rest).map (c :: ·)

def asciiLower (c : Nat) : Nat := if 65 ≤ c ∧ c ≤ 90 then c + 32 else c

/-- The number that `float(value)` rounds, for a text without outer space; nothing
where it raises. -/
def floatLiteral (unicode : Unicode) (value : Text) : Option Number := do
  let ascii := value.map fun c => ((unicode.decimal c).map (48 + ·)).getD c
  let plain ← dropUnderscores none ascii
  let (negative, literal) := Js.signed plain
  let word := literal.map asciiLower
  if word = text "inf" ∨ word = text "infinity" then return .infinite negative
  else if word = text "nan" then return .nan
  else
    let number ← Js.unsignedDecimal literal
    return .finite (if negative then -number else number)

/-- Half of the least positive double rounds to zero. -/
def roundsPositive : Number → Bool
  | .nan => false
  | .infinite negative => !negative
  | .finite value => (1 : Rat) / 2 ^ 1075 < value

end N8nSystems.Lib.Py
