import N8nSystems.Lib.PyText
import Mathlib.Algebra.Order.Field.Rat

/-! Python's `decimal.Decimal` under the default context: 28 digits, half-even
rounding, and traps for invalid operations, division by zero and overflow. -/

namespace N8nSystems.Lib.Py

inductive Decimal where
  | finite (negative : Bool) (coefficient : Nat) (exponent : Int)
  | infinite (negative : Bool)
  | nan (negative signaling : Bool) (payload : Nat)
  deriving DecidableEq, Repr

/-- The signals that the default context traps. -/
inductive DecimalError where
  | invalidOperation | divisionByZero | overflow
  deriving DecidableEq, Repr

namespace Decimal

def precision : Nat := 28

def maxExponent : Int := 999999

def minExponent : Int := -999999

/-- The least exponent of a subnormal number. -/
def tiny : Int := minExponent - precision + 1

/-- The greatest exponent of a full coefficient. -/
def top : Int := maxExponent - precision + 1

def zero : Decimal := .finite false 0 0

def hundred : Decimal := .finite false 100 0

/-- The number of digits of a coefficient. -/
def width (n : Nat) : Nat := (Nat.toDigits 10 n).length

/-- The exact value of a sign, a coefficient and an exponent. -/
def exactly (negative : Bool) (coefficient : Nat) (exponent : Int) : Rat :=
  (if negative then -1 else 1) * coefficient * (10 : Rat) ^ exponent

/-- The quotient by a power of ten, rounded half to even. -/
def halfEven (coefficient drop : Nat) : Nat :=
  let unit := 10 ^ drop
  let quotient := coefficient / unit
  let rest := coefficient % unit
  if unit < 2 * rest ∨ 2 * rest = unit ∧ quotient % 2 = 1 then quotient + 1 else quotient

/-- `Decimal._fix`: an exact result rounded to the context. -/
def fix (negative : Bool) (coefficient : Nat) (exponent : Int) : Except DecimalError Decimal :=
  if coefficient = 0 then .ok (.finite negative 0 (min (max exponent tiny) maxExponent))
  else
    let least := width coefficient + exponent - precision
    if top < least then .error .overflow
    else
      let least := max least tiny
      if exponent < least then
        let rounded := halfEven coefficient (least - exponent).toNat
        -- a carry into a new digit moves the exponent up by one
        if width rounded ≤ precision then .ok (.finite negative rounded least)
        else if top < least + 1 then .error .overflow
        else .ok (.finite negative (rounded / 10) (least + 1))
      else .ok (.finite negative coefficient exponent)

/-- A quiet NaN as the result of an operation. -/
def fixNan (negative : Bool) (payload : Nat) : Decimal :=
  .nan negative false (payload % 10 ^ precision)

/-- `_check_nans` for two operands: the NaN result, if there is one. -/
def nanOf (first second : Decimal) : Except DecimalError (Option Decimal) :=
  match first, second with
  | .nan _ true _, _ => .error .invalidOperation
  | _, .nan _ true _ => .error .invalidOperation
  | .nan negative false payload, _ => .ok (some (fixNan negative payload))
  | _, .nan negative false payload => .ok (some (fixNan negative payload))
  | _, _ => .ok none

def negative : Decimal → Bool
  | .finite negative _ _ => negative
  | .infinite negative => negative
  | .nan negative _ _ => negative

/-- `copy_negate`. -/
def negate : Decimal → Decimal
  | .finite negative coefficient exponent => .finite (!negative) coefficient exponent
  | .infinite negative => .infinite (!negative)
  | .nan negative signaling payload => .nan (!negative) signaling payload

/-- The sum of two coefficients with signs, with its sign; an exact zero is
negative only when both are. -/
def addSigned (first : Bool × Nat) (second : Bool × Nat) : Bool × Nat :=
  if first.1 = second.1 then (first.1, first.2 + second.2)
  else if first.2 = second.2 then (false, 0)
  else if second.2 < first.2 then (first.1, first.2 - second.2)
  else (second.1, second.2 - first.2)

def addNumbers : Decimal → Decimal → Except DecimalError Decimal
  | .finite n₁ c₁ e₁, .finite n₂ c₂ e₂ =>
    let exponent := min e₁ e₂
    let sum := addSigned (n₁, c₁ * 10 ^ (e₁ - exponent).toNat) (n₂, c₂ * 10 ^ (e₂ - exponent).toNat)
    fix sum.1 sum.2 exponent
  | .infinite n₁, .infinite n₂ => if n₁ = n₂ then .ok (.infinite n₁) else .error .invalidOperation
  | .infinite negative, _ => .ok (.infinite negative)
  | _, second => .ok second

/-- `first + second`. -/
def add (first second : Decimal) : Except DecimalError Decimal := do
  match ← nanOf first second with
  | some result => .ok result
  | none => addNumbers first second

/-- `first - second`. -/
def sub (first second : Decimal) : Except DecimalError Decimal := do
  match ← nanOf first second with
  | some result => .ok result
  | none => addNumbers first (negate second)

def mulNumbers : Decimal → Decimal → Except DecimalError Decimal
  | .finite n₁ c₁ e₁, .finite n₂ c₂ e₂ => fix (n₁ != n₂) (c₁ * c₂) (e₁ + e₂)
  | .infinite n₁, .finite n₂ c₂ _ =>
    if c₂ = 0 then .error .invalidOperation else .ok (.infinite (n₁ != n₂))
  | .finite n₁ c₁ _, .infinite n₂ =>
    if c₁ = 0 then .error .invalidOperation else .ok (.infinite (n₁ != n₂))
  | first, second => .ok (.infinite (first.negative != second.negative))

/-- `first * second`. -/
def mul (first second : Decimal) : Except DecimalError Decimal := do
  match ← nanOf first second with
  | some result => .ok result
  | none => mulNumbers first second

/-- Take trailing zeros off a quotient, up to the ideal exponent. -/
def stripZeros : Nat → Nat → Int → Nat × Int
  | 0, coefficient, exponent => (coefficient, exponent)
  | fuel + 1, coefficient, exponent =>
    if coefficient % 10 = 0 then stripZeros fuel (coefficient / 10) (exponent + 1)
    else (coefficient, exponent)

/-- The quotient of two coefficients, the second not zero, to one digit more
than the precision; a remainder is kept as a sticky last digit. -/
def quotient (c₁ c₂ : Nat) (ideal : Int) : Nat × Int :=
  let shift : Int := width c₂ - width c₁ + precision + 1
  let exponent := ideal - shift
  let dividend := c₁ * 10 ^ shift.toNat
  let divisor := c₂ * 10 ^ (-shift).toNat
  let coefficient := dividend / divisor
  if dividend % divisor ≠ 0 then
    (if coefficient % 5 = 0 then coefficient + 1 else coefficient, exponent)
  else stripZeros shift.toNat coefficient exponent

def divNumbers : Decimal → Decimal → Except DecimalError Decimal
  | .finite n₁ c₁ e₁, .finite n₂ c₂ e₂ =>
    if c₂ = 0 then .error (if c₁ = 0 then .invalidOperation else .divisionByZero)
    else if c₁ = 0 then fix (n₁ != n₂) 0 (e₁ - e₂)
    else
      let result := quotient c₁ c₂ (e₁ - e₂)
      fix (n₁ != n₂) result.1 result.2
  | .infinite n₁, .finite n₂ _ _ => .ok (.infinite (n₁ != n₂))
  | .finite n₁ _ _, .infinite n₂ => .ok (.finite (n₁ != n₂) 0 tiny)
  | _, _ => .error .invalidOperation

/-- `first / second`. -/
def div (first second : Decimal) : Except DecimalError Decimal := do
  match ← nanOf first second with
  | some result => .ok result
  | none => divNumbers first second

/-- `abs(value)`. -/
def abs : Decimal → Except DecimalError Decimal
  | .finite _ coefficient exponent => fix false coefficient exponent
  | .infinite _ => .ok (.infinite false)
  | .nan _ true _ => .error .invalidOperation
  | .nan negative false payload => .ok (fixNan negative payload)

/-- `first < second` for numbers. -/
def below : Decimal → Decimal → Bool
  | .finite n₁ c₁ e₁, .finite n₂ c₂ e₂ => exactly n₁ c₁ e₁ < exactly n₂ c₂ e₂
  | .infinite n₁, .infinite n₂ => n₁ && !n₂
  | .infinite negative, _ => negative
  | _, .infinite negative => !negative
  | _, _ => false

def isNan : Decimal → Bool
  | .nan _ _ _ => true
  | _ => false

/-- `first < second`: a NaN in an order comparison is invalid. -/
def lt (first second : Decimal) : Except DecimalError Bool :=
  if first.isNan || second.isNan then .error .invalidOperation else .ok (below first second)

/-- `first <= second`. -/
def le (first second : Decimal) : Except DecimalError Bool :=
  if first.isNan || second.isNan then .error .invalidOperation else .ok (!below second first)

/-- `first == second` for values that are no signaling NaN: the same number. -/
def same : Decimal → Decimal → Bool
  | .finite n₁ c₁ e₁, .finite n₂ c₂ e₂ => exactly n₁ c₁ e₁ == exactly n₂ c₂ e₂
  | .infinite n₁, .infinite n₂ => n₁ == n₂
  | _, _ => false

/-- `hash(value)` raises `TypeError` for a signaling NaN. -/
def hashable : Decimal → Bool
  | .nan _ true _ => false
  | _ => true

def digits (n : Nat) : Text := (Nat.toDigits 10 n).map Char.toNat

/-- `'%+d' % n`. -/
def signedDigits (n : Int) : Text := (if n < 0 then [45] else [43]) ++ digits n.natAbs

/-- `str(value)`. -/
def str : Decimal → Text
  | .infinite negative => (if negative then [45] else []) ++ text "Infinity"
  | .nan negative signaling payload =>
    (if negative then [45] else []) ++ text (if signaling then "sNaN" else "NaN") ++
      (if payload = 0 then [] else digits payload)
  | .finite negative coefficient exponent =>
    let shown := digits coefficient
    let left := exponent + shown.length
    let point : Int := if exponent ≤ 0 ∧ -6 < left then left else 1
    let number :=
      if point ≤ 0 then text "0." ++ List.replicate (-point).toNat 48 ++ shown
      else if shown.length ≤ point then shown ++ List.replicate (point - shown.length).toNat 48
      else shown.take point.toNat ++ [46] ++ shown.drop point.toNat
    (if negative then [45] else []) ++ number ++
      (if left = point then [] else [69] ++ signedDigits (left - point))

end Decimal

end N8nSystems.Lib.Py
