import Mathlib.Data.Rat.Floor
import Mathlib.Tactic.NormNum
import Mathlib.Tactic.Positivity
import N8nSystems.Lib.JsValue
import N8nSystems.Lib.Rounding

/-! Doubles, the numbers of JavaScript and the floats of Python, with the operations of
IEEE 754. Zeros have no sign here. -/

namespace N8nSystems.Lib.Binary64

open Js (Number)

theorem base_lt : 1 < 2 := by decide

theorem digits_pos : 0 < 53 := by decide

def format : Precision := ⟨2, 53, -1074, base_lt, digits_pos⟩

/-- The exponents of the doubles are smaller. -/
def exponentLimit : Nat := 1024

/-- The nearest double, or an infinity beyond the largest one. -/
def nearestDouble (x : Rat) : Number :=
  let rounded := format.rounded x
  if |rounded| < 2 ^ exponentLimit then .finite rounded else .infinite (x < 0)

/-- A number with few digits at some place is a double, if it is not too large. -/
theorem rounded_of_digits {x : Rat} {n : Nat} {e : Int} (whole : |x| = n * (2 : Rat) ^ e)
    (positive : 0 < n) (short : n < 2 ^ 53) (least : -1074 ≤ e) : format.rounded x = x := by
  apply format.rounded_of_size
  have cast : |x| = ((n : Int) : Rat) * ((format.base : Nat) : Rat) ^ e := by
    rw [whole]
    rfl
  apply format.size_of_multiple cast
  have place : Int.log format.base |x| = Nat.log 2 n + e := by
    rw [whole]
    exact log_mul_zpow base_lt positive e
  have digits : Nat.log 2 n < 53 := Nat.log_lt_of_lt_pow positive.ne' short
  rw [Precision.place, place, max_le_iff]
  change _ + 1 - ((53 : Nat) : Int) ≤ e ∧ (-1074 : Int) ≤ e
  omega

theorem nearestDouble_nat {n : Nat} (positive : 0 < n) (short : n < 2 ^ 53) :
    nearestDouble n = .finite n := by
  have kept : format.rounded (n : Rat) = n := by
    apply rounded_of_digits _ positive short (by decide : -1074 ≤ (0 : Int))
    rw [zpow_zero, mul_one, Nat.abs_cast]
  have small : |(n : Rat)| < 2 ^ exponentLimit := by
    rw [Nat.abs_cast]
    exact_mod_cast short.trans (Nat.pow_lt_pow_right base_lt (by decide : 53 < exponentLimit))
  simp only [nearestDouble, kept, if_pos small]

theorem rounded_two_pow (n : Nat) : format.rounded ((2 : Rat) ^ n) = 2 ^ n := by
  apply rounded_of_digits _ (by decide : 0 < 1) (by decide) (by omega : -1074 ≤ (n : Int))
  rw [zpow_natCast, Nat.cast_one, one_mul, abs_of_pos (by positivity)]

/-- The powers of two are doubles up to the largest one. -/
theorem nearestDouble_two_pow {n : Nat} (small : n < exponentLimit) :
    nearestDouble (2 ^ n) = .finite (2 ^ n) := by
  have below : |(2 : Rat) ^ n| < 2 ^ exponentLimit := by
    rw [abs_of_pos (by positivity)]
    exact pow_lt_pow_right₀ (by norm_num) small
  simp only [nearestDouble, rounded_two_pow, if_pos below]

theorem nearestDouble_two_pow_large {n : Nat} (large : exponentLimit ≤ n) :
    nearestDouble (2 ^ n) = .infinite false := by
  have above : ¬|(2 : Rat) ^ n| < 2 ^ exponentLimit := by
    rw [abs_of_pos (by positivity), not_lt]
    exact pow_le_pow_right₀ (by norm_num) large
  have positive : ¬(2 : Rat) ^ n < 0 := not_lt.mpr (by positivity)
  simp only [nearestDouble, rounded_two_pow, if_neg above, decide_eq_false positive]

-- rounding is used by the lemmas above and never computed in a proof
attribute [irreducible] nearestDouble

def mul : Number → Number → Number
  | .finite x, .finite y => nearestDouble (x * y)
  | .finite x, .infinite negative | .infinite negative, .finite x =>
    if x = 0 then .nan else .infinite (negative != decide (x < 0))
  | .infinite first, .infinite second => .infinite (first != second)
  | _, _ => .nan

/-- `x < y`, which holds of no value that is not a number. -/
def lt : Number → Number → Bool
  | .finite x, .finite y => x < y
  | .finite _, .infinite negative => !negative
  | .infinite negative, .finite _ => negative
  | .infinite first, .infinite second => first && !second
  | _, _ => false

/-- `int too large to convert to float`. -/
inductive OverflowError where
  | intTooLarge
  deriving DecidableEq, Repr

/-- A Python `int` as a factor of a `float`. -/
def ofInt (n : Int) : Except OverflowError Number :=
  match nearestDouble n with
  | .finite value => .ok (.finite value)
  | _ => .error .intTooLarge

theorem ofInt_two_pow {n : Nat} (small : n < exponentLimit) :
    ofInt (2 ^ n) = .ok (.finite (2 ^ n)) := by
  rw [ofInt, Int.cast_pow, Int.cast_ofNat, nearestDouble_two_pow small]

theorem ofInt_two_pow_large {n : Nat} (large : exponentLimit ≤ n) :
    ofInt (2 ^ n) = .error .intTooLarge := by
  rw [ofInt, Int.cast_pow, Int.cast_ofNat, nearestDouble_two_pow_large large]

end N8nSystems.Lib.Binary64
