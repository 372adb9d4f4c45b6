import Mathlib.Algebra.Ring.Basic
import Mathlib.Tactic.Ring

/-! Sums of digits with a weight for each place, and how far a misread digit moves
them. -/

namespace N8nSystems.Lib

universe u v

/-- One symbol is read as another, or two symbols have changed places. -/
inductive Misread {α : Type u} : List α → List α → Prop
  | replaced {a b : α} (different : a ≠ b) (front back : List α) :
      Misread (front ++ a :: back) (front ++ b :: back)
  | exchanged {a b : α} (different : a ≠ b) (front middle back : List α) :
      Misread (front ++ a :: (middle ++ b :: back)) (front ++ b :: (middle ++ a :: back))

section

variable {R : Type v} [CommRing R] (weight : Nat → R)

/-- The sum over a list whose first digit stands at the given place. -/
def weighted : Nat → List R → R
  | _, [] => 0
  | place, digit :: rest => weight place * digit + weighted (place + 1) rest

theorem weighted_append (place : Nat) (front back : List R) :
    weighted weight place (front ++ back) =
      weighted weight place front + weighted weight (place + front.length) back := by
  induction front generalizing place with
  | nil => simp [weighted]
  | cons digit rest ih =>
    have next : place + 1 + rest.length = place + (rest.length + 1) := by omega
    rw [List.cons_append, weighted, weighted, ih, List.length_cons, next]
    ring

theorem weighted_zeros (place count : Nat) : weighted weight place (List.replicate count 0) = 0 := by
  induction count generalizing place with
  | zero => rfl
  | succ count ih => rw [List.replicate_succ, weighted, ih, mul_zero, zero_add]

/-- Another digit moves the sum by the weight of its place times the difference. -/
theorem weighted_replaced (place : Nat) (front back : List R) (a b : R) :
    weighted weight place (front ++ a :: back) - weighted weight place (front ++ b :: back) =
      weight (place + front.length) * (a - b) := by
  rw [weighted_append, weighted_append, weighted, weighted]
  ring

/-- Two digits that change places move the sum by the difference of their weights
times their own. -/
theorem weighted_exchanged (place : Nat) (front middle back : List R) (a b : R) :
    weighted weight place (front ++ a :: (middle ++ b :: back)) -
        weighted weight place (front ++ b :: (middle ++ a :: back)) =
      (weight (place + front.length) - weight (place + front.length + 1 + middle.length)) * (a - b) := by
  simp only [weighted_append, weighted]
  ring

end

end N8nSystems.Lib
