import Mathlib.Algebra.Field.Basic
import Mathlib.Tactic.LinearCombination
import Mathlib.Tactic.Ring

/-! Numbers written in symbols of several places, and slips of the pen. In a field
where the base has a larger order than the number has places, one wrong symbol and two
symbols in the wrong order both change the number. -/

namespace N8nSystems.Lib

universe u v

section Slip

variable {α : Type u}

/-- One symbol is replaced by a similar one, or two neighbours are swapped that are. -/
inductive Slip (Alike : α → α → Prop) : List α → List α → Prop
  | replaced {a b : α} (alike : Alike a b) (front back : List α) :
      Slip Alike (front ++ a :: back) (front ++ b :: back)
  | swapped {a b : α} (alike : Alike a b) (front back : List α) :
      Slip Alike (front ++ a :: b :: back) (front ++ b :: a :: back)

/-- A slip in a ring of symbols: the two neighbours may be the ends. -/
inductive CyclicSlip (Alike : α → α → Prop) : List α → List α → Prop
  | slip (slip : Slip Alike text other) : CyclicSlip Alike text other
  | ends {a b : α} (alike : Alike a b) (middle : List α) :
      CyclicSlip Alike (b :: middle ++ [a]) (a :: middle ++ [b])

variable {Alike : α → α → Prop} {text other : List α}

theorem Slip.mono {Similar : α → α → Prop} (slip : Slip Alike text other)
    (weaker : ∀ a ∈ text, ∀ b ∈ other, Alike a b → Similar a b) : Slip Similar text other := by
  cases slip with
  | replaced alike front back => exact .replaced (weaker _ (by simp) _ (by simp) alike) front back
  | swapped alike front back => exact .swapped (weaker _ (by simp) _ (by simp) alike) front back

/-- Moving the first symbols to the end makes a slip one in the ring. -/
theorem Slip.rotated (slip : Slip Alike text other) (k : Nat) :
    CyclicSlip Alike (text.drop k ++ text.take k) (other.drop k ++ other.take k) := by
  -- The symbols of the slip stand in the moved part, behind it, or at its edge.
  have moved (front tail : List α) (n : Nat) :
      (front ++ tail).drop (front.length + n) ++ (front ++ tail).take (front.length + n) =
        tail.drop n ++ front ++ tail.take n := by
    rw [List.drop_length_add_append, List.take_length_add_append, List.append_assoc]
  have stayed (front tail : List α) (short : k ≤ front.length) :
      (front ++ tail).drop k ++ (front ++ tail).take k = front.drop k ++ (tail ++ front.take k) := by
    rw [List.drop_append_of_le_length short, List.take_append_of_le_length short, List.append_assoc]
  cases slip with
  | replaced alike front back =>
    rcases Nat.lt_or_ge front.length k with inside | beyond
    · obtain ⟨n, rfl⟩ := Nat.exists_eq_add_of_lt inside
      rw [Nat.add_assoc, moved, moved]
      exact .slip (.replaced alike _ _)
    · rw [stayed _ _ beyond, stayed _ _ beyond]
      exact .slip (.replaced alike _ _)
  | swapped alike front back =>
    rcases Nat.lt_trichotomy (front.length + 1) k with inside | rfl | beyond
    · obtain ⟨n, rfl⟩ := Nat.exists_eq_add_of_lt inside
      have two : front.length + 1 + n + 1 = front.length + (n + 2) := by omega
      rw [two, moved, moved]
      exact .slip (.swapped alike _ _)
    · rw [moved, moved]
      exact .ends alike (back ++ front)
    · have short : k ≤ front.length := by omega
      rw [stayed _ _ short, stayed _ _ short]
      exact .slip (.swapped alike _ _)

end Slip

/-- Symbols with a value each, and the number of places they take. -/
structure Positional (α : Type u) (F : Type v) where
  base : F
  width : α → Nat
  value : α → F

namespace Positional

variable {α : Type u} {F : Type v} (numerals : Positional α F)

def places (text : List α) : Nat := (text.map numerals.width).sum

theorem places_append (front back : List α) :
    numerals.places (front ++ back) = numerals.places front + numerals.places back := by
  simp [places]

theorem places_cons (symbol : α) (rest : List α) :
    numerals.places (symbol :: rest) = numerals.width symbol + numerals.places rest := by
  simp [places]

/-- Two symbols of the same width and different values. -/
def Mistakable (a b : α) : Prop :=
  numerals.width a = numerals.width b ∧ numerals.value a ≠ numerals.value b

variable [Field F]

/-- The number read so far, with the next symbol. -/
def push (number : F) (symbol : α) : F :=
  number * numerals.base ^ numerals.width symbol + numerals.value symbol

def number (text : List α) : F := text.foldl numerals.push 0

theorem foldl_push (start : F) (text : List α) :
    text.foldl numerals.push start = start * numerals.base ^ numerals.places text + numerals.number text := by
  induction text generalizing start with
  | nil => simp [places, number]
  | cons symbol rest ih =>
    have here := ih (numerals.push start symbol)
    have zero := ih (numerals.push 0 symbol)
    rw [number, List.foldl_cons, List.foldl_cons, here, zero]
    simp only [push, places, List.map_cons, List.sum_cons, pow_add]
    ring

theorem number_append (front back : List α) : numerals.number (front ++ back) =
    numerals.number front * numerals.base ^ numerals.places back + numerals.number back := by
  rw [number, List.foldl_append, foldl_push]
  rfl

theorem number_cons (symbol : α) (rest : List α) : numerals.number (symbol :: rest) =
    numerals.value symbol * numerals.base ^ numerals.places rest + numerals.number rest := by
  rw [number, List.foldl_cons, foldl_push, push, zero_mul, zero_add]

/-- A slip changes the number when no power of the base up to the places of the
number is one. -/
theorem number_ne_of_slip {text other : List α} (slip : CyclicSlip numerals.Mistakable text other)
    (nonzero : numerals.base ≠ 0) (wide : ∀ symbol, 1 ≤ numerals.width symbol)
    (order : ∀ k, 1 ≤ k → k ≤ numerals.places text → numerals.base ^ k ≠ 1) :
    numerals.number text ≠ numerals.number other := by
  intro same
  cases slip with
  | slip slip =>
    cases slip with
    | @replaced a b alike front back =>
      obtain ⟨width, different⟩ := alike
      have weight := pow_ne_zero (numerals.places back) nonzero
      simp only [number_append, number_cons, places_cons, width] at same
      have equal : numerals.value a * numerals.base ^ numerals.places back =
          numerals.value b * numerals.base ^ numerals.places back := by
        linear_combination same
      exact different (mul_right_cancel₀ weight equal)
    | @swapped a b alike front back =>
      obtain ⟨width, different⟩ := alike
      have weight := pow_ne_zero (numerals.places back) nonzero
      have unequal : numerals.base ^ numerals.width b - 1 ≠ 0 := by
        refine sub_ne_zero.mpr (order _ (wide b) ?_)
        simp only [places_append, places_cons]
        omega
      simp only [number_append, number_cons, places_cons, width, pow_add] at same
      have zero : (numerals.value a - numerals.value b) * (numerals.base ^ numerals.width b - 1) *
          numerals.base ^ numerals.places back = 0 := by
        linear_combination same
      rcases mul_eq_zero.mp zero with inner | heavy
      · rcases mul_eq_zero.mp inner with none | one
        · exact different (sub_eq_zero.mp none)
        · exact unequal one
      · exact weight heavy
  | @ends a b alike middle =>
    obtain ⟨width, different⟩ := alike
    have unequal : numerals.base ^ (numerals.places middle + numerals.width b) - 1 ≠ 0 := by
      refine sub_ne_zero.mpr (order _ ?_ ?_)
      · have one := wide b
        omega
      · simp only [List.cons_append, places_cons, places_append]
        omega
    have last (symbol : α) : numerals.number [symbol] = numerals.value symbol := by
      simp [number, push]
    have single (symbol : α) : numerals.places [symbol] = numerals.width symbol := by
      simp [places]
    simp only [number_append, number_cons, last, single, width] at same
    have zero : (numerals.value b - numerals.value a) *
        (numerals.base ^ (numerals.places middle + numerals.width b) - 1) = 0 := by
      rw [pow_add]
      linear_combination same
    rcases mul_eq_zero.mp zero with none | one
    · exact different (sub_eq_zero.mp none).symm
    · exact unequal one

end Positional

end N8nSystems.Lib
