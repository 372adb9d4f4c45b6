import N8nSystems.Lib.PyText

/-! Searching a text for a pattern, as the `re` module and JavaScript's regular
expressions do, over the character classes of either. -/

namespace N8nSystems.Lib

open Py (Text)

/-- What a language counts as a match of a pattern's letter, as `\d` and as `\w`. -/
structure CharClasses where
  same : Nat → Nat → Bool
  digit : Nat → Bool
  word : Nat → Bool

namespace CharClasses
variable (classes : CharClasses)

/-- The rest of the text after a literal. -/
def literal : Text → Text → Option Text
  | [], rest => some rest
  | _ :: _, [] => none
  | letter :: letters, c :: rest => if classes.same letter c then literal letters rest else none

theorem literal_subset {letters value rest : Text}
    (found : classes.literal letters value = some rest) : ∀ c ∈ rest, c ∈ value := by
  induction letters generalizing value with
  | nil =>
    cases found
    exact fun c member => member
  | cons letter letters ih =>
    cases value with
    | nil => cases found
    | cons first value =>
      rw [literal] at found
      split at found
      · exact fun c member => List.mem_cons_of_mem first (ih found c member)
      · cases found

/-- `(\d{3})`: the group and the rest. -/
def threeDigits : Text → Option (Text × Text)
  | a :: b :: c :: rest =>
    if classes.digit a && classes.digit b && classes.digit c then some ([a, b, c], rest) else none
  | _ => none

/-- `\b` between two neighbours, where an end of the text has none. -/
def boundary (before after : Option Nat) : Bool :=
  before.any classes.word != after.any classes.word

theorem threeDigits_append {value digits rest : Text}
    (found : classes.threeDigits value = some (digits, rest)) : value = digits ++ rest := by
  unfold threeDigits at found
  split at found
  · split at found
    · cases found
      rfl
    · cases found
  · cases found

theorem threeDigits_digit {value digits rest : Text}
    (found : classes.threeDigits value = some (digits, rest)) :
    digits.length = 3 ∧ ∀ c ∈ digits, classes.digit c = true := by
  unfold threeDigits at found
  split at found
  · split at found
    · rename_i digit
      simp only [Bool.and_eq_true] at digit
      cases found
      simp [digit]
    · cases found
  · cases found

/-- Two languages take the characters of an alphabet alike. -/
structure SameOn (alphabet : Nat → Prop) (first second : CharClasses) : Prop where
  same : ∀ letter c, alphabet letter → alphabet c → first.same letter c = second.same letter c
  digit : ∀ c, alphabet c → first.digit c = second.digit c
  word : ∀ c, alphabet c → first.word c = second.word c

namespace SameOn
variable {alphabet : Nat → Prop} {first second : CharClasses} (alike : SameOn alphabet first second)
include alike

theorem literal {letters value : Text} (known : ∀ c ∈ letters, alphabet c)
    (plain : ∀ c ∈ value, alphabet c) : first.literal letters value = second.literal letters value := by
  induction letters generalizing value with
  | nil => rfl
  | cons letter letters ih =>
    cases value with
    | nil => rfl
    | cons c value =>
      rw [CharClasses.literal, CharClasses.literal,
        alike.same letter c (known letter List.mem_cons_self) (plain c List.mem_cons_self),
        ih (fun c member => known c (List.mem_cons_of_mem _ member))
          (fun c member => plain c (List.mem_cons_of_mem _ member))]

theorem threeDigits {value : Text} (plain : ∀ c ∈ value, alphabet c) :
    first.threeDigits value = second.threeDigits value := by
  unfold CharClasses.threeDigits
  split
  · rename_i a b c rest
    rw [alike.digit a (plain a (by simp)), alike.digit b (plain b (by simp)),
      alike.digit c (plain c (by simp))]
  · rfl

theorem boundary {before after : Option Nat} (plainBefore : ∀ c ∈ before, alphabet c)
    (plainAfter : ∀ c ∈ after, alphabet c) :
    first.boundary before after = second.boundary before after := by
  have side {neighbour : Option Nat} (plain : ∀ c ∈ neighbour, alphabet c) :
      neighbour.any first.word = neighbour.any second.word := by
    cases neighbour with
    | none => rfl
    | some c => exact alike.word c (plain c rfl)
  rw [CharClasses.boundary, CharClasses.boundary, side plainBefore, side plainAfter]

end SameOn

end CharClasses

/-- The leftmost place at which the pattern matches; a pattern is given the
character before its place and the text from there. -/
def search (pattern : Option Nat → Text → Option Text) : Option Nat → Text → Option Text
  | before, [] => pattern before []
  | before, c :: rest => pattern before (c :: rest) <|> search pattern (some c) rest

/-- What a search finds, the pattern finds somewhere. -/
theorem search_found {pattern : Option Nat → Text → Option Text} {before : Option Nat}
    {value found : Text} (hit : search pattern before value = some found) :
    ∃ before rest, pattern before rest = some found := by
  induction value generalizing before with
  | nil => exact ⟨before, [], hit⟩
  | cons c rest ih =>
    rw [search] at hit
    cases here : pattern before (c :: rest) with
    | some digits =>
      rw [here] at hit
      exact ⟨before, c :: rest, here.trans hit⟩
    | none =>
      rw [here] at hit
      exact ih hit

theorem search_congr {alphabet : Nat → Prop} {pattern other : Option Nat → Text → Option Text}
    (alike : ∀ before rest, (∀ c ∈ before, alphabet c) → (∀ c ∈ rest, alphabet c) →
      pattern before rest = other before rest)
    {before : Option Nat} {value : Text} (plainBefore : ∀ c ∈ before, alphabet c)
    (plain : ∀ c ∈ value, alphabet c) : search pattern before value = search other before value := by
  induction value generalizing before with
  | nil => exact alike before [] plainBefore plain
  | cons c rest ih =>
    have plainRest : ∀ c ∈ rest, alphabet c := fun c member => plain c (List.mem_cons_of_mem _ member)
    have plainHead : ∀ d ∈ some c, alphabet d := by
      intro d same
      cases same
      exact plain c List.mem_cons_self
    rw [search, search, alike before _ plainBefore plain, ih plainHead plainRest]

end N8nSystems.Lib
