import N8nSystems.Lib.WeightedSum
import N8nSystems.Validators.IbanStandard

/-! Typing errors in Finnish reference numbers. With the check digit at place zero the
weights are 1, 7 and 3 in turn, and the sum over an accepted reference is a multiple
of ten. -/

namespace N8nSystems.Validators

open Lib Lib.Py

/-- The number of an ASCII digit. -/
def digitInt (c : Nat) : Int := (c : Int) - 48

/-- The weight of a place, counted from the check digit. -/
def referenceWeight (place : Nat) : Int := [1, 7, 3].getD (place % 3) 0

def referenceSum (reference : Text) : Int :=
  weighted referenceWeight 0 (reference.reverse.map digitInt)

/-- Four to twenty ASCII digits. -/
structure FinnishDigits (value : Text) : Prop where
  digits : ∀ c ∈ value, isAsciiDigit c = true
  length : 4 ≤ value.length ∧ value.length ≤ 20

theorem FinnishDigits.plain (shaped : FinnishDigits value) : ∀ c ∈ value, isPlain c = true := by
  intro c member
  rw [isPlain, shaped.digits c member, Bool.true_or]

theorem FinnishDigits.nonempty (shaped : FinnishDigits value) : value ≠ [] := by
  have length := shaped.length.1
  intro empty
  rw [empty, List.length_nil] at length
  omega

theorem third_succ (place : Nat) :
    place % 3 = 0 ∧ (place + 1) % 3 = 1 ∨ place % 3 = 1 ∧ (place + 1) % 3 = 2 ∨
      place % 3 = 2 ∧ (place + 1) % 3 = 0 := by
  omega

/-- Neighbours have different weights, and every weight is prime to ten. -/
theorem referenceWeight_cases (place : Nat) :
    referenceWeight place = 1 ∧ referenceWeight (place + 1) = 7 ∨
      referenceWeight place = 7 ∧ referenceWeight (place + 1) = 3 ∨
      referenceWeight place = 3 ∧ referenceWeight (place + 1) = 1 := by
  unfold referenceWeight
  rcases third_succ place with ⟨here, next⟩ | ⟨here, next⟩ | ⟨here, next⟩ <;> simp [here, next]

theorem referenceWeight_succ (index : Nat) :
    referenceWeight (index + 1) = ([7, 3, 1].getD (index % 3) 0 : Nat) := by
  unfold referenceWeight
  rcases third_succ index with ⟨here, next⟩ | ⟨here, next⟩ | ⟨here, next⟩ <;> simp [here, next]

section

variable {letters : LatinLetters}

theorem digitValue_digitInt (digit : isAsciiDigit c = true) :
    (digitValue letters.toLetters c : Int) = digitInt c := by
  have range := isAsciiDigit_iff.mp digit
  rw [digitValue_ascii digit, digitInt]
  omega

/-- The loop of `_finnish_check_digit` counts the places behind the check digit. -/
theorem referenceTotal_weighted (index : Nat) {body : Text}
    (digits : ∀ c ∈ body, isAsciiDigit c = true) :
    (referenceTotal letters.toLetters index body : Int) =
      weighted referenceWeight (index + 1) (body.map digitInt) := by
  induction body generalizing index with
  | nil => rfl
  | cons c rest ih =>
    have later := ih (index + 1) fun other member => digits other (List.mem_cons_of_mem c member)
    have here := @digitValue_digitInt letters c (digits c List.mem_cons_self)
    rw [referenceTotal, List.map_cons, weighted, ← later, referenceWeight_succ, ← here]
    push_cast
    rw [Int.mul_comm]

/-- The check digit is right when the whole sum is a multiple of ten. -/
theorem referenceRight_iff (shaped : FinnishDigits value) :
    ReferenceRight letters.toLetters value ↔ 10 ∣ referenceSum value := by
  obtain ⟨body, last, rfl⟩ := (List.eq_nil_or_concat' value).resolve_left shaped.nonempty
  have digits : ∀ c ∈ body, isAsciiDigit c = true := fun c member => shaped.digits c (by simp [member])
  have check := @digitValue_digitInt letters last (shaped.digits last (by simp))
  have total := @referenceTotal_weighted letters 0 body.reverse
    fun c member => digits c (List.mem_reverse.mp member)
  have sum : referenceSum (body ++ [last]) = digitValue letters.toLetters last +
      referenceTotal letters.toLetters 0 body.reverse := by
    have one : referenceWeight 0 = 1 := rfl
    rw [total, check, referenceSum, List.reverse_concat, List.map_cons, weighted, one, Int.one_mul]
  have small : digitValue letters.toLetters last < 10 := by
    have range := isAsciiDigit_iff.mp (shaped.digits last (by simp))
    rw [digitValue_ascii (shaped.digits last (by simp))]
    omega
  rw [ReferenceRight, sum, List.getLastD_concat, List.dropLast_concat]
  omega

/-- `reference_number` returns on digits, and accepts the sums that are a multiple of ten. -/
theorem referenceNumber_verdict (shaped : FinnishDigits value) :
    ∃ result, referenceNumber letters.toLetters (some value) = .ok result ∧
      (result.passed = true ↔ 10 ∣ referenceSum value) := by
  obtain ⟨stripped, unchanged⟩ := @compact_plain letters _ shaped.plain
  have given : strip (orEmpty (some value)) = value := stripped
  have finnish : value.take 2 ≠ text "RF" := by
    intro creditor
    have capital : 82 ∈ value.take 2 := by
      rw [creditor]
      exact List.mem_cons_self
    have digit := shaped.digits 82 (List.mem_of_mem_take capital)
    cases digit
  have form : FinnishShaped letters.toLetters value := by
    refine ⟨(allOf_congr shaped.nonempty fun c member => ?_).mpr shaped.digits, shaped.length⟩
    exact letters.isDigit_ascii c (lt_of_isPlain (shaped.plain c member))
  unfold referenceNumber
  simp only [given, unchanged, if_neg shaped.nonempty, if_neg finnish]
  obtain ⟨result, returned, verdict⟩ := finnishReference_verdict form
    (digitsDecimal_ascii fun c member => lt_of_isPlain (shaped.plain c member))
  exact ⟨result, returned, verdict.trans (referenceRight_iff shaped)⟩

theorem referenceNumber_accepts_iff (shaped : FinnishDigits value) :
    Accepts (referenceNumber letters.toLetters (some value)) ↔ 10 ∣ referenceSum value := by
  obtain ⟨result, returned, verdict⟩ := @referenceNumber_verdict letters value shaped
  rw [returned, ← verdict]
  simp [Accepts]

theorem referenceNumber_rejects_iff (shaped : FinnishDigits value) :
    Rejects (referenceNumber letters.toLetters (some value)) ↔ ¬ 10 ∣ referenceSum value := by
  obtain ⟨result, returned, verdict⟩ := @referenceNumber_verdict letters value shaped
  rw [returned, ← verdict]
  simp [Rejects]

end

theorem FinnishDigits.replaced (shaped : FinnishDigits (front ++ a :: back))
    (digit : isAsciiDigit b = true) : FinnishDigits (front ++ b :: back) := by
  constructor
  · intro c member
    rcases List.mem_append.mp member with before | rest
    · exact shaped.digits c (List.mem_append_left _ before)
    · rcases List.mem_cons.mp rest with rfl | after
      · exact digit
      · exact shaped.digits c (List.mem_append_right _ (List.mem_cons_of_mem _ after))
  · simpa using shaped.length

theorem FinnishDigits.swapped (shaped : FinnishDigits (front ++ a :: b :: back)) :
    FinnishDigits (front ++ b :: a :: back) := by
  constructor
  · intro c member
    apply shaped.digits c
    simp only [List.mem_append, List.mem_cons] at member ⊢
    tauto
  · simpa using shaped.length

theorem FinnishDigits.padded (shaped : FinnishDigits value) (short : zeros + value.length ≤ 20) :
    FinnishDigits (List.replicate zeros 48 ++ value) := by
  have length := shaped.length
  constructor
  · intro c member
    rcases List.mem_append.mp member with zero | inside
    · rw [List.eq_of_mem_replicate zero]
      rfl
    · exact shaped.digits c inside
  · rw [List.length_append, List.length_replicate]
    omega

/-- Another digit moves the sum by a weight that is prime to ten. -/
theorem referenceSum_replaced (front back : Text) (a b : Nat) :
    referenceSum (front ++ a :: back) - referenceSum (front ++ b :: back) =
      referenceWeight back.length * (digitInt a - digitInt b) := by
  have moved := weighted_replaced referenceWeight 0 (back.reverse.map digitInt)
    (front.reverse.map digitInt) (digitInt a) (digitInt b)
  simpa [referenceSum] using moved

theorem referenceSum_swapped (front back : Text) (a b : Nat) :
    referenceSum (front ++ a :: b :: back) - referenceSum (front ++ b :: a :: back) =
      (referenceWeight back.length - referenceWeight (back.length + 1)) *
        (digitInt b - digitInt a) := by
  have moved := weighted_exchanged referenceWeight 0 (back.reverse.map digitInt) []
    (front.reverse.map digitInt) (digitInt b) (digitInt a)
  simpa [referenceSum] using moved

/-- Zeros in front stand at the places of the highest weights. -/
theorem referenceSum_padded (zeros : Nat) (value : Text) :
    referenceSum (List.replicate zeros 48 ++ value) = referenceSum value := by
  have zero : digitInt 48 = 0 := rfl
  rw [referenceSum, List.reverse_append, List.map_append, weighted_append, List.reverse_replicate,
    List.map_replicate, zero, weighted_zeros, Int.add_zero, referenceSum]

/-- What `reference_number` notices in a text of four to twenty digits. In an accepted
one every replaced digit is found, and two swapped neighbours are found unless they
differ by five; zeros in front make no difference to any. -/
theorem referenceNumber_errors (letters : LatinLetters) {value : Text} (shaped : FinnishDigits value) :
    (Accepts (referenceNumber letters.toLetters (some value)) →
      (∀ front a b back, value = front ++ a :: back → isAsciiDigit b = true → a ≠ b →
        Rejects (referenceNumber letters.toLetters (some (front ++ b :: back)))) ∧
      ∀ front a b back, value = front ++ a :: b :: back → a ≠ b →
        (Rejects (referenceNumber letters.toLetters (some (front ++ b :: a :: back))) ↔
          ¬ (a + 5 = b ∨ b + 5 = a))) ∧
    ∀ zeros, zeros + value.length ≤ 20 →
      (Accepts (referenceNumber letters.toLetters (some (List.replicate zeros 48 ++ value))) ↔
        Accepts (referenceNumber letters.toLetters (some value))) ∧
      (Rejects (referenceNumber letters.toLetters (some (List.replicate zeros 48 ++ value))) ↔
        Rejects (referenceNumber letters.toLetters (some value))) := by
  constructor
  · intro accepted
    rw [referenceNumber_accepts_iff shaped] at accepted
    constructor
    · rintro front a b back rfl digit different
      rw [referenceNumber_rejects_iff (shaped.replaced digit)]
      have moved := referenceSum_replaced front back a b
      have first := isAsciiDigit_iff.mp (shaped.digits a (by simp))
      have second := isAsciiDigit_iff.mp digit
      unfold digitInt at moved
      rcases referenceWeight_cases back.length with ⟨weight, _⟩ | ⟨weight, _⟩ | ⟨weight, _⟩
      · rw [weight] at moved
        omega
      · rw [weight] at moved
        omega
      · rw [weight] at moved
        omega
    · rintro front a b back rfl different
      rw [referenceNumber_rejects_iff shaped.swapped]
      have moved := referenceSum_swapped front back a b
      have first := isAsciiDigit_iff.mp (shaped.digits a (by simp))
      have second := isAsciiDigit_iff.mp (shaped.digits b (by simp))
      unfold digitInt at moved
      rcases referenceWeight_cases back.length with ⟨here, next⟩ | ⟨here, next⟩ | ⟨here, next⟩
      · rw [here, next] at moved
        omega
      · rw [here, next] at moved
        omega
      · rw [here, next] at moved
        omega
  · intro zeros short
    rw [referenceNumber_accepts_iff shaped, referenceNumber_accepts_iff (shaped.padded short),
      referenceNumber_rejects_iff shaped, referenceNumber_rejects_iff (shaped.padded short),
      referenceSum_padded]
    exact ⟨Iff.rfl, Iff.rfl⟩

/-- The first two digits of 1614 differ by five, and its last two by three. -/
theorem referenceNumber_errors_swapped :
    ¬ Rejects (referenceNumber asciiLetters (some (text "6114"))) ∧
      Rejects (referenceNumber asciiLetters (some (text "1641"))) ∧
      Accepts (referenceNumber asciiLetters (some (text "0001614"))) := by
  have shaped : FinnishDigits (text "1614") :=
    ⟨List.all_eq_true.mp rfl, by decide, by decide⟩
  have accepted : Accepts (referenceNumber asciiLetters (some (text "1614"))) :=
    accepts_iff.mpr (by decide +kernel)
  obtain ⟨errors, padded⟩ := referenceNumber_errors asciiLatin shaped
  have swapped := (errors accepted).2
  refine ⟨?_, ?_, (padded 3 (by decide)).1.mpr accepted⟩
  · have first := swapped [] 49 54 (text "14") rfl (by decide)
    exact fun rejected => first.mp rejected (by decide)
  · exact (swapped (text "16") 49 52 [] rfl (by decide)).mpr (by decide)

end N8nSystems.Validators
