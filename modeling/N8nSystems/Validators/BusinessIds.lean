import Mathlib.Data.Nat.Prime.Basic
import N8nSystems.Validators.References

/-! Business ids: which texts `business_id_checksum` accepts, and how far apart they are. -/

namespace N8nSystems.Validators

open Lib Lib.Py

/-- Seven digits, a hyphen and a check digit, with a weighted sum divisible by eleven. -/
def YTunnus (raw : Text) : Prop :=
  ∃ a b c d e f g h, (∀ digit ∈ [a, b, c, d, e, f, g, h], digit ≤ 9) ∧
    raw = [48 + a, 48 + b, 48 + c, 48 + d, 48 + e, 48 + f, 48 + g, 45, 48 + h] ∧
    11 ∣ 7 * a + 9 * b + 10 * c + 5 * d + 8 * e + 4 * f + 2 * g + h

/-- The weight of a place of the text; the hyphen has none. -/
def businessIdWeight (place : Nat) : Int := [7, 9, 10, 5, 8, 4, 2, 0, 1].getD place 0

def businessIdSum (raw : Text) : Int := weighted businessIdWeight 0 (raw.map digitInt)

theorem YTunnus.sum (id : YTunnus raw) : 11 ∣ businessIdSum raw := by
  obtain ⟨a, b, c, d, e, f, g, h, _, rfl, divisible⟩ := id
  simp only [businessIdSum, List.map_cons, List.map_nil, weighted, businessIdWeight, digitInt,
    List.getD_cons_zero, List.getD_cons_succ]
  omega

theorem YTunnus.length (id : YTunnus raw) : raw.length = 9 := by
  obtain ⟨a, b, c, d, e, f, g, h, _, rfl, _⟩ := id
  rfl

/-- The hyphen stands at its place, and a digit at every other. -/
theorem YTunnus.place (id : YTunnus raw) (here : raw[i]? = some c) :
    i < 9 ∧ if i = 7 then c = 45 else isAsciiDigit c = true := by
  obtain ⟨a, b, c, d, e, f, g, h, small, rfl, _⟩ := id
  simp only [List.forall_mem_cons] at small
  simp only [isAsciiDigit_iff]
  rcases i with _ | _ | _ | _ | _ | _ | _ | _ | _ | i <;> simp at here ⊢ <;> omega

theorem businessIdWeight_prime : ∀ i < 9, i ≠ 7 → ¬ (11 : Int) ∣ businessIdWeight i := by decide

theorem businessIdWeight_apart : ∀ i < 9, ∀ j < 9, i ≠ j →
    ¬ (11 : Int) ∣ businessIdWeight i - businessIdWeight j := by decide

theorem eleven_dvd_mul {m n : Int} (divides : 11 ∣ m * n) : 11 ∣ m ∨ 11 ∣ n := by
  have sizes : 11 ∣ m.natAbs * n.natAbs := by
    rw [← Int.natAbs_mul]
    exact Int.natCast_dvd.mp divides
  rcases (Nat.Prime.dvd_mul Nat.prime_eleven).mp sizes with left | right
  · exact .inl (Int.natCast_dvd.mpr left)
  · exact .inr (Int.natCast_dvd.mpr right)

/-- Digits that agree modulo eleven are the same. -/
theorem digitInt_apart (first : isAsciiDigit a = true) (second : isAsciiDigit b = true)
    (different : a ≠ b) : ¬ (11 : Int) ∣ digitInt a - digitInt b := by
  have low := isAsciiDigit_iff.mp first
  have high := isAsciiDigit_iff.mp second
  unfold digitInt
  omega

/-- No id is another one misread. -/
theorem YTunnus.not_misread (first : YTunnus raw) (second : YTunnus other) : ¬ Misread raw other := by
  intro misread
  have difference : (11 : Int) ∣ businessIdSum raw - businessIdSum other :=
    Int.dvd_sub first.sum second.sum
  cases misread with
  | @replaced a b different front back =>
    have here := first.place (i := front.length) (c := a) (by simp)
    have there := second.place (i := front.length) (c := b) (by simp)
    by_cases hyphen : front.length = 7
    · rw [if_pos hyphen] at here there
      exact different (here.2.trans there.2.symm)
    · rw [if_neg hyphen] at here there
      rw [businessIdSum, businessIdSum, List.map_append, List.map_append, List.map_cons, List.map_cons,
        weighted_replaced, Nat.zero_add, List.length_map] at difference
      rcases eleven_dvd_mul difference with weight | digits
      · exact businessIdWeight_prime _ here.1 hyphen weight
      · exact digitInt_apart here.2 there.2 different digits
  | @exchanged a b different front middle back =>
    have here := first.place (i := front.length) (c := a) (by simp)
    have there := second.place (i := front.length) (c := b) (by simp)
    have far : front.length + 1 + middle.length < 9 := by
      have length := first.length
      simp only [List.length_append, List.length_cons] at length
      omega
    by_cases hyphen : front.length = 7
    · rw [if_pos hyphen] at here there
      exact different (here.2.trans there.2.symm)
    · rw [if_neg hyphen] at here there
      simp only [businessIdSum, List.map_append, List.map_cons, weighted_exchanged, Nat.zero_add,
        List.length_map] at difference
      rcases eleven_dvd_mul difference with weights | digits
      · exact businessIdWeight_apart _ here.1 _ far (by omega) weights
      · exact digitInt_apart here.2 there.2 different digits

section

variable {letters : Letters}

/-- An id of the right form matches the pattern. -/
theorem YTunnus.matched (id : YTunnus raw) : ∃ found, businessIdMatch letters raw = some found := by
  obtain ⟨a, b, c, d, e, f, g, h, small, rfl, _⟩ := id
  have decimal : ∀ digit ≤ 9, (letters.decimal (48 + digit)).isSome = true := by
    intro digit bound
    rw [letters.decimal_ascii _ (by omega), asciiDecimal_eq_some_iff.mpr ⟨by omega, rfl⟩]
    rfl
  simp only [List.forall_mem_cons] at small
  simp [businessIdMatch, decimal, small]

theorem seven_of_length {body : List α} (seven : body.length = 7) :
    ∃ a b c d e f g, body = [a, b, c, d, e, f, g] := by
  rcases body with _ | ⟨a, _ | ⟨b, _ | ⟨c, _ | ⟨d, _ | ⟨e, _ | ⟨f, _ | ⟨g, _ | ⟨h, rest⟩⟩⟩⟩⟩⟩⟩⟩
  case cons.cons.cons.cons.cons.cons.cons.nil => exact ⟨a, b, c, d, e, f, g, rfl⟩
  all_goals simp at seven

/-- A matched ASCII id with the right check digit is one with the right sum. -/
theorem businessIdRight_iff {raw : Text} (matched : businessIdMatch letters raw = some (body, check))
    (ascii : ∀ c ∈ raw, c < 128) : BusinessIdRight letters body check ↔ YTunnus raw := by
  obtain ⟨rfl, seven, decimal⟩ := businessIdMatch_some matched
  have digits : ∀ c ∈ check :: body, ∃ digit ≤ 9, c = 48 + digit := by
    intro c member
    have inside : c ∈ body ++ [45, check] := by
      rcases List.mem_cons.mp member with rfl | inside
      · simp
      · exact List.mem_append_left _ inside
    have range := isAsciiDigit_iff.mp (isPlain_of_decimal (decimal c member) (ascii c inside))
    exact ⟨c - 48, by omega, by omega⟩
  have value : ∀ digit ≤ 9, digitValue letters (48 + digit) = digit := by
    intro digit bound
    rw [digitValue_ascii (isAsciiDigit_iff.mpr (by omega))]
    omega
  obtain ⟨a, b, c, d, e, f, g, rfl⟩ := seven_of_length seven
  simp only [List.forall_mem_cons] at digits
  obtain ⟨⟨h, h_le, rfl⟩, ⟨a, a_le, rfl⟩, ⟨b, b_le, rfl⟩, ⟨c, c_le, rfl⟩, ⟨d, d_le, rfl⟩, ⟨e, e_le, rfl⟩,
    ⟨f, f_le, rfl⟩, ⟨g, g_le, rfl⟩, _⟩ := digits
  have total : businessIdTotal letters [48 + a, 48 + b, 48 + c, 48 + d, 48 + e, 48 + f, 48 + g] =
      7 * a + 9 * b + 10 * c + 5 * d + 8 * e + 4 * f + 2 * g := by
    simp only [businessIdTotal, businessIdWeights, List.zipWith_cons_cons, List.zipWith_nil_left,
      List.sum_cons, List.sum_nil, value, a_le, b_le, c_le, d_le, e_le, f_le, g_le]
    omega
  rw [BusinessIdRight, total, value h h_le]
  constructor
  · intro right
    refine ⟨a, b, c, d, e, f, g, h, ?_, rfl, by omega⟩
    simp only [List.forall_mem_cons]
    exact ⟨a_le, b_le, c_le, d_le, e_le, f_le, g_le, h_le, by simp⟩
  · intro ⟨a', b', c', d', e', f', g', h', _, same, divisible⟩
    simp only [List.cons_append, List.nil_append, List.cons.injEq] at same
    omega

theorem businessIdChecksum_yTunnus {value : Text} (ascii : ∀ c ∈ value, c < 128) :
    ∃ result, businessIdChecksum letters (some value) = .ok result ∧
      (result.passed = true ↔ YTunnus (strip value)) := by
  have small := strip_ascii ascii
  cases matched : businessIdMatch letters (strip (orEmpty (some value))) with
  | none =>
    obtain ⟨result, returned, rejected⟩ := businessIdChecksum_unmatched matched
    refine ⟨result, returned, iff_of_false (Bool.eq_false_iff.mp rejected) ?_⟩
    intro id
    obtain ⟨found, other⟩ := @YTunnus.matched letters _ id
    cases matched.symm.trans other
  | some found =>
    obtain ⟨body, check⟩ := found
    obtain ⟨result, returned, verdict⟩ := businessIdChecksum_verdict matched
    exact ⟨result, returned, verdict.trans (businessIdRight_iff matched small)⟩

end

/-- What `business_id_checksum` does with ASCII texts: it returns, it accepts exactly the
ids with the right sum, and no accepted id is another one with one digit replaced or
two digits exchanged. -/
theorem businessIdChecksum_distance (letters : Letters) {value other : Text}
    (ascii : ∀ c ∈ value, c < 128) (ascii' : ∀ c ∈ other, c < 128) :
    (∃ result, businessIdChecksum letters (some value) = .ok result ∧
      (result.passed = true ↔ YTunnus (strip value))) ∧
    (Accepts (businessIdChecksum letters (some value)) →
      Accepts (businessIdChecksum letters (some other)) → ¬ Misread (strip value) (strip other)) := by
  have first := @businessIdChecksum_yTunnus letters value ascii
  refine ⟨first, ?_⟩
  rintro ⟨result, returned, passed⟩ ⟨result', returned', passed'⟩
  obtain ⟨judged, same, verdict⟩ := first
  obtain ⟨judged', same', verdict'⟩ := @businessIdChecksum_yTunnus letters other ascii'
  cases returned.symm.trans same
  cases returned'.symm.trans same'
  exact (verdict.mp passed).not_misread (verdict'.mp passed')

/-- Two accepted ids, the first with blanks around it. -/
theorem businessIdChecksum_distance_kept :
    YTunnus (strip (text " 1234567-1 ")) ∧ ¬ Misread (strip (text " 1234567-1 ")) (strip (text "1503224-0")) := by
  have accepted : Accepts (businessIdChecksum asciiLetters (some (text " 1234567-1 "))) :=
    accepts_iff.mpr (by decide +kernel)
  have accepted' : Accepts (businessIdChecksum asciiLetters (some (text "1503224-0"))) :=
    accepts_iff.mpr (by decide +kernel)
  obtain ⟨⟨result, returned, verdict⟩, apart⟩ := @businessIdChecksum_distance asciiLetters
    (text " 1234567-1 ") (text "1503224-0") (by decide +kernel) (by decide +kernel)
  refine ⟨verdict.mp ?_, apart accepted accepted'⟩
  obtain ⟨other, same, passed⟩ := accepted
  cases returned.symm.trans same
  exact passed

end N8nSystems.Validators
