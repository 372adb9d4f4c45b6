import N8nSystems.Validators.Typos

/-! `iban_checksum` against the standard: what ISO 13616 says about the form of an
IBAN, and the remainder of ISO 7064 taken character by character. -/

namespace N8nSystems.Validators

open Lib Lib.Py

/-- The compact form of an ASCII text: no whitespace, and capitals for its letters. -/
def compactAscii (value : Text) : Text := (value.filter fun c => !isSpace c).map upperAscii

/-- One character of the ISO 7064 remainder: a digit takes one place, a capital two. -/
def iso7064Step (remainder c : Nat) : Nat :=
  if isAsciiDigit c then (10 * remainder + (c - 48)) % 97
  else (100 * remainder + (c - 55)) % 97

def iso7064 (value : Text) : Nat := value.foldl iso7064Step 0

/-- An IBAN in its compact form. -/
structure Iso13616 (compact : Text) : Prop where
  length : 15 ≤ compact.length ∧ compact.length ≤ 34
  country : ∀ c ∈ compact.take 2, isCapital c = true
  check : ∀ c ∈ (compact.drop 2).take 2, isAsciiDigit c = true
  account : ∀ c ∈ compact.drop 4, isPlain c = true
  finnish : compact.take 2 = text "FI" → compact.length = 18
  remainder : iso7064 (compact.drop 4 ++ compact.take 4) = 1

theorem Iso13616.plain {compact : Text} (standard : Iso13616 compact) :
    ∀ c ∈ compact, isPlain c = true := by
  intro c member
  rw [← List.take_append_drop 2 compact, ← List.take_append_drop 2 (compact.drop 2),
    List.drop_drop, List.mem_append, List.mem_append] at member
  rcases member with country | check | account
  · rw [isPlain, standard.country c country, Bool.or_true]
  · rw [isPlain, standard.check c check, Bool.true_or]
  · exact standard.account c account

/-- A validator that returns accepts what it does not reject. -/
theorem accepts_iff_of_passes {outcome : Except Failure RuleResult} {property : Prop}
    (returns : Passes outcome True) (denied : Passes outcome False ↔ ¬ property) :
    ∃ result, outcome = .ok result ∧ (result.passed = true ↔ property) := by
  obtain ⟨result, rfl, _⟩ := returns
  refine ⟨result, rfl, ?_⟩
  rw [passes_ok_iff] at denied
  exact not_iff_not.mp denied

section

variable {letters : LatinLetters}

theorem compact_strip {value : Text} (ascii : ∀ c ∈ value, c < 128) :
    compact letters.toLetters (strip value) = compactAscii value := by
  obtain ⟨left, right, parts, before, behind⟩ := strip_parts value
  have blank {side : Text} (spaces : ∀ c ∈ side, isSpace c = true) :
      side.filter (fun c => !isSpace c) = [] := by
    rw [List.filter_eq_nil_iff]
    intro c member
    simp [spaces c member]
  have same : (strip value).filter (fun c => !isSpace c) = value.filter fun c => !isSpace c := by
    conv_rhs => rw [parts]
    rw [List.filter_append, List.filter_append, blank before, blank behind, List.nil_append, List.append_nil]
  rw [compact, same, compactAscii]
  exact letters.upper_ascii _ fun c member => ascii c (List.mem_of_mem_filter member)

/-- The remainder taken step by step is the remainder of the whole number. -/
theorem foldl_iso7064Step {value : Text} (plain : ∀ c ∈ value, isPlain c = true) (number : Nat) :
    value.foldl iso7064Step (number % 97) = value.foldl (appended letters.toLetters) number % 97 := by
  induction value generalizing number with
  | nil => rfl
  | cons c rest ih =>
    have ascii := lt_of_isPlain (plain c List.mem_cons_self)
    have step : iso7064Step (number % 97) c = appended letters.toLetters number c % 97 := by
      rw [iso7064Step, appended, letters.isDigit_ascii c ascii]
      cases digit : isAsciiDigit c with
      | true =>
        simp only [if_true, digitValue_ascii digit]
        omega
      | false =>
        simp only [Bool.false_eq_true, if_false]
        omega
    rw [List.foldl_cons, List.foldl_cons, step]
    exact ih (fun other member => plain other (List.mem_cons_of_mem c member)) _

theorem mod97Right_iff_iso7064 {compact : Text} (plain : ∀ c ∈ compact, isPlain c = true) :
    Mod97Right letters.toLetters compact ↔ iso7064 (compact.drop 4 ++ compact.take 4) = 1 := by
  have moved : ∀ c ∈ compact.drop 4 ++ compact.take 4, isPlain c = true :=
    fun c member => plain c (mem_rearranged.mp member)
  rw [Mod97Right, rearranged, ← foldl_iso7064Step moved]
  rfl

theorem allOf_congr {test other : Nat → Bool} {value : Text} (nonempty : value ≠ [])
    (same : ∀ c ∈ value, test c = other c) :
    allOf test value = true ↔ ∀ c ∈ value, other c = true := by
  have filled : (!value.isEmpty) = true := by simpa using nonempty
  rw [allOf, filled, Bool.true_and, List.all_eq_true]
  exact forall₂_congr fun c member => by rw [same c member]

/-- A letter of an upper-case ASCII text is a capital. -/
theorem isAlpha_upperAscii (ascii : c < 128) : letters.isAlpha (upperAscii c) = isCapital (upperAscii c) := by
  have small : upperAscii c < 128 := by
    unfold upperAscii
    split <;> omega
  rw [letters.isAlpha_ascii _ small, isCapital]
  have upper : ¬ (97 ≤ upperAscii c ∧ upperAscii c ≤ 122) := by
    unfold upperAscii
    split <;> omega
  have lower : (97 ≤ upperAscii c && upperAscii c ≤ 122 : Bool) = false := by
    simpa using upper
  rw [lower, Bool.or_false]

/-- The four checks of `iban_checksum` and the charset of `_mod97` are the standard. -/
theorem iso13616_iff {value : Text} (ascii : ∀ c ∈ value, c < 128) :
    Iso13616 (compactAscii value) ↔ IbanShaped letters.toLetters (compactAscii value) ∧
      Charset letters.toLetters (compactAscii value) ∧ Mod97Right letters.toLetters (compactAscii value) := by
  have small : ∀ c ∈ compactAscii value, c < 128 := by
    rw [← @compact_strip letters _ ascii]
    exact compact_ascii ascii
  have alpha : ∀ c ∈ compactAscii value, letters.isAlpha c = isCapital c := by
    intro c member
    obtain ⟨original, inside, rfl⟩ := List.mem_map.mp member
    exact isAlpha_upperAscii (ascii original (List.mem_of_mem_filter inside))
  generalize compactAscii value = compacted at small alpha
  have digit : ∀ c ∈ compacted, letters.isDigit c = isAsciiDigit c :=
    fun c member => letters.isDigit_ascii c (small c member)
  have country (long : 15 ≤ compacted.length) : allOf letters.isAlpha (compacted.take 2) = true ↔
      ∀ c ∈ compacted.take 2, isCapital c = true := by
    refine allOf_congr ?_ fun c member => alpha c (List.mem_of_mem_take member)
    rw [Ne, List.take_eq_nil_iff, ← List.length_eq_zero_iff]
    omega
  have check (long : 15 ≤ compacted.length) :
      allOf letters.isDigit ((compacted.drop 2).take 2) = true ↔
        ∀ c ∈ (compacted.drop 2).take 2, isAsciiDigit c = true := by
    refine allOf_congr ?_ fun c member => digit c (List.mem_of_mem_drop (List.mem_of_mem_take member))
    rw [Ne, List.take_eq_nil_iff, ← List.length_eq_zero_iff, List.length_drop]
    omega
  constructor
  · intro standard
    have long := standard.length.1
    have plain := standard.plain
    refine ⟨⟨standard.length, (country long).mpr standard.country, (check long).mpr standard.check,
      standard.finnish⟩, ?_, (mod97Right_iff_iso7064 plain).mpr standard.remainder⟩
    intro c member
    rw [digit c member]
    simpa [isPlain] using plain c member
  · rintro ⟨shaped, charset, right⟩
    have long := shaped.length.1
    have plain := plain_of_charset small charset
    exact ⟨shaped.length, (country long).mp shaped.country, (check long).mp shaped.check,
      fun c member => plain c (List.mem_of_mem_drop member), shaped.finnish,
      (mod97Right_iff_iso7064 plain).mp right⟩

end

/-- `iban_checksum` returns on every ASCII text, and passes exactly the IBANs of the
standard. -/
theorem ibanChecksum_iso13616 (letters : LatinLetters) {value : Text} (ascii : ∀ c ∈ value, c < 128) :
    ∃ result, ibanChecksum letters.toLetters (some value) = .ok result ∧
      (result.passed = true ↔ Iso13616 (compactAscii value)) := by
  have compacted := @compact_strip letters _ ascii
  have raw : strip (orEmpty (some value)) = strip value := rfl
  have decimal : DigitsDecimal letters.toLetters (compactAscii value) := by
    rw [← compacted]
    exact digitsDecimal_ascii (compact_ascii ascii)
  apply accepts_iff_of_passes
  · rw [ibanChecksum_passes_iff letters.toLetters _ raw, compacted]
    exact fun _ _ _ => ⟨decimal, fun _ => trivial⟩
  · rw [ibanChecksum_passes_iff letters.toLetters _ raw, compacted, @iso13616_iff letters _ ascii]
    constructor
    · rintro denied ⟨shaped, charset, right⟩
      refine (denied ?_ shaped charset).2 right
      -- An empty text has an empty compact form, which is too short.
      intro empty
      have short := shaped.length.1
      rw [← compacted, empty, compact, List.filter_nil, letters.upper_ascii [] (by simp)] at short
      simp at short
    · intro other _ shaped charset
      exact ⟨decimal, fun right => other ⟨shaped, charset, right⟩⟩

/-- A Finnish IBAN in small letters and groups of four. -/
theorem ibanChecksum_iso13616_finnish :
    Iso13616 (compactAscii (text "fi21 1234 5600 0007 85")) ∧
      Accepts (ibanChecksum asciiLetters (some (text "fi21 1234 5600 0007 85"))) := by
  obtain ⟨result, returned, verdict⟩ :=
    @ibanChecksum_iso13616 asciiLatin (text "fi21 1234 5600 0007 85") (by decide +kernel)
  have accepted : Accepts (ibanChecksum asciiLetters (some (text "fi21 1234 5600 0007 85"))) :=
    accepts_iff.mpr (by decide +kernel)
  refine ⟨verdict.mp ?_, accepted⟩
  obtain ⟨other, same, passed⟩ := accepted
  cases returned.symm.trans same
  exact passed

end N8nSystems.Validators
