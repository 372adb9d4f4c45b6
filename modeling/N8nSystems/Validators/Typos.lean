import Mathlib.Algebra.Field.ZMod
import Mathlib.Tactic.NormNum.Prime
import N8nSystems.Lib.CheckNumber
import N8nSystems.Validators.PlainIdentifiers

/-! Typing errors in identifiers with a remainder modulo 97. -/

namespace N8nSystems.Validators

open Lib Lib.Py

/-- Two digits, or two capitals. -/
def SameKind (a b : Nat) : Prop :=
  isAsciiDigit a = true ∧ isAsciiDigit b = true ∨ isCapital a = true ∧ isCapital b = true

/-- One character is replaced by another of its kind, or two neighbours of one kind
are swapped. -/
def Typo : Text → Text → Prop := Slip fun a b => a ≠ b ∧ SameKind a b

/-- The characters of an identifier modulo 97: a capital takes two places. -/
def numerals97 : Positional Nat (ZMod 97) where
  base := 10
  width c := if isAsciiDigit c then 1 else 2
  value c := if isAsciiDigit c then (c - 48 : Nat) else (c - 55 : Nat)

instance prime97 : Fact (Nat.Prime 97) := ⟨by norm_num⟩

theorem isAsciiDigit_of_capital (capital : isCapital c = true) : isAsciiDigit c = false := by
  simp only [isCapital, Bool.and_eq_true, decide_eq_true_eq] at capital
  simp [isAsciiDigit]
  omega

theorem natCast_ne {first second : Nat} (different : first ≠ second) (small : first < 97)
    (small' : second < 97) : (first : ZMod 97) ≠ second := by
  rw [Ne, ZMod.natCast_eq_natCast_iff', Nat.mod_eq_of_lt small, Nat.mod_eq_of_lt small']
  exact different

theorem mistakable (kind : SameKind a b) (different : a ≠ b) : numerals97.Mistakable a b := by
  rcases kind with ⟨first, second⟩ | ⟨first, second⟩
  · have low := isAsciiDigit_iff.mp first
    have high := isAsciiDigit_iff.mp second
    simp only [Positional.Mistakable, numerals97, first, second, if_true, true_and]
    exact natCast_ne (by omega) (by omega) (by omega)
  · simp only [Positional.Mistakable, numerals97, isAsciiDigit_of_capital first,
      isAsciiDigit_of_capital second, Bool.false_eq_true, if_false, true_and]
    simp only [isCapital, Bool.and_eq_true, decide_eq_true_eq] at first second
    exact natCast_ne (by omega) (by omega) (by omega)

/-- Ten has order 96 modulo 97. -/
theorem ten_pow_ne_one {k : Nat} (positive : 1 ≤ k) (small : k < 96) : (10 : ZMod 97) ^ k ≠ 1 := by
  have every : ∀ k < 96, 1 ≤ k → 10 ^ k % 97 ≠ 1 := by decide
  intro one
  have cast : ((10 ^ k : Nat) : ZMod 97) = (1 : Nat) := by
    rw [Nat.cast_pow]
    exact_mod_cast one
  exact every k small positive ((ZMod.natCast_eq_natCast_iff' _ _ _).mp cast)

theorem places_le (value : Text) : numerals97.places value ≤ 2 * value.length := by
  induction value with
  | nil => exact Nat.le_refl _
  | cons c rest ih =>
    rw [Positional.places_cons, List.length_cons]
    have width : numerals97.width c ≤ 2 := by
      simp only [numerals97]
      split <;> omega
    omega

section

variable {letters : LatinLetters}

/-- The number of a plain identifier, read modulo 97. -/
theorem foldl_appended {value : Text} (plain : ∀ c ∈ value, isPlain c = true) (start : Nat) :
    ((value.foldl (appended letters.toLetters) start : Nat) : ZMod 97) =
      value.foldl numerals97.push start := by
  induction value generalizing start with
  | nil => rfl
  | cons c rest ih =>
    have here := plain c List.mem_cons_self
    have ascii := lt_of_isPlain here
    rw [List.foldl_cons, List.foldl_cons, ih fun other member => plain other (List.mem_cons_of_mem c member)]
    congr 1
    rw [appended, letters.isDigit_ascii c ascii, Positional.push]
    cases digit : isAsciiDigit c with
    | true =>
      simp only [numerals97, digit, digitValue_ascii digit, if_true, pow_one]
      push_cast
      ring
    | false =>
      simp only [numerals97, digit, Bool.false_eq_true, if_false]
      push_cast
      ring

theorem mod97Right_iff {compact : Text} (plain : ∀ c ∈ compact, isPlain c = true) :
    Mod97Right letters.toLetters compact ↔
      numerals97.number (compact.drop 4 ++ compact.take 4) = 1 := by
  have moved : ∀ c ∈ compact.drop 4 ++ compact.take 4, isPlain c = true :=
    fun c member => plain c (mem_rearranged.mp member)
  have number := @foldl_appended letters _ moved 0
  rw [Nat.cast_zero] at number
  rw [Positional.number, ← number, Mod97Right, rearranged]
  have one : (1 : ZMod 97) = (1 : Nat) := Nat.cast_one.symm
  rw [one, ZMod.natCast_eq_natCast_iff']

/-- A typing error in an identifier of at most 47 characters moves the remainder. -/
theorem mod97_typo {compact changed : Text} (plain : ∀ c ∈ compact, isPlain c = true)
    (plain' : ∀ c ∈ changed, isPlain c = true) (short : compact.length ≤ 47)
    (typo : Typo compact changed) (right : Mod97Right letters.toLetters compact) :
    ¬ Mod97Right letters.toLetters changed := by
  have slip : Slip numerals97.Mistakable compact changed :=
    typo.mono fun a _ b _ alike => mistakable alike.2 alike.1
  have differ := numerals97.number_ne_of_slip (slip.rotated 4) (by decide) ?wide ?order
  case wide =>
    intro c
    simp only [numerals97]
    split <;> omega
  case order =>
    intro k positive within
    have bound := places_le (compact.drop 4 ++ compact.take 4)
    have length : (compact.drop 4 ++ compact.take 4).length = compact.length := by
      simp only [List.length_append, List.length_drop, List.length_take]
      omega
    exact ten_pow_ne_one positive (by omega)
  intro right'
  rw [mod97Right_iff plain] at right
  rw [mod97Right_iff plain'] at right'
  exact differ (right.trans right'.symm)

/-- Every ASCII digit is decimal. -/
theorem digitsDecimal_ascii {value : Text} (ascii : ∀ c ∈ value, c < 128) :
    DigitsDecimal letters.toLetters value := by
  intro c member digit
  rw [letters.isDigit_ascii c (ascii c member)] at digit
  rw [letters.decimal_ascii c (ascii c member), asciiDecimal, if_pos digit]
  rfl

theorem plain_of_charset {value : Text} (ascii : ∀ c ∈ value, c < 128)
    (charset : Charset letters.toLetters value) : ∀ c ∈ value, isPlain c = true := by
  intro c member
  rcases charset c member with digit | capital
  · rw [letters.isDigit_ascii c (ascii c member)] at digit
    rw [isPlain, digit, Bool.true_or]
  · rw [isPlain, capital, Bool.or_true]

/-- A plain text is its own compact form. -/
theorem compact_plain {value : Text} (plain : ∀ c ∈ value, isPlain c = true) :
    strip value = value ∧ compact letters.toLetters value = value := by
  have ranges : ∀ c ∈ value, 48 ≤ c ∧ c ≤ 57 ∨ 65 ≤ c ∧ c ≤ 90 := by
    intro c member
    simpa [isPlain, isAsciiDigit, isCapital] using plain c member
  have solid : ∀ c ∈ value, isSpace c = false := by
    intro c member
    have range := ranges c member
    simp [isSpace]
    omega
  have kept : (value.filter fun c => !isSpace c) = value := by
    rw [List.filter_eq_self]
    intro c member
    rw [solid c member]
    rfl
  have unchanged : value.map upperAscii = value := by
    conv_rhs => rw [← List.map_id value]
    apply List.map_congr_left
    intro c member
    have range := ranges c member
    exact if_neg (by omega)
  refine ⟨trimmed_self solid, ?_⟩
  rw [compact, kept, letters.upper_ascii value fun c member => lt_of_isPlain (plain c member), unchanged]

/-- The compact form of an ASCII text is ASCII. -/
theorem compact_ascii {value : Text} (ascii : ∀ c ∈ value, c < 128) :
    ∀ c ∈ compact letters.toLetters (strip value), c < 128 := by
  have stripped : ∀ c ∈ (strip value).filter fun c => !isSpace c, c < 128 := by
    intro c member
    exact strip_ascii ascii c (List.mem_of_mem_filter member)
  rw [compact, letters.upper_ascii _ stripped]
  intro c member
  obtain ⟨original, inside, rfl⟩ := List.mem_map.mp member
  have small := stripped original inside
  unfold upperAscii
  split <;> omega

theorem Typo.plain {compact changed : Text} (typo : Typo compact changed)
    (plain : ∀ c ∈ compact, isPlain c = true) : ∀ c ∈ changed, isPlain c = true := by
  have kind {a b : Nat} (alike : SameKind a b) : isPlain b = true := by
    rcases alike with ⟨_, digit⟩ | ⟨_, capital⟩
    · rw [isPlain, digit, Bool.true_or]
    · rw [isPlain, capital, Bool.or_true]
  cases typo with
  | replaced alike front back =>
    intro c member
    rcases List.mem_append.mp member with before | rest
    · exact plain c (List.mem_append_left _ before)
    · rcases List.mem_cons.mp rest with rfl | after
      · exact kind alike.2
      · exact plain c (List.mem_append_right _ (List.mem_cons_of_mem _ after))
  | swapped alike front back =>
    intro c member
    apply plain c
    simp only [List.mem_append, List.mem_cons] at member ⊢
    tauto

/-- The validator accepts. -/
def Accepts (outcome : Except Failure RuleResult) : Prop :=
  ∃ result, outcome = .ok result ∧ result.passed = true

/-- The validator returns and rejects. -/
def Rejects (outcome : Except Failure RuleResult) : Prop :=
  ∃ result, outcome = .ok result ∧ result.passed = false

theorem Passes.rejects {outcome : Except Failure RuleResult} (passes : Passes outcome False) :
    Rejects outcome := by
  obtain ⟨result, returned, denied⟩ := passes
  exact ⟨result, returned, Bool.eq_false_iff.mpr denied⟩

theorem Passes.holds {outcome : Except Failure RuleResult} {property : Prop}
    (passes : Passes outcome property) (accepts : Accepts outcome) : property := by
  obtain ⟨result, returned, hence⟩ := passes
  obtain ⟨other, same, accepted⟩ := accepts
  cases returned.symm.trans same
  exact hence accepted

/-- What a typing error does to an identifier with the right remainder: the text is
still plain, and its remainder is wrong. -/
theorem Typo.wrong {compact changed : Text} (typo : Typo compact changed)
    (ascii : ∀ c ∈ compact, c < 128) (charset : Charset letters.toLetters compact)
    (short : compact.length ≤ 47) (right : Mod97Right letters.toLetters compact) :
    (∀ c ∈ changed, isPlain c = true) ∧ ¬ Mod97Right letters.toLetters changed := by
  have plain := plain_of_charset ascii charset
  exact ⟨typo.plain plain, mod97_typo plain (typo.plain plain) short typo right⟩

theorem iban_typo {value changed : Text} (ascii : ∀ c ∈ value, c < 128)
    (accepted : Accepts (ibanChecksum letters.toLetters (some value)))
    (typo : Typo (compact letters.toLetters (strip value)) changed) :
    Rejects (ibanChecksum letters.toLetters (some changed)) := by
  have small := @compact_ascii letters _ ascii
  have raw : strip (orEmpty (some value)) = strip value := rfl
  obtain ⟨shaped, charset, right⟩ :
      IbanShaped letters.toLetters (compact letters.toLetters (strip value)) ∧
        Charset letters.toLetters (compact letters.toLetters (strip value)) ∧
        Mod97Right letters.toLetters (compact letters.toLetters (strip value)) := by
    refine Passes.holds ((ibanChecksum_passes_iff letters.toLetters (some value) raw).mpr ?_) accepted
    intro _ shaped charset
    exact ⟨digitsDecimal_ascii small, fun right => ⟨shaped, charset, right⟩⟩
  have length := shaped.length.2
  obtain ⟨plain, wrong⟩ := typo.wrong small charset (by omega) right
  obtain ⟨stripped, unchanged⟩ := @compact_plain letters _ plain
  apply Passes.rejects
  rw [ibanChecksum_passes_iff letters.toLetters (some changed) stripped, unchanged]
  intro _ _ _
  exact ⟨digitsDecimal_ascii fun c member => lt_of_isPlain (plain c member), wrong⟩

/-- A typing error leaves a capital in a text with one. -/
theorem Typo.capital {compact changed : Text} (typo : Typo compact changed)
    (some_ : ∃ c ∈ compact, isCapital c = true) : ∃ c ∈ changed, isCapital c = true := by
  obtain ⟨c, member, capital⟩ := some_
  cases typo with
  | replaced alike front back =>
    rcases List.mem_append.mp member with before | rest
    · exact ⟨c, List.mem_append_left _ before, capital⟩
    · rcases List.mem_cons.mp rest with rfl | after
      · rcases alike.2 with ⟨digit, _⟩ | ⟨_, other⟩
        · rw [isAsciiDigit_of_capital capital] at digit
          cases digit
        · exact ⟨_, List.mem_append_right _ List.mem_cons_self, other⟩
      · exact ⟨c, List.mem_append_right _ (List.mem_cons_of_mem _ after), capital⟩
  | swapped alike front back =>
    refine ⟨c, ?_, capital⟩
    simp only [List.mem_append, List.mem_cons] at member ⊢
    tauto

/-- Every result of `_finnish_reference` gives its kind. -/
theorem finnishReference_kind {value : Text} {result : RuleResult}
    (returned : finnishReference letters.toLetters value = .ok result) :
    Json.lookup (text "kind") result.details = some (.string (text "finnish")) := by
  unfold finnishReference at returned
  dsimp only at returned
  split at returned
  · cases returned
    rfl
  · split at returned
    · cases returned
      rfl
    · obtain ⟨actual, _, later⟩ := bind_ok_iff.mp returned
      obtain ⟨expected, _, last⟩ := bind_ok_iff.mp later
      split at last
      · cases last
        rfl
      · cases last
        rfl

/-- A text with a capital is no Finnish reference. -/
theorem finnishReference_capital {value : Text} (plain : ∀ c ∈ value, isPlain c = true)
    (some_ : ∃ c ∈ value, isCapital c = true) : Rejects (finnishReference letters.toLetters value) := by
  obtain ⟨c, member, capital⟩ := some_
  have letter : letters.isDigit c = false := by
    rw [letters.isDigit_ascii c (lt_of_isPlain (plain c member)), isAsciiDigit_of_capital capital]
  have mixed : allOf letters.isDigit value = false := by
    simp only [allOf, Bool.and_eq_false_iff, List.all_eq_false]
    exact .inr ⟨c, member, by simp [letter]⟩
  unfold finnishReference
  rw [mixed]
  exact ⟨_, rfl, rfl⟩

/-- `reference_number` accepts, and says that the reference is an RF one. -/
def AcceptsRf (outcome : Except Failure RuleResult) : Prop :=
  ∃ result, outcome = .ok result ∧ result.passed = true ∧
    Json.lookup (text "kind") result.details = some (.string (text "rf"))

theorem rf_typo {value changed : Text} (ascii : ∀ c ∈ value, c < 128)
    (accepted : AcceptsRf (referenceNumber letters.toLetters (some value)))
    (typo : Typo (compact letters.toLetters (strip value)) changed) :
    Rejects (referenceNumber letters.toLetters (some changed)) := by
  have small := @compact_ascii letters _ ascii
  have raw : strip (orEmpty (some value)) = strip value := rfl
  obtain ⟨result, returned, passed, kind⟩ := accepted
  unfold referenceNumber at returned
  simp only [raw] at returned
  generalize compact letters.toLetters (strip value) = compacted at typo small returned
  split at returned
  · cases returned
    cases passed
  split at returned
  case isFalse =>
    rw [finnishReference_kind returned] at kind
    cases kind
  rename_i creditor
  obtain ⟨shaped, charset, right⟩ : RfShaped letters.toLetters compacted ∧
      Charset letters.toLetters compacted ∧ Mod97Right letters.toLetters compacted := by
    refine Passes.holds (rfReference_passes_iff.mpr ?_) ⟨result, returned, passed⟩
    intro shaped charset
    exact ⟨digitsDecimal_ascii small, fun right => ⟨shaped, charset, right⟩⟩
  have length := shaped.length.2
  obtain ⟨plain, wrong⟩ := typo.wrong small charset (by omega) right
  have capital : ∃ c ∈ compacted, isCapital c = true := by
    refine ⟨82, List.mem_of_mem_take (i := 2) ?_, rfl⟩
    rw [creditor]
    exact List.mem_cons_self
  obtain ⟨stripped, unchanged⟩ := @compact_plain letters _ plain
  have given : strip (orEmpty (some changed)) = changed := stripped
  unfold referenceNumber
  simp only [given, unchanged]
  split
  · exact ⟨_, rfl, rfl⟩
  split
  · refine Passes.rejects (rfReference_passes_iff.mpr fun _ _ => ?_)
    exact ⟨digitsDecimal_ascii fun c member => lt_of_isPlain (plain c member), wrong⟩
  · exact finnishReference_capital plain (typo.capital capital)

end

/-- Every typing error in the compact form of an accepted identifier, one character of
a kind for another or two neighbours of one kind swapped, is rejected. -/
theorem typos_rejected (letters : LatinLetters) {value changed : Text} (ascii : ∀ c ∈ value, c < 128)
    (typo : Typo (compact letters.toLetters (strip value)) changed) :
    (Accepts (ibanChecksum letters.toLetters (some value)) →
      Rejects (ibanChecksum letters.toLetters (some changed))) ∧
    (AcceptsRf (referenceNumber letters.toLetters (some value)) →
      Rejects (referenceNumber letters.toLetters (some changed))) :=
  ⟨fun accepted => iban_typo ascii accepted typo, fun accepted => rf_typo ascii accepted typo⟩

theorem accepts_iff {outcome : Except Failure RuleResult} :
    Accepts outcome ↔ outcome.toOption.any RuleResult.passed = true := by
  cases outcome with
  | error failure => simp [Accepts, Except.toOption]
  | ok result => simp [Accepts, Except.toOption]

/-- The last check digit and the digit behind it, which `_mod97` moves to opposite ends
of the number, are swapped. -/
theorem typos_rejected_across :
    Accepts (ibanChecksum asciiLetters (some (text "de89 3704 0044 0532 0130 00"))) ∧
      Rejects (ibanChecksum asciiLetters (some (text "DE83970400440532013000"))) := by
  have accepted : Accepts (ibanChecksum asciiLetters (some (text "de89 3704 0044 0532 0130 00"))) :=
    accepts_iff.mpr (by decide +kernel)
  have compacted : compact asciiLetters (strip (text "de89 3704 0044 0532 0130 00")) =
      text "DE8" ++ 57 :: 51 :: text "70400440532013000" := by decide +kernel
  have typo : Typo (compact asciiLetters (strip (text "de89 3704 0044 0532 0130 00")))
      (text "DE8" ++ 51 :: 57 :: text "70400440532013000") := by
    rw [compacted]
    exact .swapped ⟨by decide, .inl ⟨rfl, rfl⟩⟩ _ _
  exact ⟨accepted, (typos_rejected asciiLatin (by decide +kernel) typo).1 accepted⟩

end N8nSystems.Validators
