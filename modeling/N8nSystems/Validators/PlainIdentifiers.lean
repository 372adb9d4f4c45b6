import N8nSystems.Validators.Identifiers

/-! Which identifiers the validators can be asked about: `str.isdigit` and `\d` know
digits that are not ASCII, and `int` reads some of those and refuses the others. -/

namespace N8nSystems.Validators

open Lib Lib.Py

section

variable (letters : Letters)

/-- The value of a decimal digit of any script. -/
def digitValue (c : Nat) : Nat := (letters.decimal c).getD 0

def businessIdTotal (body : Text) : Nat :=
  (List.zipWith (fun c weight => digitValue letters c * weight) body businessIdWeights).sum

/-- The check digit is the one of the weighted sum; no check digit fits the remainder one. -/
def BusinessIdRight (body : Text) (check : Nat) : Prop :=
  businessIdTotal letters body % 11 ≠ 1 ∧
    digitValue letters check = (11 - businessIdTotal letters body % 11) % 11

/-- The number read so far, with the next character: two places for a capital. -/
def appended (value c : Nat) : Nat :=
  if letters.isDigit c then 10 * value + digitValue letters c else 100 * value + (c - 55)

/-- The number that an identifier spells with its first four characters moved to the end. -/
def rearranged (compact : Text) : Nat :=
  (compact.drop 4 ++ compact.take 4).foldl (appended letters) 0

def Mod97Right (compact : Text) : Prop := rearranged letters compact % 97 = 1

/-- The sum of the digits with the weights 7, 3 and 1 in turn. -/
def referenceTotal : Nat → Text → Nat
  | _, [] => 0
  | index, c :: rest =>
    digitValue letters c * [7, 3, 1].getD (index % 3) 0 + referenceTotal (index + 1) rest

def ReferenceRight (compact : Text) : Prop :=
  digitValue letters (compact.getLastD 0) =
    (10 - referenceTotal letters 0 compact.dropLast.reverse % 10) % 10

end

variable {letters : Letters}

theorem digitValue_eq (read : letters.decimal c = some digit) : digitValue letters c = digit := by
  rw [digitValue, read, Option.getD_some]

theorem digitValue_ascii (digit : isAsciiDigit c = true) : digitValue letters c = c - 48 := by
  have range := isAsciiDigit_iff.mp digit
  rw [digitValue, letters.decimal_ascii c (by omega), asciiDecimal, if_pos digit, Option.getD_some]

/-- `int(c)` is the digit's value, and it raises for every other character. -/
theorem intOf_eq (c : Nat) : intOf letters c =
    if (letters.decimal c).isSome then .ok (digitValue letters c)
    else .error (.value .invalidLiteral) := by
  unfold intOf parseInt
  cases read : letters.decimal c with
  | none =>
    rw [mapM_eq_none_iff.mpr ⟨c, List.mem_singleton_self c, read⟩]
    rfl
  | some digit =>
    have whole : [c].mapM letters.decimal = some [digit] := mapM_eq_some_iff.mpr (by simp [read])
    rw [whole, digitValue_eq read]
    simp [intMaxStrDigits, spelled, Except.mapError]

theorem intOf_decimal (read : (letters.decimal c).isSome) :
    intOf letters c = .ok (digitValue letters c) := by
  rw [intOf_eq, if_pos read]

/-- The weighted sum of decimal digits. -/
theorem weightedSum_decimal (read : ∀ c ∈ body, (letters.decimal c).isSome) (weights : List Nat) :
    weightedSum letters body weights =
      .ok (List.zipWith (fun c weight => digitValue letters c * weight) body weights).sum := by
  induction body generalizing weights with
  | nil => rfl
  | cons c rest ih =>
    cases weights with
    | nil => rfl
    | cons weight weights =>
      have here := intOf_decimal (read c List.mem_cons_self)
      have there := ih (fun other member => read other (List.mem_cons_of_mem c member)) weights
      rw [weightedSum, here, there]
      rfl

/-- The loop over a reference ends with the weighted sum when every character is
a decimal digit, and raises otherwise. -/
theorem finnishTotal_eq (index : Nat) (body : Text) : finnishTotal letters index body =
    if ∀ c ∈ body, (letters.decimal c).isSome then .ok (referenceTotal letters index body)
    else .error (.value .invalidLiteral) := by
  induction body generalizing index with
  | nil => simp [finnishTotal, referenceTotal]
  | cons c rest ih =>
    rw [finnishTotal, intOf_eq, ih, referenceTotal]
    simp only [List.forall_mem_cons]
    by_cases here : (letters.decimal c).isSome
    · by_cases there : ∀ c ∈ rest, (letters.decimal c).isSome
      · rw [if_pos here, if_pos there, if_pos ⟨here, there⟩]
        rfl
      · rw [if_pos here, if_neg there, if_neg (not_and_of_not_right _ there)]
        rfl
    · rw [if_neg here, if_neg (not_and_of_not_left _ here)]
      rfl

/-- A capital stands for the two digits of its number. -/
theorem digits_capital (capital : isCapital c = true) :
    (Decimal.digits (c - 55)).mapM asciiDecimal = some [(c - 55) / 10, (c - 55) % 10] := by
  simp only [isCapital, Bool.and_eq_true, decide_eq_true_eq] at capital
  obtain ⟨low, high⟩ := capital
  have every : ∀ n < 26, (Decimal.digits (n + 10)).mapM asciiDecimal =
      some [(n + 10) / 10, (n + 10) % 10] := by decide
  have here := every (c - 65) (by omega)
  rwa [show c - 65 + 10 = c - 55 by omega] at here

theorem mapM_decimal_ascii (letters : Letters) {value digits : List Nat}
    (ascii : value.mapM asciiDecimal = some digits) :
    value.mapM letters.decimal = some digits := by
  rw [mapM_eq_some_iff] at ascii ⊢
  rw [← ascii]
  apply List.map_congr_left
  intro c member
  have read : asciiDecimal c ∈ digits.map some := by
    rw [← ascii]
    exact List.mem_map_of_mem member
  obtain ⟨digit, _, same⟩ := List.mem_map.mp read
  obtain ⟨small, rfl⟩ := asciiDecimal_eq_some_iff.mp same.symm
  exact letters.decimal_ascii _ (by omega)

theorem mod97Digits_eq_none_iff : mod97Digits letters value = none ↔
    ∃ c ∈ value, letters.isDigit c = false ∧ isCapital c = false := by
  induction value with
  | nil => simp [mod97Digits]
  | cons c rest ih =>
    rw [mod97Digits]
    by_cases digit : letters.isDigit c = true
    · simp [digit, ih]
    · by_cases capital : isCapital c = true <;> simp [digit, capital, ih]

theorem length_mod97Digits (collected : mod97Digits letters value = some digits) :
    digits.length ≤ 2 * value.length := by
  induction value generalizing digits with
  | nil =>
    cases collected
    exact Nat.le_refl _
  | cons c rest ih =>
    rw [mod97Digits] at collected
    split at collected
    · obtain ⟨others, there, rfl⟩ := Option.map_eq_some_iff.mp collected
      have shorter := ih there
      simp only [List.length_cons]
      omega
    · split at collected
      · rename_i capital
        obtain ⟨others, there, rfl⟩ := Option.map_eq_some_iff.mp collected
        have two := congrArg List.length (mapM_eq_some_iff.mp (digits_capital capital))
        simp only [List.length_map, List.length_cons, List.length_nil] at two
        have shorter := ih there
        simp only [List.length_cons, List.length_append]
        omega
      · cases collected

/-- The digits that `_mod97` collects from decimal digits and capitals spell the
number of the identifier. -/
theorem mod97Digits_spelled (collected : mod97Digits letters value = some digits)
    (read : ∀ c ∈ value, letters.isDigit c = true → (letters.decimal c).isSome) :
    ∃ values, digits.mapM letters.decimal = some values ∧ ∀ start,
      values.foldl (fun number digit => 10 * number + digit) start =
        value.foldl (appended letters) start := by
  induction value generalizing digits with
  | nil =>
    cases collected
    exact ⟨[], rfl, fun _ => rfl⟩
  | cons c rest ih =>
    have later := fun other member => read other (List.mem_cons_of_mem c member)
    rw [mod97Digits] at collected
    split at collected
    · rename_i digit
      obtain ⟨others, there, rfl⟩ := Option.map_eq_some_iff.mp collected
      obtain ⟨values, whole, folded⟩ := ih there later
      obtain ⟨first, here⟩ := Option.isSome_iff_exists.mp (read c List.mem_cons_self digit)
      refine ⟨first :: values, ?_, ?_⟩
      · rw [mapM_eq_some_iff] at whole ⊢
        rw [List.map_cons, List.map_cons, here, whole]
      · intro start
        rw [List.foldl_cons, List.foldl_cons, folded, appended, if_pos digit, digitValue_eq here]
    · rename_i letter
      split at collected
      · rename_i capital
        obtain ⟨others, there, rfl⟩ := Option.map_eq_some_iff.mp collected
        obtain ⟨values, whole, folded⟩ := ih there later
        have here := mapM_decimal_ascii letters (digits_capital capital)
        refine ⟨[(c - 55) / 10, (c - 55) % 10] ++ values, ?_, ?_⟩
        · rw [mapM_eq_some_iff] at whole here ⊢
          rw [List.map_append, List.map_append, here, whole]
        · intro start
          have two : 10 * (10 * start + (c - 55) / 10) + (c - 55) % 10 = 100 * start + (c - 55) := by
            omega
          rw [List.foldl_append, List.foldl_cons, List.foldl_cons, List.foldl_nil, folded,
            List.foldl_cons, appended, if_neg letter, two]
      · cases collected

/-- A digit of the identifier that is no decimal digit is one of the collected digits. -/
theorem mem_mod97Digits (collected : mod97Digits letters value = some digits) (member : c ∈ value)
    (digit : letters.isDigit c = true) : c ∈ digits := by
  induction value generalizing digits with
  | nil => cases member
  | cons first rest ih =>
    rw [mod97Digits] at collected
    split at collected
    · obtain ⟨others, there, rfl⟩ := Option.map_eq_some_iff.mp collected
      rcases List.mem_cons.mp member with rfl | later
      · exact List.mem_cons_self
      · exact List.mem_cons_of_mem _ (ih there later)
    · rename_i letter
      split at collected
      · obtain ⟨others, there, rfl⟩ := Option.map_eq_some_iff.mp collected
        rcases List.mem_cons.mp member with rfl | later
        · exact absurd digit letter
        · exact List.mem_append_right _ (ih there later)
      · cases collected

theorem mem_rearranged {compact : Text} : c ∈ compact.drop 4 ++ compact.take 4 ↔ c ∈ compact := by
  rw [List.mem_append, or_comm, ← List.mem_append, List.take_append_drop]

/-- The charset of `_mod97`. -/
def Charset (letters : Letters) (compact : Text) : Prop :=
  ∀ c ∈ compact, letters.isDigit c = true ∨ isCapital c = true

instance (letters : Letters) (compact : Text) : Decidable (Charset letters compact) :=
  inferInstanceAs (Decidable (∀ c ∈ compact, letters.isDigit c = true ∨ isCapital c = true))

/-- Every digit of the identifier is a decimal digit. -/
def DigitsDecimal (letters : Letters) (compact : Text) : Prop :=
  ∀ c ∈ compact, letters.isDigit c = true → (letters.decimal c).isSome

instance (letters : Letters) (compact : Text) : Decidable (DigitsDecimal letters compact) :=
  inferInstanceAs (Decidable (∀ c ∈ compact, letters.isDigit c = true → (letters.decimal c).isSome))

/-- What `_mod97` comes to: below zero outside its charset, an exception for a
digit that is not decimal, and the remainder of the number otherwise. -/
theorem mod97_eq {compact : Text} (short : 2 * compact.length ≤ intMaxStrDigits) :
    mod97 letters compact =
    if Charset letters compact then
      if DigitsDecimal letters compact then .ok (rearranged letters compact % 97 : Nat)
      else .error (.value .invalidLiteral)
    else .ok (-1) := by
  unfold mod97
  cases collected : mod97Digits letters (compact.drop 4 ++ compact.take 4) with
  | none =>
    obtain ⟨c, member, noDigit, noCapital⟩ := mod97Digits_eq_none_iff.mp collected
    rw [if_neg]
    intro charset
    simpa [noDigit, noCapital] using charset c (mem_rearranged.mp member)
  | some digits =>
    have charset : Charset letters compact := by
      intro c member
      by_contra outside
      simp only [not_or, Bool.not_eq_true] at outside
      rw [mod97Digits_eq_none_iff.mpr ⟨c, mem_rearranged.mpr member, outside⟩] at collected
      cases collected
    rw [if_pos charset]
    by_cases decimal : DigitsDecimal letters compact
    · obtain ⟨values, whole, folded⟩ := mod97Digits_spelled collected
        fun c member => decimal c (mem_rearranged.mp member)
      have bound := length_mod97Digits collected
      simp only [List.length_append, List.length_drop, List.length_take] at bound
      have read : parseInt letters.toUnicode digits = .ok (rearranged letters compact) :=
        parseInt_ok_iff.mpr ⟨values, whole, by omega, folded 0⟩
      simp only [if_pos decimal, read]
      rfl
    · rw [if_neg decimal]
      simp only [DigitsDecimal, not_forall] at decimal
      obtain ⟨c, member, digit, unread⟩ := decimal
      have failed : digits.mapM letters.decimal = none := mapM_eq_none_iff.mpr
        ⟨c, mem_mod97Digits collected (mem_rearranged.mpr member) digit, by simpa using unread⟩
      simp only [parseInt, failed]
      rfl

/-- A validator returns, and what it passes has the property. -/
def Passes (outcome : Except Failure RuleResult) (property : Prop) : Prop :=
  ∃ result, outcome = .ok result ∧ (result.passed = true → property)

theorem passes_failed {rule field reason : String} {details : List (Text × Json)} {property : Prop} :
    Passes (.ok (failed rule field reason details)) property :=
  ⟨_, rfl, fun accepted => by cases accepted⟩

theorem passes_ok_iff : Passes (.ok result) property ↔ (result.passed = true → property) := by
  unfold Passes
  simp

theorem passes_ite_failed {condition : Prop} [Decidable condition] {rule field reason : String}
    {details : List (Text × Json)} {outcome : Except Failure RuleResult} {property : Prop} :
    Passes (if condition then .ok (failed rule field reason details) else outcome) property ↔
      (¬ condition → Passes outcome property) := by
  by_cases holds : condition
  · simp [holds, passes_failed]
  · simp [holds]

/-- An ASCII digit or an ASCII capital. -/
def isPlain (c : Nat) : Bool := isAsciiDigit c || isCapital c

theorem isPlain_of_decimal (read : (letters.decimal c).isSome) (ascii : c < 128) :
    isAsciiDigit c = true := by
  rw [letters.decimal_ascii c ascii, asciiDecimal] at read
  by_contra other
  rw [if_neg other] at read
  cases read

theorem lt_of_isPlain (plain : isPlain c = true) : c < 128 := by
  simp [isPlain, isAsciiDigit, isCapital] at plain
  omega

/-- The digits of an identifier are ASCII digits. -/
def DigitsAscii (letters : Letters) (compact : Text) : Prop :=
  ∀ c ∈ compact, letters.isDigit c = true → c < 128

/-- In the charset, with decimal digits, only a digit can fail to be plain. -/
theorem plain_iff_digitsAscii (charset : Charset letters value) (decimal : DigitsDecimal letters value) :
    (∀ c ∈ value, isPlain c = true) ↔ DigitsAscii letters value := by
  constructor
  · intro plain c member digit
    exact lt_of_isPlain (plain c member)
  · intro ascii c member
    rcases charset c member with digit | capital
    · rw [isPlain, isPlain_of_decimal (decimal c member digit) (ascii c member digit), Bool.true_or]
    · rw [isPlain, capital, Bool.or_true]

/-- What the digits of an identifier have to be for the sum over it: `int` reads
them all, and those of an identifier with the right sum are ASCII digits. -/
def DigitsRead (letters : Letters) (value : Text) (right : Prop) : Prop :=
  DigitsDecimal letters value ∧ (right → DigitsAscii letters value)

theorem digitsRead_iff {right : Prop} (charset : Charset letters value) :
    DigitsDecimal letters value ∧ (right → ∀ c ∈ value, isPlain c = true) ↔
      DigitsRead letters value right := by
  refine and_congr_right fun decimal => ?_
  rw [plain_iff_digitsAscii charset decimal]

/-- The end of `iban_checksum` and `_rf_reference`. -/
theorem passes_mod97_iff {property : Prop} (short : 2 * value.length ≤ intMaxStrDigits)
    (judged : ∀ remainder : Int, ∃ result, next remainder = .ok result ∧
      (result.passed = true ↔ remainder = 1)) :
    Passes (mod97 letters value >>= next) property ↔
      (Charset letters value → DigitsDecimal letters value ∧ (Mod97Right letters value → property)) := by
  rw [mod97_eq short]
  by_cases charset : Charset letters value
  · rw [if_pos charset]
    by_cases decimal : DigitsDecimal letters value
    · rw [if_pos decimal]
      obtain ⟨result, returned, verdict⟩ := judged (rearranged letters value % 97 : Nat)
      change Passes (next _) _ ↔ _
      rw [returned, passes_ok_iff, verdict]
      simp only [charset, decimal, true_and, forall_const, Mod97Right]
      norm_cast
    · rw [if_neg decimal]
      constructor
      · rintro ⟨result, raised, _⟩
        cases raised
      · intro read
        exact absurd (read charset).1 decimal
  · rw [if_neg charset]
    obtain ⟨result, returned, verdict⟩ := judged (-1)
    refine iff_of_true ⟨result, returned, ?_⟩ fun holds => absurd holds charset
    intro accepted
    exact absurd (verdict.mp accepted) (by decide)

/-- What `iban_checksum` has checked before the remainder. -/
structure IbanShaped (letters : Letters) (compact : Text) : Prop where
  length : 15 ≤ compact.length ∧ compact.length ≤ 34
  country : allOf letters.isAlpha (compact.take 2) = true
  check : allOf letters.isDigit ((compact.drop 2).take 2) = true
  finnish : compact.take 2 = text "FI" → compact.length = 18

theorem IbanShaped.short (shaped : IbanShaped letters value) :
    2 * value.length ≤ intMaxStrDigits := by
  have bound := shaped.length.2
  simp only [intMaxStrDigits]
  omega

/-- The three results at the end of `iban_checksum` and `_rf_reference`. -/
theorem judged_remainder {charset accepted : RuleResult} {checksum : Int → RuleResult}
    (first : charset.passed = false) (second : ∀ remainder, (checksum remainder).passed = false)
    (third : accepted.passed = true) (remainder : Int) : ∃ result,
      (if remainder < 0 then pure charset else if remainder ≠ 1 then pure (checksum remainder)
        else pure accepted : Except Failure RuleResult) = .ok result ∧
      (result.passed = true ↔ remainder = 1) := by
  by_cases negative : remainder < 0
  · rw [if_pos negative]
    refine ⟨charset, rfl, ?_⟩
    simp only [first, Bool.false_eq_true, false_iff]
    omega
  · rw [if_neg negative]
    by_cases other : remainder ≠ 1
    · rw [if_pos other]
      refine ⟨checksum remainder, rfl, ?_⟩
      simp [second, other]
    · rw [if_neg other]
      refine ⟨accepted, rfl, ?_⟩
      simp [third, not_not.mp other]

theorem ibanChecksum_passes_iff (letters : Letters) (value : Option Text) {raw : Text}
    (stripped : strip (orEmpty value) = raw) {property : Prop} :
    Passes (ibanChecksum letters value) property ↔
      (raw ≠ [] → IbanShaped letters (compact letters raw) → Charset letters (compact letters raw) →
        DigitsDecimal letters (compact letters raw) ∧
          (Mod97Right letters (compact letters raw) → property)) := by
  unfold ibanChecksum
  simp only [stripped, passes_ite_failed]
  generalize compact letters raw = value
  constructor
  · intro passes nonempty shaped
    refine (passes_mod97_iff shaped.short ?_).mp (passes nonempty ?_ ?_ ?_)
    · exact judged_remainder rfl (fun _ => rfl) rfl
    · have length := shaped.length
      omega
    · simp [shaped.country, shaped.check]
    · intro ⟨finnish, other⟩
      exact other (shaped.finnish finnish)
  · intro read nonempty length format finnish
    simp only [not_or, not_lt, Bool.or_eq_true, Bool.not_eq_true', Bool.not_eq_false] at length format
    have shaped : IbanShaped letters value :=
      ⟨length, format.1, format.2, fun country => not_not.mp fun other => finnish ⟨country, other⟩⟩
    exact (passes_mod97_iff shaped.short (judged_remainder rfl (fun _ => rfl) rfl)).mpr
      (read nonempty shaped)

/-- What `_rf_reference` has checked before the remainder. -/
structure RfShaped (letters : Letters) (compact : Text) : Prop where
  length : 5 ≤ compact.length ∧ compact.length ≤ 25
  check : allOf letters.isDigit ((compact.drop 2).take 2) = true
  payload : allOf letters.isAlnum (compact.drop 4) = true

theorem RfShaped.short (shaped : RfShaped letters value) : 2 * value.length ≤ intMaxStrDigits := by
  have bound := shaped.length.2
  simp only [intMaxStrDigits]
  omega

theorem rfReference_passes_iff {property : Prop} :
    Passes (rfReference letters value) property ↔
      (RfShaped letters value → Charset letters value →
        DigitsDecimal letters value ∧ (Mod97Right letters value → property)) := by
  unfold rfReference
  simp only [passes_ite_failed]
  constructor
  · intro passes shaped
    refine (passes_mod97_iff shaped.short ?_).mp (passes ?_ ?_ ?_)
    · exact judged_remainder rfl (fun _ => rfl) rfl
    · have length := shaped.length
      omega
    · simp [shaped.check]
    · simp [shaped.payload]
  · intro read length check payload
    simp only [not_or, not_lt, Bool.not_eq_true', Bool.not_eq_false] at length check payload
    have shaped : RfShaped letters value := ⟨length, check, payload⟩
    exact (passes_mod97_iff shaped.short (judged_remainder rfl (fun _ => rfl) rfl)).mpr (read shaped)

/-- What `_finnish_reference` has checked before the check digit. -/
structure FinnishShaped (letters : Letters) (compact : Text) : Prop where
  digits : allOf letters.isDigit compact = true
  length : 4 ≤ compact.length ∧ compact.length ≤ 20

theorem FinnishShaped.charset (shaped : FinnishShaped letters value) : Charset letters value := by
  intro c member
  have digits := shaped.digits
  simp only [allOf, Bool.and_eq_true, List.all_eq_true] at digits
  exact .inl (digits.2 c member)

theorem finnishCheckDigit_eq (body : Text) : finnishCheckDigit letters body =
    if ∀ c ∈ body, (letters.decimal c).isSome then
      .ok ((10 - referenceTotal letters 0 body.reverse % 10) % 10)
    else .error (.value .invalidLiteral) := by
  rw [finnishCheckDigit, finnishTotal_eq]
  simp only [List.mem_reverse]
  by_cases read : ∀ c ∈ body, (letters.decimal c).isSome
  · rw [if_pos read, if_pos read]
    rfl
  · rw [if_neg read, if_neg read]
    rfl

theorem mem_dropLast_or_last {value : Text} (nonempty : value ≠ []) :
    c ∈ value ↔ c ∈ value.dropLast ∨ c = value.getLastD 0 := by
  rw [List.getLastD_eq_getLast?, List.getLast?_eq_some_getLast nonempty, Option.getD_some]
  conv_lhs => rw [← List.dropLast_append_getLast nonempty]
  rw [List.mem_append, List.mem_singleton]

/-- Both check digits of a reference, the one it has and the one of its body, are
there when all its digits are decimal; otherwise one of the readings raises. -/
theorem checkDigits_bind (shaped : FinnishShaped letters value)
    (next : Nat → Nat → Except Failure RuleResult) :
    (do
      let actual ← intOf letters (value.getLastD 0)
      let expected ← finnishCheckDigit letters value.dropLast
      next actual expected) =
    if DigitsDecimal letters value then
      next (digitValue letters (value.getLastD 0))
        ((10 - referenceTotal letters 0 value.dropLast.reverse % 10) % 10)
    else .error (.value .invalidLiteral) := by
  have nonempty : value ≠ [] := by
    intro empty
    have length := shaped.length.1
    rw [empty, List.length_nil] at length
    omega
  have digits := shaped.digits
  simp only [allOf, Bool.and_eq_true, List.all_eq_true] at digits
  have split : DigitsDecimal letters value ↔ (∀ c ∈ value.dropLast, (letters.decimal c).isSome) ∧
      (letters.decimal (value.getLastD 0)).isSome := by
    constructor
    · intro decimal
      have each := fun c member => decimal c member (digits.2 c member)
      exact ⟨fun c member => each c ((mem_dropLast_or_last nonempty).mpr (.inl member)),
        each _ ((mem_dropLast_or_last nonempty).mpr (.inr rfl))⟩
    · intro ⟨body, last⟩ c member digit
      rcases (mem_dropLast_or_last nonempty).mp member with inside | rfl
      · exact body c inside
      · exact last
  rw [intOf_eq, finnishCheckDigit_eq]
  by_cases last : (letters.decimal (value.getLastD 0)).isSome
  · by_cases body : ∀ c ∈ value.dropLast, (letters.decimal c).isSome
    · rw [if_pos last, if_pos body, if_pos (split.mpr ⟨body, last⟩)]
      rfl
    · rw [if_pos last, if_neg body, if_neg fun decimal => body (split.mp decimal).1]
      rfl
  · rw [if_neg last, if_neg fun decimal => last (split.mp decimal).2]
    rfl

/-- What `_finnish_reference` says of a reference with decimal digits. -/
theorem finnishReference_verdict (shaped : FinnishShaped letters value)
    (decimal : DigitsDecimal letters value) : ∃ result, finnishReference letters value = .ok result ∧
      (result.passed = true ↔ ReferenceRight letters value) := by
  have length := shaped.length
  unfold finnishReference ReferenceRight
  simp only [shaped.digits, Bool.not_true, Bool.false_eq_true, if_false,
    if_neg (show ¬ (value.length < 4 ∨ 20 < value.length) by omega), checkDigits_bind shaped,
    if_pos decimal]
  by_cases right : digitValue letters (value.getLastD 0) =
      (10 - referenceTotal letters 0 value.dropLast.reverse % 10) % 10
  · rw [if_neg (not_not.mpr right)]
    exact ⟨_, rfl, iff_of_true rfl right⟩
  · rw [if_pos right]
    refine ⟨_, rfl, iff_of_false ?_ right⟩
    intro accepted
    cases accepted

theorem finnishReference_passes_iff :
    Passes (finnishReference letters value) (∀ c ∈ value, isPlain c = true) ↔
      (FinnishShaped letters value → DigitsRead letters value (ReferenceRight letters value)) := by
  by_cases shaped : FinnishShaped letters value
  · by_cases decimal : DigitsDecimal letters value
    · obtain ⟨result, returned, verdict⟩ := finnishReference_verdict shaped decimal
      rw [returned, passes_ok_iff, verdict, plain_iff_digitsAscii shaped.charset decimal]
      constructor
      · intro ascii _
        exact ⟨decimal, ascii⟩
      · intro read
        exact (read shaped).2
    · have length := shaped.length
      unfold finnishReference
      simp only [shaped.digits, Bool.not_true, Bool.false_eq_true, if_false,
        if_neg (show ¬ (value.length < 4 ∨ 20 < value.length) by omega), checkDigits_bind shaped,
        if_neg decimal]
      constructor
      · intro ⟨result, raised, _⟩
        cases raised
      · intro read
        exact absurd (read shaped).1 decimal
  · unfold finnishReference
    simp only [passes_ite_failed]
    refine iff_of_true ?_ fun holds => absurd holds shaped
    intro digits length
    simp only [not_or, not_lt, Bool.not_eq_true', Bool.not_eq_false] at digits length
    exact absurd ⟨digits, length⟩ shaped

theorem referenceNumber_passes_iff (letters : Letters) (value : Option Text) {raw : Text}
    (stripped : strip (orEmpty value) = raw) :
    Passes (referenceNumber letters value) (∀ c ∈ compact letters raw, isPlain c = true) ↔
      (raw ≠ [] →
        if (compact letters raw).take 2 = text "RF" then
          RfShaped letters (compact letters raw) → Charset letters (compact letters raw) →
            DigitsRead letters (compact letters raw) (Mod97Right letters (compact letters raw))
        else FinnishShaped letters (compact letters raw) →
          DigitsRead letters (compact letters raw) (ReferenceRight letters (compact letters raw))) := by
  unfold referenceNumber
  simp only [stripped, passes_ite_failed]
  refine forall_congr' fun nonempty => ?_
  split
  · rw [rfReference_passes_iff]
    exact forall_congr' fun _ => forall_congr' digitsRead_iff
  · exact finnishReference_passes_iff

/-- A business id is plain when it has ASCII digits, capitals and one hyphen. -/
def PlainBusinessId (raw : Text) : Prop :=
  (∀ c ∈ raw, isPlain c = true ∨ c = 45) ∧ raw.count 45 = 1

theorem businessIdMatch_some {raw : Text} (matched : businessIdMatch letters raw = some (body, check)) :
    raw = body ++ [45, check] ∧ body.length = 7 ∧
      ∀ c ∈ check :: body, (letters.decimal c).isSome := by
  unfold businessIdMatch at matched
  split at matched
  · rename_i shaped
    obtain ⟨length, hyphen⟩ := shaped
    simp only [Option.ite_none_right_eq_some, Option.some.injEq, Prod.mk.injEq, List.all_eq_true] at matched
    obtain ⟨digits, rfl, rfl⟩ := matched
    refine ⟨?_, by simp [length], digits⟩
    match raw, length, hyphen with
    | [a, b, c, d, e, f, g, h, i], _, hyphen =>
      cases hyphen
      rfl
  · cases matched

/-- A matched id is plain exactly when its digits are ASCII digits. -/
theorem plainBusinessId_iff {raw : Text} (matched : businessIdMatch letters raw = some (body, check)) :
    PlainBusinessId raw ↔ ∀ c ∈ check :: body, c < 128 := by
  obtain ⟨rfl, _, decimal⟩ := businessIdMatch_some matched
  have hyphen : ∀ c ∈ check :: body, c < 128 → isAsciiDigit c = true ∧ c ≠ 45 := by
    intro c member ascii
    have digit := isPlain_of_decimal (decimal c member) ascii
    exact ⟨digit, by have := isAsciiDigit_iff.mp digit; omega⟩
  constructor
  · intro plain c member
    have inside : c ∈ body ++ [45, check] := by
      rcases List.mem_cons.mp member with rfl | inside
      · simp
      · exact List.mem_append_left _ inside
    rcases plain.1 c inside with plain | rfl
    · exact lt_of_isPlain plain
    · omega
  · intro ascii
    constructor
    · intro c member
      rcases List.mem_append.mp member with inside | last
      · left
        rw [isPlain, (hyphen c (List.mem_cons_of_mem _ inside) (ascii c (List.mem_cons_of_mem _ inside))).1,
          Bool.true_or]
      · rcases List.mem_cons.mp last with rfl | last
        · exact .inr rfl
        · obtain rfl := List.mem_singleton.mp last
          left
          rw [isPlain, (hyphen c List.mem_cons_self (ascii c List.mem_cons_self)).1, Bool.true_or]
    · have absent : body.count 45 = 0 := by
        rw [List.count_eq_zero]
        intro member
        have inside := List.mem_cons_of_mem check member
        exact (hyphen 45 inside (ascii 45 inside)).2 rfl
      have last : check ≠ 45 := (hyphen check List.mem_cons_self (ascii check List.mem_cons_self)).2
      rw [List.count_append, absent]
      simp [last]

/-- What `business_id_checksum` says of an id that matches. -/
theorem businessIdChecksum_verdict {value : Option Text}
    (matched : businessIdMatch letters (strip (orEmpty value)) = some (body, check)) :
    ∃ result, businessIdChecksum letters value = .ok result ∧
      (result.passed = true ↔ BusinessIdRight letters body check) := by
  obtain ⟨parts, _, decimal⟩ := businessIdMatch_some matched
  have nonempty : strip (orEmpty value) ≠ [] := by
    rw [parts]
    simp
  have total : weightedSum letters body businessIdWeights = .ok (businessIdTotal letters body) :=
    weightedSum_decimal (fun c member => decimal c (List.mem_cons_of_mem _ member)) businessIdWeights
  have actual := intOf_decimal (decimal check List.mem_cons_self)
  have expected : ∀ total, (if total % 11 = 0 then 0 else 11 - total % 11) = (11 - total % 11) % 11 := by
    intro total
    split <;> omega
  unfold businessIdChecksum BusinessIdRight
  simp only [if_neg nonempty, matched, total, actual, bind, Except.bind, pure, Except.pure, expected]
  generalize businessIdTotal letters body = sum
  by_cases one : sum % 11 = 1
  · rw [if_pos one]
    exact ⟨_, rfl, iff_of_false Bool.false_ne_true fun right => right.1 one⟩
  · rw [if_neg one]
    by_cases right : digitValue letters check = (11 - sum % 11) % 11
    · rw [if_neg (not_not.mpr right)]
      exact ⟨_, rfl, iff_of_true rfl ⟨one, right⟩⟩
    · rw [if_pos right]
      exact ⟨_, rfl, iff_of_false Bool.false_ne_true fun holds => right holds.2⟩

/-- A text that does not match is rejected. -/
theorem businessIdChecksum_unmatched {value : Option Text}
    (unmatched : businessIdMatch letters (strip (orEmpty value)) = none) :
    ∃ result, businessIdChecksum letters value = .ok result ∧ result.passed = false := by
  unfold businessIdChecksum
  simp only [unmatched]
  split
  · exact ⟨_, rfl, rfl⟩
  · exact ⟨_, rfl, rfl⟩

theorem businessIdChecksum_passes_iff (letters : Letters) (value : Option Text) {raw : Text}
    (stripped : strip (orEmpty value) = raw) :
    Passes (businessIdChecksum letters value) (PlainBusinessId raw) ↔
      ∀ body check, businessIdMatch letters raw = some (body, check) →
        BusinessIdRight letters body check → ∀ c ∈ check :: body, c < 128 := by
  subst stripped
  cases matched : businessIdMatch letters (strip (orEmpty value)) with
  | none =>
    obtain ⟨result, returned, rejected⟩ := businessIdChecksum_unmatched matched
    rw [returned, passes_ok_iff, rejected]
    simp
  | some found =>
    obtain ⟨body, check⟩ := found
    obtain ⟨result, returned, verdict⟩ := businessIdChecksum_verdict matched
    rw [returned, passes_ok_iff, verdict, plainBusinessId_iff matched]
    constructor
    · intro ascii other last same
      cases same
      exact ascii
    · intro ascii
      exact ascii body check rfl

/-- The claim of the three validators on one text: each returns a result, and what
it passes has only ASCII digits, ASCII capitals and the hyphen of a business id. -/
structure IdentifiersPlain (letters : Letters) (value : Option Text) : Prop where
  businessId : Passes (businessIdChecksum letters value) (PlainBusinessId (strip (orEmpty value)))
  iban : Passes (ibanChecksum letters value)
    (∀ c ∈ compact letters (strip (orEmpty value)), isPlain c = true)
  reference : Passes (referenceNumber letters value)
    (∀ c ∈ compact letters (strip (orEmpty value)), isPlain c = true)

/-- What the digits of a text have to be for that. An id that matches with the right
check digit has ASCII digits; an IBAN or reference that reaches its sum has decimal
digits, and ASCII ones when the sum is right. -/
structure DigitsPlain (letters : Letters) (value : Option Text) : Prop where
  businessId : ∀ body check, businessIdMatch letters (strip (orEmpty value)) = some (body, check) →
    BusinessIdRight letters body check → ∀ c ∈ check :: body, c < 128
  iban : ∀ identifier, strip (orEmpty value) ≠ [] →
    compact letters (strip (orEmpty value)) = identifier →
    IbanShaped letters identifier → Charset letters identifier →
    DigitsRead letters identifier (Mod97Right letters identifier)
  rf : ∀ identifier, strip (orEmpty value) ≠ [] →
    compact letters (strip (orEmpty value)) = identifier → identifier.take 2 = text "RF" →
    RfShaped letters identifier → Charset letters identifier →
    DigitsRead letters identifier (Mod97Right letters identifier)
  finnish : ∀ identifier, strip (orEmpty value) ≠ [] →
    compact letters (strip (orEmpty value)) = identifier → identifier.take 2 ≠ text "RF" →
    FinnishShaped letters identifier →
    DigitsRead letters identifier (ReferenceRight letters identifier)

theorem identifiersPlain_iff (letters : Letters) (value : Option Text) :
    IdentifiersPlain letters value ↔ DigitsPlain letters value := by
  have business := businessIdChecksum_passes_iff letters value rfl
  have iban := (@ibanChecksum_passes_iff letters value _ rfl
    (∀ c ∈ compact letters (strip (orEmpty value)), isPlain c = true)).trans
      (forall_congr' fun _ => forall_congr' fun _ => forall_congr' digitsRead_iff)
  have reference := referenceNumber_passes_iff letters value rfl
  constructor
  · intro plain
    have checked := reference.mp plain.reference
    refine ⟨business.mp plain.businessId, ?_, ?_, ?_⟩
    · intro identifier nonempty same
      subst same
      exact iban.mp plain.iban nonempty
    · intro identifier nonempty same rf
      subst same
      rw [if_pos rf] at checked
      exact checked nonempty
    · intro identifier nonempty same other
      subst same
      rw [if_neg other] at checked
      exact checked nonempty
  · intro digits
    refine ⟨business.mpr digits.businessId, iban.mpr fun nonempty => digits.iban _ nonempty rfl,
      reference.mpr fun nonempty => ?_⟩
    split
    · rename_i rf
      exact digits.rf _ nonempty rfl rf
    · rename_i other
      exact digits.finnish _ nonempty rfl other

/-- ASCII with two blocks more: the Arabic-Indic digits, which are decimal, and the
superscript two, which is a digit and not decimal. -/
def isWider (ascii : Nat → Bool) (c : Nat) : Bool := ascii c || (0x660 ≤ c && c ≤ 0x669) || c == 0xB2

def widerDecimal (c : Nat) : Option Nat :=
  if 0x660 ≤ c ∧ c ≤ 0x669 then some (c - 0x660) else asciiDecimal c

theorem widerDecimal_range {c digit : Nat} (read : widerDecimal c = some digit) :
    (0x660 ≤ c ∧ c ≤ 0x669) ∨ (48 ≤ c ∧ c ≤ 57) := by
  unfold widerDecimal at read
  split at read
  · exact .inl ‹_›
  · obtain ⟨small, rfl⟩ := asciiDecimal_eq_some_iff.mp read
    omega

theorem widerDecimal_isDigit (c digit : Nat) (read : widerDecimal c = some digit) :
    isWider isAsciiDigit c = true := by
  rcases widerDecimal_range read with arabic | ascii
  · simp [isWider, arabic]
  · rw [isWider, isAsciiDigit_iff.mpr ascii]
    rfl

theorem widerDecimal_not_space (c digit : Nat) (read : widerDecimal c = some digit) :
    isSpace c = false := by
  have range := widerDecimal_range read
  simp [isSpace]
  omega

theorem widerDecimal_ascii (c : Nat) (small : c < 128) : widerDecimal c = asciiDecimal c :=
  if_neg (by omega)

theorem isWider_ascii {ascii : Nat → Bool} (c : Nat) (small : c < 128) : isWider ascii c = ascii c := by
  have plain : ¬ 0x660 ≤ c := by omega
  have other : c ≠ 0xB2 := by omega
  simp [isWider, plain, other]

theorem isWider_digit_isWord (c : Nat) (digit : isWider isAsciiDigit c = true) :
    isWider isAsciiWord c = true := by
  simp only [isWider, Bool.or_eq_true] at digit ⊢
  rcases digit with (digit | digit) | digit
  · simp [isAsciiWord, digit]
  · exact .inl (.inr digit)
  · exact .inr digit

theorem isWider_digit_not_alpha (c : Nat) (digit : isWider isAsciiDigit c = true) :
    asciiLetters.isAlpha c = false := by
  simp [isWider, isAsciiDigit, asciiLetters] at digit ⊢
  omega

def widerLetters : Letters where
  lower := asciiLetters.lower
  decimal := widerDecimal
  isDigit := isWider isAsciiDigit
  isWord := isWider isAsciiWord
  isPrintable := isWider asciiLetters.isPrintable
  upper := asciiLetters.upper
  isAlpha := asciiLetters.isAlpha
  decimal_isDigit := widerDecimal_isDigit
  decimal_not_space := widerDecimal_not_space
  decimal_ascii := widerDecimal_ascii
  isWord_ascii := isWider_ascii
  isAlpha_ascii := asciiLetters.isAlpha_ascii
  digit_not_alpha := isWider_digit_not_alpha
  digit_isWord := isWider_digit_isWord

/-- An IBAN that ends in a superscript two is an exception, and the check digit of
a business id in Arabic-Indic digits is right. -/
theorem digits_beyond_ascii :
    ¬ IdentifiersPlain widerLetters (some (text "FI21 1234 5600 0007 8²")) ∧
      ¬ IdentifiersPlain widerLetters (some (text "٠١١٢٠٣٨-٩")) := by
  constructor
  · intro plain
    obtain ⟨result, returned, _⟩ := plain.iban
    have raised : (ibanChecksum widerLetters (some (text "FI21 1234 5600 0007 8²"))).toOption.isNone =
        true := by decide +kernel
    rw [returned] at raised
    cases raised
  · intro plain
    obtain ⟨result, returned, ascii⟩ := plain.businessId
    have accepted : (businessIdChecksum widerLetters (some (text "٠١١٢٠٣٨-٩"))).toOption.any
        RuleResult.passed = true := by decide +kernel
    rw [returned] at accepted
    have digits := (ascii accepted).1 0x660 (by decide +kernel)
    revert digits
    decide

end N8nSystems.Validators
