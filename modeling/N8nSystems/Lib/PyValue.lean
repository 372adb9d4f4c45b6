import N8nSystems.Lib.Json
import N8nSystems.Lib.Scan

/-! Python's view of JSON values: truth, `int` and `str`. -/

namespace N8nSystems.Lib.Py

/-- The Unicode data behind `str`, with what the standard fixes about it. `lower`
is the full case mapping, which JavaScript uses as well. -/
structure Unicode where
  lower : Text → Text
  /-- The value of a decimal digit (category Nd). -/
  decimal : Nat → Option Nat
  isDigit : Nat → Bool
  /-- `str.isalnum`, or the underscore. -/
  isWord : Nat → Bool
  isPrintable : Nat → Bool
  decimal_isDigit : ∀ c d, decimal c = some d → isDigit c = true
  decimal_not_space : ∀ c d, decimal c = some d → isSpace c = false
  decimal_ascii : ∀ c, c < 128 → decimal c = asciiDecimal c
  isWord_ascii : ∀ c, c < 128 → isWord c = isAsciiWord c

/-- Unicode with the letters: upper case and `str.isalpha`. No letter is a digit
character, and every digit character is alphanumeric. -/
structure Letters extends Unicode where
  upper : Text → Text
  isAlpha : Nat → Bool
  isAlpha_ascii : ∀ c, c < 128 → isAlpha c = (65 ≤ c && c ≤ 90 || 97 ≤ c && c ≤ 122)
  digit_not_alpha : ∀ c, isDigit c = true → isAlpha c = false
  digit_isWord : ∀ c, isDigit c = true → isWord c = true

/-- `str.isalnum` for one code point. -/
def Letters.isAlnum (letters : Letters) (c : Nat) : Bool := letters.isWord c && c != 95

/-- `value.isdigit()` and its like: the text is not empty and all of it is such. -/
def allOf (test : Nat → Bool) (value : Text) : Bool := !value.isEmpty && value.all test

/-- Unicode as far as ASCII goes. -/
def asciiUnicode : Unicode where
  lower value := value.map fun c => if 65 ≤ c ∧ c ≤ 90 then c + 32 else c
  decimal := asciiDecimal
  isDigit := isAsciiDigit
  isWord := isAsciiWord
  isPrintable c := 32 ≤ c && c < 127
  decimal_isDigit := by
    intro c digit read
    obtain ⟨small, rfl⟩ := asciiDecimal_eq_some_iff.mp read
    exact isAsciiDigit_iff.mpr (by omega)
  decimal_not_space := by
    intro c digit read
    obtain ⟨small, rfl⟩ := asciiDecimal_eq_some_iff.mp read
    simp [isSpace]
    omega
  decimal_ascii _ _ := rfl
  isWord_ascii _ _ := rfl

/-- `str.upper` of an ASCII character. -/
def upperAscii (c : Nat) : Nat := if 97 ≤ c ∧ c ≤ 122 then c - 32 else c

/-- The letters with what the standard fixes about ASCII. -/
structure LatinLetters extends Letters where
  upper_ascii : ∀ value, (∀ c ∈ value, c < 128) → upper value = value.map upperAscii
  isDigit_ascii : ∀ c, c < 128 → isDigit c = isAsciiDigit c

/-- The letters as far as ASCII goes. -/
def asciiLetters : Letters where
  toUnicode := asciiUnicode
  upper value := value.map fun c => if 97 ≤ c ∧ c ≤ 122 then c - 32 else c
  isAlpha c := 65 ≤ c && c ≤ 90 || 97 ≤ c && c ≤ 122
  isAlpha_ascii _ _ := rfl
  digit_not_alpha := by
    intro c digit
    obtain ⟨low, high⟩ := isAsciiDigit_iff.mp digit
    simp
    omega
  digit_isWord := by
    intro c digit
    change isAsciiDigit c = true at digit
    simp [asciiUnicode, isAsciiWord, digit]

def asciiLatin : LatinLetters where
  toLetters := asciiLetters
  upper_ascii _ _ := rfl
  isDigit_ascii _ _ := rfl

inductive ValueError where
  | invalidLiteral
  | tooManyDigits
  deriving DecidableEq, Repr

/-- `sys.get_int_max_str_digits()` by default. -/
def intMaxStrDigits : Nat := 4300

/-- The number that decimal digits spell, most significant first. -/
def spelled (digits : List Nat) : Nat := digits.foldl (fun value digit => 10 * value + digit) 0

/-- `int(value)` for a text of digit characters without space and sign. -/
def parseInt (unicode : Unicode) (value : Text) : Except ValueError Nat :=
  match value.mapM unicode.decimal with
  | none => .error .invalidLiteral
  | some digits =>
    if value.length ≤ intMaxStrDigits then .ok (spelled digits) else .error .tooManyDigits

theorem parseInt_ok_iff {unicode : Unicode} {value : Text} {number : Nat} :
    parseInt unicode value = .ok number ↔ ∃ digits, value.mapM unicode.decimal = some digits ∧
      value.length ≤ intMaxStrDigits ∧ spelled digits = number := by
  unfold parseInt
  cases value.mapM unicode.decimal with
  | none => simp
  | some digits =>
    by_cases short : value.length ≤ intMaxStrDigits <;> simp [short]

theorem parseInt_error_iff {unicode : Unicode} {value : Text} :
    (∃ failure, parseInt unicode value = .error failure) ↔
      (∃ c ∈ value, unicode.decimal c = none) ∨ intMaxStrDigits < value.length := by
  rw [← mapM_eq_none_iff]
  unfold parseInt
  cases value.mapM unicode.decimal with
  | none => simp
  | some digits =>
    by_cases short : value.length ≤ intMaxStrDigits <;> simp [short]
    omega

/-- `bool(value)`, where a missing key reads as `None`. -/
def truthy : Option Json → Bool
  | none | some .null => false
  | some (.bool value) => value
  | some (.int value) => value ≠ 0
  | some (.float value) => value ≠ 0
  | some (.infinite _) => true
  | some (.string value) => value ≠ []
  | some (.array items) => !items.isEmpty
  | some (.object fields) => !fields.isEmpty

def reprInt (value : Int) : Except ValueError Text :=
  if (Nat.toDigits 10 value.natAbs).length ≤ intMaxStrDigits then .ok (text (toString value))
  else .error .tooManyDigits

/-- One code point inside the quotes of `repr`. -/
def reprChar (unicode : Unicode) (quote c : Nat) : Text :=
  if c = quote ∨ c = 92 then [92, c]
  else if c = 10 then text "\\n"
  else if c = 13 then text "\\r"
  else if c = 9 then text "\\t"
  else if c < 32 ∨ c = 127 then text "\\x" ++ hexPad 2 c
  else if c < 127 ∨ unicode.isPrintable c then [c]
  else if c < 0x100 then text "\\x" ++ hexPad 2 c
  else if c < 0x10000 then text "\\u" ++ hexPad 4 c
  else text "\\U" ++ hexPad 8 c

/-- The quotes are double only around a text with a single quote and no double one. -/
def reprText (unicode : Unicode) (value : Text) : Text :=
  let quote := if 39 ∈ value ∧ 34 ∉ value then 34 else 39
  [quote] ++ value.flatMap (reprChar unicode quote) ++ [quote]

section
variable (unicode : Unicode) (reprFloat : Rat → Text)

mutual

/-- `repr(value)`; `reprFloat` prints the finite doubles. -/
def repr : Json → Except ValueError Text
  | .null => .ok (text "None")
  | .bool value => .ok (if value then text "True" else text "False")
  | .int value => reprInt value
  | .float value => .ok (reprFloat value)
  | .infinite negative => .ok (if negative then text "-inf" else text "inf")
  | .string value => .ok (reprText unicode value)
  | .array items => do return text "[" ++ (← reprItems items) ++ text "]"
  | .object fields => do return text "\x7b" ++ (← reprFields fields) ++ text "\x7d"
  termination_by structural value => value

def reprItems : List Json → Except ValueError Text
  | [] => .ok []
  | item :: rest => do
    let head ← repr item
    let tail ← reprItems rest
    return head ++ (if rest.isEmpty then [] else text ", ") ++ tail
  termination_by structural items => items

def reprFields : List (Text × Json) → Except ValueError Text
  | [] => .ok []
  | field :: rest => do
    let head ← reprField field
    let tail ← reprFields rest
    return head ++ (if rest.isEmpty then [] else text ", ") ++ tail
  termination_by structural fields => fields

def reprField : Text × Json → Except ValueError Text
  | (key, value) => do return reprText unicode key ++ text ": " ++ (← repr value)
  termination_by structural field => field

end

/-- `str(value)`. -/
def str : Json → Except ValueError Text
  | .string value => .ok value
  | value => repr unicode reprFloat value

end

/-- The value is, or holds at some depth, an integer with more decimal digits than
`str` prints. -/
inductive LongInt : Json → Prop
  | int (long : intMaxStrDigits < (Nat.toDigits 10 value.natAbs).length) : LongInt (.int value)
  | item (member : item ∈ items) (inner : LongInt item) : LongInt (.array items)
  | field (member : field ∈ fields) (inner : LongInt field.2) : LongInt (.object fields)

section
variable {unicode : Unicode} {reprFloat : Rat → Text}

mutual

theorem repr_error_iff (value : Json) :
    (∃ failure, repr unicode reprFloat value = .error failure) ↔ LongInt value := by
  cases value with
  | int number =>
    rw [repr, reprInt]
    constructor
    · rintro ⟨failure, failed⟩
      split at failed
      · cases failed
      · exact .int (by omega)
    · intro long
      cases long with
      | int long => exact ⟨.tooManyDigits, if_neg (by omega)⟩
  | array items =>
    have inside := reprItems_error_iff items
    have wrapped : (∃ failure, repr unicode reprFloat (.array items) = .error failure) ↔
        ∃ failure, reprItems unicode reprFloat items = .error failure := by
      rw [repr]
      cases reprItems unicode reprFloat items <;> simp [bind, Except.bind, pure, Except.pure]
    rw [wrapped, inside]
    constructor
    · rintro ⟨item, member, long⟩
      exact .item member long
    · intro long
      cases long with
      | item member inner => exact ⟨_, member, inner⟩
  | object fields =>
    have inside := reprFields_error_iff fields
    have wrapped : (∃ failure, repr unicode reprFloat (.object fields) = .error failure) ↔
        ∃ failure, reprFields unicode reprFloat fields = .error failure := by
      rw [repr]
      cases reprFields unicode reprFloat fields <;> simp [bind, Except.bind, pure, Except.pure]
    rw [wrapped, inside]
    constructor
    · rintro ⟨field, member, long⟩
      exact .field member long
    · intro long
      cases long with
      | field member inner => exact ⟨_, member, inner⟩
  | _ =>
    simp only [repr, reduceCtorEq, exists_false, false_iff]
    intro long
    cases long
  termination_by structural value

theorem reprItems_error_iff (items : List Json) :
    (∃ failure, reprItems unicode reprFloat items = .error failure) ↔
      ∃ item ∈ items, LongInt item := by
  cases items with
  | nil => simp [reprItems]
  | cons item rest =>
    have here := repr_error_iff item
    have there := reprItems_error_iff rest
    rw [reprItems, List.exists_mem_cons_iff, ← here, ← there]
    cases repr unicode reprFloat item with
    | error failure => exact ⟨fun _ => .inl ⟨failure, rfl⟩, fun _ => ⟨failure, rfl⟩⟩
    | ok head =>
      cases reprItems unicode reprFloat rest <;> simp [bind, Except.bind, pure, Except.pure]
  termination_by structural items

theorem reprFields_error_iff (fields : List (Text × Json)) :
    (∃ failure, reprFields unicode reprFloat fields = .error failure) ↔
      ∃ field ∈ fields, LongInt field.2 := by
  cases fields with
  | nil => simp [reprFields]
  | cons field rest =>
    have here := reprField_error_iff field
    have there := reprFields_error_iff rest
    rw [reprFields, List.exists_mem_cons_iff, ← here, ← there]
    cases reprField unicode reprFloat field with
    | error failure => exact ⟨fun _ => .inl ⟨failure, rfl⟩, fun _ => ⟨failure, rfl⟩⟩
    | ok head =>
      cases reprFields unicode reprFloat rest <;> simp [bind, Except.bind, pure, Except.pure]
  termination_by structural fields

theorem reprField_error_iff (field : Text × Json) :
    (∃ failure, reprField unicode reprFloat field = .error failure) ↔ LongInt field.2 := by
  cases field with
  | mk key value =>
    have inside := repr_error_iff value
    rw [reprField, ← inside]
    cases repr unicode reprFloat value <;> simp [bind, Except.bind, pure, Except.pure]
  termination_by structural field

end

/-- `str` raises exactly on a value with an integer that is too long. -/
theorem str_ok_iff (value : Json) :
    (∃ printed, str unicode reprFloat value = .ok printed) ↔ ¬ LongInt value := by
  have printed : str unicode reprFloat value = repr unicode reprFloat value ∨
      ∃ given, value = .string given := by
    cases value with
    | string given => exact .inr ⟨given, rfl⟩
    | _ => exact .inl rfl
  rcases printed with same | ⟨given, rfl⟩
  · rw [same, ← @repr_error_iff unicode reprFloat value]
    cases repr unicode reprFloat value <;> simp
  · refine ⟨fun _ long => ?_, fun _ => ⟨given, rfl⟩⟩
    cases long

end

end N8nSystems.Lib.Py
