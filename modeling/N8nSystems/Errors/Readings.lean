import Mathlib.Data.Rat.Defs
import N8nSystems.Errors.Python
import N8nSystems.Errors.JavaScript

/-! Which status either language reads from an input, by the kinds of the values
in it. -/

namespace N8nSystems.Errors

open Lib
open Lib.Py (Text text Unicode strip spelled intMaxStrDigits asciiDecimal)
open Lib.Js (Engine trim stringToNumber joinItems toText Unprintable)

/-- A number that is a status in both languages. -/
inductive NumberStatus : Json → Int → Prop
  | int (low : 100 ≤ status) (high : status ≤ 599) : NumberStatus (.int status) status
  | float (low : 100 ≤ status) (high : status ≤ 599) : NumberStatus (.float (status : Int)) status

/-- The status in a message, by the text that a language prints, its character
classes and its digits. -/
inductive MessageStatus (printed : Except ε Text) (classes : CharClasses)
    (decimal : Nat → Option Nat) : Option Int → Prop
  | missing (print : printed = .ok message) (miss : messageDigits classes message = none) :
      MessageStatus printed classes decimal none
  | found (print : printed = .ok message) (hit : messageDigits classes message = some value)
      (values : value.mapM decimal = some digits) :
      MessageStatus printed classes decimal (inRange (spelled digits))

/-- A message gives what the relation says, when the reader gives the value of the
digits that a pattern finds. -/
theorem messageStatus_ok_iff {printed : Except ε Text} {classes : CharClasses}
    {decimal : Nat → Option Nat} {read : Text → Except ε (Option Int)}
    (digits : ∀ {message value}, messageDigits classes message = some value →
      ∃ digits, value.mapM decimal = some digits ∧ read value = .ok (inRange (spelled digits)))
    (status : Option Int) :
    messageStatus printed classes read = .ok status ↔
      MessageStatus printed classes decimal status := by
  cases print : printed with
  | error failure =>
    constructor
    · intro returned
      cases returned
    · intro spec
      cases spec with
      | missing printed => cases printed
      | found printed => cases printed
  | ok message =>
    have unfolded : messageStatus (.ok message) classes read =
        (messageDigits classes message).elim (.ok none) read := by
      simp only [messageStatus, bind, Except.bind]
      cases messageDigits classes message <;> rfl
    rw [unfolded]
    cases hit : messageDigits classes message with
    | none =>
      constructor
      · intro returned
        cases returned
        exact .missing rfl hit
      · intro spec
        cases spec with
        | missing => rfl
        | found printed found =>
          cases printed
          cases hit.symm.trans found
    | some value =>
      obtain ⟨numbers, values, reading⟩ := digits hit
      constructor
      · intro returned
        cases reading.symm.trans returned
        exact .found rfl hit values
      · intro spec
        cases spec with
        | missing printed miss =>
          cases printed
          cases hit.symm.trans miss
        | found printed found valued =>
          cases printed
          cases hit.symm.trans found
          cases values.symm.trans valued
          exact reading

theorem inRange_eq_some_iff : inRange status = some result ↔
    status = result ∧ 100 ≤ status ∧ status ≤ 599 := by
  unfold inRange
  split
  · rename_i range
    simp [range]
  · rename_i range
    simp [range]

/-- Reading a double that is an integer. -/
theorem float_status_iff {value : Rat} {status : Int} :
    (if value.den = 1 then inRange value.num else none) = some status ↔
      value = status ∧ 100 ≤ status ∧ status ≤ 599 := by
  constructor
  · intro read
    split at read
    · rename_i whole
      obtain ⟨rfl, range⟩ := inRange_eq_some_iff.mp read
      exact ⟨(Rat.den_eq_one_iff value).mp whole |>.symm, range⟩
    · cases read
  · rintro ⟨rfl, range⟩
    simp [inRange, range]

namespace Python

/-- The value is a status to Python. -/
inductive Means (unicode : Unicode) : Option Json → Int → Prop
  | number (status : NumberStatus value result) : Means unicode (some value) result
  | digits (values : (strip value).mapM unicode.decimal = some digits)
      (short : (strip value).length ≤ intMaxStrDigits) (low : 100 ≤ spelled digits)
      (high : spelled digits ≤ 599) : Means unicode (some (.string value)) (spelled digits)

/-- `int` rejects the value, which `isdigit` let through: it has a digit that is
not decimal, or too many of them. -/
inductive Fails (unicode : Unicode) : Option Json → Prop
  | digits (nonempty : strip value ≠ []) (isDigit : ∀ c ∈ strip value, unicode.isDigit c = true)
      (rejected : (∃ c ∈ strip value, unicode.decimal c = none) ∨
        intMaxStrDigits < (strip value).length) : Fails unicode (some (.string value))

/-- The value is passed over. -/
def Silent (unicode : Unicode) (value : Option Json) : Prop :=
  ¬ Fails unicode value ∧ ∀ status, ¬ Means unicode value status

variable (unicode : Unicode) (reprFloat : Rat → Text)

/-- A text whose characters are all decimal digits passes `isdigit`. -/
theorem isDigit_of_decimal {value : Text} {digits : List Nat}
    (values : value.mapM unicode.decimal = some digits) :
    ∀ c ∈ value, unicode.isDigit c = true ∧ Py.isSpace c = false := by
  intro c member
  cases read : unicode.decimal c with
  | none => cases values.symm.trans (mapM_eq_none_iff.mpr ⟨c, member, read⟩)
  | some digit => exact ⟨unicode.decimal_isDigit c digit read, unicode.decimal_not_space c digit read⟩

theorem toStatus_digits {value : Text} {digits : List Nat} (nonempty : strip value ≠ [])
    (values : (strip value).mapM unicode.decimal = some digits)
    (short : (strip value).length ≤ intMaxStrDigits) :
    toStatus unicode (some (.string value)) = .ok (inRange (spelled digits)) := by
  have passed : strip value ≠ [] ∧ (strip value).all unicode.isDigit :=
    ⟨nonempty, List.all_eq_true.mpr fun c member => (isDigit_of_decimal unicode values c member).1⟩
  have number : Py.parseInt unicode (strip value) = .ok (spelled digits) :=
    Py.parseInt_ok_iff.mpr ⟨digits, values, short, rfl⟩
  rw [toStatus, if_pos passed, number]
  rfl

theorem toStatus_some_iff (value : Option Json) (status : Int) :
    toStatus unicode value = .ok (some status) ↔ Means unicode value status := by
  constructor
  · intro read
    unfold toStatus at read
    split at read
    · obtain ⟨rfl, low, high⟩ := inRange_eq_some_iff.mp (Except.ok.inj read)
      exact .number (.int low high)
    · obtain ⟨rfl, low, high⟩ := float_status_iff.mp (Except.ok.inj read)
      exact .number (.float low high)
    · rename_i value
      dsimp only at read
      split at read
      · cases parsed : Py.parseInt unicode (strip value) with
        | error failure =>
          rw [parsed] at read
          cases read
        | ok number =>
          rw [parsed] at read
          obtain ⟨rfl, low, high⟩ := inRange_eq_some_iff.mp (Except.ok.inj read)
          obtain ⟨digits, values, short, rfl⟩ := Py.parseInt_ok_iff.mp parsed
          exact .digits values short (by omega) (by omega)
      · cases read
    · cases read
  · intro means
    cases means with
    | number numeric =>
      cases numeric with
      | int low high => exact congrArg _ (inRange_eq_some_iff.mpr ⟨rfl, low, high⟩)
      | float low high => exact congrArg _ (float_status_iff.mpr ⟨rfl, low, high⟩)
    | @digits value digits values short low high =>
      have nonempty : strip value ≠ [] := by
        intro empty
        rw [empty] at values
        cases values
        cases low
      rw [toStatus_digits unicode nonempty values short]
      exact congrArg _ (inRange_eq_some_iff.mpr ⟨rfl, by omega, by omega⟩)

theorem toStatus_error_iff (value : Option Json) :
    (∃ failure, toStatus unicode value = .error failure) ↔ Fails unicode value := by
  constructor
  · rintro ⟨failure, failed⟩
    unfold toStatus at failed
    split at failed
    · cases failed
    · cases failed
    · rename_i value
      dsimp only at failed
      split at failed
      · rename_i passed
        cases parsed : Py.parseInt unicode (strip value) with
        | error failure =>
          exact .digits passed.1 (List.all_eq_true.mp passed.2)
            (Py.parseInt_error_iff.mp ⟨failure, parsed⟩)
        | ok number =>
          rw [parsed] at failed
          cases failed
      · cases failed
    · cases failed
  · intro fails
    cases fails with
    | @digits value nonempty isDigit rejected =>
      obtain ⟨failure, failed⟩ := Py.parseInt_error_iff.mpr rejected
      refine ⟨failure, ?_⟩
      rw [toStatus, if_pos ⟨nonempty, List.all_eq_true.mpr isDigit⟩, failed]
      rfl

theorem toStatus_none_iff (value : Option Json) :
    toStatus unicode value = .ok none ↔ Silent unicode value := by
  rw [reading_none_iff, toStatus_error_iff]
  simp only [toStatus_some_iff]
  rfl

theorem toStatus_messageDigits {message value : Text}
    (hit : messageDigits (charClasses unicode) message = some value) :
    ∃ digits, value.mapM unicode.decimal = some digits ∧
      toStatus unicode (some (.string value)) = .ok (inRange (spelled digits)) := by
  obtain ⟨length, each⟩ := messageDigits_digit hit
  cases values : value.mapM unicode.decimal with
  | none =>
    obtain ⟨c, member, unread⟩ := mapM_eq_none_iff.mp values
    have isSome : (unicode.decimal c).isSome := each c member
    rw [unread] at isSome
    cases isSome
  | some digits =>
    have stripped : strip value = value :=
      Py.trimmed_self fun c member => (isDigit_of_decimal unicode values c member).2
    refine ⟨digits, rfl, toStatus_digits unicode ?_ (by rw [stripped, values]) ?_⟩
    · rw [stripped]
      exact List.ne_nil_of_length_pos (by omega)
    · rw [stripped, length]
      decide

/-- Python reads this status. -/
def Reads (src nested : Json) : Option Int → Prop :=
  Scan (Means unicode) (Silent unicode) (MessageStatus (printedMessage unicode reprFloat src nested)
    (charClasses unicode) unicode.decimal) (slots src nested)

theorem firstStatus_ok_iff (src nested : Json) (status : Option Int) :
    firstStatus unicode reprFloat src nested = .ok status ↔
      Reads unicode reprFloat src nested status :=
  firstReading_ok_iff (toStatus_some_iff unicode) (toStatus_none_iff unicode)
    (messageStatus_ok_iff (toStatus_messageDigits unicode)) _ _

end Python

namespace JavaScript

/-- The value is a status to JavaScript: a text or an array may also print as a
numeral with a sign, a fraction, an exponent or a base. -/
inductive Means (engine : Engine) : Option Json → Int → Prop
  | number (status : NumberStatus value result) : Means engine (some value) result
  | numeral (number : stringToNumber engine (trim value) = .finite (status : Int))
      (low : 100 ≤ status) (high : status ≤ 599) : Means engine (some (.string value)) status
  | array (printed : joinItems engine items = .ok value)
      (number : stringToNumber engine (trim value) = .finite (status : Int))
      (low : 100 ≤ status) (high : status ≤ 599) : Means engine (some (.array items)) status

/-- `String` throws on the value. -/
def Fails (value : Option Json) : Prop := ∃ given, value = some given ∧ Unprintable given

/-- The value is passed over. -/
def Silent (engine : Engine) (value : Option Json) : Prop :=
  ¬ Fails value ∧ ∀ status, ¬ Means engine value status

variable (engine : Engine)

theorem numberStatus_eq_some_iff {number : Js.Number} {status : Int} :
    numberStatus number = some status ↔
      number = .finite (status : Int) ∧ 100 ≤ status ∧ status ≤ 599 := by
  cases number with
  | finite value =>
    rw [Js.Number.finite.injEq, ← float_status_iff]
    simp [numberStatus, Js.Number.isInteger]
  | _ => simp [numberStatus]

/-- An integer beyond the doubles is no status before and after rounding. -/
theorem numberStatus_round (value : Int) : numberStatus (engine.round value) = inRange value := by
  by_cases small : value.natAbs ≤ 2 ^ 53
  · rw [engine.round_small value small]
    simp [numberStatus, Js.Number.isInteger]
  · have outside : inRange value = none := if_neg (by omega)
    rw [outside]
    by_contra read
    obtain ⟨status, read⟩ := Option.ne_none_iff_exists'.mp read
    obtain ⟨number, low, high⟩ := numberStatus_eq_some_iff.mp read
    have large := engine.round_large value status (by omega) number
    omega

theorem toStatus_string (value : Text) : toStatus engine (some (.string value)) =
    .ok (numberStatus (stringToNumber engine (trim value))) := rfl

theorem toStatus_array (items : List Json) : toStatus engine (some (.array items)) =
    (joinItems engine items).map fun value => numberStatus (stringToNumber engine (trim value)) := by
  rw [toStatus, toText]
  · cases joinItems engine items <;> rfl
  all_goals simp

/-- An object prints as no numeral. -/
theorem toStatus_object (fields : List (Text × Json)) : toStatus engine (some (.object fields)) =
    (toText engine (.object fields)).map fun _ => none := by
  have nan : numberStatus (stringToNumber engine (trim (text "[object Object]"))) = none := rfl
  rw [toStatus, toText]
  · split
    · rfl
    · exact congrArg _ nan
  all_goals simp

theorem toStatus_some_iff (value : Option Json) (status : Int) :
    toStatus engine value = .ok (some status) ↔ Means engine value status := by
  constructor
  · intro read
    cases value with
    | none => cases read
    | some value =>
      cases value with
      | int number =>
        have ranged := (numberStatus_round engine number).symm.trans (Except.ok.inj read)
        obtain ⟨rfl, low, high⟩ := inRange_eq_some_iff.mp ranged
        exact .number (.int low high)
      | float number =>
        obtain ⟨same, low, high⟩ := numberStatus_eq_some_iff.mp (Except.ok.inj read)
        cases same
        exact .number (.float low high)
      | string value =>
        obtain ⟨number, low, high⟩ := numberStatus_eq_some_iff.mp (Except.ok.inj read)
        exact .numeral number low high
      | array items =>
        rw [toStatus_array] at read
        cases printed : joinItems engine items with
        | error failure =>
          rw [printed] at read
          cases read
        | ok value =>
          rw [printed] at read
          obtain ⟨number, low, high⟩ := numberStatus_eq_some_iff.mp (Except.ok.inj read)
          exact .array printed number low high
      | object fields =>
        rw [toStatus_object] at read
        cases printed : toText engine (.object fields) <;> rw [printed] at read <;> cases read
      | _ => cases read
  · intro means
    cases means with
    | number numeric =>
      cases numeric with
      | int low high =>
        exact congrArg _ ((numberStatus_round engine _).trans (inRange_eq_some_iff.mpr ⟨rfl, low, high⟩))
      | float low high => exact congrArg _ (numberStatus_eq_some_iff.mpr ⟨rfl, low, high⟩)
    | numeral number low high =>
      exact congrArg _ (numberStatus_eq_some_iff.mpr ⟨number, low, high⟩)
    | array printed number low high =>
      rw [toStatus_array, printed]
      exact congrArg _ (numberStatus_eq_some_iff.mpr ⟨number, low, high⟩)

theorem toStatus_error_iff (value : Option Json) :
    (∃ failure, toStatus engine value = .error failure) ↔ Fails value := by
  have mapped {β : Type} (printed : Except Js.TypeError Text) (f : Text → β) :
      (∃ failure, printed.map f = .error failure) ↔ ∃ failure, printed = .error failure := by
    cases printed <;> simp [Except.map]
  have given (value : Json) : Fails (some value) ↔ Unprintable value := by
    simp [Fails]
  cases value with
  | none => simp [toStatus, Fails]
  | some value =>
    rw [given, ← Js.toText_error_iff engine]
    cases value with
    | array items =>
      rw [toStatus_array, mapped, toText]
    | object fields =>
      rw [toStatus_object, mapped]
    | _ => simp [toStatus, toText, bind, Except.bind, pure, Except.pure]

theorem toStatus_none_iff (value : Option Json) :
    toStatus engine value = .ok none ↔ Silent engine value := by
  rw [reading_none_iff, toStatus_error_iff]
  simp only [toStatus_some_iff]
  rfl

/-- ASCII digits are read as in Python. -/
theorem toStatus_ascii {value : Text} {digits : List Nat}
    (values : value.mapM asciiDecimal = some digits) (nonempty : value ≠ []) :
    toStatus engine (some (.string value)) = .ok (inRange (spelled digits)) := by
  have trimmed : trim value = value := by
    refine Py.trimmed_self fun c member => ?_
    have digit := Py.isAsciiDigit_iff.mp (Js.isAsciiDigit_of_mapM values c member)
    simp [Js.isSpace]
    omega
  rw [toStatus_string, trimmed, Js.stringToNumber_ascii engine values nonempty, numberStatus_round]

theorem toStatus_messageDigits {message value : Text}
    (hit : messageDigits charClasses message = some value) :
    ∃ digits, value.mapM asciiDecimal = some digits ∧
      toStatus engine (some (.string value)) = .ok (inRange (spelled digits)) := by
  obtain ⟨length, each⟩ := messageDigits_digit hit
  cases values : value.mapM asciiDecimal with
  | none =>
    obtain ⟨c, member, unread⟩ := mapM_eq_none_iff.mp values
    have read : asciiDecimal c = some (c - 48) := if_pos (each c member)
    cases unread.symm.trans read
  | some digits =>
    have nonempty : value ≠ [] := List.ne_nil_of_length_pos (by omega)
    exact ⟨digits, rfl, toStatus_ascii engine values nonempty⟩

/-- JavaScript reads this status. -/
def Reads (src nested : Json) : Option Int → Prop :=
  Scan (Means engine) (Silent engine)
    (MessageStatus (printedMessage engine src nested) charClasses asciiDecimal) (slots src nested)

theorem firstStatus_ok_iff (src nested : Json) (status : Option Int) :
    firstStatus engine src nested = .ok status ↔ Reads engine src nested status :=
  firstReading_ok_iff (toStatus_some_iff engine) (toStatus_none_iff engine)
    (messageStatus_ok_iff (toStatus_messageDigits engine)) _ _

end JavaScript

end N8nSystems.Errors
