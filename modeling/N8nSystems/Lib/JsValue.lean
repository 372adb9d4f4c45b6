import N8nSystems.Lib.PyValue

/-! JavaScript's view of JSON values: truth, `Number` and `String`. Texts are code
points here too; no operation below tells them from UTF-16 units. -/

namespace N8nSystems.Lib.Js

open Py (Text text isAsciiDigit isAsciiDigit_iff asciiDecimal asciiDecimal_eq_some_iff)

inductive Number where
  | nan
  | infinite (negative : Bool)
  | finite (value : Rat)
  deriving DecidableEq

def Number.isInteger : Number → Bool
  | .finite value => value.den = 1
  | _ => false

/-- What the standard leaves to the engine: how a literal of more than 20 digits
is rounded, and which of the shortest texts prints a number. Integers up to 2^53
are exact, and a larger one does not round below that. -/
structure Engine where
  round : Rat → Number
  numberText : Number → Text
  round_small : ∀ n : Int, n.natAbs ≤ 2 ^ 53 → round n = .finite n
  round_large : ∀ n m : Int, 2 ^ 53 < n.natAbs → round n = .finite m → 2 ^ 53 ≤ m.natAbs

/-- A WhiteSpace or LineTerminator code point. -/
def isSpace (c : Nat) : Bool :=
  (9 ≤ c && c ≤ 13) || c == 0x20 || c == 0xA0 || c == 0x1680 || (0x2000 ≤ c && c ≤ 0x200A) ||
    c == 0x2028 || c == 0x2029 || c == 0x202F || c == 0x205F || c == 0x3000 || c == 0xFEFF

/-- `value.trim()`. -/
def trim (value : Text) : Text := (value.dropWhile isSpace).rdropWhile isSpace

def hexValue (c : Nat) : Option Nat :=
  if 48 ≤ c ∧ c ≤ 57 then some (c - 48)
  else if 97 ≤ c ∧ c ≤ 102 then some (c - 87)
  else if 65 ≤ c ∧ c ≤ 70 then some (c - 55)
  else none

/-- The value of one or more digits of the base. -/
def digitsValue (base : Nat) (digits : Text) : Option Nat :=
  if digits = [] then none
  else digits.foldlM (fun value c =>
    (hexValue c).bind fun digit => if digit < base then some (base * value + digit) else none) 0

/-- The base that follows the 0 of a NonDecimalIntegerLiteral. -/
def baseOf (marker : Nat) : Option Nat :=
  if marker = 120 ∨ marker = 88 then some 16
  else if marker = 111 ∨ marker = 79 then some 8
  else if marker = 98 ∨ marker = 66 then some 2
  else none

def nonDecimal : Text → Option Nat
  | 48 :: marker :: digits => (baseOf marker).bind fun base => digitsValue base digits
  | _ => none

/-- The sign in front of a literal, and what follows it. -/
def signed : Text → Bool × Text
  | 43 :: rest => (false, rest)
  | 45 :: rest => (true, rest)
  | rest => (false, rest)

/-- An ExponentPart up to the end of the text, or nothing. -/
def exponent : Text → Option Int
  | [] => some 0
  | marker :: rest =>
    if marker = 101 ∨ marker = 69 then
      let (negative, digits) := signed rest
      (digitsValue 10 digits).map fun value => if negative then -(value : Int) else value
    else none

/-- A StrUnsignedDecimalLiteral without `Infinity`. -/
def unsignedDecimal (literal : Text) : Option Rat :=
  let whole := literal.takeWhile isAsciiDigit
  let rest := literal.dropWhile isAsciiDigit
  let fraction := match rest with
    | 46 :: rest => rest.takeWhile isAsciiDigit
    | _ => []
  let rest := match rest with
    | 46 :: rest => rest.dropWhile isAsciiDigit
    | rest => rest
  do
    let mantissa ← digitsValue 10 (whole ++ fraction)
    let power ← exponent rest
    return (mantissa : Rat) * (10 : Rat) ^ (power - fraction.length)

/-- `Number(value)` for a trimmed text. -/
def stringToNumber (engine : Engine) (value : Text) : Number :=
  if value = [] then .finite 0
  else match nonDecimal value with
    | some number => engine.round number
    | none =>
      let (negative, literal) := signed value
      if literal = text "Infinity" then .infinite negative
      else match unsignedDecimal literal with
        | some number => engine.round (if negative then -number else number)
        | none => .nan

theorem isAsciiDigit_of_mapM {value : Text} {digits : List Nat}
    (ascii : value.mapM asciiDecimal = some digits) : ∀ c ∈ value, isAsciiDigit c = true := by
  intro c member
  by_contra other
  have unread : asciiDecimal c = none := if_neg other
  rw [mapM_eq_none_iff.mpr ⟨c, member, unread⟩] at ascii
  cases ascii

theorem digitsValue_ascii {value : Text} {digits : List Nat}
    (ascii : value.mapM asciiDecimal = some digits) (nonempty : value ≠ []) :
    digitsValue 10 value = some (Py.spelled digits) := by
  have folded (start : Nat) : value.foldlM (fun value c => (hexValue c).bind fun digit =>
      if digit < 10 then some (10 * value + digit) else none) start =
        some (digits.foldl (fun value digit => 10 * value + digit) start) := by
    clear nonempty
    have each := mapM_eq_some_iff.mp ascii
    clear ascii
    induction value generalizing digits start with
    | nil =>
      cases digits with
      | nil => rfl
      | cons digit digits => cases each
    | cons c rest ih =>
      cases digits with
      | nil => cases each
      | cons digit digits =>
        obtain ⟨here, there⟩ := List.cons.inj each
        obtain ⟨small, rfl⟩ := asciiDecimal_eq_some_iff.mp here
        have read : hexValue (48 + digit) = some digit := by
          rw [hexValue, if_pos (by omega)]
          simp
        rw [List.foldlM_cons, read, Option.bind_some, if_pos small]
        exact ih _ there
  rw [digitsValue, if_neg nonempty, folded]
  rfl

theorem unsignedDecimal_ascii {value : Text} {digits : List Nat}
    (ascii : value.mapM asciiDecimal = some digits) (nonempty : value ≠ []) :
    unsignedDecimal value = some (Py.spelled digits : Rat) := by
  have each := isAsciiDigit_of_mapM ascii
  have whole : value.takeWhile isAsciiDigit = value := List.takeWhile_eq_self_iff.mpr each
  have rest : value.dropWhile isAsciiDigit = [] := List.dropWhile_eq_nil_iff.mpr each
  simp [unsignedDecimal, whole, rest, digitsValue_ascii ascii nonempty, exponent]

/-- A text of ASCII digits is the number it spells. -/
theorem stringToNumber_ascii (engine : Engine) {value : Text} {digits : List Nat}
    (ascii : value.mapM asciiDecimal = some digits) (nonempty : value ≠ []) :
    stringToNumber engine value = engine.round (Py.spelled digits : Int) := by
  have each := isAsciiDigit_of_mapM ascii
  obtain ⟨head, rest, rfl⟩ := List.exists_cons_of_ne_nil nonempty
  have bounds := isAsciiDigit_iff.mp (each head List.mem_cons_self)
  have decimal : nonDecimal (head :: rest) = none := by
    cases rest with
    | nil => simp [nonDecimal]
    | cons marker rest =>
      have second := isAsciiDigit_iff.mp (each marker (by simp))
      have base : baseOf marker = none := by
        rw [baseOf, if_neg (by omega), if_neg (by omega), if_neg (by omega)]
      unfold nonDecimal
      split
      · simp_all
      · rfl
  have sign : signed (head :: rest) = (false, head :: rest) := by
    unfold signed
    split <;> simp_all
  have finite : head :: rest ≠ text "Infinity" := by
    intro same
    have first : head = 73 := (List.cons.inj same).1
    omega
  rw [stringToNumber, if_neg nonempty, decimal, sign, Rat.intCast_natCast]
  simp [finite, unsignedDecimal_ascii ascii nonempty]

/-- `Boolean(value)`, where a missing key reads as `undefined`. -/
def truthy : Option Json → Bool
  | none | some .null => false
  | some (.bool value) => value
  | some (.int value) => value ≠ 0
  | some (.float value) => value ≠ 0
  | some (.infinite _) => true
  | some (.string value) => value ≠ []
  | some (.array _) => true
  | some (.object _) => true

inductive TypeError where
  | noPrimitive
  deriving DecidableEq, Repr

section
variable (engine : Engine)

mutual

/-- `String(value)`. An own `toString` of a parsed object is no function, and
`valueOf` gives the object back. -/
def toText : Json → Except TypeError Text
  | .null => .ok (text "null")
  | .bool value => .ok (if value then text "true" else text "false")
  | .int value => .ok (engine.numberText (engine.round value))
  | .float value => .ok (engine.numberText (.finite value))
  | .infinite negative => .ok (engine.numberText (.infinite negative))
  | .string value => .ok value
  | .array items => joinItems items
  | .object fields =>
    if (Json.lookup (text "toString") fields).isSome then .error .noPrimitive
    else .ok (text "[object Object]")
  termination_by structural value => value

/-- `items.join()`, which leaves out the text of `null`. -/
def joinItems : List Json → Except TypeError Text
  | [] => .ok []
  | item :: rest => do
    let printed ← toText item
    let tail ← joinItems rest
    return (if item.isNull then [] else printed) ++ (if rest.isEmpty then [] else text ",") ++ tail
  termination_by structural items => items

end

/-- `Number(value)`, where a missing argument reads as `undefined`. -/
def toNumber : Option Json → Except TypeError Number
  | none => .ok .nan
  | some .null => .ok (.finite 0)
  | some (.bool value) => .ok (.finite (if value then 1 else 0))
  | some (.int value) => .ok (engine.round value)
  | some (.float value) => .ok (.finite value)
  | some (.infinite negative) => .ok (.infinite negative)
  | some value => do
    let printed ← toText engine value
    return stringToNumber engine (trim printed)

/-- `String` throws: the value is, or holds through arrays, an object with a
`toString` of its own. -/
inductive Unprintable : Json → Prop
  | object (own : (Json.lookup (text "toString") fields).isSome) : Unprintable (.object fields)
  | array (member : item ∈ items) (inner : Unprintable item) : Unprintable (.array items)

mutual

theorem toText_error_iff (value : Json) :
    (∃ failure, toText engine value = .error failure) ↔ Unprintable value := by
  cases value with
  | array items =>
    rw [toText, joinItems_error_iff items]
    constructor
    · rintro ⟨item, member, inner⟩
      exact .array member inner
    · intro unprintable
      cases unprintable with
      | array member inner => exact ⟨_, member, inner⟩
  | object fields =>
    rw [toText]
    constructor
    · rintro ⟨failure, failed⟩
      split at failed
      · exact .object ‹_›
      · cases failed
    · intro unprintable
      cases unprintable with
      | object own => exact ⟨.noPrimitive, if_pos own⟩
  | _ =>
    simp only [toText, reduceCtorEq, exists_false, false_iff]
    intro unprintable
    cases unprintable
  termination_by structural value

theorem joinItems_error_iff (items : List Json) :
    (∃ failure, joinItems engine items = .error failure) ↔
      ∃ item ∈ items, Unprintable item := by
  cases items with
  | nil => simp [joinItems]
  | cons item rest =>
    have here := toText_error_iff item
    have there := joinItems_error_iff rest
    rw [joinItems, List.exists_mem_cons_iff, ← here, ← there]
    cases toText engine item with
    | error failure => exact ⟨fun _ => .inl ⟨failure, rfl⟩, fun _ => ⟨failure, rfl⟩⟩
    | ok printed =>
      cases joinItems engine rest with
      | error failure => simp [bind, Except.bind]
      | ok tail => simp [bind, Except.bind, pure, Except.pure]
  termination_by structural items

end

end

end N8nSystems.Lib.Js
