import Mathlib.Data.List.DropRight
import Mathlib.Data.Nat.Bitwise

/-! Python strings as lists of code points (lone surrogates included), with the
parts of `str`, `json` and `uuid` that the services use. -/

namespace N8nSystems.Lib.Py

abbrev Text := List Nat

instance : LawfulBEq Text := List.instLawfulBEq

abbrev Bytes := List UInt8

/-- The code points of a string literal. -/
def text (literal : String) : Text := literal.toList.map Char.toNat

def isAsciiDigit (c : Nat) : Bool := 48 ≤ c && c ≤ 57

theorem isAsciiDigit_iff {c : Nat} : isAsciiDigit c = true ↔ 48 ≤ c ∧ c ≤ 57 := by
  simp [isAsciiDigit]

def isAsciiWord (c : Nat) : Bool :=
  isAsciiDigit c || (65 ≤ c && c ≤ 90) || (97 ≤ c && c ≤ 122) || c == 95

def asciiDecimal (c : Nat) : Option Nat := if isAsciiDigit c then some (c - 48) else none

theorem asciiDecimal_eq_some_iff {c digit : Nat} :
    asciiDecimal c = some digit ↔ digit < 10 ∧ c = 48 + digit := by
  simp only [asciiDecimal, isAsciiDigit_iff]
  split
  · rw [Option.some.injEq]
    omega
  · simp only [reduceCtorEq, false_iff]
    omega

/-- `str.isspace` for one code point. -/
def isSpace (c : Nat) : Bool :=
  (9 ≤ c && c ≤ 13) || (0x1C ≤ c && c ≤ 0x20) || c == 0x85 || c == 0xA0 || c == 0x1680 ||
    (0x2000 ≤ c && c ≤ 0x200A) || c == 0x2028 || c == 0x2029 || c == 0x202F || c == 0x205F ||
    c == 0x3000

/-- `str.strip()`. -/
def strip (value : Text) : Text := (value.dropWhile isSpace).rdropWhile isSpace

/-- A text without such characters is trimmed already. -/
theorem trimmed_self {space : Nat → Bool} {value : Text}
    (clean : ∀ c ∈ value, space c = false) : (value.dropWhile space).rdropWhile space = value := by
  have front : value.dropWhile space = value := by
    rw [List.dropWhile_eq_self_iff]
    intro nonempty blank
    simp [clean _ (List.getElem_mem nonempty)] at blank
  rw [front, List.rdropWhile_eq_self_iff]
  intro nonempty blank
  simp [clean _ (List.getLast_mem nonempty)] at blank

theorem strip_idem (value : Text) : strip (strip value) = strip value := by
  unfold strip
  have front : (value.dropWhile isSpace).dropWhile isSpace = value.dropWhile isSpace :=
    List.dropWhile_idempotent ..
  generalize value.dropWhile isSpace = tail at front ⊢
  have before : (tail.rdropWhile isSpace).dropWhile isSpace = tail.rdropWhile isSpace := by
    rw [List.dropWhile_eq_self_iff] at front ⊢
    intro nonempty
    have inside := List.rdropWhile_prefix isSpace (l := tail)
    rw [inside.getElem nonempty]
    exact front (Nat.lt_of_lt_of_le nonempty inside.length_le)
  rw [before, List.rdropWhile_idempotent]

/-- What `strip` takes away is blank. -/
theorem strip_parts (value : Text) : ∃ left right, value = left ++ strip value ++ right ∧
    (∀ c ∈ left, isSpace c = true) ∧ ∀ c ∈ right, isSpace c = true := by
  refine ⟨value.takeWhile isSpace, (value.dropWhile isSpace).rtakeWhile isSpace, ?_, ?_, ?_⟩
  · rw [List.append_assoc, strip, List.rdropWhile_append_rtakeWhile, List.takeWhile_append_dropWhile]
  · exact fun c member => List.mem_takeWhile_imp member
  · exact fun c member => List.mem_rtakeWhile_imp member

theorem strip_ascii {value : Text} (ascii : ∀ c ∈ value, c < 128) : ∀ c ∈ strip value, c < 128 := by
  obtain ⟨left, right, parts, _⟩ := strip_parts value
  intro c member
  apply ascii c
  rw [parts]
  exact List.mem_append_left _ (List.mem_append_right _ member)

/-- Blanks around a text without blanks go away. -/
theorem strip_padded {left core right : Text} (before : ∀ c ∈ left, isSpace c = true)
    (solid : ∀ c ∈ core, isSpace c = false) (behind : ∀ c ∈ right, isSpace c = true) :
    strip (left ++ core ++ right) = core := by
  have front : (left ++ core ++ right).dropWhile isSpace = (core ++ right).dropWhile isSpace := by
    rw [List.append_assoc, List.dropWhile_append_of_pos before]
  rw [strip, front]
  cases core with
  | nil =>
    rw [List.nil_append, List.dropWhile_eq_nil_iff.mpr behind]
    rfl
  | cons c rest =>
    have kept : (c :: rest ++ right).dropWhile isSpace = c :: rest ++ right := by
      rw [List.cons_append, List.dropWhile_cons_of_neg (by simp [solid c List.mem_cons_self])]
    have stays : (c :: rest).rdropWhile isSpace = c :: rest := by
      rw [List.rdropWhile_eq_self_iff]
      intro nonempty blank
      rw [solid _ (List.getLast_mem nonempty)] at blank
      cases blank
    rw [kept, List.rdropWhile, List.reverse_append,
      List.dropWhile_append_of_pos fun c member => behind c (List.mem_reverse.mp member)]
    exact stays

/-- What stands before a text and has no character of the piece does not help to find it. -/
theorem infix_of_append {piece left core : List α} (inside : piece <:+: left ++ core)
    (apart : ∀ c ∈ left, c ∉ piece) : piece <:+: core := by
  induction left with
  | nil => exact inside
  | cons c left ih =>
    rcases List.infix_cons_iff.mp inside with start | later
    · rcases List.prefix_cons_iff.mp start with rfl | ⟨tail, rfl, -⟩
      · exact List.nil_infix
      · exact absurd List.mem_cons_self (apart c List.mem_cons_self)
    · exact ih later fun d member => apart d (List.mem_cons_of_mem c member)

theorem infix_of_padded {piece left core right : List α} (inside : piece <:+: left ++ core ++ right)
    (before : ∀ c ∈ left, c ∉ piece) (behind : ∀ c ∈ right, c ∉ piece) : piece <:+: core := by
  rw [List.append_assoc] at inside
  have front : piece <:+: core ++ right := infix_of_append inside before
  -- the same from the other end
  rw [← List.reverse_infix] at front ⊢
  rw [List.reverse_append] at front
  apply infix_of_append front
  intro c member
  rw [List.mem_reverse] at member ⊢
  exact behind c member

/-- `value.strip() or None`. -/
def stripOrNone (value : Text) : Option Text :=
  let stripped := strip value
  if stripped = [] then none else some stripped

/-- A line boundary of `str.splitlines`. -/
def isLineBreak (c : Nat) : Bool :=
  (10 ≤ c && c ≤ 13) || (0x1C ≤ c && c ≤ 0x1E) || c == 0x85 || c == 0x2028 || c == 0x2029

/-- `value.splitlines()[0] if value else ""`. -/
def firstLine (value : Text) : Text := value.takeWhile fun c => !isLineBreak c

/-- `value.replace("\r\n", "\n")`. -/
def crlfToLf : Text → Text
  | 13 :: 10 :: rest => 10 :: crlfToLf rest
  | c :: rest => c :: crlfToLf rest
  | [] => []

/-- What a file opened in text mode reads for its line ends. -/
def universalNewlines : Text → Text
  | 13 :: 10 :: rest => 10 :: universalNewlines rest
  | 13 :: rest => 10 :: universalNewlines rest
  | c :: rest => c :: universalNewlines rest
  | [] => []

theorem universalNewlines_lf (value : Text) : 13 ∉ universalNewlines value := by
  fun_induction universalNewlines value with
  | case1 rest ih => simpa using ih
  | case2 rest _ ih => simpa using ih
  | case3 c rest _ other ih => simpa [Ne.symm other] using ih
  | case4 => simp

/-- Only a carriage return is translated. -/
theorem universalNewlines_eq_self_iff {value : Text} : universalNewlines value = value ↔ 13 ∉ value := by
  constructor
  · intro same
    rw [← same]
    exact universalNewlines_lf value
  · intro plain
    fun_induction universalNewlines value with
    | case1 rest => simp at plain
    | case2 rest => simp at plain
    | case3 c rest _ _ ih => rw [ih fun later => plain (List.mem_cons_of_mem c later)]
    | case4 => rfl

theorem crlfToLf_self {value : Text} (plain : 13 ∉ value) : crlfToLf value = value := by
  induction value with
  | nil => rfl
  | cons c rest ih =>
    obtain ⟨other, later⟩ := not_or.mp (mt List.mem_cons.mpr plain)
    rw [crlfToLf, ih later]
    intro rest same
    exact absurd same.symm other

/-- `PurePosixPath(path).name`. -/
def pathName (path : Text) : Text :=
  ((path.splitOn 47).filter fun part => part ≠ [] ∧ part ≠ [46]).getLast?.getD []

/-- `PurePosixPath(path).suffix`. -/
def pathSuffix (path : Text) : Text :=
  let name := pathName path
  let extension := name.rtakeWhile (· ≠ 46)
  if extension ≠ [] ∧ extension.length + 1 < name.length then 46 :: extension else []

/-- A lowercase hex digit. -/
def hexDigit (d : Nat) : Nat := if d < 10 then 48 + d else 87 + d

/-- The lowest `width` hex digits of a number, most significant first. -/
def hexPad : Nat → Nat → Text
  | 0, _ => []
  | width + 1, n => hexPad width (n / 16) ++ [hexDigit (n % 16)]

theorem hexDigit_injective {a b : Nat} (first : a < 16) (second : b < 16)
    (same : hexDigit a = hexDigit b) : a = b := by
  unfold hexDigit at same
  split at same <;> split at same <;> omega

theorem hexPad_length (width n : Nat) : (hexPad width n).length = width := by
  induction width generalizing n with
  | zero => rfl
  | succ width ih => simp [hexPad, ih]

theorem hexPad_injective {width a b : Nat} (first : a < 16 ^ width) (second : b < 16 ^ width)
    (same : hexPad width a = hexPad width b) : a = b := by
  induction width generalizing a b with
  | zero =>
    simp only [Nat.pow_zero, Nat.lt_one_iff] at first second
    rw [first, second]
  | succ width ih =>
    obtain ⟨high, low⟩ := List.append_inj' same rfl
    have digit : a % 16 = b % 16 :=
      hexDigit_injective (Nat.mod_lt a (by decide)) (Nat.mod_lt b (by decide)) (by simpa using low)
    have rest : a / 16 = b / 16 := by
      apply ih _ _ high <;> omega
    omega

/-- `bytes.hex()`, as `hexdigest()` prints a digest. -/
def hex (bytes : Bytes) : Text := bytes.flatMap fun b => hexPad 2 b.toNat

abbrev Uuid := BitVec 128

/-- `str(uuid)`: the 8-4-4-4-12 form. -/
def Uuid.str (id : Uuid) : Text :=
  let digits := hexPad 32 id.toNat
  let dash := [45]
  digits.take 8 ++ dash ++ (digits.drop 8).take 4 ++ dash ++ (digits.drop 12).take 4 ++ dash ++
    (digits.drop 16).take 4 ++ dash ++ digits.drop 20

theorem Uuid.str_injective {first second : Uuid} (same : first.str = second.str) :
    first = second := by
  have lengths := fun id : Uuid => hexPad_length 32 id.toNat
  simp only [Uuid.str, List.append_assoc] at same
  -- The groups have fixed lengths, so equal texts have equal groups.
  obtain ⟨a, same⟩ := List.append_inj same (by simp [lengths])
  obtain ⟨-, same⟩ := List.append_inj same rfl
  obtain ⟨b, same⟩ := List.append_inj same (by simp [lengths])
  obtain ⟨-, same⟩ := List.append_inj same rfl
  obtain ⟨c, same⟩ := List.append_inj same (by simp [lengths])
  obtain ⟨-, same⟩ := List.append_inj same rfl
  obtain ⟨d, same⟩ := List.append_inj same (by simp [lengths])
  obtain ⟨-, e⟩ := List.append_inj same rfl
  have group (width i : Nat) (digits : Text) :
      (digits.drop i).take width ++ digits.drop (i + width) = digits.drop i := by
    rw [← List.drop_drop, List.take_append_drop]
  have groups (digits : Text) : digits.take 8 ++ ((digits.drop 8).take 4 ++
      ((digits.drop 12).take 4 ++ ((digits.drop 16).take 4 ++ digits.drop 20))) = digits := by
    rw [group 4 16, group 4 12, group 4 8, List.take_append_drop]
  have digits : hexPad 32 first.toNat = hexPad 32 second.toNat := by
    rw [← groups (hexPad 32 first.toNat), ← groups (hexPad 32 second.toNat), a, b, c, d, e]
  exact BitVec.eq_of_toNat_eq (hexPad_injective first.isLt second.isLt digits)

/-- One code point inside a `json.dumps` string (`ensure_ascii`). -/
def jsonEscape (c : Nat) : Text :=
  let unicode (unit : Nat) := text "\\u" ++ hexPad 4 unit
  if c = 34 then text "\\\""
  else if c = 92 then text "\\\\"
  else if c = 10 then text "\\n"
  else if c = 13 then text "\\r"
  else if c = 9 then text "\\t"
  else if c = 12 then text "\\f"
  else if c = 8 then text "\\b"
  else if 32 ≤ c ∧ c ≤ 126 then [c]
  else if c < 0x10000 then unicode c
  else unicode (0xD800 + (c - 0x10000) / 0x400) ++ unicode (0xDC00 + (c - 0x10000) % 0x400)

/-- `json.dumps` of a `str | None`. -/
def jsonText : Option Text → Text
  | none => text "null"
  | some value => [34] ++ value.flatMap jsonEscape ++ [34]

end N8nSystems.Lib.Py
