import N8nSystems.Lib.PyJson

/-! `json.dumps` with any separators and indentation, and `json.loads` reading back what
it prints. -/

namespace N8nSystems.Lib.Py

open Loads (isJsonSpace)

/-- How `json.dumps` sets out a value: what it escapes, what stands between a bracket and
the items at a level, what follows a comma there, and what follows a colon. -/
structure Layout where
  ensureAscii : Bool
  gap : Nat → Text
  afterComma : Nat → Text
  afterColon : Text
  gap_space : ∀ level, (gap level).all isJsonSpace = true
  afterComma_space : ∀ level, (afterComma level).all isJsonSpace = true
  afterColon_space : afterColon.all isJsonSpace = true

theorem newLine_space (level : Nat) : (newLine level).all isJsonSpace = true := by
  simp [newLine, isJsonSpace]

/-- `indent=2, ensure_ascii=False`. -/
def Layout.indented : Layout where
  ensureAscii := false
  gap := newLine
  afterComma := newLine
  afterColon := [32]
  gap_space := newLine_space
  afterComma_space := newLine_space
  afterColon_space := rfl

/-- `separators=(",", ":")`. -/
def Layout.compact (ensureAscii : Bool) : Layout where
  ensureAscii := ensureAscii
  gap _ := []
  afterComma _ := []
  afterColon := []
  gap_space _ := rfl
  afterComma_space _ := rfl
  afterColon_space := rfl

namespace Layout

variable (layout : Layout)

def quoted (value : Text) : Text :=
  34 :: value.flatMap (if layout.ensureAscii then jsonEscape else escapeChar) ++ [34]

section
variable (floats : FloatText)

mutual

/-- `json.dumps(value)` in the layout, at the level. -/
def printAt (level : Nat) : Json → Text
  | .null => text "null"
  | .bool value => if value then text "true" else text "false"
  | .int value => text (toString value)
  | .float value => floats.print (.float value)
  | .infinite negative => floats.print (.infinite negative)
  | .string value => layout.quoted value
  | .array items =>
    if items.isEmpty then text "[]"
    else [91] ++ layout.gap (level + 1) ++ printItems (level + 1) items ++ layout.gap level ++ [93]
  | .object fields =>
    if fields.isEmpty then text "\x7b\x7d"
    else [123] ++ layout.gap (level + 1) ++ printFields (level + 1) fields ++ layout.gap level ++ [125]
  termination_by structural value => value

def printItems (level : Nat) : List Json → Text
  | [] => []
  | item :: rest =>
    printAt level item ++ (if rest.isEmpty then [] else 44 :: layout.afterComma level) ++
      printItems level rest
  termination_by structural items => items

def printFields (level : Nat) : List (Text × Json) → Text
  | [] => []
  | field :: rest =>
    printField level field ++ (if rest.isEmpty then [] else 44 :: layout.afterComma level) ++
      printFields level rest
  termination_by structural fields => fields

def printField (level : Nat) : Text × Json → Text
  | (key, value) => layout.quoted key ++ 58 :: layout.afterColon ++ printAt level value
  termination_by structural field => field

end

/-- `json.dumps(value)`. -/
def dumps (value : Json) : Text := layout.printAt floats 0 value

end

end Layout

/-- The printer with `indent=2` is the one of this layout. -/
theorem dumpsAt_eq (floats : FloatText) (level : Nat) (value : Json) :
    dumpsAt floats level value = Layout.indented.printAt floats level value := by
  induction value using Json.induction generalizing level with
  | array items ih =>
    have inner (level : Nat) (items : List Json) (some : items ≠ [])
        (each : ∀ item ∈ items, dumpsAt floats level item = Layout.indented.printAt floats level item) :
        dumpsItems floats level items = newLine level ++ Layout.indented.printItems floats level items := by
      induction items with
      | nil => exact absurd rfl some
      | cons item rest ih =>
        rw [dumpsItems, Layout.printItems, each item List.mem_cons_self]
        cases rest with
        | nil => simp [dumpsItems, Layout.printItems]
        | cons next rest =>
          rw [ih (List.cons_ne_nil next rest) fun other member => each other (List.mem_cons_of_mem item member)]
          simp [Layout.indented, text]
    rw [dumpsAt, Layout.printAt]
    cases items with
    | nil => rfl
    | cons item rest =>
      rw [inner (level + 1) _ (List.cons_ne_nil item rest) fun item member => ih item member _]
      simp [Layout.indented, text]
  | object fields ih =>
    have inner (level : Nat) (fields : List (Text × Json)) (some : fields ≠ [])
        (each : ∀ field ∈ fields, dumpsAt floats level field.2 = Layout.indented.printAt floats level field.2) :
        dumpsFields floats level fields = newLine level ++ Layout.indented.printFields floats level fields := by
      induction fields with
      | nil => exact absurd rfl some
      | cons field rest ih =>
        obtain ⟨key, value⟩ := field
        rw [dumpsFields, Layout.printFields, dumpsField, Layout.printField,
          each (key, value) List.mem_cons_self]
        cases rest with
        | nil => simp [dumpsFields, Layout.printFields, Layout.quoted, quoted, Layout.indented, text]
        | cons next rest =>
          rw [ih (List.cons_ne_nil next rest) fun other member => each other (List.mem_cons_of_mem _ member)]
          simp [Layout.quoted, quoted, Layout.indented, text]
    rw [dumpsAt, Layout.printAt]
    cases fields with
    | nil => rfl
    | cons field rest =>
      rw [inner (level + 1) _ (List.cons_ne_nil field rest) fun field member => ih field member _]
      simp [Layout.indented, text]
  | _ => rfl

namespace Loads

variable {floats : FloatText} {stack : List Frame} {rest : Text}

/-- The modes in which white space is skipped. -/
def Mode.Skips : Mode → Prop
  | .value | .firstItem | .firstKey | .key | .colon | .done | .finished _ => True
  | _ => False

theorem step_space {mode : Mode} (skips : mode.Skips) {c : Nat} (space : isJsonSpace c = true) :
    step floats ⟨mode, stack⟩ c = some ⟨mode, stack⟩ := by
  cases mode with
  | string | numeral | word => exact skips.elim
  | done | finished => simp [step, afterValue, space]
  | _ => simp [step, space]

theorem foldlM_spaces {mode : Mode} (skips : mode.Skips) {spaces : Text}
    (blank : spaces.all isJsonSpace = true) :
    (spaces ++ rest).foldlM (step floats) ⟨mode, stack⟩ = rest.foldlM (step floats) ⟨mode, stack⟩ := by
  induction spaces with
  | nil => rfl
  | cons c spaces ih =>
    obtain ⟨space, later⟩ := Bool.and_eq_true_iff.mp blank
    rw [List.cons_append, List.foldlM_cons, step_space skips space, Option.bind_eq_bind, Option.bind_some]
    exact ih later

theorem hexValue_hexDigit : ∀ d < 16, hexValue (hexDigit d) = some d := by decide

/-- Inside a string, a character that does not close it. -/
theorem step_string {isKey : Bool} {chars : Text} {escape : Escape} {c : Nat}
    (inside : closes escape c = false) :
    step floats ⟨.string isKey chars escape, stack⟩ c =
      (stringStep chars escape c).map fun next => ⟨.string isKey next.1 next.2, stack⟩ := by
  simp only [step, inside, Bool.false_eq_true, if_false]

theorem foldlM_hexPad {isKey high : Bool} {chars : Text} {code : Nat} (small : code < 65536) :
    (hexPad 4 code ++ rest).foldlM (step floats) ⟨.string isKey chars (.hex high 4 0), stack⟩ =
      rest.foldlM (step floats)
        ⟨.string isKey (escaped chars high code).1 (escaped chars high code).2, stack⟩ := by
  have digit (left value d : Nat) (small : d < 16) :
      step floats ⟨.string isKey chars (.hex high left value), stack⟩ (hexDigit d) =
        some (let next := if left ≤ 1 then escaped chars high (16 * value + d)
            else (chars, .hex high (left - 1) (16 * value + d))
          ⟨.string isKey next.1 next.2, stack⟩) := by
    rw [step_string rfl, stringStep, hexValue_hexDigit d small]
    rfl
  have whole : 16 * (16 * (16 * (code / 16 / 16 / 16 % 16) + code / 16 / 16 % 16) + code / 16 % 16) +
      code % 16 = code := by omega
  simp [hexPad, List.foldlM_cons, digit, Nat.mod_lt, whole]

section
variable {isKey : Bool} {chars : Text} {c : Nat}

/-- A character that is printed as it is. -/
theorem foldlM_plain (first : c ≠ 34) (second : c ≠ 92) (third : ¬c < 32) :
    (c :: rest).foldlM (step floats) ⟨.string isKey chars (.plain false), stack⟩ =
      rest.foldlM (step floats) ⟨.string isKey (chars ++ [c]) (.plain false), stack⟩ := by
  have inside : closes (.plain false) c = false := by simpa [closes] using first
  simp [List.foldlM_cons, step_string inside, stringStep, second, third]

theorem step_backslash (high : Bool) :
    step floats ⟨.string isKey chars (.plain high), stack⟩ 92 =
      some ⟨.string isKey chars (.begun high), stack⟩ := rfl

/-- An escape of two characters. -/
theorem foldlM_short {escape : Text} {mark : Nat} (spelled : escape = [92, mark]) (other : mark ≠ 117)
    (meant : unescape mark = some c) :
    (escape ++ rest).foldlM (step floats) ⟨.string isKey chars (.plain false), stack⟩ =
      rest.foldlM (step floats) ⟨.string isKey (chars ++ [c]) (.plain false), stack⟩ := by
  have letter : step floats ⟨.string isKey chars (.begun false), stack⟩ mark =
      some ⟨.string isKey (chars ++ [c]) (.plain false), stack⟩ := by
    rw [step_string rfl, stringStep, if_neg other, meant]
    rfl
  simp only [spelled, List.cons_append, List.nil_append, List.foldlM_cons, step_backslash, letter,
    Option.bind_eq_bind, Option.bind_some]

/-- An escape of a UTF-16 unit. -/
theorem foldlM_unit {high : Bool} {code : Nat} (small : code < 65536) :
    (text "\\u" ++ hexPad 4 code ++ rest).foldlM (step floats) ⟨.string isKey chars (.plain high), stack⟩ =
      rest.foldlM (step floats)
        ⟨.string isKey (escaped chars high code).1 (escaped chars high code).2, stack⟩ := by
  have marks : text "\\u" = [92, 117] := by decide
  have letter : step floats ⟨.string isKey chars (.begun high), stack⟩ 117 =
      some ⟨.string isKey chars (.hex high 4 0), stack⟩ := rfl
  simp only [← foldlM_hexPad small, marks, List.cons_append, List.nil_append,
    List.foldlM_cons, step_backslash, letter, Option.bind_eq_bind, Option.bind_some]

theorem foldlM_escapeChar :
    (escapeChar c ++ rest).foldlM (step floats) ⟨.string isKey chars (.plain false), stack⟩ =
      rest.foldlM (step floats) ⟨.string isKey (chars ++ [c]) (.plain false), stack⟩ := by
  unfold escapeChar
  split
  · rename_i mark
    rcases mark with rfl | rfl <;> exact foldlM_short rfl (by decide) rfl
  split
  · rename_i mark
    subst mark
    exact foldlM_short (by decide : text "\\n" = [92, 110]) (by decide) rfl
  split
  · rename_i mark
    subst mark
    exact foldlM_short (by decide : text "\\r" = [92, 114]) (by decide) rfl
  split
  · rename_i mark
    subst mark
    exact foldlM_short (by decide : text "\\t" = [92, 116]) (by decide) rfl
  split
  · rename_i mark
    subst mark
    exact foldlM_short (by decide : text "\\b" = [92, 98]) (by decide) rfl
  split
  · rename_i mark
    subst mark
    exact foldlM_short (by decide : text "\\f" = [92, 102]) (by decide) rfl
  split
  · rw [foldlM_unit (by omega)]
    have low : ¬(0xD800 ≤ c ∧ c ≤ 0xDBFF) := by omega
    simp [escaped, low]
  · exact foldlM_plain (by omega) (by omega) (by omega)

theorem foldlM_jsonEscape (valid : c.isValidChar) :
    (jsonEscape c ++ rest).foldlM (step floats) ⟨.string isKey chars (.plain false), stack⟩ =
      rest.foldlM (step floats) ⟨.string isKey (chars ++ [c]) (.plain false), stack⟩ := by
  have range : c < 0xD800 ∨ 0xDFFF < c ∧ c < 0x110000 := valid
  unfold jsonEscape
  extract_lets unicode
  split
  · rename_i mark
    subst mark
    exact foldlM_short (by decide : text "\\\"" = [92, 34]) (by decide) rfl
  split
  · rename_i mark
    subst mark
    exact foldlM_short (by decide : text "\\\\" = [92, 92]) (by decide) rfl
  split
  · rename_i mark
    subst mark
    exact foldlM_short (by decide : text "\\n" = [92, 110]) (by decide) rfl
  split
  · rename_i mark
    subst mark
    exact foldlM_short (by decide : text "\\r" = [92, 114]) (by decide) rfl
  split
  · rename_i mark
    subst mark
    exact foldlM_short (by decide : text "\\t" = [92, 116]) (by decide) rfl
  split
  · rename_i mark
    subst mark
    exact foldlM_short (by decide : text "\\f" = [92, 102]) (by decide) rfl
  split
  · rename_i mark
    subst mark
    exact foldlM_short (by decide : text "\\b" = [92, 98]) (by decide) rfl
  split
  · exact foldlM_plain (by omega) (by omega) (by omega)
  split
  · rw [foldlM_unit (by omega)]
    have unpaired : ¬(0xD800 ≤ c ∧ c ≤ 0xDBFF) := by omega
    simp [escaped, unpaired]
  · -- The high surrogate is kept until the low one joins it.
    have first : escaped chars false (0xD800 + (c - 0x10000) / 0x400) =
        (chars ++ [0xD800 + (c - 0x10000) / 0x400], .plain true) := by
      have high : 0xD800 ≤ 0xD800 + (c - 0x10000) / 0x400 ∧ 0xD800 + (c - 0x10000) / 0x400 ≤ 0xDBFF := by
        omega
      simp only [escaped, Bool.false_eq_true, false_and, if_false, high, and_self, decide_true]
    have second : escaped (chars ++ [0xD800 + (c - 0x10000) / 0x400]) true
        (0xDC00 + (c - 0x10000) % 0x400) = (chars ++ [c], .plain false) := by
      have low : 0xDC00 ≤ 0xDC00 + (c - 0x10000) % 0x400 ∧ 0xDC00 + (c - 0x10000) % 0x400 ≤ 0xDFFF := by
        omega
      have joined : 0x10000 + (0xD800 + (c - 0x10000) / 0x400 - 0xD800) * 0x400 +
          (0xDC00 + (c - 0x10000) % 0x400 - 0xDC00) = c := by omega
      simp only [escaped, low, and_self, if_true, List.dropLast_concat, List.getLastD_concat,
        joined]
    rw [List.append_assoc, foldlM_unit (by omega), first, foldlM_unit (by omega), second]

end

section
variable {layout : Layout} {isKey : Bool} {value : Text}

/-- The characters of a text between the quotes. -/
theorem foldlM_escaped (legible : layout.ensureAscii = true → ∀ c ∈ value, c.isValidChar) (chars : Text) :
    (value.flatMap (if layout.ensureAscii then jsonEscape else escapeChar) ++ rest).foldlM (step floats)
        ⟨.string isKey chars (.plain false), stack⟩ =
      rest.foldlM (step floats) ⟨.string isKey (chars ++ value) (.plain false), stack⟩ := by
  induction value generalizing chars with
  | nil => simp
  | cons c value ih =>
    have later := ih (fun ascii d member => legible ascii d (List.mem_cons_of_mem c member)) (chars ++ [c])
    rw [List.append_assoc, List.singleton_append] at later
    rw [← later, List.flatMap_cons, List.append_assoc]
    by_cases ascii : layout.ensureAscii = true
    · simp only [if_pos ascii, foldlM_jsonEscape (legible ascii c List.mem_cons_self)]
    · simp only [if_neg ascii, foldlM_escapeChar]

theorem foldlM_string (legible : layout.ensureAscii = true → ∀ c ∈ value, c.isValidChar) :
    (layout.quoted value ++ rest).foldlM (step floats) ⟨.value, stack⟩ =
      rest.foldlM (step floats) (complete (.string value) stack) := by
  have opened : step floats ⟨.value, stack⟩ 34 = some ⟨.string false [] (.plain false), stack⟩ := rfl
  have closed : step floats ⟨.string false value (.plain false), stack⟩ 34 =
      some (complete (.string value) stack) := rfl
  rw [Layout.quoted, List.cons_append, List.cons_append, List.append_assoc, List.foldlM_cons, opened,
    Option.bind_eq_bind, Option.bind_some, foldlM_escaped legible, List.nil_append, List.singleton_append,
    List.foldlM_cons, closed, Option.bind_eq_bind, Option.bind_some]

theorem foldlM_key {mode : Mode} (awaited : mode = .firstKey ∨ mode = .key) {fields : List (Text × Json)}
    {old : Text} (legible : layout.ensureAscii = true → ∀ c ∈ value, c.isValidChar) :
    (layout.quoted value ++ rest).foldlM (step floats) ⟨mode, .object fields old :: stack⟩ =
      rest.foldlM (step floats) ⟨.colon, .object fields value :: stack⟩ := by
  have opened : step floats ⟨mode, .object fields old :: stack⟩ 34 =
      some ⟨.string true [] (.plain false), .object fields old :: stack⟩ := by
    rcases awaited with rfl | rfl <;> rfl
  have closed : step floats ⟨.string true value (.plain false), .object fields old :: stack⟩ 34 =
      some ⟨.colon, .object fields value :: stack⟩ := rfl
  rw [Layout.quoted, List.cons_append, List.cons_append, List.append_assoc, List.foldlM_cons, opened,
    Option.bind_eq_bind, Option.bind_some, foldlM_escaped legible, List.nil_append, List.singleton_append,
    List.foldlM_cons, closed, Option.bind_eq_bind, Option.bind_some]

end

/-- Where a number begins. -/
def startNumeral (c : Nat) : Option Numeral :=
  if c = 45 then some .minus
  else if c = 48 then some .zero
  else if 49 ≤ c ∧ c ≤ 57 then some .whole
  else none

/-- The characters spell a number as far as the place. -/
def Spells : Text → Numeral → Prop
  | [], _ => False
  | c :: rest, place => (startNumeral c).bind (fun start => rest.foldlM Numeral.next start) = some place

/-- Where a number may end. -/
def Numeral.Final : Numeral → Prop
  | .zero | .whole | .fraction | .power => True
  | _ => False

/-- The text goes on with a character that ends every number. -/
def Ends : Text → Prop
  | [] => False
  | c :: _ => ∀ place : Numeral, place.Final → place.next c = none

theorem foldlM_digits {chars digits : Text} {start place : Numeral}
    (spelled : digits.foldlM Numeral.next start = some place) :
    (digits ++ rest).foldlM (step floats) ⟨.numeral chars start, stack⟩ =
      rest.foldlM (step floats) ⟨.numeral (chars ++ digits) place, stack⟩ := by
  induction digits generalizing chars start with
  | nil =>
    cases spelled
    simp
  | cons c digits ih =>
    obtain ⟨next, read, later⟩ := Option.bind_eq_some_iff.mp (List.foldlM_cons.symm.trans spelled)
    have taken : step floats ⟨.numeral chars start, stack⟩ c = some ⟨.numeral (chars ++ [c]) next, stack⟩ := by
      simp only [step, read]
    rw [List.cons_append, List.foldlM_cons, taken, Option.bind_eq_bind, Option.bind_some, ih later,
      List.append_assoc, List.singleton_append]

theorem step_complete (value : Json) (c : Nat) :
    step floats (complete value stack) c = afterValue (complete value stack) c := by
  cases stack with
  | nil => rfl
  | cons frame rest => cases frame <;> rfl

theorem step_numeral_end {chars : Text} {place : Numeral} {c : Nat} (final : place.Final)
    (stop : place.next c = none) :
    step floats ⟨.numeral chars place, stack⟩ c =
      (readNumeral floats chars place).bind fun value => afterValue (complete value stack) c := by
  cases place with
  | minus | point | exponent | sign => exact final.elim
  | _ => simp only [step, stop]

/-- A number is read to its end. -/
theorem foldlM_number {chars : Text} {place : Numeral} {value : Json} (spells : Spells chars place)
    (read : readNumeral floats chars place = some value) (ends : Ends rest) :
    (chars ++ rest).foldlM (step floats) ⟨.value, stack⟩ =
      rest.foldlM (step floats) (complete value stack) := by
  cases chars with
  | nil => exact spells.elim
  | cons c digits =>
    obtain ⟨start, first, spelled⟩ := Option.bind_eq_some_iff.mp spells
    have opened : step floats ⟨.value, stack⟩ c = some ⟨.numeral [c] start, stack⟩ := by
      unfold startNumeral at first
      simp only [step, isJsonSpace, startValue]
      grind
    rw [List.cons_append, List.foldlM_cons, opened, Option.bind_eq_bind, Option.bind_some,
      foldlM_digits spelled, List.singleton_append]
    cases rest with
    | nil => exact ends.elim
    | cons d rest =>
      have final : place.Final := by
        cases place with
        | minus | point | exponent | sign => cases read
        | _ => trivial
      rw [List.foldlM_cons, List.foldlM_cons, step_numeral_end final (ends place final), read,
        Option.bind_some, step_complete]

theorem foldlM_word (word : Word) :
    (word.spelling ++ rest).foldlM (step floats) ⟨.value, stack⟩ =
      rest.foldlM (step floats) (complete (word.meaning floats) stack) := by
  cases word <;> rfl

/-- The digits of a positive number, none before the first being a zero. -/
theorem digits_shape {n : Nat} (positive : 0 < n) : ∃ c rest, text (toString n) = c :: rest ∧
    49 ≤ c ∧ c ≤ 57 ∧ ∀ d ∈ rest, isAsciiDigit d = true := by
  have digits (n : Nat) : text (toString n) = (Nat.toDigits 10 n).map Char.toNat := by
    rw [text, Nat.toString_eq_ofList_toDigits, String.toList_ofList]
  have digitChar : ∀ d < 10, (Nat.digitChar d).toNat = 48 + d := by decide
  induction n using Nat.strongRecOn with
  | ind n ih =>
    rw [digits]
    by_cases small : n < 10
    · rw [Nat.toDigits_of_lt_base small]
      exact ⟨48 + n, [], by simp [digitChar n small], by omega, by omega, by simp⟩
    · obtain ⟨c, rest, shape, lower, upper, others⟩ := ih (n / 10) (by omega) (by omega)
      rw [digits] at shape
      rw [Nat.toDigits_of_base_le (by decide) (by omega), List.map_append, shape]
      refine ⟨c, rest ++ [48 + n % 10], ?_, lower, upper, ?_⟩
      · simp [digitChar (n % 10) (by omega)]
      · intro d member
        rcases List.mem_append.mp member with earlier | last
        · exact others d earlier
        · rw [List.mem_singleton.mp last]
          simp [isAsciiDigit]
          omega

theorem foldlM_whole {digits : Text} (all : ∀ d ∈ digits, isAsciiDigit d = true) :
    digits.foldlM Numeral.next .whole = some .whole := by
  induction digits with
  | nil => rfl
  | cons d digits ih =>
    have read : Numeral.next .whole d = some .whole := by simp [Numeral.next, all d List.mem_cons_self]
    rw [List.foldlM_cons, read, Option.bind_eq_bind, Option.bind_some]
    exact ih fun other member => all other (List.mem_cons_of_mem d member)

theorem spells_int (value : Int) : ∃ place, place.Final ∧ (place = .zero ∨ place = .whole) ∧
    Spells (text (toString value)) place := by
  cases value with
  | ofNat n =>
    show ∃ place, _ ∧ _ ∧ Spells (text (toString n)) place
    rcases Nat.eq_zero_or_pos n with rfl | positive
    · exact ⟨.zero, trivial, .inl rfl, rfl⟩
    · obtain ⟨c, rest, shape, lower, upper, others⟩ := digits_shape positive
      refine ⟨.whole, trivial, .inr rfl, ?_⟩
      have start : startNumeral c = some .whole := by
        unfold startNumeral
        rw [if_neg (by omega), if_neg (by omega), if_pos ⟨lower, upper⟩]
      rw [shape, Spells, start, Option.bind_some, foldlM_whole others]
  | negSucc n =>
    obtain ⟨c, rest, shape, lower, upper, others⟩ := digits_shape (Nat.succ_pos n)
    refine ⟨.whole, trivial, .inr rfl, ?_⟩
    have signed : text (toString (Int.negSucc n)) = 45 :: text (toString (n + 1)) := by
      show text ("-" ++ toString (n + 1)) = _
      rw [text, String.toList_append, List.map_append]
      rfl
    have first : Numeral.next .minus c = some .whole := by
      have digit : isAsciiDigit c = true := by
        simp [isAsciiDigit]
        omega
      simp only [Numeral.next, digit, if_true, if_neg (by omega : ¬c = 48)]
    rw [signed, shape, Spells, startNumeral, if_pos rfl, Option.bind_some, List.foldlM_cons, first,
      Option.bind_eq_bind, Option.bind_some, foldlM_whole others]

theorem spelled_digits (chars : List Char) (value : Nat) :
    ((chars.map Char.toNat).map (· - 48)).foldl (fun value digit => 10 * value + digit) value =
      Nat.ofDigitChars 10 chars value := by
  induction chars generalizing value with
  | nil => rfl
  | cons c chars ih =>
    rw [List.map_cons, List.map_cons, List.foldl_cons, Nat.ofDigitChars_cons, ih]
    rfl

/-- A printed integer is read back, unless it has too many digits. -/
theorem readInt_toString {value : Int}
    (short : (Nat.toDigits 10 value.natAbs).length ≤ intMaxStrDigits) :
    readInt (text (toString value)) = some (.int value) := by
  have digits (n : Nat) : text (toString n) = (Nat.toDigits 10 n).map Char.toNat := by
    rw [text, Nat.toString_eq_ofList_toDigits, String.toList_ofList]
  have number (n : Nat) : spelled (((Nat.toDigits 10 n).map Char.toNat).map (· - 48)) = n := by
    rw [spelled, spelled_digits, Nat.ofDigitChars_ten_toDigits]
  cases value with
  | ofNat n =>
    have unsigned : ((Nat.toDigits 10 n).map Char.toNat).head? ≠ some 45 := by
      intro minus
      obtain ⟨c, digit, same⟩ := List.mem_map.mp (List.mem_of_head? minus)
      have decimal := Nat.isDigit_of_mem_toDigits (by decide) (by decide) digit
      rw [show c = '-' from Char.toNat_inj.mp same] at decimal
      exact absurd decimal (by decide)
    show readInt (text (toString n)) = _
    rw [digits, readInt]
    simp only [if_neg unsigned, List.length_map, number]
    exact if_pos short
  | negSucc n =>
    have signed : text (toString (Int.negSucc n)) = 45 :: (Nat.toDigits 10 (n + 1)).map Char.toNat := by
      show text ("-" ++ toString (n + 1)) = _
      rw [← digits, text, String.toList_append, List.map_append]
      rfl
    rw [signed, readInt]
    simp only [List.head?_cons, if_true, List.tail_cons, List.length_map, number]
    exact if_pos short

/-- White space, a comma and a closing bracket end a number. -/
theorem ends_mark {c : Nat} (mark : isJsonSpace c = true ∨ c = 44 ∨ c = 93 ∨ c = 125) : Ends (c :: rest) := by
  have marks : c = 32 ∨ c = 9 ∨ c = 10 ∨ c = 13 ∨ c = 44 ∨ c = 93 ∨ c = 125 := by
    simpa [isJsonSpace, or_assoc] using mark
  intro place final
  rcases marks with rfl | rfl | rfl | rfl | rfl | rfl | rfl <;> cases place <;>
    first | exact final.elim | rfl

theorem ends_closing {spaces : Text} (blank : spaces.all isJsonSpace = true) {c : Nat}
    (closing : c = 93 ∨ c = 125) : Ends (spaces ++ c :: rest) := by
  cases spaces with
  | nil => exact ends_mark (.inr (.inr closing))
  | cons space spaces => exact ends_mark (.inl (Bool.and_eq_true_iff.mp blank).1)

end Loads

/-- A number that `float` has read, or an infinity. -/
def IsFloat : Json → Prop
  | .float _ | .infinite _ => True
  | _ => False

/-- A number with a fraction or an exponent, or a constant. -/
def IsFloatLiteral (chars : Text) : Prop :=
  Loads.Spells chars .fraction ∨ Loads.Spells chars .power ∨
    ∃ word ∈ [Loads.Word.infinity, .minusInfinity], chars = word.spelling

/-- What `float` reads is printed by `repr` as a literal that `float` reads as the same
value; `NaN`, which is no value here, stands for one of them. -/
structure FloatText.Lawful (floats : FloatText) : Prop where
  isFloat : ∀ chars, IsFloat (floats.read chars)
  literal : ∀ chars, IsFloatLiteral (floats.print (floats.read chars))
  back : ∀ chars, floats.read (floats.print (floats.read chars)) = floats.read chars

/-- A value that `json.loads` can return. -/
inductive Loaded (floats : FloatText) : Json → Prop
  | null : Loaded floats .null
  | bool : Loaded floats (.bool value)
  | int (short : (Nat.toDigits 10 value.natAbs).length ≤ intMaxStrDigits) : Loaded floats (.int value)
  | float (isFloat : IsFloat value) (read : floats.read chars = value) : Loaded floats value
  | string : Loaded floats (.string value)
  | array (each : ∀ item ∈ items, Loaded floats item) : Loaded floats (.array items)
  | object (distinct : (fields.map Prod.fst).Nodup) (each : ∀ field ∈ fields, Loaded floats field.2) :
      Loaded floats (.object fields)

/-- Where all but ASCII is escaped, the texts of the value have no surrogates. -/
def Layout.Admits (layout : Layout) (value : Json) : Prop :=
  layout.ensureAscii = true → ∀ found, Json.Occurs found value → ∀ c ∈ found, c.isValidChar

theorem Layout.admits_raw {layout : Layout} (raw : layout.ensureAscii = false) (value : Json) :
    layout.Admits value := by
  intro ascii
  cases raw.symm.trans ascii

namespace Loads

variable {floats : FloatText} {layout : Layout} {stack : List Frame} {rest : Text}

theorem foldlM_float (lawful : floats.Lawful) {value : Json} {chars : Text} (read : floats.read chars = value)
    (ends : Ends rest) :
    (floats.print value ++ rest).foldlM (step floats) ⟨.value, stack⟩ =
      rest.foldlM (step floats) (complete value stack) := by
  have back := lawful.back chars
  rw [read] at back
  rcases read ▸ lawful.literal chars with spells | spells | ⟨word, member, same⟩
  · exact foldlM_number spells (congrArg some back) ends
  · exact foldlM_number spells (congrArg some back) ends
  · have meaning : word.meaning floats = value := by
      rw [← back, same]
      rcases List.mem_cons.mp member with rfl | last
      · rfl
      · rw [List.mem_singleton.mp last]
        rfl
    rw [same, foldlM_word, meaning]

/-- The first character of a printed value is no space and closes no array. -/
def Opens (printed : Text) : Prop :=
  ∃ c rest, printed = c :: rest ∧ isJsonSpace c = false ∧ c ≠ 93

theorem opens_of_spells {chars : Text} {place : Numeral} (spells : Spells chars place) : Opens chars := by
  cases chars with
  | nil => exact spells.elim
  | cons c rest =>
    obtain ⟨start, first, _⟩ := Option.bind_eq_some_iff.mp spells
    refine ⟨c, rest, rfl, ?_⟩
    unfold startNumeral at first
    simp only [isJsonSpace]
    grind

theorem opens_of_literal {chars : Text} (literal : IsFloatLiteral chars) : Opens chars := by
  rcases literal with spells | spells | ⟨word, member, rfl⟩
  · exact opens_of_spells spells
  · exact opens_of_spells spells
  · rcases List.mem_cons.mp member with rfl | last
    · exact ⟨73, _, rfl, rfl, by decide⟩
    · rw [List.mem_singleton.mp last]
      exact ⟨45, _, rfl, rfl, by decide⟩

theorem opens_printAt (lawful : floats.Lawful) {value : Json} (loaded : Loaded floats value) (level : Nat) :
    Opens (layout.printAt floats level value) := by
  cases loaded with
  | null => exact ⟨110, _, rfl, rfl, by decide⟩
  | @bool value => cases value with
    | false => exact ⟨102, _, rfl, rfl, by decide⟩
    | true => exact ⟨116, _, rfl, rfl, by decide⟩
  | @int value short =>
    obtain ⟨place, _, _, spells⟩ := spells_int value
    exact opens_of_spells spells
  | float isFloat read =>
    have literal := read ▸ lawful.literal _
    cases value with
    | float | infinite => exact opens_of_literal literal
    | _ => exact isFloat.elim
  | string => exact ⟨34, _, rfl, rfl, by decide⟩
  | @array items _ => cases items with
    | nil => exact ⟨91, _, rfl, rfl, by decide⟩
    | cons => exact ⟨91, _, rfl, rfl, by decide⟩
  | @object fields _ _ => cases fields with
    | nil => exact ⟨123, _, rfl, rfl, by decide⟩
    | cons => exact ⟨123, _, rfl, rfl, by decide⟩

/-- What is printed of the value reads as the value, wherever a value may stand. -/
def ReadsBack (floats : FloatText) (layout : Layout) (value : Json) : Prop :=
  ∀ level stack rest, Ends rest → (layout.printAt floats level value ++ rest).foldlM (step floats)
    ⟨.value, stack⟩ = rest.foldlM (step floats) (complete value stack)

/-- A first item is read like a later one. -/
theorem foldlM_firstItem {printed : Text} (opens : Opens printed) {done : List Json} :
    printed.foldlM (step floats) ⟨.firstItem, .array done :: stack⟩ =
      printed.foldlM (step floats) ⟨.value, .array done :: stack⟩ := by
  obtain ⟨c, rest, rfl, solid, open'⟩ := opens
  have alike : step floats ⟨.firstItem, .array done :: stack⟩ c =
      step floats ⟨.value, .array done :: stack⟩ c := by
    simp only [step, solid, Bool.false_eq_true, if_false, if_neg open']
  rw [List.foldlM_cons, List.foldlM_cons, alike]

theorem foldlM_printItems {items : List Json} (some : items ≠ [])
    (each : ∀ item ∈ items, ReadsBack floats layout item) (level : Nat) {spaces : Text}
    (blank : spaces.all isJsonSpace = true) (done : List Json) :
    (layout.printItems floats level items ++ (spaces ++ 93 :: rest)).foldlM (step floats)
        ⟨.value, .array done :: stack⟩ =
      rest.foldlM (step floats) (complete (.array (done ++ items)) stack) := by
  induction items generalizing done with
  | nil => exact absurd rfl some
  | cons item items ih =>
    rw [Layout.printItems, List.append_assoc, List.append_assoc]
    cases items with
    | nil =>
      have closed : step floats (complete item (.array done :: stack)) 93 =
          Option.some (complete (.array (done ++ [item])) stack) := rfl
      rw [List.isEmpty_nil, if_pos rfl, List.nil_append, Layout.printItems, List.nil_append,
        each item List.mem_cons_self level _ _ (ends_closing blank (.inl rfl))]
      rw [show complete item (.array done :: stack) = ⟨.done, .array (done ++ [item]) :: stack⟩ from rfl,
        @foldlM_spaces _ _ _ .done trivial _ blank, List.foldlM_cons]
      exact congrArg (· >>= _) closed
    | cons next items =>
      have comma : step floats (complete item (.array done :: stack)) 44 =
          Option.some ⟨.value, .array (done ++ [item]) :: stack⟩ := rfl
      rw [List.isEmpty_cons, if_neg Bool.false_ne_true, List.cons_append,
        each item List.mem_cons_self level _ _ (ends_mark (.inr (.inl rfl))), List.foldlM_cons, comma,
        Option.bind_eq_bind, Option.bind_some, @foldlM_spaces _ _ _ .value trivial _ (layout.afterComma_space level),
        ih (List.cons_ne_nil next items) (fun other member => each other (List.mem_cons_of_mem item member)),
        List.append_assoc, List.singleton_append]

theorem putField_fresh {key : Text} {value : Json} {fields : List (Text × Json)}
    (fresh : key ∉ fields.map Prod.fst) : putField key value fields = fields ++ [(key, value)] := by
  have none : fields.any (·.1 = key) = false := by
    rw [List.any_eq_false]
    intro field member same
    exact fresh (List.mem_map.mpr ⟨field, member, of_decide_eq_true same⟩)
  rw [putField, none, if_neg Bool.false_ne_true]

theorem foldlM_printField {mode : Mode} (awaited : mode = .firstKey ∨ mode = .key) {key old : Text}
    {value : Json} (legible : layout.ensureAscii = true → ∀ c ∈ key, c.isValidChar)
    (reads : ReadsBack floats layout value) (level : Nat) {done : List (Text × Json)}
    (fresh : key ∉ done.map Prod.fst) (ends : Ends rest) :
    (layout.printField floats level (key, value) ++ rest).foldlM (step floats)
        ⟨mode, .object done old :: stack⟩ =
      rest.foldlM (step floats) ⟨.done, .object (done ++ [(key, value)]) key :: stack⟩ := by
  have colon : step floats ⟨.colon, .object done key :: stack⟩ 58 =
      some ⟨.value, .object done key :: stack⟩ := rfl
  rw [Layout.printField, List.append_assoc, List.append_assoc, foldlM_key awaited legible, List.cons_append,
    List.foldlM_cons, colon, Option.bind_eq_bind, Option.bind_some,
    @foldlM_spaces _ _ _ .value trivial _ layout.afterColon_space, reads level _ _ ends]
  rw [show complete value (.object done key :: stack) =
    ⟨.done, .object (putField key value done) key :: stack⟩ from rfl, putField_fresh fresh]

theorem foldlM_printFields {fields : List (Text × Json)} (some : fields ≠ [])
    (legible : layout.ensureAscii = true → ∀ field ∈ fields, ∀ c ∈ field.1, c.isValidChar)
    (each : ∀ field ∈ fields, ReadsBack floats layout field.2) (level : Nat) {spaces : Text}
    (blank : spaces.all isJsonSpace = true) {mode : Mode} (awaited : mode = .firstKey ∨ mode = .key)
    {done : List (Text × Json)} {old : Text} (distinct : ((done ++ fields).map Prod.fst).Nodup) :
    (layout.printFields floats level fields ++ (spaces ++ 125 :: rest)).foldlM (step floats)
        ⟨mode, .object done old :: stack⟩ =
      rest.foldlM (step floats) (complete (.object (done ++ fields)) stack) := by
  induction fields generalizing done old mode with
  | nil => exact absurd rfl some
  | cons field fields ih =>
    obtain ⟨key, value⟩ := field
    have fresh : key ∉ done.map Prod.fst := by
      rw [List.map_append, List.map_cons] at distinct
      exact fun member => (List.nodup_append.mp distinct).2.2 key member key List.mem_cons_self rfl
    have here : ∀ {rest}, Ends rest → _ := fun {rest} ends =>
      @foldlM_printField floats layout stack rest mode awaited key old value
        (fun ascii => legible ascii (key, value) List.mem_cons_self) (each (key, value) List.mem_cons_self)
        level done fresh ends
    rw [Layout.printFields, List.append_assoc, List.append_assoc]
    cases fields with
    | nil =>
      have closed : step floats ⟨.done, .object (done ++ [(key, value)]) key :: stack⟩ 125 =
          Option.some (complete (.object (done ++ [(key, value)])) stack) := rfl
      rw [List.isEmpty_nil, if_pos rfl, List.nil_append, Layout.printFields, List.nil_append,
        here (ends_closing blank (.inr rfl)), @foldlM_spaces _ _ _ .done trivial _ blank, List.foldlM_cons, closed,
        Option.bind_eq_bind, Option.bind_some]
    | cons next fields =>
      have comma : step floats ⟨.done, .object (done ++ [(key, value)]) key :: stack⟩ 44 =
          Option.some ⟨.key, .object (done ++ [(key, value)]) key :: stack⟩ := rfl
      rw [List.isEmpty_cons, if_neg Bool.false_ne_true, List.cons_append, here (ends_mark (.inr (.inl rfl))),
        List.foldlM_cons, comma, Option.bind_eq_bind, Option.bind_some,
        @foldlM_spaces _ _ _ .key trivial _ (layout.afterComma_space level),
        ih (List.cons_ne_nil next fields)
          (fun ascii other member => legible ascii other (List.mem_cons_of_mem _ member))
          (fun other member => each other (List.mem_cons_of_mem _ member)) (.inr rfl)
          (by rwa [List.append_assoc, List.singleton_append]),
        List.append_assoc, List.singleton_append]

theorem readsBack (lawful : floats.Lawful) {value : Json} (loaded : Loaded floats value)
    (admits : layout.Admits value) : ReadsBack floats layout value := by
  induction loaded with
  | null => exact fun level stack rest _ => foldlM_word .null
  | @bool value =>
    cases value with
    | false => exact fun level stack rest _ => foldlM_word .false
    | true => exact fun level stack rest _ => foldlM_word .true
  | @int value short =>
    intro level stack rest ends
    obtain ⟨place, _, integral, spells⟩ := spells_int value
    refine foldlM_number spells ?_ ends
    rcases integral with rfl | rfl <;> exact readInt_toString short
  | @float value chars isFloat read =>
    intro level stack rest ends
    cases value with
    | float | infinite => exact foldlM_float lawful read ends
    | _ => exact isFloat.elim
  | @string value =>
    intro level stack rest _
    exact foldlM_string fun ascii => admits ascii value (Json.occurs_string.mpr rfl)
  | @array items each ih =>
    intro level stack rest _
    have reads : ∀ item ∈ items, ReadsBack floats layout item := fun item member =>
      ih item member fun ascii found occurs => admits ascii found (Json.occurs_array.mpr ⟨item, member, occurs⟩)
    rw [Layout.printAt]
    by_cases empty : items = []
    · subst empty
      rfl
    · have opened : step floats ⟨.value, stack⟩ 91 = some ⟨.firstItem, .array [] :: stack⟩ := rfl
      have opens : Opens (layout.printItems floats (level + 1) items ++ (layout.gap level ++ 93 :: rest)) := by
        obtain ⟨item, others, rfl⟩ := List.exists_cons_of_ne_nil empty
        obtain ⟨c, tail, printed, solid⟩ :=
          @opens_printAt floats layout lawful item (each item List.mem_cons_self) (level + 1)
        rw [Layout.printItems, printed]
        exact ⟨c, _, rfl, solid⟩
      rw [List.isEmpty_eq_false_iff.mpr empty, if_neg Bool.false_ne_true]
      simp only [List.append_assoc, List.nil_append, List.cons_append, List.foldlM_cons, opened,
        Option.bind_eq_bind, Option.bind_some]
      rw [@foldlM_spaces _ _ _ .firstItem trivial _ (layout.gap_space (level + 1)), foldlM_firstItem opens,
        foldlM_printItems empty reads (level + 1) (layout.gap_space level), List.nil_append]
  | @object fields distinct each ih =>
    intro level stack rest _
    have reads : ∀ field ∈ fields, ReadsBack floats layout field.2 := fun field member =>
      ih field member fun ascii found occurs =>
        admits ascii found (Json.occurs_object.mpr ⟨field, member, .inr occurs⟩)
    have legible : layout.ensureAscii = true → ∀ field ∈ fields, ∀ c ∈ field.1, c.isValidChar :=
      fun ascii field member => admits ascii field.1 (Json.occurs_object.mpr ⟨field, member, .inl rfl⟩)
    rw [Layout.printAt]
    by_cases empty : fields = []
    · subst empty
      rfl
    · have opened : step floats ⟨.value, stack⟩ 123 = some ⟨.firstKey, .object [] [] :: stack⟩ := rfl
      rw [List.isEmpty_eq_false_iff.mpr empty, if_neg Bool.false_ne_true]
      simp only [List.append_assoc, List.nil_append, List.cons_append, List.foldlM_cons, opened,
        Option.bind_eq_bind, Option.bind_some]
      rw [@foldlM_spaces _ _ _ .firstKey trivial _ (layout.gap_space (level + 1)),
        foldlM_printFields empty legible reads (level + 1) (layout.gap_space level) (.inl rfl)
          (by rwa [List.nil_append]), List.nil_append]

theorem step_numeral_newline (chars : Text) (place : Numeral) :
    step floats ⟨.numeral chars place, stack⟩ 10 =
      (readNumeral floats chars place).map fun value => complete value stack := by
  have ended : step floats ⟨.numeral chars place, stack⟩ 10 =
      (readNumeral floats chars place).bind fun value => afterValue (complete value stack) 10 := by
    cases place <;> rfl
  have closed (value : Json) : afterValue (complete value stack) 10 = some (complete value stack) :=
    (@step_complete floats stack value 10).symm.trans (complete_newline value stack)
  simp only [ended, closed]
  cases readNumeral floats chars place <;> rfl

/-- A line feed after a text changes nothing. -/
theorem loads_newline (floats : FloatText) (value : Text) : loads floats (value ++ [10]) = loads floats value := by
  rw [loads, loads, List.foldlM_append]
  cases value.foldlM (step floats) ⟨.value, []⟩ with
  | none => rfl
  | some state =>
    show (step floats state 10 >>= pure).bind (finish floats) = finish floats state
    rw [bind_pure]
    obtain ⟨mode, stack⟩ := state
    cases mode with
    | string isKey chars escape => cases escape <;> rfl
    | numeral chars place =>
      rw [step_numeral_newline]
      cases stack with
      | nil =>
        show _ = readNumeral floats chars place
        cases readNumeral floats chars place <;> rfl
      | cons frame rest => cases readNumeral floats chars place <;> cases frame <;> rfl
    | word word count =>
      have unspelled : 10 ∉ word.spelling := by
        cases word <;> decide
      have other : word.spelling[count]? ≠ some 10 := fun here => unspelled (List.mem_of_getElem? here)
      simp only [step, if_neg other]
      rfl
    | _ => rfl

/-- A printable character of ASCII. -/
abbrev IsVisible (c : Nat) : Prop :=
  32 ≤ c ∧ c < 127

theorem visible_digits {digits : Text} {start place : Numeral}
    (spelled : digits.foldlM Numeral.next start = some place) : ∀ c ∈ digits, IsVisible c := by
  induction digits generalizing start with
  | nil => simp
  | cons c digits ih =>
    obtain ⟨next, read, later⟩ := Option.bind_eq_some_iff.mp (List.foldlM_cons.symm.trans spelled)
    refine List.forall_mem_cons.mpr ⟨?_, ih later⟩
    unfold Numeral.next at read
    cases start <;> grind [isAsciiDigit]

theorem visible_spells {chars : Text} {place : Numeral} (spells : Spells chars place) :
    ∀ c ∈ chars, IsVisible c := by
  cases chars with
  | nil => simp
  | cons c rest =>
    obtain ⟨start, begun, later⟩ := Option.bind_eq_some_iff.mp spells
    refine List.forall_mem_cons.mpr ⟨?_, visible_digits later⟩
    unfold startNumeral at begun
    grind

theorem visible_literal {chars : Text} (literal : IsFloatLiteral chars) : ∀ c ∈ chars, IsVisible c := by
  rcases literal with fraction | power | ⟨word, known, rfl⟩
  · exact visible_spells fraction
  · exact visible_spells power
  · revert word
    decide

theorem visible_hexPad (width n : Nat) : ∀ c ∈ hexPad width n, IsVisible c := by
  induction width generalizing n with
  | zero => simp [hexPad]
  | succ width ih =>
    refine List.forall_mem_append.mpr ⟨ih (n / 16), ?_⟩
    simp only [hexDigit, List.mem_singleton, forall_eq]
    split <;> omega

theorem visible_unicode (unit : Nat) : ∀ c ∈ text "\\u" ++ hexPad 4 unit, IsVisible c :=
  List.forall_mem_append.mpr ⟨by decide, visible_hexPad 4 unit⟩

theorem printable_escapeChar (given : Nat) : ∀ c ∈ escapeChar given, 32 ≤ c := by
  unfold escapeChar
  split
  · rename_i mark
    rcases mark with rfl | rfl <;> decide
  repeat' split
  · decide
  · decide
  · decide
  · decide
  · decide
  · exact fun c member => (visible_unicode given c member).1
  · simp only [List.mem_singleton, forall_eq]
    omega

theorem visible_jsonEscape (given : Nat) : ∀ c ∈ jsonEscape given, IsVisible c := by
  unfold jsonEscape
  extract_lets escaped
  repeat' split
  · decide
  · decide
  · decide
  · decide
  · decide
  · decide
  · decide
  · simp only [List.mem_singleton, forall_eq]
    omega
  · exact visible_unicode _
  · exact List.forall_mem_append.mpr ⟨visible_unicode _, visible_unicode _⟩

end Loads

theorem Loaded.inside {floats : FloatText} {value inner : Json} (loaded : Loaded floats value)
    (inside : Json.Inside inner value) : Loaded floats inner := by
  induction inside with
  | self => exact loaded
  | item member _ ih =>
    cases loaded with
    | float isFloat => exact isFloat.elim
    | array each => exact ih (each _ member)
  | field member _ ih =>
    cases loaded with
    | float isFloat => exact isFloat.elim
    | object distinct each => exact ih (each _ member)

/-- The characters that the layout puts between the parts of a value. -/
def Layout.Between (layout : Layout) (c : Nat) : Prop :=
  (∃ level, c ∈ layout.gap level ∨ c ∈ layout.afterComma level) ∨ c ∈ layout.afterColon

namespace Layout

variable {floats : FloatText} {layout : Layout}

theorem printable_quoted (value : Text) : ∀ c ∈ layout.quoted value, 32 ≤ c := by
  intro c member
  rcases List.mem_cons.mp member with rfl | inner
  · decide
  rcases List.mem_append.mp inner with escaped | last
  · obtain ⟨given, -, here⟩ := List.mem_flatMap.mp escaped
    split at here
    · exact (Loads.visible_jsonEscape given c here).1
    · exact Loads.printable_escapeChar given c here
  · rw [List.mem_singleton.mp last]
    decide

/-- What holds of the brackets, the commas, the colons, the texts and the leaves holds of
all that is printed. -/
theorem forall_printAt {P : Nat → Prop} {value : Json} (marks : ∀ c ∈ [91, 93, 123, 125, 44, 58], P c)
    (between : ∀ c, layout.Between c → P c) (texts : ∀ value, ∀ c ∈ layout.quoted value, P c)
    (leaves : ∀ leaf, Json.Inside leaf value → leaf.isScalar = true →
      ∀ level, ∀ c ∈ layout.printAt floats level leaf, P c) (level : Nat) :
    ∀ c ∈ layout.printAt floats level value, P c := by
  have gap (level : Nat) : ∀ c ∈ layout.gap level, P c :=
    fun c member => between c (.inl ⟨level, .inl member⟩)
  have comma (level : Nat) (last : Bool) : ∀ c ∈ (if last then [] else 44 :: layout.afterComma level), P c := by
    intro c member
    split at member
    · cases member
    rcases List.mem_cons.mp member with rfl | after
    · exact marks 44 (by simp)
    · exact between c (.inl ⟨level, .inr after⟩)
  have bracketed {opening closing : Nat} {inner : Text} (level : Nat) (first : P opening) (last : P closing)
      (within : ∀ c ∈ inner, P c) :
      ∀ c ∈ [opening] ++ layout.gap (level + 1) ++ inner ++ layout.gap level ++ [closing], P c := by
    simp only [List.forall_mem_append, List.forall_mem_singleton]
    exact ⟨⟨⟨⟨first, gap (level + 1)⟩, within⟩, gap level⟩, last⟩
  induction value using Json.induction generalizing level with
  | string => exact texts _
  | array items ih =>
    have inner (level : Nat) : ∀ c ∈ layout.printItems floats level items, P c := by
      have each : ∀ item ∈ items, ∀ c ∈ layout.printAt floats level item, P c := by
        intro item member
        exact ih item member (fun leaf inside => leaves leaf (.item member inside)) level
      clear ih leaves
      induction items with
      | nil => simp [printItems]
      | cons item rest later =>
        obtain ⟨here, others⟩ := List.forall_mem_cons.mp each
        simp only [printItems, List.forall_mem_append]
        exact ⟨⟨here, comma level _⟩, later others⟩
    rw [printAt]
    split
    · exact fun c member => marks c ((by decide : ∀ c ∈ text "[]", c ∈ [91, 93, 123, 125, 44, 58]) c member)
    · exact bracketed level (marks 91 (by simp)) (marks 93 (by simp)) (inner (level + 1))
  | object fields ih =>
    have inner (level : Nat) : ∀ c ∈ layout.printFields floats level fields, P c := by
      have each : ∀ field ∈ fields, ∀ c ∈ layout.printAt floats level field.2, P c := by
        intro field member
        exact ih field member (fun leaf inside => leaves leaf (.field member inside)) level
      clear ih leaves
      induction fields with
      | nil => simp [printFields]
      | cons field rest later =>
        obtain ⟨here, others⟩ := List.forall_mem_cons.mp each
        obtain ⟨key, value⟩ := field
        simp only [printFields, printField, List.forall_mem_append, List.forall_mem_cons]
        exact ⟨⟨⟨⟨texts key, marks 58 (by simp), fun c member => between c (.inr member)⟩, here⟩,
          comma level _⟩, later others⟩
    rw [printAt]
    split
    · exact fun c member =>
        marks c ((by decide : ∀ c ∈ text "\x7b\x7d", c ∈ [91, 93, 123, 125, 44, 58]) c member)
    · exact bracketed level (marks 123 (by simp)) (marks 125 (by simp)) (inner (level + 1))
  | _ => exact leaves _ .self rfl level

theorem visible_leaf (lawful : floats.Lawful) {leaf : Json} (loaded : Loaded floats leaf)
    (scalar : leaf.isScalar = true) (level : Nat) :
    ∀ c ∈ layout.printAt floats level leaf, Loads.IsVisible c := by
  cases loaded with
  | null => exact (by decide : ∀ c ∈ text "null", Loads.IsVisible c)
  | @bool value =>
    cases value with
    | true => exact (by decide : ∀ c ∈ text "true", Loads.IsVisible c)
    | false => exact (by decide : ∀ c ∈ text "false", Loads.IsVisible c)
  | @int value short =>
    obtain ⟨place, -, -, spells⟩ := Loads.spells_int value
    exact Loads.visible_spells spells
  | @float _ chars isFloat read =>
    have literal := Loads.visible_literal (lawful.literal chars)
    rw [read] at literal
    cases leaf with
    | float | infinite => exact literal
    | _ => exact isFloat.elim
  | _ => cases scalar

/-- What is printed has no control characters but those of the layout. -/
theorem printable_printAt (lawful : floats.Lawful) {value : Json} (loaded : Loaded floats value)
    (level : Nat) : ∀ c ∈ layout.printAt floats level value, 32 ≤ c ∨ layout.Between c := by
  have marks : ∀ c ∈ [91, 93, 123, 125, 44, 58], 32 ≤ c := by decide
  refine forall_printAt (fun c member => .inl (marks c member)) (fun c => .inr)
    (fun value c member => .inl (printable_quoted value c member)) ?_ level
  intro leaf inside scalar level c member
  exact .inl (visible_leaf lawful (loaded.inside inside) scalar level c member).1

/-- Where all but ASCII is escaped, the text is printable ASCII. -/
theorem visible_printAt (lawful : floats.Lawful) (ascii : layout.ensureAscii = true) {value : Json}
    (loaded : Loaded floats value) (level : Nat) :
    ∀ c ∈ layout.printAt floats level value, Loads.IsVisible c ∨ layout.Between c := by
  have marks : ∀ c ∈ [91, 93, 123, 125, 44, 58], Loads.IsVisible c := by decide
  have texts (value : Text) : ∀ c ∈ layout.quoted value, Loads.IsVisible c := by
    intro c member
    rcases List.mem_cons.mp member with rfl | inner
    · decide
    rcases List.mem_append.mp inner with escaped | last
    · rw [if_pos ascii] at escaped
      obtain ⟨given, -, here⟩ := List.mem_flatMap.mp escaped
      exact Loads.visible_jsonEscape given c here
    · rw [List.mem_singleton.mp last]
      decide
  refine forall_printAt (fun c member => .inl (marks c member)) (fun c => .inr)
    (fun value c member => .inl (texts value c member)) ?_ level
  intro leaf inside scalar level c member
  exact .inl (visible_leaf lawful (loaded.inside inside) scalar level c member)

end Layout

/-- What is printed of a value that `json.loads` can return is read as that value. -/
theorem loads_dumps {floats : FloatText} {layout : Layout} (lawful : floats.Lawful) {value : Json}
    (loaded : Loaded floats value) (admits : layout.Admits value) :
    loads floats (layout.dumps floats value) = some value := by
  rw [← Loads.loads_newline, loads, Layout.dumps,
    Loads.readsBack lawful loaded admits 0 [] [10] (Loads.ends_mark (.inl rfl))]
  rfl

end N8nSystems.Lib.Py
