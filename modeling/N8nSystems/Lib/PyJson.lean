import N8nSystems.Lib.PyValue

/-! Python's `json` with its defaults: `loads`, reading a text from left to right with
a stack of the open arrays and objects, and `dumps` with `indent=2` and
`ensure_ascii=False`. -/

namespace N8nSystems.Lib.Py

/-- What `json` takes from `float`: the values of numerals with a fraction or an exponent
and of the constants `NaN`, `Infinity` and `-Infinity`, and how they are printed. -/
structure FloatText where
  read : Text → Json
  print : Json → Text
  print_ascii : ∀ value, ∀ c ∈ print value, c < 128

namespace Loads

/-- Inside a string. The mark says that the escape of a high surrogate was read last. -/
inductive Escape where
  | plain (high : Bool)
  | begun (high : Bool)
  | hex (high : Bool) (left value : Nat)

/-- Inside a number: `(-?(?:0|[1-9]\d*))(\.\d+)?([eE][-+]?\d+)?`. -/
inductive Numeral where
  | minus
  | zero
  | whole
  | point
  | fraction
  | exponent
  | sign
  | power

inductive Word where
  | null
  | true
  | false
  | nan
  | infinity
  | minusInfinity

/-- What is read, or what has to come next. -/
inductive Mode where
  | value
  | firstItem
  | firstKey
  | key
  | colon
  | done
  | finished (value : Json)
  | string (isKey : Bool) (chars : Text) (escape : Escape)
  | numeral (chars : Text) (place : Numeral)
  | word (word : Word) (count : Nat)

/-- An open array, or an open object with the key of the value that is read. -/
inductive Frame where
  | array (items : List Json)
  | object (fields : List (Text × Json)) (key : Text)

structure State where
  mode : Mode
  stack : List Frame

def isJsonSpace (c : Nat) : Bool := c == 32 || c == 9 || c == 10 || c == 13

/-- `fields[key] = value`: a repeated key keeps its place and takes the later value. -/
def putField (key : Text) (value : Json) (fields : List (Text × Json)) : List (Text × Json) :=
  if fields.any (·.1 = key) then Json.setField key value fields else fields ++ [(key, value)]

/-- A value was read to its end. -/
def complete (value : Json) : List Frame → State
  | [] => ⟨.finished value, []⟩
  | .array items :: rest => ⟨.done, .array (items ++ [value]) :: rest⟩
  | .object fields key :: rest => ⟨.done, .object (putField key value fields) key :: rest⟩

/-- The character after a value. -/
def afterValue (state : State) (c : Nat) : Option State :=
  if isJsonSpace c then some state
  else
    match state.mode, state.stack with
    | .done, .array items :: rest =>
      if c = 44 then some ⟨.value, .array items :: rest⟩
      else if c = 93 then some (complete (.array items) rest)
      else none
    | .done, .object fields key :: rest =>
      if c = 44 then some ⟨.key, .object fields key :: rest⟩
      else if c = 125 then some (complete (.object fields) rest)
      else none
    | _, _ => none

/-- The first character of a value. -/
def startValue (stack : List Frame) (c : Nat) : Option State :=
  if c = 34 then some ⟨.string false [] (.plain false), stack⟩
  else if c = 123 then some ⟨.firstKey, .object [] [] :: stack⟩
  else if c = 91 then some ⟨.firstItem, .array [] :: stack⟩
  else if c = 45 then some ⟨.numeral [c] .minus, stack⟩
  else if c = 48 then some ⟨.numeral [c] .zero, stack⟩
  else if 49 ≤ c ∧ c ≤ 57 then some ⟨.numeral [c] .whole, stack⟩
  else if c = 110 then some ⟨.word .null 1, stack⟩
  else if c = 116 then some ⟨.word .true 1, stack⟩
  else if c = 102 then some ⟨.word .false 1, stack⟩
  else if c = 78 then some ⟨.word .nan 1, stack⟩
  else if c = 73 then some ⟨.word .infinity 1, stack⟩
  else none

def Numeral.next (place : Numeral) (c : Nat) : Option Numeral :=
  let digit := isAsciiDigit c
  let exponent := c = 101 ∨ c = 69
  match place with
  | .minus => if c = 48 then some .zero else if digit then some .whole else none
  | .zero => if c = 46 then some .point else if exponent then some .exponent else none
  | .whole =>
    if digit then some .whole
    else if c = 46 then some .point
    else if exponent then some .exponent
    else none
  | .point => if digit then some .fraction else none
  | .fraction => if digit then some .fraction else if exponent then some .exponent else none
  | .exponent => if c = 43 ∨ c = 45 then some .sign else if digit then some .power else none
  | .sign => if digit then some .power else none
  | .power => if digit then some .power else none

/-- `int(chars)`; nothing where it raises. -/
def readInt (chars : Text) : Option Json :=
  let digits := if chars.head? = some 45 then chars.tail else chars
  let number : Int := spelled (digits.map (· - 48))
  if digits.length ≤ intMaxStrDigits then
    some (.int (if chars.head? = some 45 then -number else number))
  else none

def hexValue (c : Nat) : Option Nat :=
  if 48 ≤ c ∧ c ≤ 57 then some (c - 48)
  else if 97 ≤ c ∧ c ≤ 102 then some (c - 87)
  else if 65 ≤ c ∧ c ≤ 70 then some (c - 55)
  else none

/-- The character that `\c` stands for. -/
def unescape (c : Nat) : Option Nat :=
  if c = 34 ∨ c = 92 ∨ c = 47 then some c
  else if c = 98 then some 8
  else if c = 102 then some 12
  else if c = 110 then some 10
  else if c = 114 then some 13
  else if c = 116 then some 9
  else none

/-- `\uXXXX` was read: a low surrogate joins the high one before it. -/
def escaped (chars : Text) (high : Bool) (code : Nat) : Text × Escape :=
  if high ∧ 0xDC00 ≤ code ∧ code ≤ 0xDFFF then
    (chars.dropLast ++ [0x10000 + (chars.getLastD 0xD800 - 0xD800) * 0x400 + (code - 0xDC00)],
      .plain false)
  else (chars ++ [code], .plain (decide (0xD800 ≤ code ∧ code ≤ 0xDBFF)))

/-- The next character of a string, other than the closing quote. -/
def stringStep (chars : Text) (escape : Escape) (c : Nat) : Option (Text × Escape) :=
  match escape with
  | .plain high =>
    if c = 92 then some (chars, .begun high)
    else if c < 32 then none
    else some (chars ++ [c], .plain false)
  | .begun high =>
    if c = 117 then some (chars, .hex high 4 0)
    else (unescape c).map fun char => (chars ++ [char], .plain false)
  | .hex high left value => (hexValue c).map fun digit =>
    if left ≤ 1 then escaped chars high (16 * value + digit)
    else (chars, .hex high (left - 1) (16 * value + digit))

def closes (escape : Escape) (c : Nat) : Bool :=
  match escape with
  | .plain _ => c == 34
  | _ => false

def Word.spelling : Word → Text
  | .null => text "null"
  | .true => text "true"
  | .false => text "false"
  | .nan => text "NaN"
  | .infinity => text "Infinity"
  | .minusInfinity => text "-Infinity"

section
variable (floats : FloatText)

def Word.meaning : Word → Json
  | .null => .null
  | .true => .bool Bool.true
  | .false => .bool Bool.false
  | word => floats.read word.spelling

/-- The value of a number that ends here. -/
def readNumeral (chars : Text) : Numeral → Option Json
  | .zero | .whole => readInt chars
  | .fraction | .power => some (floats.read chars)
  | _ => none

def step (state : State) (c : Nat) : Option State :=
  match state.mode with
  | .value => if isJsonSpace c then some state else startValue state.stack c
  | .firstItem =>
    if isJsonSpace c then some state
    else if c = 93 then some (complete (.array []) state.stack.tail)
    else startValue state.stack c
  | .firstKey =>
    if isJsonSpace c then some state
    else if c = 34 then some ⟨.string true [] (.plain false), state.stack⟩
    else if c = 125 then some (complete (.object []) state.stack.tail)
    else none
  | .key =>
    if isJsonSpace c then some state
    else if c = 34 then some ⟨.string true [] (.plain false), state.stack⟩
    else none
  | .colon =>
    if isJsonSpace c then some state
    else if c = 58 then some ⟨.value, state.stack⟩
    else none
  | .done | .finished _ => afterValue state c
  | .string isKey chars escape =>
    if closes escape c then
      match isKey, state.stack with
      | true, .object fields _ :: rest => some ⟨.colon, .object fields chars :: rest⟩
      | true, _ => none
      | false, stack => some (complete (.string chars) stack)
    else (stringStep chars escape c).map fun (chars, escape) =>
      ⟨.string isKey chars escape, state.stack⟩
  | .numeral chars place =>
    match place.next c, place with
    | some next, _ => some ⟨.numeral (chars ++ [c]) next, state.stack⟩
    | none, .minus => if c = 73 then some ⟨.word .minusInfinity 2, state.stack⟩ else none
    | none, place =>
      (readNumeral floats chars place).bind fun value => afterValue (complete value state.stack) c
  | .word word count =>
    if word.spelling[count]? = some c then
      if count + 1 = word.spelling.length then some (complete (word.meaning floats) state.stack)
      else some ⟨.word word (count + 1), state.stack⟩
    else none

/-- The value, when the text ends here. -/
def finish (state : State) : Option Json :=
  match state.mode, state.stack with
  | .finished value, _ => some value
  | .numeral chars place, [] => readNumeral floats chars place
  | _, _ => none

end

end Loads

/-- `json.loads(value)`; nothing where it raises. -/
def loads (floats : FloatText) (value : Text) : Option Json :=
  (value.foldlM (Loads.step floats) ⟨.value, []⟩).bind (Loads.finish floats)

namespace Loads

variable {floats : FloatText}

theorem complete_newline (value : Json) (stack : List Frame) :
    step floats (complete value stack) 10 = some (complete value stack) := by
  cases stack with
  | nil => rfl
  | cons frame rest => cases frame <;> rfl

/-- Both line ends are read alike in every state. -/
theorem step_return (state : State) : step floats state 13 = step floats state 10 := by
  obtain ⟨mode, stack⟩ := state
  cases mode with
  | string isKey chars escape => cases escape <;> rfl
  | numeral chars place => cases place <;> rfl
  | word word count =>
    have unspelled : ∀ c ∈ word.spelling, c ≠ 13 ∧ c ≠ 10 := by
      cases word <;> decide
    have other (c : Nat) (line : c = 13 ∨ c = 10) : word.spelling[count]? ≠ some c := by
      intro here
      obtain ⟨first, second⟩ := unspelled c (List.mem_of_getElem? here)
      omega
    simp only [step, if_neg (other 13 (.inl rfl)), if_neg (other 10 (.inr rfl))]
  | _ => rfl

/-- A second line end adds nothing. -/
theorem step_newline_twice {state next : State} (taken : step floats state 10 = some next) :
    step floats next 10 = some next := by
  obtain ⟨mode, stack⟩ := state
  cases mode with
  | string isKey chars escape => cases escape <;> cases taken
  | numeral chars place =>
    have ended : (readNumeral floats chars place).bind
        (fun value => afterValue (complete value stack) 10) = some next := by
      cases place <;> exact taken
    obtain ⟨value, _, done⟩ := Option.bind_eq_some_iff.mp ended
    cases done
    exact complete_newline value stack
  | word word count =>
    have unspelled : 10 ∉ word.spelling := by
      cases word <;> decide
    have other : word.spelling[count]? ≠ some 10 := fun here => unspelled (List.mem_of_getElem? here)
    simp only [step, if_neg other] at taken
    cases taken
  | _ =>
    cases taken
    rfl

end Loads

/-- A text reads the same with its line ends translated. -/
theorem loads_universalNewlines (floats : FloatText) (value : Text) :
    loads floats (universalNewlines value) = loads floats value := by
  suffices alike : ∀ state, (universalNewlines value).foldlM (Loads.step floats) state =
      value.foldlM (Loads.step floats) state by
    rw [loads, loads, alike]
  fun_induction universalNewlines value with
  | case1 rest ih =>
    intro state
    simp only [List.foldlM_cons, Loads.step_return, ih]
    cases taken : Loads.step floats state 10 with
    | none => rfl
    | some next => simp [Loads.step_newline_twice taken]
  | case2 rest _ ih =>
    intro state
    simp only [List.foldlM_cons, Loads.step_return, ih]
  | case3 c rest _ _ ih =>
    intro state
    simp only [List.foldlM_cons, ih]
  | case4 => exact fun _ => rfl

/-- One character inside the quotes. -/
def escapeChar (c : Nat) : Text :=
  if c = 34 ∨ c = 92 then [92, c]
  else if c = 10 then text "\\n"
  else if c = 13 then text "\\r"
  else if c = 9 then text "\\t"
  else if c = 8 then text "\\b"
  else if c = 12 then text "\\f"
  else if c < 32 then text "\\u" ++ hexPad 4 c
  else [c]

/-- `encode_basestring`. -/
def quoted (value : Text) : Text := 34 :: value.flatMap escapeChar ++ [34]

/-- A new line at the level. -/
def newLine (level : Nat) : Text := 10 :: List.replicate (2 * level) 32

section
variable (floats : FloatText)

mutual

/-- `json.dumps(value, indent=2, ensure_ascii=False)` at the level. -/
def dumpsAt (level : Nat) : Json → Text
  | .null => text "null"
  | .bool value => if value then text "true" else text "false"
  | .int value => text (toString value)
  | .float value => floats.print (.float value)
  | .infinite negative => floats.print (.infinite negative)
  | .string value => quoted value
  | .array items =>
    if items.isEmpty then text "[]"
    else text "[" ++ dumpsItems (level + 1) items ++ newLine level ++ text "]"
  | .object fields =>
    if fields.isEmpty then text "\x7b\x7d"
    else text "\x7b" ++ dumpsFields (level + 1) fields ++ newLine level ++ text "\x7d"
  termination_by structural value => value

def dumpsItems (level : Nat) : List Json → Text
  | [] => []
  | item :: rest =>
    newLine level ++ dumpsAt level item ++ (if rest.isEmpty then [] else text ",") ++
      dumpsItems level rest
  termination_by structural items => items

def dumpsFields (level : Nat) : List (Text × Json) → Text
  | [] => []
  | field :: rest =>
    newLine level ++ dumpsField level field ++ (if rest.isEmpty then [] else text ",") ++
      dumpsFields level rest
  termination_by structural fields => fields

def dumpsField (level : Nat) : Text × Json → Text
  | (key, value) => quoted key ++ text ": " ++ dumpsAt level value
  termination_by structural field => field

end

end

section
variable {floats : FloatText} {c : Nat}

theorem hexPad_ascii (width n : Nat) : ∀ c ∈ hexPad width n, c < 128 := by
  induction width generalizing n with
  | zero => simp [hexPad]
  | succ width ih =>
    intro c member
    rw [hexPad] at member
    rcases List.mem_append.mp member with high | low
    · exact ih _ c high
    · rw [List.mem_singleton] at low
      rw [low, hexDigit]
      split <;> omega

theorem text_digits_ascii (n : Nat) : ∀ c ∈ text (toString n), c < 128 := by
  intro c member
  obtain ⟨char, digit, rfl⟩ := List.mem_map.mp member
  have digits : (toString n).toList = Nat.toDigits 10 n := String.toList_ofList
  rw [digits] at digit
  have decimal := Nat.isDigit_of_mem_toDigits (by decide) (by decide) digit
  simp only [Char.isDigit, Bool.and_eq_true, decide_eq_true_eq] at decimal
  have small := UInt32.le_iff_toNat_le.mp decimal.2
  exact Nat.lt_of_le_of_lt small (by decide)

theorem text_int_ascii (value : Int) : ∀ c ∈ text (toString value), c < 128 := by
  cases value with
  | ofNat n => exact text_digits_ascii n
  | negSucc n =>
    have signed : text (toString (Int.negSucc n)) = 45 :: text (toString (n + 1)) := by
      show text ("-" ++ toString (n + 1)) = _
      rw [text, String.toList_append, List.map_append]
      rfl
    rw [signed]
    intro c member
    rcases List.mem_cons.mp member with rfl | digit
    · decide
    · exact text_digits_ascii (n + 1) c digit

theorem mem_escapeChar (wide : 128 ≤ c) {d : Nat} : c ∈ escapeChar d ↔ c = d := by
  have narrow {value : Text} (ascii : ∀ c ∈ value, c < 128) (small : d < 128) : c ∈ value ↔ c = d := by
    constructor
    · intro member
      have := ascii c member
      omega
    · omega
  unfold escapeChar
  split
  · exact narrow (by simp; omega) (by omega)
  split
  · exact narrow (by decide) (by omega)
  split
  · exact narrow (by decide) (by omega)
  split
  · exact narrow (by decide) (by omega)
  split
  · exact narrow (by decide) (by omega)
  split
  · exact narrow (by decide) (by omega)
  split
  · have front : ∀ c ∈ text "\\u", c < 128 := by decide
    refine narrow (fun c member => ?_) (by omega)
    rcases List.mem_append.mp member with escape | hex
    · exact front c escape
    · exact hexPad_ascii 4 d c hex
  · exact List.mem_singleton

/-- Beyond ASCII, a quoted text has the characters of the text. -/
theorem mem_quoted (wide : 128 ≤ c) {value : Text} : c ∈ quoted value ↔ c ∈ value := by
  have other : c ≠ 34 := by omega
  simp only [quoted, List.cons_append, List.mem_cons, List.mem_append, List.mem_flatMap,
    mem_escapeChar wide, List.not_mem_nil, other, false_or, or_false]
  constructor
  · rintro ⟨d, member, rfl⟩
    exact member
  · intro member
    exact ⟨c, member, rfl⟩

theorem not_mem_ascii (wide : 128 ≤ c) {value : Text} (ascii : ∀ c ∈ value, c < 128) : c ∉ value := by
  intro member
  have := ascii c member
  omega

theorem newLine_ascii (level : Nat) : ∀ c ∈ newLine level, c < 128 := by
  intro c member
  rcases List.mem_cons.mp member with rfl | space
  · decide
  · rw [List.eq_of_mem_replicate space]
    decide

theorem mem_dumpsItems (wide : 128 ≤ c) (level : Nat) (items : List Json) :
    c ∈ dumpsItems floats level items ↔ ∃ item ∈ items, c ∈ dumpsAt floats level item := by
  induction items with
  | nil => simp [dumpsItems]
  | cons item rest ih =>
    have comma : c ∉ (if rest.isEmpty then [] else text ",") := by
      refine not_mem_ascii wide ?_
      split <;> decide
    simp only [dumpsItems, List.mem_append, not_mem_ascii wide (newLine_ascii level), comma, false_or,
      or_false, ih, List.exists_mem_cons_iff]

theorem mem_dumpsFields (wide : 128 ≤ c) (level : Nat) (fields : List (Text × Json)) :
    c ∈ dumpsFields floats level fields ↔
      ∃ field ∈ fields, c ∈ field.1 ∨ c ∈ dumpsAt floats level field.2 := by
  induction fields with
  | nil => simp [dumpsFields]
  | cons field rest ih =>
    obtain ⟨key, value⟩ := field
    have comma : c ∉ (if rest.isEmpty then [] else text ",") := by
      refine not_mem_ascii wide ?_
      split <;> decide
    have colon : c ∉ text ": " := not_mem_ascii wide (by decide)
    simp only [dumpsFields, dumpsField, List.mem_append, not_mem_ascii wide (newLine_ascii level), comma,
      colon, mem_quoted wide, false_or, or_false, ih, List.exists_mem_cons_iff]

/-- Beyond ASCII, what is printed has the characters of the texts in the value. -/
theorem mem_dumpsAt (wide : 128 ≤ c) (level : Nat) (value : Json) :
    c ∈ dumpsAt floats level value ↔ ∃ found, Json.Occurs found value ∧ c ∈ found := by
  have leaf {printed : Text} {value : Json} (ascii : ∀ c ∈ printed, c < 128)
      (plain : ∀ found, ¬ Json.Occurs found value) :
      c ∈ printed ↔ ∃ found, Json.Occurs found value ∧ c ∈ found := by
    refine iff_of_false (not_mem_ascii wide ascii) ?_
    rintro ⟨found, occurs, _⟩
    exact plain found occurs
  have wrapped {opening closing inner : Text} (level : Nat) (first : ∀ c ∈ opening, c < 128)
      (last : ∀ c ∈ closing, c < 128) :
      c ∈ opening ++ inner ++ newLine level ++ closing ↔ c ∈ inner := by
    simp only [List.mem_append, not_mem_ascii wide first, not_mem_ascii wide last,
      not_mem_ascii wide (newLine_ascii level), false_or, or_false]
  induction value using Json.induction generalizing level with
  | string given =>
    rw [dumpsAt, mem_quoted wide]
    simp only [Json.occurs_string, exists_eq_left]
  | array items ih =>
    rw [dumpsAt]
    split
    · rename_i empty
      rw [List.isEmpty_iff.mp empty]
      refine leaf (by decide) fun found occurs => ?_
      obtain ⟨item, member, _⟩ := Json.occurs_array.mp occurs
      cases member
    · rw [wrapped level (by decide) (by decide), mem_dumpsItems wide]
      simp only [Json.occurs_array]
      constructor
      · rintro ⟨item, member, inside⟩
        obtain ⟨found, occurs, among⟩ := (ih item member _).mp inside
        exact ⟨found, ⟨item, member, occurs⟩, among⟩
      · rintro ⟨found, ⟨item, member, occurs⟩, among⟩
        exact ⟨item, member, (ih item member _).mpr ⟨found, occurs, among⟩⟩
  | object fields ih =>
    rw [dumpsAt]
    split
    · rename_i empty
      rw [List.isEmpty_iff.mp empty]
      refine leaf (by decide) fun found occurs => ?_
      obtain ⟨field, member, _⟩ := Json.occurs_object.mp occurs
      cases member
    · rw [wrapped level (by decide) (by decide), mem_dumpsFields wide]
      simp only [Json.occurs_object]
      constructor
      · rintro ⟨field, member, named | inside⟩
        · exact ⟨field.1, ⟨field, member, .inl rfl⟩, named⟩
        · obtain ⟨found, occurs, among⟩ := (ih field member _).mp inside
          exact ⟨found, ⟨field, member, .inr occurs⟩, among⟩
      · rintro ⟨found, ⟨field, member, named | occurs⟩, among⟩
        · exact ⟨field, member, .inl (named ▸ among)⟩
        · exact ⟨field, member, .inr ((ih field member _).mpr ⟨found, occurs, among⟩)⟩
  | null =>
    rw [dumpsAt]
    exact leaf (by decide) fun _ => Json.not_occurs_scalar rfl
  | bool value =>
    rw [dumpsAt]
    refine leaf ?_ fun _ => Json.not_occurs_scalar rfl
    split <;> decide
  | int number => exact leaf (text_int_ascii number) fun _ => Json.not_occurs_scalar rfl
  | float value => exact leaf (floats.print_ascii _) fun _ => Json.not_occurs_scalar rfl
  | infinite negative => exact leaf (floats.print_ascii _) fun _ => Json.not_occurs_scalar rfl

end

end N8nSystems.Lib.Py
