import Mathlib.Data.List.TakeWhile
import Mathlib.Algebra.Order.Ring.Int

/-! Go strings as byte lists, with the parts of `strings`, `strconv`, `fmt` and
`net/textproto` that a request handler uses on header text. -/

namespace N8nSystems.Lib.Go

abbrev Bytes := List UInt8

scoped instance : LawfulBEq Bytes := List.instLawfulBEq

/-- The bytes of an ASCII literal. -/
def lit (text : String) : Bytes := text.toList.map fun c => UInt8.ofNat c.toNat

def dot : UInt8 := 46

/-- UTF-8 encodings of the code points accepted by `unicode.IsSpace`. -/
def spaceRunes : List Bytes :=
  [[9], [10], [11], [12], [13], [32], [0xC2, 0x85], [0xC2, 0xA0], [0xE1, 0x9A, 0x80],
    [0xE2, 0x80, 0x80], [0xE2, 0x80, 0x81], [0xE2, 0x80, 0x82], [0xE2, 0x80, 0x83],
    [0xE2, 0x80, 0x84], [0xE2, 0x80, 0x85], [0xE2, 0x80, 0x86], [0xE2, 0x80, 0x87],
    [0xE2, 0x80, 0x88], [0xE2, 0x80, 0x89], [0xE2, 0x80, 0x8A], [0xE2, 0x80, 0xA8],
    [0xE2, 0x80, 0xA9], [0xE2, 0x80, 0xAF], [0xE2, 0x81, 0x9F], [0xE3, 0x80, 0x80]]

/-- Drop leading members of `affixes`, at most `fuel` of them. -/
def dropAffixes (affixes : List Bytes) : Nat → Bytes → Bytes
  | 0, text => text
  | fuel + 1, text =>
    match affixes.find? (·.isPrefixOf text) with
    | none => text
    | some affix => dropAffixes affixes fuel (text.drop affix.length)

/-- `strings.TrimSpace`. The encodings are self-synchronizing, so the last rune
is a space exactly when the text ends in one of them. -/
def trimSpace (text : Bytes) : Bytes :=
  let left := dropAffixes spaceRunes text.length text
  (dropAffixes (spaceRunes.map List.reverse) left.length left.reverse).reverse

/-- `strings.Split` at a one-byte separator. -/
def split (text : Bytes) (separator : UInt8) : List Bytes := text.splitOn separator

/-- `strings.SplitN(text, separator, 2)`; `none` when there is only one part. -/
def cut (text : Bytes) (separator : UInt8) : Option (Bytes × Bytes) :=
  match text.dropWhile (· != separator) with
  | [] => none
  | _ :: rest => some (text.takeWhile (· != separator), rest)

def digitValue (b : UInt8) : Option Nat :=
  if 48 ≤ b ∧ b ≤ 57 then some (b.toNat - 48) else none

def digitStep (value : Nat) (b : UInt8) : Option Nat :=
  (digitValue b).map (10 * value + ·)

/-- `strconv.ParseUint` in base 10, before the range check. -/
def parseDigits : Bytes → Option Nat
  | [] => none
  | text => text.foldlM digitStep 0

/-- The optional sign of an integer literal and the rest of its text. -/
def parseSign : Bytes → Bool × Bytes
  | 45 :: rest => (true, rest)
  | 43 :: rest => (false, rest)
  | text => (false, text)

/-- `strconv.ParseInt(text, 10, 64)`; `none` for a syntax or range error. -/
def parseInt (text : Bytes) : Option Int :=
  match parseSign text with
  | (true, digits) => (parseDigits digits).bind fun n =>
      if n ≤ 2 ^ 63 then some (-(n : Int)) else none
  | (false, digits) => (parseDigits digits).bind fun n =>
      if n < 2 ^ 63 then some (n : Int) else none

/-- The byte of a decimal digit character. -/
def digitByte (c : Char) : UInt8 := UInt8.ofNat c.toNat

/-- The `%d` rendering of an integer. -/
def formatInt (n : Int) : Bytes :=
  (if n < 0 then [45] else []) ++
    (Nat.toDigits 10 n.natAbs).map digitByte

def hexDigit (b : UInt8) : Option UInt8 :=
  if 48 ≤ b ∧ b ≤ 57 then some (b - 48)
  else if 97 ≤ b ∧ b ≤ 102 then some (b - 87)
  else if 65 ≤ b ∧ b ≤ 70 then some (b - 55)
  else none

/-- `hex.DecodeString`; `none` for an odd length or a byte that is no hex digit. -/
def hexDecodeString : Bytes → Option Bytes
  | [] => some []
  | [_] => none
  | high :: low :: rest =>
    (hexDigit high).bind fun h => (hexDigit low).bind fun l =>
      (hexDecodeString rest).map ((16 * h + l) :: ·)

/-- The bytes of a header field name. -/
def isTokenByte (b : UInt8) : Bool :=
  48 ≤ b && b ≤ 57 || 65 ≤ b && b ≤ 90 || 97 ≤ b && b ≤ 122 ||
    [33, 35, 36, 37, 38, 39, 42, 43, 45, 46, 94, 95, 96, 124, 126].contains b

/-- Upper-case a letter that starts a word and lower-case every other letter. -/
def canonicalBytes : Bool → Bytes → Bytes
  | _, [] => []
  | upper, b :: rest =>
    let c :=
      if upper && 97 ≤ b && b ≤ 122 then b - 32
      else if !upper && 65 ≤ b && b ≤ 90 then b + 32
      else b
    c :: canonicalBytes (c == 45) rest

/-- `textproto.CanonicalMIMEHeaderKey`; a malformed name is kept as it is. -/
def canonicalHeaderKey (name : Bytes) : Bytes :=
  if name.all isTokenByte then canonicalBytes true name else name

/-- `http.Header`: the values received under each canonical field name. -/
abbrev Header := Bytes → List Bytes

/-- `Header.Get`: the first value of the field, empty when there is none. -/
def Header.get (header : Header) (name : Bytes) : Bytes :=
  (header (canonicalHeaderKey name)).headD []

/-- The bytes `strconv.ParseInt` accepts in base 10: signs and decimal digits. -/
def IntByte (b : UInt8) : Prop := b = 45 ∨ b = 43 ∨ 48 ≤ b ∧ b ≤ 57

instance (b : UInt8) : Decidable (IntByte b) :=
  inferInstanceAs (Decidable (b = 45 ∨ b = 43 ∨ 48 ≤ b ∧ b ≤ 57))

theorem IntByte.ne_dot (byte : IntByte b) : b ≠ dot := by
  rintro rfl
  revert byte
  decide

theorem digitStep_intByte (read : digitStep value b = some next) : IntByte b := by
  simp only [digitStep, digitValue, Option.map_eq_some_iff] at read
  obtain ⟨digit, inRange, _⟩ := read
  split at inRange
  · rename_i range
    exact .inr (.inr range)
  · cases inRange

theorem foldlM_digitStep_intByte {text : Bytes}
    (read : text.foldlM digitStep value = some result) : ∀ b ∈ text, IntByte b := by
  induction text generalizing value with
  | nil => simp
  | cons first rest ih =>
    simp only [List.foldlM_cons, Option.bind_eq_bind, Option.bind_eq_some_iff] at read
    obtain ⟨next, taken, remaining⟩ := read
    intro b member
    rcases List.mem_cons.mp member with rfl | later
    · exact digitStep_intByte taken
    · exact ih remaining b later

theorem parseDigits_intByte (read : parseDigits text = some value) : ∀ b ∈ text, IntByte b := by
  cases text with
  | nil => cases read
  | cons first rest => exact foldlM_digitStep_intByte read

theorem parseSign_intByte (digits : ∀ b ∈ (parseSign text).2, IntByte b) :
    ∀ b ∈ text, IntByte b := by
  unfold parseSign at digits
  split at digits
  · intro b member
    rcases List.mem_cons.mp member with rfl | later
    · exact .inl rfl
    · exact digits b later
  · intro b member
    rcases List.mem_cons.mp member with rfl | later
    · exact .inr (.inl rfl)
    · exact digits b later
  · exact digits

/-- Accepted integer text has no byte outside the base-10 integer syntax. -/
theorem parseInt_intByte (read : parseInt text = some value) : ∀ b ∈ text, IntByte b := by
  apply parseSign_intByte
  unfold parseInt at read
  split at read
  all_goals
    rename_i digits same
    obtain ⟨n, parsed, _⟩ := Option.bind_eq_some_iff.mp read
    rw [same]
    exact parseDigits_intByte parsed

theorem digitByte_toNat (digit : c.isDigit = true) : (digitByte c).toNat = c.toNat := by
  have range : c.toNat ≤ 57 := by
    simp only [Char.isDigit, Bool.and_eq_true, decide_eq_true_eq] at digit
    exact digit.2
  simp only [digitByte, UInt8.toNat_ofNat']
  omega

theorem digitStep_digitByte (digit : c.isDigit = true) (value : Nat) :
    digitStep value (digitByte c) = some (10 * value + (c.toNat - 48)) := by
  have exact := digitByte_toNat digit
  simp only [Char.isDigit, Bool.and_eq_true, decide_eq_true_eq] at digit
  have lower : (48 : UInt8) ≤ digitByte c := by
    rw [UInt8.le_iff_toNat_le, exact]
    exact digit.1
  have upper : digitByte c ≤ (57 : UInt8) := by
    rw [UInt8.le_iff_toNat_le, exact]
    exact digit.2
  simp [digitStep, digitValue, lower, upper, exact]

theorem foldlM_digitStep_digits (digits : ∀ c ∈ chars, Char.isDigit c = true) (value : Nat) :
    (chars.map digitByte).foldlM digitStep value = some (Nat.ofDigitChars 10 chars value) := by
  induction chars generalizing value with
  | nil => rfl
  | cons first rest ih =>
    rw [List.map_cons, List.foldlM_cons, digitStep_digitByte (digits first (by simp)),
      Option.bind_eq_bind, Option.bind_some, Nat.ofDigitChars_cons]
    exact ih (fun c member => digits c (by simp [member])) _

/-- The digits of a rendering read back as the number rendered. -/
theorem parseDigits_toDigits (n : Nat) :
    parseDigits ((Nat.toDigits 10 n).map digitByte) = some n := by
  have digits : ∀ c ∈ Nat.toDigits 10 n, c.isDigit = true :=
    fun c member => Nat.isDigit_of_mem_toDigits (by decide) (by decide) member
  cases shape : (Nat.toDigits 10 n).map digitByte with
  | nil => simp at shape
  | cons first rest =>
    rw [parseDigits, ← shape, foldlM_digitStep_digits digits, Nat.ofDigitChars_ten_toDigits]
    simp

theorem parseSign_digits (digits : ∀ b ∈ text, 48 ≤ b) : parseSign text = (false, text) := by
  unfold parseSign
  split
  · exact absurd (digits 45 (by simp)) (by decide)
  · exact absurd (digits 43 (by simp)) (by decide)
  · rfl

theorem toDigits_lower (n : Nat) : ∀ b ∈ (Nat.toDigits 10 n).map digitByte, (48 : UInt8) ≤ b := by
  intro b member
  obtain ⟨c, present, rfl⟩ := List.mem_map.mp member
  have digit := Nat.isDigit_of_mem_toDigits (by decide) (by decide) present
  rw [UInt8.le_iff_toNat_le, digitByte_toNat digit]
  simp only [Char.isDigit, Bool.and_eq_true, decide_eq_true_eq] at digit
  exact digit.1

theorem parseSign_formatInt (n : Int) :
    parseSign (formatInt n) = (decide (n < 0), (Nat.toDigits 10 n.natAbs).map digitByte) := by
  by_cases negative : n < 0
  · simp only [formatInt, negative, ↓reduceIte, decide_true]
    rfl
  · simp only [formatInt, negative, ↓reduceIte, decide_false, List.nil_append]
    exact parseSign_digits (toDigits_lower n.natAbs)

theorem formatInt_injective : Function.Injective formatInt := by
  intro first second same
  have signs := congrArg parseSign same
  simp only [parseSign_formatInt, Prod.mk.injEq, decide_eq_decide] at signs
  have values := congrArg parseDigits signs.2
  simp only [parseDigits_toDigits, Option.some.injEq] at values
  omega

theorem formatInt_intByte (n : Int) : ∀ b ∈ formatInt n, IntByte b := by
  apply parseSign_intByte
  rw [parseSign_formatInt]
  exact parseDigits_intByte (parseDigits_toDigits n.natAbs)

/-- A separator that occurs in neither head determines where a framed text splits. -/
theorem frame_injective {α : Type u} {separator : α} {head₁ head₂ body₁ body₂ : List α}
    (absent₁ : separator ∉ head₁) (absent₂ : separator ∉ head₂)
    (same : head₁ ++ separator :: body₁ = head₂ ++ separator :: body₂) :
    head₁ = head₂ ∧ body₁ = body₂ := by
  induction head₁ generalizing head₂ with
  | nil =>
    cases head₂ with
    | nil => simpa using same
    | cons first rest =>
      obtain ⟨rfl, _⟩ : separator = first ∧ _ := by simpa using same
      simp at absent₂
  | cons first rest ih =>
    cases head₂ with
    | nil =>
      obtain ⟨rfl, _⟩ : first = separator ∧ _ := by simpa using same
      simp at absent₁
    | cons other tail =>
      simp only [List.mem_cons, not_or] at absent₁ absent₂
      obtain ⟨rfl, later⟩ : first = other ∧ _ := by simpa using same
      obtain ⟨rfl, bodies⟩ := ih absent₁.2 absent₂.2 later
      exact ⟨rfl, bodies⟩

theorem dot_not_mem {text : Bytes} (bytes : ∀ b ∈ text, IntByte b) : dot ∉ text :=
  fun member => (bytes dot member).ne_dot rfl

/-- Integer text before the first dot of a frame is recovered from the frame. -/
theorem dotFrame_injective (first : ∀ b ∈ head₁, IntByte b) (second : ∀ b ∈ head₂, IntByte b)
    (same : head₁ ++ dot :: body₁ = head₂ ++ dot :: body₂) : head₁ = head₂ ∧ body₁ = body₂ :=
  frame_injective (dot_not_mem first) (dot_not_mem second) same

end N8nSystems.Lib.Go
