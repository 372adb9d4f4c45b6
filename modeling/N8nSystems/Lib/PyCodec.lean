import N8nSystems.Lib.PyText
import N8nSystems.Lib.Scan

/-! UTF-8 as Python's strict codec has it. -/

namespace N8nSystems.Lib.Py

/-- The character of a code point; a surrogate has none. -/
def charOf? (c : Nat) : Option Char := if c.isValidChar then some (Char.ofNat c) else none

/-- `value.encode("utf-8")`, or nothing where it raises. -/
def encodeUtf8 (value : Text) : Option ByteArray :=
  (value.mapM charOf?).map fun chars => (String.ofList chars).toByteArray

/-- `content.decode("utf-8")`, or nothing where it raises. -/
def decodeUtf8 (content : ByteArray) : Option Text :=
  content.utf8Decode?.map fun chars => chars.toList.map Char.toNat

theorem charOf?_toNat (c : Char) : charOf? c.toNat = some c := by
  have valid : c.toNat.isValidChar := c.valid
  rw [charOf?, if_pos valid, Char.ofNat_toNat]

theorem mapM_charOf? (chars : List Char) : (chars.map Char.toNat).mapM charOf? = some chars := by
  rw [mapM_eq_some_iff, List.map_map]
  exact List.map_congr_left fun c _ => charOf?_toNat c

theorem toNat_of_charOf? {c : Nat} {char : Char} (read : charOf? c = some char) : char.toNat = c := by
  unfold charOf? at read
  split at read
  · rename_i valid
    cases read
    rw [Char.ofNat, dif_pos valid]
    rfl
  · cases read

theorem map_toNat_of_mapM {value : Text} {chars : List Char} (read : value.mapM charOf? = some chars) :
    chars.map Char.toNat = value := by
  induction value generalizing chars with
  | nil =>
    cases read
    rfl
  | cons c rest ih =>
    rw [mapM_eq_some_iff] at read
    cases chars with
    | nil => cases read
    | cons char chars =>
      obtain ⟨here, there⟩ := List.cons.inj read
      rw [List.map_cons, toNat_of_charOf? here, ih (mapM_eq_some_iff.mpr there)]

/-- The two directions of the codec invert each other. -/
theorem decodeUtf8_eq_some_iff {content : ByteArray} {value : Text} :
    decodeUtf8 content = some value ↔ encodeUtf8 value = some content := by
  constructor
  · intro decoded
    obtain ⟨chars, read, rfl⟩ := Option.map_eq_some_iff.mp decoded
    have bytes : chars.toList.utf8Encode = content := by
      have whole := @ByteArray.utf8Encode_get_utf8Decode? content (by rw [read]; rfl)
      simpa [read] using whole
    rw [encodeUtf8, mapM_charOf?, Option.map_some, String.toByteArray_ofList, bytes]
  · intro encoded
    obtain ⟨chars, read, rfl⟩ := Option.map_eq_some_iff.mp encoded
    rw [decodeUtf8, String.toByteArray_ofList, List.utf8Decode?_utf8Encode, Option.map_some]
    exact congrArg some (map_toNat_of_mapM read)

theorem decodeUtf8_empty : decodeUtf8 ByteArray.empty = some [] := decodeUtf8_eq_some_iff.mpr rfl

theorem encodeUtf8_text (literal : String) : encodeUtf8 (text literal) = some literal.toByteArray := by
  rw [encodeUtf8, text, mapM_charOf?, Option.map_some, String.ofList_toList]

/-- A text is encoded exactly when it has no surrogate. -/
theorem encodeUtf8_eq_none_iff {value : Text} :
    encodeUtf8 value = none ↔ ∃ c ∈ value, ¬ c.isValidChar := by
  rw [encodeUtf8, Option.map_eq_none_iff, mapM_eq_none_iff]
  simp only [charOf?, ite_eq_right_iff, reduceCtorEq, imp_false]

end N8nSystems.Lib.Py
