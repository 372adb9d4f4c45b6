import N8nSystems.Lib.PyCodec
import N8nSystems.Lib.PyJson
import N8nSystems.Workflows.SecretGate

/-! Sanitising a file in place. `read_text` translates the line ends, and `write_text`
truncates the file before it encodes what it writes. -/

namespace N8nSystems.Workflows

open Lib Lib.Py

/-- The exceptions of `process_file`: of reading, of `process_text` and of writing. -/
inductive FileFailure where
  | decode
  | process (failure : SanitizeFailure)
  | encode

section
variable (unicode : Unicode) (floats : FloatText)

/-- `process_text` with Python's `json`. -/
def processJson (value : Text) : Except SanitizeFailure Text :=
  processText unicode (loads floats) (dumpsAt floats 0) value

/-- `process_file` on a file with the content: what it returns or raises, and what the
file then holds. -/
def processFile (content : ByteArray) : Except FileFailure Bool × ByteArray :=
  match decodeUtf8 content with
  | none => (.error .decode, content)
  | some value =>
    let original := universalNewlines value
    match processJson unicode floats original with
    | .error failure => (.error (.process failure), content)
    | .ok updated =>
      if updated ≠ original then
        match encodeUtf8 updated with
        | none => (.error .encode, ByteArray.empty)
        | some written => (.ok true, written)
      else (.ok false, content)

end

variable {unicode : Unicode} {floats : FloatText}

theorem processJson_universalNewlines (value : Text) :
    processJson unicode floats (universalNewlines value) = processJson unicode floats value := by
  rw [processJson, processJson, processText, processText, loads_universalNewlines]

theorem processJson_ok_iff {value out : Text} : processJson unicode floats value = .ok out ↔
    ∃ document, loads floats value = some document ∧ findSecretMatches unicode document = [] ∧
      dumpsStable (dumpsAt floats 0) (strip [] document) = out := by
  unfold processJson processText
  cases loads floats value with
  | none => simp
  | some document =>
    simp only [bind_ok_iff, sanitizeDocument_ok_iff, Option.some.injEq, exists_eq_left']
    constructor
    · rintro ⟨clean, ⟨quiet, rfl⟩, printed⟩
      exact ⟨quiet, Except.ok.inj printed⟩
    · rintro ⟨quiet, rfl⟩
      exact ⟨_, ⟨quiet, rfl⟩, rfl⟩

theorem occurs_sortKeys {found : Text} {value : Json} :
    Json.Occurs found (sortKeys value) ↔ Json.Occurs found value := by
  induction value using Json.induction with
  | array items ih =>
    rw [sortKeys, sortItems_eq, Json.occurs_array, Json.occurs_array]
    simp only [List.mem_map, exists_exists_and_eq_and]
    exact exists_congr fun item => and_congr_right fun member => ih item member
  | object fields ih =>
    rw [sortKeys, sortFields_eq, Json.occurs_object, Json.occurs_object]
    simp only [List.mem_mergeSort, List.mem_map, exists_exists_and_eq_and]
    exact exists_congr fun field => and_congr_right fun member => or_congr_right (ih field member)
  | _ => rfl

/-- The text is a string in what `_strip` keeps of the value. -/
inductive KeptString (found : Text) : Text → Json → Prop
  | here : KeptString found path (.string found)
  | field {fields : List (Text × Json)} (member : field ∈ fields)
      (keep : keeps path field.1 field.2 = true)
      (inner : KeptString found (childPath path field.1) field.2) : KeptString found path (.object fields)
  | item (member : item ∈ items) (inner : KeptString found path item) : KeptString found path (.array items)

theorem inside_strip_iff {found path : Text} {value : Json} :
    Json.Inside (.string found) (strip path value) ↔ KeptString found path value := by
  induction value using Json.induction generalizing path with
  | string given =>
    constructor
    · intro inside
      cases inside
      exact .here
    · intro kept
      cases kept
      exact .self
  | array items ih =>
    rw [strip, stripItems_eq]
    constructor
    · intro inside
      cases inside with
      | item member inside =>
        obtain ⟨item, original, rfl⟩ := List.mem_map.mp member
        exact .item original ((ih item original).mp inside)
    · intro kept
      cases kept with
      | item member inner => exact .item (List.mem_map_of_mem member) ((ih _ member).mpr inner)
  | object fields ih =>
    rw [strip]
    constructor
    · intro inside
      cases inside with
      | field member inside =>
        obtain ⟨item, original, keep, stripped⟩ := mem_stripFields.mp member
        dsimp only at stripped
        rw [stripped] at inside
        exact .field original keep ((ih _ original).mp inside)
    · intro kept
      cases kept with
      | @field field _ _ member keep inner =>
        have placed : (field.1, strip (childPath path field.1) field.2) ∈ stripFields path fields :=
          mem_stripFields.mpr ⟨field.2, member, keep, rfl⟩
        exact .field placed ((ih _ member).mpr inner)
  | _ =>
    refine iff_of_false ?_ ?_
    · intro inside
      cases inside
    · intro kept
      cases kept

/-- The text is a string or a key in what `_strip` keeps of the document. -/
def Kept (found : Text) (document : Json) : Prop :=
  KeptString found [] document ∨ KeptKey found [] document

theorem kept_iff {found : Text} {document : Json} :
    Kept found document ↔ Json.Occurs found (strip [] document) := by
  rw [Json.Occurs, inside_strip_iff, keyOf_strip_iff, Kept]

/-- The output has a character that UTF-8 cannot encode exactly when a kept text has. -/
theorem dumpsStable_unencodable_iff {document : Json} :
    encodeUtf8 (dumpsStable (dumpsAt floats 0) (strip [] document)) = none ↔
      ∃ found, Kept found document ∧ ∃ c ∈ found, ¬ c.isValidChar := by
  have wide {c : Nat} (invalid : ¬ c.isValidChar) : 128 ≤ c := by
    simp only [Nat.isValidChar, not_or] at invalid
    omega
  have printed {c : Nat} (invalid : ¬ c.isValidChar) :
      c ∈ dumpsStable (dumpsAt floats 0) (strip [] document) ↔
        ∃ found, Kept found document ∧ c ∈ found := by
    have big := wide invalid
    have other : c ≠ 10 := by omega
    simp only [dumpsStable, List.mem_append, List.mem_singleton, other, or_false, mem_dumpsAt big,
      occurs_sortKeys]
    exact exists_congr fun found => and_congr_left fun _ => kept_iff.symm
  rw [encodeUtf8_eq_none_iff]
  constructor
  · rintro ⟨c, member, invalid⟩
    obtain ⟨found, kept, inside⟩ := (printed invalid).mp member
    exact ⟨found, kept, c, inside, invalid⟩
  · rintro ⟨found, kept, c, inside, invalid⟩
    exact ⟨c, (printed invalid).mpr ⟨found, kept, inside⟩, invalid⟩

/-- Either `process_file` finishes and the file holds what `process_text` makes of its
text, or it raises and the file holds what it held. -/
def Undamaged (unicode : Unicode) (floats : FloatText) (content : ByteArray) (value : Text) : Prop :=
  match processFile unicode floats content with
  | (.ok _, after) => ∃ out, processJson unicode floats value = .ok out ∧ encodeUtf8 out = some after
  | (.error _, after) => after = content

/-- An empty file holds no document. -/
theorem content_ne_empty {content : ByteArray} {value : Text} (decoded : decodeUtf8 content = some value)
    (loaded : loads floats value = some document) : ByteArray.empty ≠ content := by
  intro emptied
  rw [← emptied, decodeUtf8_empty] at decoded
  cases decoded
  cases loaded

/-- When the document of the text passes, what is kept of it has no surrogate; and a
text that is in its final form but for the line ends has no carriage return. -/
structure Rewritable (unicode : Unicode) (floats : FloatText) (value : Text) : Prop where
  encodable : ∀ document, loads floats value = some document → findSecretMatches unicode document = [] →
    ∀ found, Kept found document → ∀ c ∈ found, c.isValidChar
  lineEnds : processJson unicode floats value = .ok (universalNewlines value) → 13 ∉ value

/-- A file of a text survives `process_file` exactly when the text is such. -/
theorem file_undamaged_iff {content : ByteArray} {value : Text} (decoded : decodeUtf8 content = some value) :
    Undamaged unicode floats content value ↔ Rewritable unicode floats value := by
  unfold Undamaged processFile
  simp only [decoded, processJson_universalNewlines]
  cases processed : processJson unicode floats value with
  | error failure =>
    refine iff_of_true rfl ⟨?_, ?_⟩
    · intro document loaded quiet
      cases processed.symm.trans (processJson_ok_iff.mpr ⟨document, loaded, quiet, rfl⟩)
    · intro finished
      cases processed.symm.trans finished
  | ok out =>
    obtain ⟨document, loaded, quiet, rfl⟩ := processJson_ok_iff.mp processed
    have surrogate := @dumpsStable_unencodable_iff floats document
    generalize dumpsStable (dumpsAt floats 0) (strip [] document) = out at processed surrogate ⊢
    -- The texts of the document are encoded with the output.
    have encodable (written : encodeUtf8 out ≠ none) (other : Json) (same : loads floats value = some other) :
        ∀ found, Kept found other → ∀ c ∈ found, c.isValidChar := by
      cases loaded.symm.trans same
      intro found kept c member
      by_contra invalid
      exact written (surrogate.mpr ⟨found, kept, c, member, invalid⟩)
    by_cases final : out = universalNewlines value
    · subst final
      simp only [ne_eq, not_true_eq_false, if_false, Except.ok.injEq, exists_eq_left']
      have held : encodeUtf8 (universalNewlines value) = some content ↔ 13 ∉ value := by
        rw [← decodeUtf8_eq_some_iff, decoded, Option.some.injEq, eq_comm,
          universalNewlines_eq_self_iff]
      rw [held]
      constructor
      · intro plain
        refine ⟨fun other same _ => encodable ?_ other same, fun _ => plain⟩
        rw [held.mpr plain]
        exact Option.some_ne_none content
      · intro rewritable
        exact rewritable.lineEnds processed
    · simp only [ne_eq, final, not_false_eq_true, if_true]
      cases written : encodeUtf8 out with
      | some bytes =>
        refine iff_of_true ⟨out, rfl, written⟩ ⟨?_, ?_⟩
        · intro other same _
          exact encodable (by rw [written]; exact Option.some_ne_none bytes) other same
        · intro finished
          exact absurd (Except.ok.inj (processed.symm.trans finished)) final
      | none =>
        obtain ⟨found, kept, c, member, invalid⟩ := surrogate.mp written
        refine iff_of_false ?_ fun rewritable => invalid (rewritable.encodable document loaded quiet found kept c member)
        exact content_ne_empty decoded loaded

/-- Floats for documents without one. -/
def noFloats : FloatText where
  read _ := .float 0
  print _ := text "0.0"
  print_ascii _ := by decide

/-- A workflow in one line, and one with the escape of a surrogate. -/
def compactFile : String := "\x7b\"name\":\"Sync\",\"nodes\":[]\x7d"

def surrogateFile : String := "\x7b\"name\":\"\\ud800\"\x7d"

theorem decodeUtf8_toByteArray (file : String) : decodeUtf8 file.toByteArray = some (text file) :=
  decodeUtf8_eq_some_iff.mpr (encodeUtf8_text file)

/-- The document of the compact file. -/
def compactDocument : Json :=
  .object [(text "name", .string (text "Sync")), (text "nodes", .array [])]

theorem loads_compactFile : loads noFloats (text compactFile) = some compactDocument := rfl

theorem compactDocument_texts {found : Text} (kept : Kept found compactDocument) :
    found = text "name" ∨ found = text "Sync" ∨ found = text "nodes" := by
  have same : strip [] compactDocument = compactDocument := rfl
  have occurs := kept_iff.mp kept
  rw [same] at occurs
  simp only [compactDocument, Json.occurs_object, Json.occurs_string, Json.occurs_array,
    List.mem_cons, List.not_mem_nil, or_false, exists_eq_or_imp, exists_eq_left, false_and,
    exists_false] at occurs
  obtain (rfl | rfl) | rfl := occurs
  · exact .inl rfl
  · exact .inr (.inl rfl)
  · exact .inr (.inr rfl)

theorem compactFile_rewritable : Rewritable asciiUnicode noFloats (text compactFile) where
  encodable := by
    intro document loaded _ found kept
    have same : document = compactDocument := Option.some.inj (loaded.symm.trans loads_compactFile)
    rw [same] at kept
    obtain named | named | named := compactDocument_texts kept
    all_goals
      rw [named]
      decide +kernel
  lineEnds := by
    intro _
    decide +kernel

theorem compactFile_undamaged :
    Undamaged asciiUnicode noFloats compactFile.toByteArray (text compactFile) := by
  rw [file_undamaged_iff (decodeUtf8_toByteArray compactFile)]
  exact compactFile_rewritable

theorem loads_surrogateFile :
    loads noFloats (text surrogateFile) = some (.object [(text "name", .string [0xD800])]) := rfl

theorem surrogateFile_emptied :
    processFile asciiUnicode noFloats surrogateFile.toByteArray = (.error .encode, ByteArray.empty) := by
  have quiet : findSecretMatches asciiUnicode (.object [(text "name", .string [0xD800])]) = [] := by
    decide +kernel
  have processed := processJson_ok_iff.mpr ⟨_, loads_surrogateFile, quiet, rfl⟩
  have rewritten : dumpsStable (dumpsAt noFloats 0)
      (strip [] (.object [(text "name", .string [0xD800])])) ≠ universalNewlines (text surrogateFile) := by
    decide +kernel
  have unencodable : encodeUtf8 (dumpsStable (dumpsAt noFloats 0)
      (strip [] (.object [(text "name", .string [0xD800])]))) = none :=
    encodeUtf8_eq_none_iff.mpr ⟨0xD800, by decide +kernel, by decide⟩
  unfold processFile
  simp only [decodeUtf8_toByteArray, processJson_universalNewlines, processed, ne_eq, rewritten,
    not_false_eq_true, if_true, unencodable]

/-- The escape of a surrogate passes every check, and leaves the file empty. -/
theorem surrogateFile_damaged :
    decodeUtf8 surrogateFile.toByteArray = some (text surrogateFile) ∧
      ¬ Undamaged asciiUnicode noFloats surrogateFile.toByteArray (text surrogateFile) := by
  have decoded := decodeUtf8_toByteArray surrogateFile
  refine ⟨decoded, ?_⟩
  rw [Undamaged, surrogateFile_emptied]
  exact content_ne_empty decoded loads_surrogateFile

end N8nSystems.Workflows
