import N8nSystems.Lib.PyLoaded
import N8nSystems.Workflows.CleanExport
import N8nSystems.Workflows.Files

/-! What a file holds after `process_file`: the document of its text, stripped and sorted. -/

namespace N8nSystems.Workflows

open Lib Lib.Py

section
variable {floats : FloatText}

theorem stripFields_keys (path : Text) (fields : List (Text × Json)) :
    ((stripFields path fields).map Prod.fst).Sublist (fields.map Prod.fst) := by
  induction fields with
  | nil => exact .slnil
  | cons field fields ih =>
    obtain ⟨key, item⟩ := field
    rw [stripFields]
    split
    · exact ih.cons_cons key
    · exact ih.cons key

theorem loaded_strip {value : Json} (loaded : Loaded floats value) (path : Text) :
    Loaded floats (strip path value) := by
  induction loaded generalizing path with
  | null => exact .null
  | bool => exact .bool
  | int short => exact .int short
  | @float value chars isFloat read =>
    cases value with
    | float | infinite => exact .float isFloat read
    | _ => exact isFloat.elim
  | string => exact .string
  | @array items each ih =>
    rw [strip, stripItems_eq]
    refine .array ?_
    intro item member
    obtain ⟨original, known, rfl⟩ := List.mem_map.mp member
    exact ih original known path
  | @object fields distinct each ih =>
    rw [strip]
    refine .object (distinct.sublist (stripFields_keys path fields)) ?_
    intro field member
    obtain ⟨original, known, -, same⟩ := mem_stripFields.mp member
    exact same ▸ ih _ known _

theorem sortFields_keys (fields : List (Text × Json)) :
    (sortFields fields).map Prod.fst = fields.map Prod.fst := by
  rw [sortFields_eq, List.map_map]
  rfl

theorem loaded_sortKeys {value : Json} (loaded : Loaded floats value) : Loaded floats (sortKeys value) := by
  induction loaded with
  | null => exact .null
  | bool => exact .bool
  | int short => exact .int short
  | @float value chars isFloat read =>
    cases value with
    | float | infinite => exact .float isFloat read
    | _ => exact isFloat.elim
  | string => exact .string
  | @array items each ih =>
    rw [sortKeys, sortItems_eq]
    refine .array ?_
    intro item member
    obtain ⟨original, known, rfl⟩ := List.mem_map.mp member
    exact ih original known
  | @object fields distinct each ih =>
    rw [sortKeys]
    refine .object ?_ ?_
    · rw [((List.mergeSort_perm _ _).map Prod.fst).nodup_iff, sortFields_keys]
      exact distinct
    · intro field member
      rw [List.mem_mergeSort, sortFields_eq] at member
      obtain ⟨original, known, rfl⟩ := List.mem_map.mp member
      exact ih original known

/-- Keys that are sorted stay where they are. -/
theorem sortKeys_of_sorted {fields : List (Text × Json)} (sorted : (fields.map Prod.fst).Pairwise (· ≤ ·)) :
    sortKeys (.object fields) = .object (fields.map fun field => (field.1, sortKeys field.2)) := by
  rw [sortKeys, sortFields_eq]
  refine congrArg Json.object (List.mergeSort_of_pairwise (List.pairwise_map.mpr ?_))
  exact (List.pairwise_map.mp sorted).imp fun ordered => decide_eq_true ordered

/-- `json.loads` of the output of `dumps_stable` is the document with its keys sorted. -/
theorem loads_dumpsStable (lawful : floats.Lawful) {document : Json} (loaded : Loaded floats document) :
    loads floats (dumpsStable (dumpsAt floats 0) document) = some (sortKeys document) := by
  rw [dumpsStable, Loads.loads_newline, dumpsAt_eq]
  exact loads_dumps lawful (loaded_sortKeys loaded) (Layout.admits_raw rfl _)

theorem dumpsStable_sortKeys (render : Json → Text) (document : Json) :
    dumpsStable render (sortKeys document) = dumpsStable render document := by
  rw [dumpsStable, dumpsStable, sortKeys_sortKeys]

/-- The output of `dumps_stable` has the line ends that `read_text` leaves alone. -/
theorem universalNewlines_dumpsStable (lawful : floats.Lawful) {document : Json}
    (loaded : Loaded floats document) :
    universalNewlines (dumpsStable (dumpsAt floats 0) document) = dumpsStable (dumpsAt floats 0) document := by
  rw [universalNewlines_eq_self_iff, dumpsStable, List.mem_append, not_or]
  refine ⟨fun member => ?_, by decide⟩
  rw [dumpsAt_eq] at member
  have blank (level : Nat) : 13 ∉ newLine level := by
    simp [newLine, List.mem_replicate]
  rcases Layout.printable_printAt lawful (loaded_sortKeys loaded) 0 13 member with
    visible | ⟨level, gap | comma⟩ | colon
  · omega
  · exact blank level gap
  · exact blank level comma
  · exact absurd colon (by decide)

end

section
variable {unicode : Unicode} {floats : FloatText}

/-- The text that `read_text` gets from the file is the one `dumps_stable` prints of
the document. -/
def Holds (floats : FloatText) (content : ByteArray) (document : Json) : Prop :=
  ∃ value, decodeUtf8 content = some value ∧
    universalNewlines value = dumpsStable (dumpsAt floats 0) document

theorem Holds.loads (lawful : floats.Lawful) {content : ByteArray} {document : Json}
    (loaded : Loaded floats document) (holds : Holds floats content document) :
    ∃ value, decodeUtf8 content = some value ∧ Py.loads floats value = some (sortKeys document) := by
  obtain ⟨value, decoded, printed⟩ := holds
  refine ⟨value, decoded, ?_⟩
  rw [← loads_universalNewlines, printed]
  exact loads_dumpsStable lawful loaded

theorem holds_of_encodeUtf8 (lawful : floats.Lawful) {content : ByteArray} {document : Json}
    (loaded : Loaded floats document)
    (written : encodeUtf8 (dumpsStable (dumpsAt floats 0) document) = some content) :
    Holds floats content document :=
  ⟨_, decodeUtf8_eq_some_iff.mpr written, universalNewlines_dumpsStable lawful loaded⟩

theorem processFile_ok {content after : ByteArray} {changed : Bool}
    (processed : processFile unicode floats content = (.ok changed, after)) :
    ∃ value document, decodeUtf8 content = some value ∧ loads floats value = some document ∧
      findSecretMatches unicode document = [] ∧
      (universalNewlines value = dumpsStable (dumpsAt floats 0) (strip [] document) ∧ after = content ∨
        encodeUtf8 (dumpsStable (dumpsAt floats 0) (strip [] document)) = some after) := by
  unfold processFile at processed
  cases decoded : decodeUtf8 content with
  | none =>
    rw [decoded] at processed
    cases processed
  | some value =>
    simp only [decoded, processJson_universalNewlines] at processed
    cases run : processJson unicode floats value with
    | error failure =>
      rw [run] at processed
      cases processed
    | ok out =>
      obtain ⟨document, read, quiet, rfl⟩ := processJson_ok_iff.mp run
      refine ⟨value, document, rfl, read, quiet, ?_⟩
      simp only [run] at processed
      by_cases differs : dumpsStable (dumpsAt floats 0) (strip [] document) ≠ universalNewlines value
      · rw [if_pos differs] at processed
        cases written : encodeUtf8 (dumpsStable (dumpsAt floats 0) (strip [] document)) with
        | none =>
          rw [written] at processed
          cases processed
        | some bytes =>
          rw [written] at processed
          cases processed
          exact .inr rfl
      · rw [if_neg differs] at processed
        cases processed
        exact .inl ⟨(not_not.mp differs).symm, rfl⟩

/-- The documents that a settled file holds. -/
structure Clean (unicode : Unicode) (floats : FloatText) (document : Json) : Prop where
  loaded : Loaded floats document
  quiet : findSecretMatches unicode document = []
  still : strip [] document = document

theorem Clean.sortKeys {document : Json} (clean : Clean unicode floats document) :
    Clean unicode floats (sortKeys document) where
  loaded := loaded_sortKeys clean.loaded
  quiet := findSecretMatches_mono clean.quiet fun _ => collectStrings_sortKeys.mp
  still := strip_sortKeys clean.still

theorem clean_strip {document : Json} (loaded : Loaded floats document)
    (quiet : findSecretMatches unicode document = []) : Clean unicode floats (strip [] document) where
  loaded := loaded_strip loaded []
  quiet := findSecretMatches_mono quiet fun _ => collectStrings_strip
  still := strip_strip [] document

/-- A file that holds a clean document is left alone. -/
theorem Clean.processFile_idle (lawful : floats.Lawful) {content : ByteArray} {document : Json}
    (clean : Clean unicode floats document) (holds : Holds floats content document) :
    processFile unicode floats content = (.ok false, content) := by
  obtain ⟨value, decoded, printed⟩ := holds
  have processed : processJson unicode floats (universalNewlines value) = .ok (universalNewlines value) := by
    refine processJson_ok_iff.mpr ⟨_, ?_, clean.sortKeys.quiet, ?_⟩
    · rw [printed]
      exact loads_dumpsStable lawful clean.loaded
    · rw [clean.sortKeys.still, dumpsStable_sortKeys, printed]
  simp only [processFile, decoded, processed, ne_eq, not_true_eq_false, if_false]

/-- When `process_file` returns, the file holds the document of its text, stripped. -/
theorem processFile_holds (lawful : floats.Lawful) {content after : ByteArray} {changed : Bool}
    (processed : processFile unicode floats content = (.ok changed, after)) :
    ∃ value document, decodeUtf8 content = some value ∧ loads floats value = some document ∧
      Clean unicode floats (strip [] document) ∧ Holds floats after (strip [] document) := by
  obtain ⟨value, document, decoded, read, quiet, outcome⟩ := processFile_ok processed
  have clean := clean_strip (loads_loaded lawful read) quiet
  refine ⟨value, document, decoded, read, clean, ?_⟩
  rcases outcome with ⟨final, rfl⟩ | written
  · exact ⟨value, decoded, final⟩
  · exact holds_of_encodeUtf8 lawful clean.loaded written

/-- When `process_file` returns, a reader of the file gets the document of its text stripped
and with sorted keys, and a second `process_file` changes nothing. -/
theorem processFile_again (lawful : floats.Lawful) {content after : ByteArray} {changed : Bool}
    (processed : processFile unicode floats content = (.ok changed, after)) :
    (∃ value document written, decodeUtf8 content = some value ∧ loads floats value = some document ∧
      decodeUtf8 after = some written ∧ loads floats written = some (sortKeys (strip [] document))) ∧
    processFile unicode floats after = (.ok false, after) := by
  obtain ⟨value, document, decoded, read, clean, holds⟩ := processFile_holds lawful processed
  obtain ⟨written, reread, parsed⟩ := holds.loads lawful clean.loaded
  exact ⟨⟨value, document, written, decoded, read, reread, parsed⟩, clean.processFile_idle lawful holds⟩

end

theorem noFloats_lawful : noFloats.Lawful where
  isFloat _ := trivial
  literal _ := .inl rfl
  back _ := rfl

/-- The workflow in one line, as it is rewritten. -/
def indentedFile : String := "\x7b\n  \"name\": \"Sync\",\n  \"nodes\": []\n\x7d\n"

theorem compactDocument_printed :
    dumpsStable (dumpsAt noFloats 0) (strip [] compactDocument) = text indentedFile := by
  have still : strip [] compactDocument = compactDocument := rfl
  have sorted : sortKeys compactDocument = compactDocument :=
    sortKeys_of_sorted (by decide : [text "name", text "nodes"].Pairwise (· ≤ ·))
  rw [still, dumpsStable, sorted]
  decide +kernel

theorem compactFile_rewritten : processFile asciiUnicode noFloats compactFile.toByteArray =
    (.ok true, indentedFile.toByteArray) := by
  have quiet : findSecretMatches asciiUnicode compactDocument = [] := by decide +kernel
  have differs : text indentedFile ≠ universalNewlines (text compactFile) := by decide +kernel
  simp only [processFile, decodeUtf8_toByteArray, processJson_universalNewlines,
    processJson_ok_iff.mpr ⟨_, loads_compactFile, quiet, compactDocument_printed⟩, ne_eq, differs, not_false_eq_true,
    if_true, encodeUtf8_text]

theorem compactFile_again :
    processFile asciiUnicode noFloats indentedFile.toByteArray = (.ok false, indentedFile.toByteArray) :=
  (processFile_again noFloats_lawful compactFile_rewritten).2

end N8nSystems.Workflows
