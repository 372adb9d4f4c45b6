import N8nSystems.Workflows.CleanExport

/-! The secret gate against the strings of what is returned. `collect_strings` looks at
values, and a key is a string as well. -/

namespace N8nSystems.Workflows

open Lib Lib.Py

/-- `sanitize_document` for patterns of any kind. -/
def sanitizeWith (unicode : Unicode) (patterns : List (Text × (Text → Bool))) (value : Json) :
    Except SanitizeFailure Json :=
  let found := findMatches unicode patterns value
  if found ≠ [] then
    .error (.sanitize (text "secret pattern(s) matched: " ++ (text "; ").intercalate found))
  else .ok (strip [] value)

theorem sanitizeDocument_eq (unicode : Unicode) (value : Json) :
    sanitizeDocument unicode value = sanitizeWith unicode (secretTests unicode) value := by
  rw [sanitizeDocument, sanitizeWith, findSecretMatches_eq]

theorem sanitizeWith_ok_iff {unicode : Unicode} {patterns : List (Text × (Text → Bool))}
    {document clean : Json} : sanitizeWith unicode patterns document = .ok clean ↔
      findMatches unicode patterns document = [] ∧ strip [] document = clean := by
  unfold sanitizeWith
  by_cases quiet : findMatches unicode patterns document = [] <;> simp [quiet]

theorem mem_collectStrings_iff {found : Text} {value : Json} :
    found ∈ collectStrings value ↔ Json.Inside (.string found) value := by
  constructor
  · intro member
    induction value using Json.induction with
    | string given =>
      rw [collectStrings, List.mem_singleton] at member
      rw [member]
      exact .self
    | array items ih =>
      obtain ⟨item, among, inner⟩ := mem_collectItems.mp member
      exact .item among (ih item among inner)
    | object fields ih =>
      obtain ⟨field, among, inner⟩ := mem_collectFields.mp member
      exact .field among (ih field among inner)
    | _ => cases member
  · intro inside
    exact collectStrings_inside inside found List.mem_cons_self

/-- The text is a key of a field that `_strip` keeps, in the value or somewhere in what it
keeps of it. -/
inductive KeptKey (key : Text) : Text → Json → Prop
  | here {fields : List (Text × Json)} (member : field ∈ fields) (named : field.1 = key)
      (keep : keeps path field.1 field.2 = true) : KeptKey key path (.object fields)
  | field {fields : List (Text × Json)} (member : field ∈ fields)
      (keep : keeps path field.1 field.2 = true)
      (inner : KeptKey key (childPath path field.1) field.2) : KeptKey key path (.object fields)
  | item (member : item ∈ items) (inner : KeptKey key path item) : KeptKey key path (.array items)

theorem keyOf_strip_iff {key path : Text} {value : Json} :
    Json.KeyOf key (strip path value) ↔ KeptKey key path value := by
  induction value using Json.induction generalizing path with
  | array items ih =>
    rw [strip, stripItems_eq]
    constructor
    · intro found
      cases found with
      | item member inner =>
        obtain ⟨item, original, rfl⟩ := List.mem_map.mp member
        exact .item original ((ih item original).mp inner)
    · intro found
      cases found with
      | item member inner => exact .item (List.mem_map_of_mem member) ((ih _ member).mpr inner)
  | object fields ih =>
    rw [strip]
    constructor
    · intro found
      cases found with
      | here member named =>
        obtain ⟨item, original, keep, -⟩ := mem_stripFields.mp member
        exact .here original named keep
      | field member inner =>
        obtain ⟨item, original, keep, stripped⟩ := mem_stripFields.mp member
        rw [stripped] at inner
        exact .field original keep ((ih _ original).mp inner)
    · intro found
      have placed {field : Text × Json} (member : field ∈ fields)
          (keep : keeps path field.1 field.2 = true) :
          (field.1, strip (childPath path field.1) field.2) ∈ stripFields path fields :=
        mem_stripFields.mpr ⟨field.2, member, keep, rfl⟩
      cases found with
      | here member named keep => exact .here (placed member keep) named
      | field member keep inner => exact .field (placed member keep) ((ih _ member).mpr inner)
  | _ =>
    refine iff_of_false ?_ ?_
    · intro found
      cases found
    · intro found
      cases found

/-- For every list of patterns, what `sanitize_document` returns has no string that a
pattern matches exactly when none matches a key that is kept. -/
theorem secret_free_iff {unicode : Unicode} {patterns : List (Text × (Text → Bool))}
    {document clean : Json} (returned : sanitizeWith unicode patterns document = .ok clean) :
    (∀ found, Json.Occurs found clean → ∀ pattern ∈ patterns, pattern.2 found = false) ↔
      ∀ key, KeptKey key [] document → ∀ pattern ∈ patterns, pattern.2 key = false := by
  obtain ⟨quiet, rfl⟩ := sanitizeWith_ok_iff.mp returned
  constructor
  · intro free key kept
    exact free key (.inr (keyOf_strip_iff.mpr kept))
  · rintro free found (value | key)
    · have member : found ∈ collectStrings document :=
        collectStrings_strip (mem_collectStrings_iff.mpr value)
      exact (findMatches_nil_iff unicode).mp quiet found member
    · exact free found (keyOf_strip_iff.mp key)

/-- A document with one name in it. -/
def namedDocument : Json := .object [(text "name", .string (text "Sync"))]

theorem namedDocument_passes : sanitizeDocument asciiUnicode namedDocument = .ok namedDocument := by
  have quiet : findSecretMatches asciiUnicode namedDocument = [] := by decide +kernel
  exact sanitizeDocument_ok_iff.mpr ⟨quiet, rfl⟩

theorem namedDocument_secret_free : sanitizeDocument asciiUnicode namedDocument = .ok namedDocument ∧
    ∀ found, Json.Occurs found namedDocument →
      ∀ pattern ∈ secretTests asciiUnicode, pattern.2 found = false := by
  have returned := namedDocument_passes
  rw [sanitizeDocument_eq] at returned
  refine ⟨namedDocument_passes, (secret_free_iff returned).mpr ?_⟩
  intro key kept pattern member
  have named : key = text "name" := by
    cases kept with
    | here member named =>
      obtain rfl := List.mem_singleton.mp member
      exact named.symm
    | field member _ inner =>
      obtain rfl := List.mem_singleton.mp member
      cases inner
  have plain : (secretTests asciiUnicode).all (fun pattern => !pattern.2 (text "name")) = true := by
    decide +kernel
  have silent := List.all_eq_true.mp plain pattern member
  rw [named]
  simpa using silent

/-- A document with a token for a key. -/
def keyedByToken : Json := .object [(text "sk-0123456789abcdef", .int 1)]

theorem keyedByToken_passes :
    sanitizeWith asciiUnicode (secretTests asciiUnicode) keyedByToken = .ok (strip [] keyedByToken) :=
  sanitizeWith_ok_iff.mpr ⟨rfl, rfl⟩

/-- A key that the patterns of the script match passes the gate. -/
theorem token_key_passes :
    ¬ ∀ (unicode : Unicode) (patterns : List (Text × (Text → Bool))) (document clean : Json),
      sanitizeWith unicode patterns document = .ok clean →
        ∀ found, Json.Occurs found clean → ∀ pattern ∈ patterns, pattern.2 found = false := by
  intro free
  have silent := free asciiUnicode (secretTests asciiUnicode) keyedByToken _ keyedByToken_passes
    (text "sk-0123456789abcdef") (.inr (.here List.mem_cons_self rfl))
  have hit : (secretTests asciiUnicode).any (fun pattern => pattern.2 (text "sk-0123456789abcdef")) =
      true := by decide +kernel
  obtain ⟨pattern, member, matched⟩ := List.any_eq_true.mp hit
  rw [silent pattern member] at matched
  cases matched

end N8nSystems.Workflows
