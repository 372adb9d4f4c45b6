import N8nSystems.Workflows.Issues
import N8nSystems.Workflows.Stripped

/-! A sanitised export is a fixed point that the linter has nothing to say about. -/

namespace N8nSystems.Workflows

open Lib Lib.Py

variable {unicode : Unicode} {document clean : Json}

theorem sanitizeDocument_ok_iff :
    sanitizeDocument unicode document = .ok clean ↔
      findSecretMatches unicode document = [] ∧ strip [] document = clean := by
  unfold sanitizeDocument
  by_cases quiet : findSecretMatches unicode document = [] <;> simp [quiet]

theorem findSecretMatches_mono {value : Json} (quiet : findSecretMatches unicode document = [])
    (fewer : ∀ found ∈ collectStrings value, found ∈ collectStrings document) :
    findSecretMatches unicode value = [] := by
  rw [findSecretMatches_nil_iff] at quiet ⊢
  exact fun found member => quiet found (fewer found member)

theorem collectStrings_inside {value : Json} (inside : Json.Inside value document) :
    ∀ found ∈ collectStrings value, found ∈ collectStrings document := by
  intro found member
  induction inside with
  | self => exact member
  | item among _ ih => exact mem_collectItems.mpr ⟨_, among, ih⟩
  | field among _ ih => exact mem_collectFields.mpr ⟨_, among, ih⟩

theorem inside_of_mem_iterWorkflows {entry : Text × List (Text × Json)}
    (member : entry ∈ iterWorkflows document) : Json.Inside (.object entry.2) document := by
  cases document with
  | object workflow =>
    rw [List.mem_singleton.mp member]
    exact .self
  | array items =>
    obtain ⟨⟨item, index⟩, placed, chosen⟩ := List.mem_filterMap.mp member
    dsimp only at chosen
    split at chosen
    · cases chosen
      exact .item (exists_mem_zipIdx.mp ⟨index, placed⟩) .self
    · cases chosen
  | _ => cases member

theorem inside_of_mem_nodesOf {workflow : List (Text × Json)} {node : Json}
    (member : node ∈ nodesOf workflow) : Json.Inside node (.object workflow) := by
  unfold nodesOf at member
  split at member
  · rename_i nodes listed
    exact .field (Json.mem_of_lookup listed) (.item member .self)
  · cases member

theorem mem_of_hasKey {key : Text} {fields : List (Text × Json)} (present : hasKey key fields = true) :
    ∃ field ∈ fields, field.1 = key := by
  simpa [hasKey] using present

/-- A document without the dropped keys and without secrets is reported for neither. -/
theorem lintDocument_quiet {reprFloat : Rat → Text} {dir : SnippetsDir} {path : Text}
    {issues : List Issue} (returned : lintDocument unicode reprFloat dir path clean = .ok issues)
    (quiet : findSecretMatches unicode clean = [])
    (bare : ∀ fields, Json.Inside (.object fields) clean → ∀ field ∈ fields, field.1 ∉ dropKeys) :
    ∀ issue ∈ issues, issue.finding.isPinData = false ∧ issue.finding.isSecret = false := by
  have unpinned {fields : List (Text × Json)} (inside : Json.Inside (.object fields) clean) :
      hasKey (text "pinData") fields ≠ true := by
    intro present
    obtain ⟨field, member, named⟩ := mem_of_hasKey present
    exact bare fields inside field member (named ▸ List.mem_cons_self)
  intro issue member
  rcases (mem_lintDocument returned).2 issue member with ⟨entry, among, found, linted, reported⟩ | none
  · have workflowInside := inside_of_mem_iterWorkflows among
    rcases (mem_lintWorkflow linted).2 issue reported with
      ⟨node, listed, index, nodeIssues, nodeLinted, inNode⟩ | ⟨-, pinned, secret⟩
    · rcases mem_lintNode nodeLinted with ⟨empty, -⟩ | ⟨fields, rfl, _, _, snippet, -, coded, -, origin⟩
      · rw [empty] at inNode
        cases inNode
      · rcases origin issue inNode with coding | ⟨-, present⟩ | ⟨notPinned, notSecret, -⟩
        · exact Finding.quiet_of_isSnippet (codeIssues_finding coded issue coding)
        · exact absurd present (unpinned ((inside_of_mem_nodesOf listed).trans workflowInside))
        · exact ⟨notPinned, notSecret⟩
    · constructor
      · rw [← Bool.not_eq_true]
        exact fun about => unpinned workflowInside (pinned about)
      · rw [← Bool.not_eq_true]
        exact fun about => secret about
          (findSecretMatches_mono quiet (collectStrings_inside workflowInside))
  · rw [none]
    exact ⟨rfl, rfl⟩

/-- What `sanitize_document` returns it returns again, and with it `process_text` its
own output. No dropped key and no instance of a `meta` is left at any depth, and the
linter reports neither pinned data nor a secret. -/
theorem sanitized_export (returned : sanitizeDocument unicode document = .ok clean) :
    sanitizeDocument unicode clean = .ok clean ∧
    (∀ (loads : Text → Option Json) (render : Json → Text) (source out : Text),
      loads source = some document → processText unicode loads render source = .ok out →
      loads out = some (sortKeys clean) → processText unicode loads render out = .ok out) ∧
    (∀ fields, Json.Inside (.object fields) clean → ∀ field ∈ fields, field.1 ∉ dropKeys) ∧
    (∀ fields value inner, Json.Inside (.object fields) clean → (text "meta", value) ∈ fields →
      Json.Listed (.object inner) value → ∀ field ∈ inner, field.1 ≠ text "instanceId") ∧
    ∀ reprFloat dir path issues, lintDocument unicode reprFloat dir path clean = .ok issues →
      ∀ issue ∈ issues, issue.finding.isPinData = false ∧ issue.finding.isSecret = false := by
  obtain ⟨quiet, rfl⟩ := sanitizeDocument_ok_iff.mp returned
  have cleanQuiet : findSecretMatches unicode (strip [] document) = [] :=
    findSecretMatches_mono quiet fun found => collectStrings_strip
  have bare : ∀ fields, Json.Inside (.object fields) (strip [] document) →
      ∀ field ∈ fields, field.1 ∉ dropKeys := by
    intro fields inside field member dropped
    obtain ⟨path, item, kept, -⟩ := keeps_of_inside inside field member
    simp [keeps, dropped] at kept
  refine ⟨sanitizeDocument_ok_iff.mpr ⟨cleanQuiet, strip_strip [] document⟩, ?_, bare, ?_, ?_⟩
  · intro loads render source out loaded written reloaded
    have printed : out = dumpsStable render (strip [] document) := by
      simp only [processText, loaded, returned] at written
      exact (Except.ok.inj written).symm
    have sorted : sanitizeDocument unicode (sortKeys (strip [] document)) =
        .ok (sortKeys (strip [] document)) :=
      sanitizeDocument_ok_iff.mpr
        ⟨findSecretMatches_mono cleanQuiet fun found => collectStrings_sortKeys.mp,
          strip_sortKeys (strip_strip [] document)⟩
    simp only [processText, reloaded, sorted]
    rw [printed]
    exact congrArg Except.ok (by rw [dumpsStable, dumpsStable, sortKeys_sortKeys])
  · intro fields value inner inside member listed
    obtain ⟨path, item, -, stripped⟩ := keeps_of_inside inside _ member
    dsimp only at stripped
    rw [stripped] at listed
    exact instanceId_of_listed (underMeta_childPath path) listed
  · intro reprFloat dir path issues linted
    exact lintDocument_quiet linted cleanQuiet bare

/-- An export as n8n writes it, with pinned data and the instance it came from. -/
def exported : Json := .object [
  (text "name", .string (text "Sync")),
  (text "pinData", .object [(text "Start", .array [.null])]),
  (text "meta", .array [.object [(text "instanceId", .string (text "f00d")),
    (text "templateId", .int 7)]]),
  (text "nodes", .array [.object [(text "name", .string (text "Start")), (text "execution", .int 3)]])]

theorem sanitized_export_exported :
    sanitizeDocument asciiUnicode exported = .ok (strip [] exported) ∧
      sanitizeDocument asciiUnicode (strip [] exported) = .ok (strip [] exported) := by
  have quiet : findSecretMatches asciiUnicode exported = [] := by decide +kernel
  have returned := sanitizeDocument_ok_iff.mpr ⟨quiet, rfl⟩
  exact ⟨returned, (sanitized_export returned).1⟩

end N8nSystems.Workflows
