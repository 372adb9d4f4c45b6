import N8nSystems.Workflows.Lint

/-! Where each kind of issue in a report of the linter comes from. -/

namespace N8nSystems.Workflows

open Lib Lib.Py

/-- An issue about pinned data, of a workflow or of one of its nodes. -/
def Finding.isPinData : Finding → Bool
  | .pinData | .nodePinData _ => true
  | _ => false

def Finding.isSecret : Finding → Bool
  | .secret _ => true
  | _ => false

/-- An issue about the snippet that a Code node names. -/
def Finding.isSnippet : Finding → Bool
  | .invalidSnippetName .. | .missingSnippet .. | .bodyDiffers .. => true
  | _ => false

theorem Finding.isSnippet_of_isPinData {finding : Finding} (pinned : finding.isPinData = true) :
    finding.isSnippet = false := by
  cases finding <;> first | rfl | cases pinned

theorem Finding.quiet_of_isSnippet {finding : Finding} (snippet : finding.isSnippet = true) :
    finding.isPinData = false ∧ finding.isSecret = false := by
  cases finding <;> first | exact ⟨rfl, rfl⟩ | cases snippet

variable {unicode : Unicode} {reprFloat : Rat → Text} {dir : SnippetsDir}

theorem mem_scanItems {label path : Text} {index : Nat} {items : List Json} {issue : Issue}
    (member : issue ∈ scanItems label path index items) :
    ∃ path, ∃ item ∈ items, issue ∈ scanHardcodedUrls label path item := by
  induction items generalizing index with
  | nil => simp [scanItems] at member
  | cons item items ih =>
    rcases List.mem_append.mp member with here | later
    · exact ⟨_, item, List.mem_cons_self, here⟩
    · obtain ⟨place, other, among, found⟩ := ih later
      exact ⟨place, other, List.mem_cons_of_mem item among, found⟩

theorem mem_scanFields {label path : Text} {fields : List (Text × Json)} {issue : Issue}
    (member : issue ∈ scanFields label path fields) :
    ∃ path, ∃ field ∈ fields, issue ∈ scanHardcodedUrls label path field.2 := by
  induction fields with
  | nil => simp [scanFields] at member
  | cons field fields ih =>
    obtain ⟨key, item⟩ := field
    rcases List.mem_append.mp member with here | later
    · exact ⟨_, (key, item), List.mem_cons_self, here⟩
    · obtain ⟨place, other, among, found⟩ := ih later
      exact ⟨place, other, List.mem_cons_of_mem _ among, found⟩

theorem scanHardcodedUrls_finding {label path : Text} {value : Json} {issue : Issue}
    (member : issue ∈ scanHardcodedUrls label path value) : issue.finding = .hardcodedUrl label := by
  induction value using Json.induction generalizing path with
  | string value =>
    rw [scanHardcodedUrls] at member
    split at member
    · rw [List.mem_singleton.mp member]
    · cases member
  | array items ih =>
    obtain ⟨place, item, among, found⟩ := mem_scanItems member
    exact ih item among found
  | object fields ih =>
    obtain ⟨place, field, among, found⟩ := mem_scanFields member
    exact ih field among found
  | _ => cases member

theorem urlIssues_finding {label path : Text} {node : Json} {issue : Issue}
    (member : issue ∈ urlIssues label node path) : issue.finding = .hardcodedUrl label := by
  unfold urlIssues at member
  split at member
  · cases member
  · cases member
  · exact scanHardcodedUrls_finding member

theorem timeoutIssues_finding {nodeType label path : Text} {node : Json} {issues : List Issue}
    (returned : timeoutIssues unicode nodeType label node path = .ok issues) :
    ∀ issue ∈ issues, issue.finding = .missingTimeout label := by
  intro issue member
  unfold timeoutIssues at returned
  split at returned
  · obtain ⟨given, -, same⟩ := bind_ok_iff.mp returned
    cases same
    split at member
    · cases member
    · rw [List.mem_singleton.mp member]
  · cases returned
    cases member

theorem snippetIssues_finding {node : Json} {path : Text} {issues : List Issue}
    (returned : snippetIssues unicode reprFloat dir node path = .ok issues) :
    ∀ issue ∈ issues, issue.finding.isSnippet = true := by
  intro issue member
  obtain ⟨body, -, rest⟩ := bind_ok_iff.mp returned
  split at rest
  · cases rest
    cases member
  · obtain ⟨label, -, rest⟩ := bind_ok_iff.mp rest
    split at rest
    · cases rest
      rw [List.mem_singleton.mp member]
      rfl
    · split at rest
      · cases rest
        rw [List.mem_singleton.mp member]
        rfl
      · cases rest
      · split at rest
        · cases rest
          rw [List.mem_singleton.mp member]
          rfl
        · cases rest
          cases member

theorem codeIssues_finding {nodeType path : Text} {node : Json} {issues : List Issue}
    (returned : codeIssues unicode reprFloat dir nodeType node path = .ok issues) :
    ∀ issue ∈ issues, issue.finding.isSnippet = true := by
  unfold codeIssues at returned
  split at returned
  · exact snippetIssues_finding returned
  · cases returned
    intro issue member
    cases member

/-- Every issue of a node, by the check that raised it. -/
theorem mem_lintNode {path : Text} {index : Nat} {node : Json} {issues : List Issue}
    (returned : lintNode unicode reprFloat dir path index node = .ok issues) :
    (issues = [] ∧ ∀ fields, node ≠ .object fields) ∨
      ∃ fields, node = .object fields ∧ ∃ nodeType nodePath snippet,
      strOrEmpty unicode reprFloat (node.get (text "type")) = .ok nodeType ∧
      codeIssues unicode reprFloat dir nodeType node nodePath = .ok snippet ∧
      (∀ issue ∈ snippet, issue ∈ issues) ∧
      ∀ issue ∈ issues, issue ∈ snippet ∨
        (issue.finding.isPinData = true ∧ hasKey (text "pinData") fields = true) ∨
        (issue.finding.isPinData = false ∧ issue.finding.isSecret = false ∧
          issue.finding.isSnippet = false) := by
  cases node with
  | object fields =>
    simp only [lintNode, bind_ok_iff] at returned
    obtain ⟨name, -, label, -, nodeType, typed, timed, timing, snippet, coded, lookup, -, same⟩ := returned
    cases same
    refine Or.inr ⟨fields, rfl, nodeType, _, snippet, typed, coded, ?_, ?_⟩
    · intro issue member
      simp [member]
    · intro issue member
      simp only [List.mem_append] at member
      rcases member with (((pinned | named) | late) | snippet) | url
      · split at pinned
        · rename_i present
          rw [List.mem_singleton.mp pinned]
          exact Or.inr (Or.inl ⟨rfl, present⟩)
        · cases pinned
      · split at named
        · rw [List.mem_singleton.mp named]
          exact Or.inr (Or.inr ⟨rfl, rfl, rfl⟩)
        · cases named
      · rw [timeoutIssues_finding timing issue late]
        exact Or.inr (Or.inr ⟨rfl, rfl, rfl⟩)
      · exact Or.inl snippet
      · split at url
        · cases url
        · rw [urlIssues_finding url]
          exact Or.inr (Or.inr ⟨rfl, rfl, rfl⟩)
  | _ =>
    cases returned
    refine Or.inl ⟨rfl, ?_⟩
    intro fields same
    cases same

theorem exists_mem_zipIdx {items : List α} {item : α} :
    (∃ index, (item, index) ∈ items.zipIdx) ↔ item ∈ items := by
  simp only [List.mk_mem_zipIdx_iff_getElem?]
  exact List.mem_iff_getElem?.symm

/-- Every issue of a workflow stands in the report of a node, or is its own. -/
theorem mem_lintWorkflow {path : Text} {workflow : List (Text × Json)} {issues : List Issue}
    (returned : lintWorkflow unicode reprFloat dir path workflow = .ok issues) :
    (∀ node ∈ nodesOf workflow, ∃ index found,
      lintNode unicode reprFloat dir path index node = .ok found ∧ ∀ issue ∈ found, issue ∈ issues) ∧
    ∀ issue ∈ issues,
      (∃ node ∈ nodesOf workflow, ∃ index found,
        lintNode unicode reprFloat dir path index node = .ok found ∧ issue ∈ found) ∨
      (issue.finding.isSnippet = false ∧
        (issue.finding.isPinData = true → hasKey (text "pinData") workflow = true) ∧
        (issue.finding.isSecret = true → findSecretMatches unicode (.object workflow) ≠ [])) := by
  simp only [lintWorkflow, bind_ok_iff] at returned
  obtain ⟨name, -, perNode, linted, same⟩ := returned
  cases same
  obtain ⟨forward, back⟩ := mapM_ok_mem linted
  constructor
  · intro node member
    obtain ⟨index, placed⟩ := exists_mem_zipIdx.mpr member
    obtain ⟨found, among, read⟩ := forward (node, index) placed
    refine ⟨index, found, read, ?_⟩
    intro issue inside
    have flat : issue ∈ perNode.flatten := List.mem_flatten_of_mem among inside
    simp [flat]
  · intro issue member
    simp only [List.mem_append] at member
    rcases member with (((pinned | unhandled) | crowded) | ofNode) | secret
    · split at pinned
      · rename_i present
        rw [List.mem_singleton.mp pinned]
        exact Or.inr ⟨rfl, fun _ => present, nofun⟩
      · cases pinned
    · rw [List.mem_singleton.mp (List.mem_ite_nil_right.mp unhandled).2]
      exact Or.inr ⟨rfl, nofun, nofun⟩
    · rw [List.mem_singleton.mp (List.mem_ite_nil_right.mp crowded).2]
      exact Or.inr ⟨rfl, nofun, nofun⟩
    · obtain ⟨found, among, inside⟩ := List.mem_flatten.mp ofNode
      obtain ⟨⟨node, index⟩, placed, read⟩ := back found among
      exact Or.inl ⟨node, exists_mem_zipIdx.mp ⟨index, placed⟩, index, found, read, inside⟩
    · obtain ⟨hit, among, rfl⟩ := List.mem_map.mp secret
      exact Or.inr ⟨rfl, nofun, fun _ => List.ne_nil_of_mem among⟩

/-- Every issue of a document stands in the report of a workflow, or says that there
is none. -/
theorem mem_lintDocument {path : Text} {document : Json} {issues : List Issue}
    (returned : lintDocument unicode reprFloat dir path document = .ok issues) :
    (∀ entry ∈ iterWorkflows document, ∃ found,
      lintWorkflow unicode reprFloat dir (path ++ entry.1) entry.2 = .ok found ∧
        ∀ issue ∈ found, issue ∈ issues) ∧
    ∀ issue ∈ issues,
      (∃ entry ∈ iterWorkflows document, ∃ found,
        lintWorkflow unicode reprFloat dir (path ++ entry.1) entry.2 = .ok found ∧ issue ∈ found) ∨
      issue.finding = .notAWorkflow := by
  simp only [lintDocument, bind_ok_iff] at returned
  obtain ⟨perWorkflow, linted, same⟩ := returned
  cases same
  obtain ⟨forward, back⟩ := mapM_ok_mem linted
  constructor
  · intro entry member
    obtain ⟨found, among, read⟩ := forward entry member
    refine ⟨found, read, ?_⟩
    intro issue inside
    exact List.mem_append_left _ (List.mem_flatten_of_mem among inside)
  · intro issue member
    rcases List.mem_append.mp member with reported | none
    · obtain ⟨found, among, inside⟩ := List.mem_flatten.mp reported
      obtain ⟨entry, placed, read⟩ := back found among
      exact Or.inl ⟨entry, placed, found, read, inside⟩
    · split at none
      · rw [List.mem_singleton.mp none]
        exact Or.inr rfl
      · cases none

end N8nSystems.Workflows
