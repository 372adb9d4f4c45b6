import N8nSystems.Workflows.Snippets

/-! The linter on a synced document. -/

namespace N8nSystems.Workflows

open Lib Lib.Py

section
variable {unicode : Unicode} {reprFloat : Rat → Text} {dir : SnippetsDir}

theorem syncWorkflow_nodes {path : Text} {workflow synced : List (Text × Json)} {count : Nat}
    (returned : syncWorkflow unicode reprFloat dir path workflow = .ok (synced, count)) :
    (∀ node ∈ nodesOf workflow, ∃ index result,
      syncNode unicode reprFloat dir path index node = .ok result ∧ result.1 ∈ nodesOf synced) ∧
    ∀ node ∈ nodesOf synced, ∃ original ∈ nodesOf workflow, ∃ index count,
      syncNode unicode reprFloat dir path index original = .ok (node, count) := by
  unfold syncWorkflow at returned
  split at returned
  · rename_i nodes listed
    obtain ⟨results, run, same⟩ := bind_ok_iff.mp returned
    cases same
    obtain ⟨forward, back⟩ := mapM_ok_mem run
    have before : nodesOf workflow = nodes := by rw [nodesOf, listed]
    have after : nodesOf (Json.setField (text "nodes") (.array (results.map Prod.fst)) workflow) =
        results.map Prod.fst := by rw [nodesOf, Json.lookup_setField_self listed]
    rw [before, after]
    constructor
    · intro node member
      obtain ⟨index, placed⟩ := exists_mem_zipIdx.mpr member
      obtain ⟨result, among, read⟩ := forward (node, index) placed
      exact ⟨index, result, read, List.mem_map_of_mem among⟩
    · intro node member
      obtain ⟨result, among, rfl⟩ := List.mem_map.mp member
      obtain ⟨⟨original, index⟩, placed, read⟩ := back result among
      exact ⟨original, exists_mem_zipIdx.mp ⟨index, placed⟩, index, result.2, read⟩
  · rename_i other
    cases returned
    have none : nodesOf workflow = [] := by
      unfold nodesOf
      split
      · rename_i nodes listed
        exact absurd listed (other nodes)
      · rfl
    simp [none]

theorem mem_iterWorkflows_array {items : List Json} {workflow : List (Text × Json)} :
    (∃ place, (place, workflow) ∈ iterWorkflows (.array items)) ↔ .object workflow ∈ items := by
  rw [← exists_mem_zipIdx]
  simp only [iterWorkflows, List.mem_filterMap, Prod.exists]
  constructor
  · rintro ⟨place, item, index, member, chosen⟩
    split at chosen
    · cases chosen
      exact ⟨index, member⟩
    · cases chosen
  · rintro ⟨index, member⟩
    exact ⟨_, _, index, member, rfl⟩

/-- The workflows of a synced document are those of the document, each one synced. -/
theorem syncDocument_workflows {path : Text} {document synced : Json} {count : Nat}
    (returned : syncDocument unicode reprFloat dir path document = .ok (synced, count)) :
    (∀ entry ∈ iterWorkflows document, ∃ path, ∃ after ∈ iterWorkflows synced, ∃ count,
      syncWorkflow unicode reprFloat dir path entry.2 = .ok (after.2, count)) ∧
    ∀ after ∈ iterWorkflows synced, ∃ path, ∃ entry ∈ iterWorkflows document, ∃ count,
      syncWorkflow unicode reprFloat dir path entry.2 = .ok (after.2, count) := by
  cases document with
  | object workflow =>
    obtain ⟨⟨result, updated⟩, run, same⟩ := bind_ok_iff.mp returned
    cases same
    constructor
    · intro entry member
      rw [List.mem_singleton.mp member]
      exact ⟨path, ([], result), List.mem_singleton_self _, count, run⟩
    · intro after member
      rw [List.mem_singleton.mp member]
      exact ⟨path, ([], workflow), List.mem_singleton_self _, count, run⟩
  | array items =>
    obtain ⟨results, run, same⟩ := bind_ok_iff.mp returned
    cases same
    obtain ⟨forward, back⟩ := mapM_ok_mem run
    constructor
    · intro entry member
      obtain ⟨index, placed⟩ := exists_mem_zipIdx.mpr (mem_iterWorkflows_array.mp ⟨entry.1, member⟩)
      obtain ⟨result, among, read⟩ := forward _ placed
      obtain ⟨⟨workflow, updated⟩, inner, same⟩ := bind_ok_iff.mp read
      cases same
      obtain ⟨place, there⟩ := mem_iterWorkflows_array.mpr (List.mem_map_of_mem (f := Prod.fst) among)
      exact ⟨_, (place, workflow), there, updated, inner⟩
    · intro after member
      obtain ⟨result, among, same⟩ := List.mem_map.mp (mem_iterWorkflows_array.mp ⟨after.1, member⟩)
      obtain ⟨⟨item, index⟩, placed, read⟩ := back result among
      cases item with
      | object workflow =>
        obtain ⟨⟨inner, updated⟩, run, wrapped⟩ := bind_ok_iff.mp read
        cases wrapped
        cases same
        obtain ⟨place, there⟩ := mem_iterWorkflows_array.mpr (exists_mem_zipIdx.mp ⟨index, placed⟩)
        exact ⟨_, (place, workflow), there, updated, run⟩
      | _ =>
        cases read
        cases same
  | _ => cases returned

/-- After a sync the linter is silent about snippets exactly when every file that a
Code node of the document names ends its last line. -/
theorem synced_lint_iff (marked : dir.Marked) {path lintPath : Text} {document synced : Json}
    {count : Nat} {issues : List Issue}
    (returned : syncDocument unicode reprFloat dir path document = .ok (synced, count))
    (linted : lintDocument unicode reprFloat dir lintPath synced = .ok issues) :
    (∀ issue ∈ issues, issue.finding.isSnippet = false) ↔
      ∀ entry ∈ iterWorkflows document, ∀ node ∈ nodesOf entry.2,
        SnippetTerminated unicode reprFloat dir node := by
  obtain ⟨forward, back⟩ := syncDocument_workflows returned
  obtain ⟨reported, origin⟩ := mem_lintDocument linted
  constructor
  · intro silent entry member node listed
    obtain ⟨_, after, there, _, run⟩ := forward entry member
    obtain ⟨index, result, step, kept⟩ := (syncWorkflow_nodes run).1 node listed
    obtain ⟨found, workflowLinted, upward⟩ := reported after there
    obtain ⟨_, nodeIssues, nodeLinted, nodeUpward⟩ := (mem_lintWorkflow workflowLinted).1 _ kept
    rcases mem_lintNode nodeLinted with ⟨-, plain⟩ | ⟨fields, _, nodeType, _, snippet, typed, coded, inside, -⟩
    · rcases syncNode_cases marked step with ⟨unmarked, -⟩ | ⟨body, name, contents, -, backed, -⟩
      · simp [SnippetTerminated, unmarked]
      · exact absurd backed.isObject (by simpa using plain)
    · apply (synced_node_iff marked step typed coded).mp
      apply List.eq_nil_iff_forall_not_mem.mpr
      intro issue present
      have about := codeIssues_finding coded issue present
      rw [silent issue (upward issue (nodeUpward issue (inside issue present)))] at about
      cases about
  · intro terminated issue member
    rcases origin issue member with ⟨after, there, found, workflowLinted, inWorkflow⟩ | none
    · obtain ⟨_, entry, listed, _, run⟩ := back after there
      rcases (mem_lintWorkflow workflowLinted).2 issue inWorkflow with
        ⟨node, kept, _, nodeIssues, nodeLinted, inNode⟩ | ⟨other, -⟩
      · obtain ⟨original, member, _, _, step⟩ := (syncWorkflow_nodes run).2 node kept
        rcases mem_lintNode nodeLinted with ⟨empty, -⟩ | ⟨fields, _, _, _, snippet, typed, coded, -, cause⟩
        · rw [empty] at inNode
          cases inNode
        · have quiet := (synced_node_iff marked step typed coded).mpr (terminated entry listed original member)
          rcases cause issue inNode with coding | ⟨pinned, -⟩ | ⟨-, -, other⟩
          · rw [quiet] at coding
            cases coding
          · exact Finding.isSnippet_of_isPinData pinned
          · exact other
      · exact other
    · rw [none]
      rfl

end

/-- A directory with the one file `a.js`. -/
def oneSnippet (contents : Text) : SnippetsDir where
  path name := text "code-snippets/" ++ name ++ text ".js"
  file name := if name = text "a" then some (some contents) else none

def codeNode (body : Text) : Json := .object [
  (text "id", .string (text "c")),
  (text "type", .string (text "n8n-nodes-base.code")),
  (text "parameters", .object [(text "jsCode", .string body)])]

def oneCodeNode (body : Text) : Json := .object [(text "nodes", .array [codeNode body])]

section
variable {contents : Text}

theorem oneSnippet_marked (line : firstLine (universalNewlines contents) = text "// snippet: a") :
    (oneSnippet contents).Marked := by
  intro name found held
  simp only [oneSnippet, Option.ite_none_right_eq_some, Option.some.injEq] at held
  obtain ⟨rfl, rfl⟩ := held
  exact line

theorem code_mem : text "n8n-nodes-base.code" ∈ codeTypes := by decide

theorem codeNode_typed (body : Text) :
    strOrEmpty asciiUnicode (fun _ => []) ((codeNode body).get (text "type")) =
      .ok (text "n8n-nodes-base.code") := rfl

theorem valid_a : ¬isInvalidName (text "a") := by decide

theorem syncNode_codeNode (closed : closeLine (readSnippet contents) = text "// snippet: a\n") :
    syncNode asciiUnicode (fun _ => []) (oneSnippet contents) [] 0 (codeNode (text "// snippet: a")) =
      .ok (codeNode (text "// snippet: a\n"), 1) := by
  have named : snippetName (firstLine (text "// snippet: a")) = some (text "a") := by decide
  have fetched (label : Json) : replacementFor asciiUnicode (fun _ => []) (oneSnippet contents) [] label
      (text "a") = .ok (text "// snippet: a\n") := by
    rw [replacementFor, if_neg valid_a, ← closed]
    rfl
  have differs : crlfToLf (text "// snippet: a") ≠ text "// snippet: a\n" := by decide
  have typed := codeNode_typed (text "// snippet: a")
  have given : (codeNode (text "// snippet: a")).get (text "parameters") =
      some (.object [(text "jsCode", .string (text "// snippet: a"))]) := rfl
  have found : codeField [(text "jsCode", .string (text "// snippet: a"))] =
      some (text "jsCode", text "// snippet: a") := rfl
  rw [codeNode] at typed given ⊢
  simp only [syncNode, typed, given, found, named, fetched, bind, Except.bind, not_not.mpr code_mem,
    if_false, if_pos differs]
  rfl

theorem syncWorkflow_oneCodeNode (closed : closeLine (readSnippet contents) = text "// snippet: a\n") :
    syncWorkflow asciiUnicode (fun _ => []) (oneSnippet contents) []
      [(text "nodes", .array [codeNode (text "// snippet: a")])] =
        .ok ([(text "nodes", .array [codeNode (text "// snippet: a\n")])], 1) := by
  have listed : Json.lookup (text "nodes") [(text "nodes", .array [codeNode (text "// snippet: a")])] =
      some (.array [codeNode (text "// snippet: a")]) := rfl
  simp only [syncWorkflow, listed, List.zipIdx_cons, List.zipIdx_nil, List.mapM_cons, List.mapM_nil,
    syncNode_codeNode closed, bind, Except.bind, pure, Except.pure]
  rfl

theorem sync_oneCodeNode (closed : closeLine (readSnippet contents) = text "// snippet: a\n") :
    syncDocument asciiUnicode (fun _ => []) (oneSnippet contents) []
      (oneCodeNode (text "// snippet: a")) = .ok (oneCodeNode (text "// snippet: a\n"), 1) := by
  simp only [syncDocument, oneCodeNode, syncWorkflow_oneCodeNode closed, bind, Except.bind]
  rfl

/-- The report on the synced workflow. -/
def oneReport (contents : Text) : List Issue :=
  ⟨[], .missingErrorWorkflow⟩ ::
    if text "// snippet: a\n" ≠ readSnippet contents then
      [⟨text ".nodes[0]", .bodyDiffers (text "'c'") (text "a")⟩]
    else []

theorem codeNode_unnamed (body : Text) :
    strOrEmpty asciiUnicode (fun _ => []) ((codeNode body).get (text "name")) = .ok [] := rfl

theorem codeIssues_codeNode :
    codeIssues asciiUnicode (fun _ => []) (oneSnippet contents) (text "n8n-nodes-base.code")
      (codeNode (text "// snippet: a\n")) (text ".nodes[0]") = .ok (oneReport contents).tail := by
  have coded : codeBody (codeNode (text "// snippet: a\n")) = .ok (text "// snippet: a\n") := rfl
  have named : snippetName (firstLine (text "// snippet: a\n")) = some (text "a") := by decide
  have label : reprOf asciiUnicode (fun _ => []) (labelOf ((codeNode (text "// snippet: a\n")).get
      (text "name")) (codeNode (text "// snippet: a\n")) (.string (text "?"))) = .ok (text "'c'") := rfl
  have held : (oneSnippet contents).file (text "a") = some (some contents) := rfl
  have plain : crlfToLf (text "// snippet: a\n") = text "// snippet: a\n" := rfl
  rw [codeIssues, if_pos code_mem, snippetIssues, coded]
  simp only [bind, Except.bind, named, label, if_neg valid_a, held, plain, oneReport, List.tail_cons]
  split <;> rfl

theorem isSettingsLookupNode_codeNode (body : Text) :
    isSettingsLookupNode asciiUnicode (fun _ => []) (codeNode body) = .ok false := by
  have quiet : settingsLookupName.search [] = false := by decide +kernel
  have other : ¬text ".postgres" <:+ text "n8n-nodes-base.code" := by decide
  simp only [isSettingsLookupNode, codeNode_unnamed, codeNode_typed, bind, Except.bind, quiet,
    if_neg other]
  rfl

theorem lintNode_codeNode :
    lintNode asciiUnicode (fun _ => []) (oneSnippet contents) [] 0 (codeNode (text "// snippet: a\n")) =
      .ok (oneReport contents).tail := by
  have place : [] ++ text ".nodes[" ++ number 0 ++ text "]" = text ".nodes[0]" := by decide
  have label : reprOf asciiUnicode (fun _ => []) (labelOf (some (.string []))
      (codeNode (text "// snippet: a\n")) (.int (0 : Nat))) = .ok (text "'c'") := rfl
  have named : (defaultNodeName asciiUnicode).fullmatch [] = false := by decide +kernel
  have timed : timeoutIssues asciiUnicode (text "n8n-nodes-base.code") (text "'c'")
      (codeNode (text "// snippet: a\n")) (text ".nodes[0]") = .ok [] := rfl
  have urls : urlIssues (text "'c'") (codeNode (text "// snippet: a\n")) (text ".nodes[0]") = [] := by
    decide +kernel
  have unnamed := codeNode_unnamed (text "// snippet: a\n")
  have typed := codeNode_typed (text "// snippet: a\n")
  have lookup := isSettingsLookupNode_codeNode (text "// snippet: a\n")
  have snippet := @codeIssues_codeNode contents
  rw [codeNode] at unnamed typed snippet lookup label timed urls ⊢
  simp only [lintNode, unnamed, typed, snippet, lookup, label, timed, urls, place, named, bind,
    Except.bind]
  exact congrArg Except.ok (List.append_nil _)

theorem lintWorkflow_oneCodeNode :
    lintWorkflow asciiUnicode (fun _ => []) (oneSnippet contents) []
      [(text "nodes", .array [codeNode (text "// snippet: a\n")])] = .ok (oneReport contents) := by
  have secrets : findSecretMatches asciiUnicode (oneCodeNode (text "// snippet: a\n")) = [] := by
    decide +kernel
  have nodes : nodesOf [(text "nodes", .array [codeNode (text "// snippet: a\n")])] =
      [codeNode (text "// snippet: a\n")] := rfl
  have untitled : strOrEmpty asciiUnicode (fun _ => []) (Json.lookup (text "name")
      [(text "nodes", .array [codeNode (text "// snippet: a\n")])]) = .ok [] := rfl
  have rest : [(oneReport contents).tail].flatten ++ [] = (oneReport contents).tail := by simp
  rw [oneCodeNode] at secrets
  simp only [lintWorkflow, untitled, nodes, secrets, List.zipIdx_cons, List.zipIdx_nil, List.mapM_cons,
    List.mapM_nil, lintNode_codeNode, bind, Except.bind, pure, Except.pure]
  exact congrArg (fun rest => Except.ok (Issue.mk [] .missingErrorWorkflow :: rest)) rest

theorem lint_oneCodeNode :
    lintDocument asciiUnicode (fun _ => []) (oneSnippet contents) []
      (oneCodeNode (text "// snippet: a\n")) = .ok (oneReport contents) := by
  simp only [lintDocument, oneCodeNode, iterWorkflows, List.mapM_cons, List.mapM_nil, List.nil_append,
    lintWorkflow_oneCodeNode, bind, Except.bind, pure, Except.pure]
  exact congrArg Except.ok (by simp)

end

theorem synced_lint_iff_closed :
    (oneReport (text "// snippet: a\n")).filter (·.finding.isSnippet) = [] := by
  rw [List.filter_eq_nil_iff]
  simp only [Bool.not_eq_true]
  apply (synced_lint_iff (oneSnippet_marked (by decide)) (sync_oneCodeNode (by decide))
    lint_oneCodeNode).mpr
  intro entry member node listed name _ contents held
  have known : some (some (text "// snippet: a\n")) = some (some contents) :=
    (Option.ite_none_right_eq_some.mp held).2
  cases known
  decide

/-- A file without a last line feed: the sync adds one to the body of the node, and
the linter compares with the file as it is. -/
theorem unterminated_snippet_reported :
    ¬ ∀ synced count issues, (oneSnippet (text "// snippet: a")).Marked →
      syncDocument asciiUnicode (fun _ => []) (oneSnippet (text "// snippet: a")) []
        (oneCodeNode (text "// snippet: a")) = .ok (synced, count) →
      lintDocument asciiUnicode (fun _ => []) (oneSnippet (text "// snippet: a")) [] synced = .ok issues →
      ∀ issue ∈ issues, issue.finding.isSnippet = false := by
  intro clean
  have reported : (⟨text ".nodes[0]", .bodyDiffers (text "'c'") (text "a")⟩ : Issue) ∈
      oneReport (text "// snippet: a") := by decide
  have silent := clean _ _ _ (oneSnippet_marked (by decide)) (sync_oneCodeNode (by decide))
    lint_oneCodeNode _ reported
  cases silent

end N8nSystems.Workflows
