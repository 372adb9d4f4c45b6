import N8nSystems.Workflows.Issues

/-! `scripts/sync_snippets.py`, and what the linter says of a node it went over. -/

namespace N8nSystems.Workflows

open Lib Lib.Py

/-- A text that does not end its last line gets a line feed. -/
def closeLine (value : Text) : Text :=
  if value.getLast? ≠ some 10 ∧ value ≠ [] then value ++ [10] else value

section
variable (unicode : Unicode) (reprFloat : Rat → Text) (dir : SnippetsDir)

/-- `raise SyncError(f"{path} node {node_label!r}: ...")`. -/
def syncError (path : Text) (label : Json) (reason : Text) : Except ScriptError α := do
  let printed ← reprOf unicode reprFloat label
  throw (.sync (path ++ text " node " ++ printed ++ text ": " ++ reason))

/-- The body that replaces the one of a node with this label. -/
def replacementFor (path : Text) (label : Json) (name : Text) : Except ScriptError Text :=
  if isInvalidName name then
    syncError unicode reprFloat path label (text "invalid snippet name " ++ reprText unicode name)
  else match dir.file name with
    | none => syncError unicode reprFloat path label (text "snippet file missing: " ++ dir.path name)
    | some none => .error .unreadable
    | some (some contents) => .ok (closeLine (readSnippet contents))

/-- One round of the loop of `sync_workflow`: the node, and the updates counted for it. -/
def syncNode (path : Text) (index : Nat) (node : Json) : Except ScriptError (Json × Nat) :=
  match node with
  | .object fields => do
    let nodeType ← strOrEmpty unicode reprFloat (node.get (text "type"))
    if nodeType ∉ codeTypes then return (node, 0)
    match node.get (text "parameters") with
    | some (.object parameters) =>
      match codeField parameters with
      | none => return (node, 0)
      | some (key, body) =>
        match snippetName (firstLine body) with
        | none => return (node, 0)
        | some name =>
          let replacement ← replacementFor unicode reprFloat dir path
            (labelOf (node.get (text "name")) node (.int index)) name
          if crlfToLf body ≠ replacement then
            let synced := Json.setField key (.string replacement) parameters
            return (.object (Json.setField (text "parameters") (.object synced) fields), 1)
          else return (node, 0)
    | _ => return (node, 0)
  | _ => .ok (node, 0)

def syncWorkflow (path : Text) (workflow : List (Text × Json)) :
    Except ScriptError (List (Text × Json) × Nat) :=
  match Json.lookup (text "nodes") workflow with
  | some (.array nodes) => do
    let synced ← nodes.zipIdx.mapM fun (node, index) => syncNode unicode reprFloat dir path index node
    return (Json.setField (text "nodes") (.array (synced.map Prod.fst)) workflow,
      (synced.map Prod.snd).sum)
  | _ => .ok (workflow, 0)

/-- One round of the loop of `sync_document` over a list. -/
def syncItem (path : Text) (index : Nat) (item : Json) : Except ScriptError (Json × Nat) :=
  match item with
  | .object workflow => do
    let (synced, updated) ← syncWorkflow unicode reprFloat dir
      (path ++ text "[" ++ number index ++ text "]") workflow
    return (.object synced, updated)
  | _ => .ok (item, 0)

def syncDocument (path : Text) (document : Json) : Except ScriptError (Json × Nat) :=
  match document with
  | .object workflow => do
    let (synced, updated) ← syncWorkflow unicode reprFloat dir path workflow
    return (.object synced, updated)
  | .array items => do
    let synced ← items.zipIdx.mapM fun (item, index) => syncItem unicode reprFloat dir path index item
    return (.array (synced.map Prod.fst), (synced.map Prod.snd).sum)
  | _ => .error (.sync (path ++ text ": expected a workflow object or a list of workflows"))

/-- The snippet that a Code node names in the first line of its body. -/
def markedName (node : Json) : Option Text :=
  match strOrEmpty unicode reprFloat (node.get (text "type")), node.get (text "parameters") with
  | .ok nodeType, some (.object parameters) =>
    if nodeType ∈ codeTypes then
      (codeField parameters).bind fun field => snippetName (firstLine field.2)
    else none
  | _, _ => none

end

/-- Every file begins with its own marker line. -/
def SnippetsDir.Marked (dir : SnippetsDir) : Prop :=
  ∀ name contents, dir.file name = some (some contents) →
    firstLine (universalNewlines contents) = text "// snippet: " ++ name

/-- The file ends its last line. -/
def Terminated (contents : Text) : Prop := (readSnippet contents).getLast? = some 10

instance (contents : Text) : Decidable (Terminated contents) := inferInstanceAs (Decidable (_ = _))

theorem readSnippet_eq (contents : Text) : readSnippet contents = universalNewlines contents :=
  crlfToLf_self (universalNewlines_lf contents)

theorem crlfToLf_closeLine (contents : Text) :
    crlfToLf (closeLine (readSnippet contents)) = closeLine (readSnippet contents) := by
  apply crlfToLf_self
  have plain : 13 ∉ readSnippet contents := readSnippet_eq contents ▸ universalNewlines_lf contents
  unfold closeLine
  split
  · simp [plain]
  · exact plain

theorem closeLine_eq_iff {contents : Text} (nonempty : readSnippet contents ≠ []) :
    closeLine (readSnippet contents) = readSnippet contents ↔ Terminated contents := by
  unfold closeLine Terminated
  by_cases ended : (readSnippet contents).getLast? = some 10 <;> simp [ended, nonempty]

theorem firstLine_closeLine (value : Text) : firstLine (closeLine value) = firstLine value := by
  unfold closeLine firstLine
  split
  · rw [List.takeWhile_append]
    split
    · rename_i whole
      rw [(List.takeWhile_prefix _).eq_of_length whole]
      simp [isLineBreak]
    · rfl
  · rfl

theorem snippetName_nameChar {line name : Text} (found : snippetName line = some name) :
    name ≠ [] ∧ ∀ c ∈ name, isNameChar c = true := by
  unfold snippetName at found
  split at found
  · dsimp only at found
    split at found
    · rename_i valid
      cases found
      exact ⟨valid.1, fun c member => List.mem_takeWhile_imp member⟩
    · cases found
  · cases found

theorem isNameChar_not_space {c : Nat} (named : isNameChar c = true) : isSpace c = false := by
  simp only [isNameChar, Regex.upper, Regex.lower, Regex.inRange, isAsciiDigit, Regex.anyOf, text,
    Bool.or_eq_true, Bool.and_eq_true, decide_eq_true_eq] at named
  simp at named
  simp only [isSpace, Bool.or_eq_false_iff, Bool.and_eq_false_iff, decide_eq_false_iff_not,
    beq_eq_false_iff_ne]
  omega

/-- The marker line of a file names the file. -/
theorem snippetName_marker {name : Text} (nonempty : name ≠ [])
    (named : ∀ c ∈ name, isNameChar c = true) :
    snippetName (text "// snippet: " ++ name) = some name := by
  have blank : text "// snippet: " = text "// snippet:" ++ [32] := by decide +kernel
  have marker : text "// snippet: " ++ name = text "// snippet:" ++ (32 :: name) := by
    rw [blank, List.append_assoc, List.singleton_append]
  have spaced : (32 :: name).dropWhile isSpace = name := by
    have blank : isSpace 32 = true := rfl
    rw [List.dropWhile_cons, if_pos blank, List.dropWhile_eq_self_iff]
    intro inside blank
    rw [isNameChar_not_space (named _ (List.getElem_mem inside))] at blank
    cases blank
  have taken : name.takeWhile isNameChar = name := List.takeWhile_eq_self_iff.mpr named
  have dropped : name.dropWhile isNameChar = [] := List.dropWhile_eq_nil_iff.mpr named
  rw [snippetName, marker, if_pos (List.prefix_append _ _), List.drop_left]
  simp only [spaced, taken, dropped, List.all_nil, and_true, if_pos nonempty]

theorem codeField_spec {parameters : List (Text × Json)} {key body : Text}
    (found : codeField parameters = some (key, body)) :
    Json.lookup key parameters = some (.string body) ∧
      ∀ value, codeField (Json.setField key (.string value) parameters) = some (key, value) := by
  obtain ⟨before, first, after, keys, here, earlier⟩ := List.findSome?_eq_some_iff.mp found
  split at here
  · rename_i read held
    cases here
    refine ⟨held, ?_⟩
    intro value
    rw [codeField, List.findSome?_eq_some_iff]
    refine ⟨before, key, after, keys, ?_, ?_⟩
    · rw [Json.lookup_setField_self held]
    · intro other member
      have silent := earlier other member
      have different : other ≠ key := by
        rintro rfl
        rw [held] at silent
        cases silent
      rwa [Json.lookup_setField_other different]
  · cases here

section
variable {unicode : Unicode} {reprFloat : Rat → Text} {dir : SnippetsDir}

theorem replacementFor_ok {path : Text} {label : Json} {name replacement : Text}
    (returned : replacementFor unicode reprFloat dir path label name = .ok replacement) :
    ¬isInvalidName name ∧ ∃ contents, dir.file name = some (some contents) ∧
      replacement = closeLine (readSnippet contents) := by
  have failed {reason : Text} : syncError unicode reprFloat path label reason ≠ .ok replacement := by
    intro same
    obtain ⟨printed, -, raised⟩ := bind_ok_iff.mp same
    cases raised
  unfold replacementFor at returned
  split at returned
  · exact absurd returned failed
  · rename_i valid
    split at returned
    · exact absurd returned failed
    · cases returned
    · rename_i contents held
      cases returned
      exact ⟨valid, contents, held, rfl⟩

/-- What the linter finds in the body of a Code node. -/
theorem snippetIssues_of_body {node : Json} {path body name contents : Text} {issues : List Issue}
    (returned : snippetIssues unicode reprFloat dir node path = .ok issues)
    (coded : codeBody node = .ok body) (named : snippetName (firstLine body) = some name)
    (valid : ¬isInvalidName name) (held : dir.file name = some (some contents)) :
    issues = [] ↔ crlfToLf body = readSnippet contents := by
  simp only [snippetIssues, coded, bind_ok_iff, Except.ok.injEq, exists_eq_left', named, if_neg valid,
    held] at returned
  obtain ⟨label, -, rest⟩ := returned
  split at rest
  · rename_i differs
    cases rest
    simp [differs]
  · rename_i same
    cases rest
    simpa using same

/-- A Code node whose body names a snippet file, as both scripts read it. -/
structure Backed (unicode : Unicode) (reprFloat : Rat → Text) (dir : SnippetsDir) (node : Json)
    (body name contents : Text) : Prop where
  typed : ∃ nodeType ∈ codeTypes, strOrEmpty unicode reprFloat (node.get (text "type")) = .ok nodeType
  coded : codeBody node = .ok body
  named : snippetName (firstLine body) = some name
  valid : ¬isInvalidName name
  held : dir.file name = some (some contents)

theorem Backed.isObject {node : Json} {body name contents : Text}
    (backed : Backed unicode reprFloat dir node body name contents) : ∃ fields, node = .object fields := by
  obtain ⟨nodeType, code, typed⟩ := backed.typed
  cases node with
  | object fields => exact ⟨fields, rfl⟩
  | _ =>
    cases typed
    exact absurd code (by decide)

theorem codeBody_of_field {node : Json} {parameters : List (Text × Json)} {key body : Text}
    (given : node.get (text "parameters") = some (.object parameters))
    (found : codeField parameters = some (key, body)) : codeBody node = .ok body := by
  simp [codeBody, parametersOf, given, found, bind, Except.bind, pure, Except.pure]

/-- An object that is a Code node with a snippet marker, and where its body is. -/
structure MarkedNode (unicode : Unicode) (reprFloat : Rat → Text)
    (fields parameters : List (Text × Json)) (key body name : Text) : Prop where
  typed : ∃ nodeType ∈ codeTypes,
    strOrEmpty unicode reprFloat ((Json.object fields).get (text "type")) = .ok nodeType
  given : (Json.object fields).get (text "parameters") = some (.object parameters)
  found : codeField parameters = some (key, body)
  named : snippetName (firstLine body) = some name

/-- The fields of a node with another text under one key of its parameters. -/
def replaceBody (key value : Text) (parameters fields : List (Text × Json)) : List (Text × Json) :=
  Json.setField (text "parameters") (.object (Json.setField key (.string value) parameters)) fields

namespace MarkedNode

variable {fields parameters : List (Text × Json)} {key body name : Text}

theorem markedName_eq (node : MarkedNode unicode reprFloat fields parameters key body name) :
    markedName unicode reprFloat (.object fields) = some name := by
  obtain ⟨nodeType, code, typed⟩ := node.typed
  simp only [markedName, typed, node.given, if_pos code, node.found]
  exact node.named

theorem replaced (node : MarkedNode unicode reprFloat fields parameters key body name)
    {value other : Text} (named : snippetName (firstLine value) = some other) :
    MarkedNode unicode reprFloat (replaceBody key value parameters fields)
      (Json.setField key (.string value) parameters) key value other where
  typed := by
    obtain ⟨nodeType, code, typed⟩ := node.typed
    refine ⟨nodeType, code, ?_⟩
    rw [← typed]
    exact congrArg _ (Json.lookup_setField_other (by decide))
  given := Json.lookup_setField_self node.given
  found := (codeField_spec node.found).2 value
  named := named

theorem backed (node : MarkedNode unicode reprFloat fields parameters key body name)
    (valid : ¬isInvalidName name) (held : dir.file name = some (some contents)) :
    Backed unicode reprFloat dir (.object fields) body name contents :=
  ⟨node.typed, codeBody_of_field node.given node.found, node.named, valid, held⟩

/-- The round of the loop for a node with a marker whose file can be read. -/
theorem syncNode_eq (node : MarkedNode unicode reprFloat fields parameters key body name)
    (valid : ¬isInvalidName name) (held : dir.file name = some (some contents)) (path : Text)
    (index : Nat) :
    syncNode unicode reprFloat dir path index (.object fields) = .ok (
      if crlfToLf body ≠ closeLine (readSnippet contents) then
        (.object (replaceBody key (closeLine (readSnippet contents)) parameters fields), 1)
      else (.object fields, 0)) := by
  obtain ⟨nodeType, code, typed⟩ := node.typed
  simp only [syncNode, typed, bind, Except.bind, not_not.mpr code, if_false, node.given, node.found,
    node.named, replacementFor, if_neg valid, held]
  split <;> rfl

end MarkedNode

theorem markedNode_of_markedName {node : Json} {name : Text}
    (named : markedName unicode reprFloat node = some name) :
    ∃ fields parameters key body, node = .object fields ∧
      MarkedNode unicode reprFloat fields parameters key body name := by
  unfold markedName at named
  split at named
  · rename_i nodeType parameters typed given
    split at named
    · rename_i code
      obtain ⟨⟨key, body⟩, found, marker⟩ := Option.bind_eq_some_iff.mp named
      cases node with
      | object fields =>
        exact ⟨fields, parameters, key, body, rfl, ⟨⟨nodeType, code, typed⟩, given, found, marker⟩⟩
      | _ => cases given
    · cases named
  · cases named

/-- The round of the loop for a node without a marker, at every path and index. -/
theorem syncNode_unmarked {node : Json} {nodeType : Text}
    (typed : strOrEmpty unicode reprFloat (node.get (text "type")) = .ok nodeType)
    (unmarked : markedName unicode reprFloat node = none) (path : Text) (index : Nat) :
    syncNode unicode reprFloat dir path index node = .ok (node, 0) := by
  cases node with
  | object fields =>
    simp only [syncNode, typed, bind, Except.bind]
    split
    · rfl
    · rename_i code
      rw [not_not] at code
      split
      · rename_i parameters given
        simp only [markedName, typed, given, if_pos code] at unmarked
        split
        · rfl
        · rename_i key body found
          rw [found] at unmarked
          split
          · rfl
          · rename_i name named
            cases named.symm.trans unmarked
      · rfl
  | _ => rfl

theorem syncNode_typed {path : Text} {index : Nat} {node : Json} {result : Json × Nat}
    (returned : syncNode unicode reprFloat dir path index node = .ok result) :
    ∃ nodeType, strOrEmpty unicode reprFloat (node.get (text "type")) = .ok nodeType := by
  cases node with
  | object fields =>
    obtain ⟨nodeType, typed, -⟩ := bind_ok_iff.mp returned
    exact ⟨nodeType, typed⟩
  | _ => exact ⟨[], rfl⟩

/-- Everything one round of the loop can do: a node without a marker is left alone,
at every path and index, and one with a marker names a file that can be read. -/
theorem syncNode_inv {path : Text} {index : Nat} {node : Json} {result : Json × Nat}
    (returned : syncNode unicode reprFloat dir path index node = .ok result) :
    (markedName unicode reprFloat node = none ∧ result = (node, 0) ∧
      ∀ path index, syncNode unicode reprFloat dir path index node = .ok (node, 0)) ∨
    ∃ fields parameters key body name contents, node = .object fields ∧
      MarkedNode unicode reprFloat fields parameters key body name ∧
      ¬isInvalidName name ∧ dir.file name = some (some contents) := by
  obtain ⟨nodeType, typed⟩ := syncNode_typed returned
  cases naming : markedName unicode reprFloat node with
  | none =>
    have idle := @syncNode_unmarked unicode reprFloat dir node nodeType typed naming
    exact Or.inl ⟨rfl, Except.ok.inj (returned.symm.trans (idle path index)), idle⟩
  | some name =>
    obtain ⟨fields, parameters, key, body, rfl, node⟩ := markedNode_of_markedName naming
    obtain ⟨_, code, sameType⟩ := node.typed
    simp only [syncNode, sameType, bind, Except.bind, not_not.mpr code, if_false, node.given,
      node.found, node.named] at returned
    obtain ⟨replacement, fetched, -⟩ := bind_ok_iff.mp returned
    obtain ⟨valid, contents, held, -⟩ := replacementFor_ok fetched
    exact Or.inr ⟨fields, parameters, key, body, name, contents, rfl, node, valid, held⟩

theorem snippetName_replacement (marked : dir.Marked) {name contents : Text}
    (held : dir.file name = some (some contents)) (nonempty : name ≠ [])
    (chars : ∀ c ∈ name, isNameChar c = true) :
    snippetName (firstLine (closeLine (readSnippet contents))) = some name := by
  rw [firstLine_closeLine, readSnippet_eq, marked name contents held]
  exact snippetName_marker nonempty chars

/-- A node without a marker is left alone, and one with a marker ends up with the
snippet as its body. -/
theorem syncNode_cases (marked : dir.Marked) {path : Text} {index count : Nat} {node synced : Json}
    (returned : syncNode unicode reprFloat dir path index node = .ok (synced, count)) :
    (markedName unicode reprFloat node = none ∧ synced = node) ∨
    ∃ body name contents, markedName unicode reprFloat node = some name ∧
      Backed unicode reprFloat dir synced body name contents ∧
      crlfToLf body = closeLine (readSnippet contents) := by
  rcases syncNode_inv returned with ⟨unmarked, same, -⟩ |
    ⟨fields, parameters, key, body, name, contents, rfl, node, valid, held⟩
  · cases same
    exact Or.inl ⟨unmarked, rfl⟩
  · obtain ⟨nonempty, chars⟩ := snippetName_nameChar node.named
    rw [node.syncNode_eq valid held] at returned
    split at returned
    · cases returned
      have renamed := node.replaced (snippetName_replacement marked held nonempty chars)
      exact Or.inr ⟨_, name, contents, node.markedName_eq, renamed.backed valid held,
        crlfToLf_closeLine contents⟩
    · rename_i same
      cases returned
      rw [not_not] at same
      exact Or.inr ⟨body, name, contents, node.markedName_eq, node.backed valid held, same⟩

theorem codeIssues_unmarked {node : Json} {nodeType path : Text} {issues : List Issue}
    (typed : strOrEmpty unicode reprFloat (node.get (text "type")) = .ok nodeType)
    (unmarked : markedName unicode reprFloat node = none)
    (returned : codeIssues unicode reprFloat dir nodeType node path = .ok issues) : issues = [] := by
  unfold codeIssues at returned
  split at returned
  · rename_i code
    obtain ⟨body, coded, rest⟩ := bind_ok_iff.mp returned
    have unnamed : snippetName (firstLine body) = none := by
      obtain ⟨parameters, given, same⟩ := bind_ok_iff.mp coded
      cases same
      unfold parametersOf at given
      split at given
      · rename_i fields held
        cases given
        simp only [markedName, typed, held, if_pos code] at unmarked
        cases found : codeField parameters with
        | none => rfl
        | some field =>
          rw [found] at unmarked
          exact unmarked
      · split at given
        · cases given
        · cases given
          rfl
    rw [unnamed] at rest
    cases rest
    rfl
  · cases returned
    rfl

/-- The file that a Code node names ends its last line. -/
def SnippetTerminated (unicode : Unicode) (reprFloat : Rat → Text) (dir : SnippetsDir)
    (node : Json) : Prop :=
  ∀ name, markedName unicode reprFloat node = some name →
    ∀ contents, dir.file name = some (some contents) → Terminated contents

theorem synced_node_iff (marked : dir.Marked) {path lintPath nodeType : Text} {index count : Nat}
    {node synced : Json} {issues : List Issue}
    (returned : syncNode unicode reprFloat dir path index node = .ok (synced, count))
    (typed : strOrEmpty unicode reprFloat (synced.get (text "type")) = .ok nodeType)
    (coded : codeIssues unicode reprFloat dir nodeType synced lintPath = .ok issues) :
    issues = [] ↔ SnippetTerminated unicode reprFloat dir node := by
  rcases syncNode_cases marked returned with ⟨unmarked, rfl⟩ | ⟨body, name, contents, naming, backed, same⟩
  · have silent := codeIssues_unmarked typed unmarked coded
    simp [silent, SnippetTerminated, unmarked]
  · obtain ⟨_, code, alsoTyped⟩ := backed.typed
    rw [typed] at alsoTyped
    cases alsoTyped
    rw [codeIssues, if_pos code] at coded
    have nonempty : readSnippet contents ≠ [] := by
      intro empty
      have line := marked name contents backed.held
      rw [← readSnippet_eq, empty] at line
      cases line
    rw [snippetIssues_of_body coded backed.coded backed.named backed.valid backed.held, same,
      closeLine_eq_iff nonempty]
    constructor
    · intro terminated other naming' contents' held
      rw [naming] at naming'
      cases naming'
      rw [backed.held] at held
      cases held
      exact terminated
    · intro terminated
      exact terminated name naming contents backed.held

end

end N8nSystems.Workflows
