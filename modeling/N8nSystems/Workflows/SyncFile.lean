import Mathlib.Data.List.Forall2
import N8nSystems.Workflows.Idempotence
import N8nSystems.Workflows.Rewritten

/-! `process_file` of `scripts/sync_snippets.py`, and the three scripts one after the other
on one file. -/

namespace N8nSystems.Workflows

open Lib Lib.Py
open Relation (ReflTransGen)

/-- The exceptions of `process_file`: of reading, of `json.loads`, of `sync_document` and
of writing. -/
inductive SyncFileFailure where
  | decode
  | load
  | sync (error : ScriptError)
  | encode

section
variable (unicode : Unicode) (floats : FloatText) (reprFloat : Rat → Text) (dir : SnippetsDir)

/-- `process_file` on a file with the content: what it returns or raises, and what the
file then holds. It writes the document even where nothing was updated. -/
def syncFile (path : Text) (content : ByteArray) : Except SyncFileFailure Nat × ByteArray :=
  match decodeUtf8 content with
  | none => (.error .decode, content)
  | some value =>
    match loads floats (universalNewlines value) with
    | none => (.error .load, content)
    | some document =>
      match syncDocument unicode reprFloat dir path document with
      | .error failure => (.error (.sync failure), content)
      | .ok (synced, updated) =>
        match encodeUtf8 (dumpsStable (dumpsAt floats 0) synced) with
        | none => (.error .encode, ByteArray.empty)
        | some written => (.ok updated, written)

/-- What `lint_workflows.py` finds in a file that it can read. -/
def lintFile (path : Text) (content : ByteArray) : Option (Except ScriptError (List Issue)) :=
  (decodeUtf8 content).bind fun value =>
    (loads floats (universalNewlines value)).map fun document =>
      lintDocument unicode reprFloat dir path document

end

section
variable {unicode : Unicode} {floats : FloatText} {reprFloat : Rat → Text} {dir : SnippetsDir}

/-- A text that a sync writes into a body. -/
def Replacement (dir : SnippetsDir) (value : Text) : Prop :=
  ∃ name contents, dir.file name = some (some contents) ∧ value = closeLine (readSnippet contents)

theorem retexted_syncNode {path : Text} {index : Nat} {node : Json} {result : Json × Nat}
    (loaded : Loaded floats node)
    (returned : syncNode unicode reprFloat dir path index node = .ok result) :
    ReflTransGen (Retexted (Replacement dir)) node result.1 := by
  rcases syncNode_inv returned with ⟨-, rfl, -⟩ |
    ⟨fields, parameters, key, body, name, contents, rfl, marked, valid, held⟩
  · exact .refl
  · rw [marked.syncNode_eq valid held] at returned
    cases returned
    split
    · have inner := loaded.ofLookup marked.given
      refine retexted_setField loaded.distinct marked.given ?_
      refine retexted_setField inner.distinct (codeField_spec marked.found).1 ?_
      exact .single (.text ⟨name, contents, held, rfl⟩)
    · exact .refl

/-- A pass over a list whose rounds replace texts replaces texts. -/
theorem retexted_pass {f : Json × Nat → Except ScriptError (Json × Nat)} {New : Text → Prop}
    {items : List Json} {results : List (Json × Nat)} (loaded : Loaded floats (.array items))
    (round : ∀ item index result, Loaded floats item → f (item, index) = .ok result →
      ReflTransGen (Retexted New) item result.1)
    (returned : items.zipIdx.mapM f = .ok results) :
    ReflTransGen (Retexted New) (.array items) (.array (results.map Prod.fst)) := by
  have related : List.Forall₂ (fun item other => Loaded floats item → ReflTransGen (Retexted New) item other)
      items (results.map Prod.fst) :=
    mapM_zipIdx_related (fun item index result here loaded => round item index result loaded here) returned
  have each : ∀ item ∈ items, Loaded floats item := fun item => loaded.item
  exact retexted_items (((List.forall₂_and_left _ _).mpr ⟨each, related⟩).imp fun _ _ both => both.2 both.1)

theorem retexted_syncWorkflow {path : Text} {workflow : List (Text × Json)}
    {result : List (Text × Json) × Nat} (loaded : Loaded floats (.object workflow))
    (returned : syncWorkflow unicode reprFloat dir path workflow = .ok result) :
    ReflTransGen (Retexted (Replacement dir)) (.object workflow) (.object result.1) := by
  unfold syncWorkflow at returned
  split at returned
  · rename_i nodes listed
    obtain ⟨results, run, same⟩ := bind_ok_iff.mp returned
    cases same
    exact retexted_setField loaded.distinct listed
      (retexted_pass (loaded.ofLookup listed) (fun _ _ _ => retexted_syncNode) run)
  · cases returned
    exact .refl

/-- A sync replaces texts, and every new one is the text of a snippet. -/
theorem retexted_syncDocument {path : Text} {document synced : Json} {count : Nat}
    (loaded : Loaded floats document)
    (returned : syncDocument unicode reprFloat dir path document = .ok (synced, count)) :
    ReflTransGen (Retexted (Replacement dir)) document synced := by
  cases document with
  | object workflow =>
    obtain ⟨result, run, same⟩ := bind_ok_iff.mp returned
    cases same
    exact retexted_syncWorkflow loaded run
  | array items =>
    obtain ⟨results, run, same⟩ := bind_ok_iff.mp returned
    cases same
    refine retexted_pass loaded ?_ run
    intro item index result loaded returned
    cases item with
    | object workflow =>
      obtain ⟨synced, inner, same⟩ := bind_ok_iff.mp returned
      cases same
      exact retexted_syncWorkflow loaded inner
    | _ =>
      cases returned
      exact .refl
  | _ => cases returned

section
variable {New : Text → Prop}

theorem isString_retexted {value other : Json} (retexted : Retexted New value other) :
    isString other = isString value := by
  cases retexted <;> rfl

theorem strip_retexted {value other : Json} (retexted : Retexted New value other) {path : Text}
    (still : strip path value = value) : strip path other = other := by
  induction retexted generalizing path with
  | text => rfl
  | @item item other before after inner ih =>
    have each := still_item still
    rw [strip, stripItems_eq, Json.array.injEq]
    refine (List.map_congr_left ?_).trans (List.map_id _)
    intro value member
    rcases List.mem_append.mp member with earlier | here
    · exact each value (List.mem_append_left _ earlier)
    rcases List.mem_cons.mp here with rfl | later
    · exact ih (each item (List.mem_append_right _ List.mem_cons_self))
    · exact each value (List.mem_append_right _ (List.mem_cons_of_mem item later))
  | @field value other before key after inner ih =>
    have each := still_field still
    rw [strip, Json.object.injEq]
    apply stripFields_self
    intro field member
    rcases List.mem_append.mp member with earlier | here
    · exact each field (List.mem_append_left _ earlier)
    rcases List.mem_cons.mp here with rfl | later
    · obtain ⟨kept, same⟩ := each (key, value) (List.mem_append_right _ List.mem_cons_self)
      exact ⟨(keeps_congr (isString_retexted inner)).trans kept, ih same⟩
    · exact each field (List.mem_append_right _ (List.mem_cons_of_mem _ later))

theorem collectStrings_retexted {value other : Json} (retexted : Retexted New value other) {found : Text}
    (member : found ∈ collectStrings other) : found ∈ collectStrings value ∨ New found := by
  induction retexted with
  | text new =>
    rw [List.mem_singleton.mp member]
    exact .inr new
  | item inner ih =>
    simp only [collectStrings, mem_collectItems, List.mem_append, List.mem_cons, or_and_right, exists_or,
      exists_eq_left] at member ⊢
    rcases member with earlier | here | later
    · exact .inl (.inl earlier)
    · exact (ih here).imp_left fun known => .inr (.inl known)
    · exact .inl (.inr (.inr later))
  | field inner ih =>
    simp only [collectStrings, mem_collectFields, List.mem_append, List.mem_cons, or_and_right, exists_or,
      exists_eq_left] at member ⊢
    rcases member with earlier | here | later
    · exact .inl (.inl earlier)
    · exact (ih here).imp_left fun known => .inr (.inl known)
    · exact .inl (.inr (.inr later))

theorem findSecretMatches_retexted {value other : Json} (retexted : Retexted New value other)
    (plain : ∀ found, New found → findSecretMatches unicode (.string found) = [])
    (quiet : findSecretMatches unicode value = []) : findSecretMatches unicode other = [] := by
  rw [findSecretMatches_nil_iff] at quiet ⊢
  intro found member
  rcases collectStrings_retexted retexted member with known | new
  · exact quiet found known
  · exact (findSecretMatches_nil_iff unicode).mp (plain found new) found (List.mem_singleton_self found)

end

theorem Clean.retexted {New : Text → Prop} {value other : Json}
    (plain : ∀ found, New found → findSecretMatches unicode (.string found) = [])
    (retexted : ReflTransGen (Retexted New) value other) (clean : Clean unicode floats value) :
    Clean unicode floats other := by
  induction retexted with
  | refl => exact clean
  | tail _ last ih =>
    exact ⟨last.loaded ih.loaded, findSecretMatches_retexted last plain ih.quiet,
      strip_retexted last ih.still⟩

theorem sortKeys_object (fields : List (Text × Json)) :
    ∃ sorted, sortKeys (.object fields) = .object sorted := ⟨_, rfl⟩

/-- The order of the fields does not matter to a lookup. -/
theorem get_sortKeys {value : Json} (loaded : Loaded floats value) (key : Text) :
    (sortKeys value).get key = (value.get key).map sortKeys := by
  cases value with
  | object fields =>
    have sorted := (loaded_sortKeys loaded).distinct
    apply Option.ext
    intro item
    show Json.lookup key ((sortFields fields).mergeSort _) = some item ↔
      (Json.lookup key fields).map sortKeys = some item
    rw [lookup_eq_some_iff sorted, List.mem_mergeSort, sortFields_eq, Option.map_eq_some_iff]
    constructor
    · intro member
      obtain ⟨field, known, same⟩ := List.mem_map.mp member
      cases same
      exact ⟨field.2, (lookup_eq_some_iff loaded.distinct).mpr known, rfl⟩
    · rintro ⟨original, found, rfl⟩
      exact List.mem_map.mpr ⟨(key, original), Json.mem_of_lookup found, rfl⟩
  | _ => rfl

theorem codeField_sortKeys {parameters sorted : List (Text × Json)}
    (loaded : Loaded floats (.object parameters)) (same : sortKeys (.object parameters) = .object sorted) :
    codeField sorted = codeField parameters := by
  unfold codeField
  congr 1
  funext key
  have found : Json.lookup key sorted = (Json.lookup key parameters).map sortKeys := by
    have got := get_sortKeys loaded key
    rwa [same] at got
  rw [found]
  cases Json.lookup key parameters with
  | none => rfl
  | some value => cases value <;> rfl

theorem not_longInt {value : Json} (loaded : Loaded floats value) : ¬LongInt value := by
  induction loaded with
  | @float value chars isFloat read =>
    cases value with
    | float | infinite =>
      intro long
      cases long
    | _ => exact isFloat.elim
  | int short =>
    intro long
    cases long with
    | int long => omega
  | array each ih =>
    intro long
    cases long with
    | item member inner => exact ih _ member inner
  | object distinct each ih =>
    intro long
    cases long with
    | field member inner => exact ih _ member inner
  | _ =>
    intro long
    cases long

theorem repr_ok {value : Json} (loaded : Loaded floats value) :
    ∃ printed, repr unicode reprFloat value = .ok printed := by
  cases printed : repr unicode reprFloat value with
  | ok result => exact ⟨result, rfl⟩
  | error failure =>
    exact absurd ((repr_error_iff value).mp ⟨failure, printed⟩) (not_longInt loaded)

theorem str_ok {value : Json} (loaded : Loaded floats value) :
    ∃ printed, str unicode reprFloat value = .ok printed := by
  cases value with
  | string value => exact ⟨value, rfl⟩
  | _ => exact repr_ok loaded

theorem strOrEmpty_eq {value : Json} {printed : Text} (read : str unicode reprFloat value = .ok printed) :
    strOrEmpty unicode reprFloat (some value) = .ok (if truthy (some value) then printed else []) := by
  rw [strOrEmpty, read]
  split <;> rfl

theorem repr_items_head {items : List Json} {printed : Text}
    (read : repr unicode reprFloat (.array items) = .ok printed) : printed.head? = some 91 := by
  obtain ⟨inner, -, same⟩ := bind_ok_iff.mp read
  cases same
  rfl

theorem repr_fields_head {fields : List (Text × Json)} {printed : Text}
    (read : repr unicode reprFloat (.object fields) = .ok printed) : printed.head? = some 123 := by
  obtain ⟨inner, -, same⟩ := bind_ok_iff.mp read
  cases same
  rfl

theorem not_code_of_head {printed : Text} {c : Nat} (head : printed.head? = some c) (bracket : c ≠ 110)
    (given : Bool) : (if given then printed else []) ∉ codeTypes := by
  have letter : ∀ code ∈ codeTypes, code.head? = some 110 := by decide
  intro member
  have first := letter _ member
  cases given with
  | true =>
    rw [if_pos rfl, head] at first
    exact bracket (Option.some.inj first)
  | false => cases first

theorem typed_sortKeys {value : Json} (loaded : Loaded floats value) :
    ∃ before after, strOrEmpty unicode reprFloat (some value) = .ok before ∧
      strOrEmpty unicode reprFloat (some (sortKeys value)) = .ok after ∧
      (after ∈ codeTypes ↔ before ∈ codeTypes) := by
  obtain ⟨first, read⟩ := @str_ok unicode floats reprFloat _ loaded
  obtain ⟨second, reread⟩ := @str_ok unicode floats reprFloat _ (loaded_sortKeys loaded)
  refine ⟨_, _, strOrEmpty_eq read, strOrEmpty_eq reread, ?_⟩
  cases value with
  | array items =>
    exact iff_of_false (not_code_of_head (repr_items_head reread) (by decide) _)
      (not_code_of_head (repr_items_head read) (by decide) _)
  | object fields =>
    exact iff_of_false (not_code_of_head (repr_fields_head reread) (by decide) _)
      (not_code_of_head (repr_fields_head read) (by decide) _)
  | _ =>
    cases read.symm.trans reread
    exact Iff.rfl

/-- Sorting keys makes no node a Code node, and no Code node another one. -/
theorem typed_node {fields : List (Text × Json)} (loaded : Loaded floats (.object fields)) :
    ∃ before after, strOrEmpty unicode reprFloat ((Json.object fields).get (text "type")) = .ok before ∧
      strOrEmpty unicode reprFloat ((sortKeys (.object fields)).get (text "type")) = .ok after ∧
      (after ∈ codeTypes ↔ before ∈ codeTypes) := by
  rw [get_sortKeys loaded]
  cases given : (Json.object fields).get (text "type") with
  | none => exact ⟨[], [], rfl, rfl, Iff.rfl⟩
  | some value => exact typed_sortKeys (loaded.ofLookup given)

/-- Both scripts read the marker of a node after its keys are sorted as they do before. -/
theorem markedName_sortKeys {node : Json} (loaded : Loaded floats node) :
    markedName unicode reprFloat (sortKeys node) = markedName unicode reprFloat node := by
  cases node with
  | object fields =>
    obtain ⟨before, after, first, second, code⟩ := @typed_node unicode floats reprFloat fields loaded
    unfold markedName
    rw [first, second, get_sortKeys loaded (text "parameters")]
    cases given : (Json.object fields).get (text "parameters") with
    | none => rfl
    | some value =>
      cases value with
      | object parameters =>
        obtain ⟨sorted, same⟩ := sortKeys_object parameters
        simp only [Option.map_some, same, codeField_sortKeys (loaded.ofLookup given) same, code]
      | _ => rfl
  | _ => rfl

theorem MarkedNode.sortKeys {fields parameters : List (Text × Json)} {key body name : Text}
    (node : MarkedNode unicode reprFloat fields parameters key body name)
    (loaded : Loaded floats (.object fields)) :
    ∃ fields' parameters', sortKeys (.object fields) = .object fields' ∧
      MarkedNode unicode reprFloat fields' parameters' key body name := by
  obtain ⟨fields', same⟩ := sortKeys_object fields
  obtain ⟨parameters', sorted⟩ := sortKeys_object parameters
  obtain ⟨before, after, first, second, code⟩ := @typed_node unicode floats reprFloat fields loaded
  have given := get_sortKeys loaded (text "parameters")
  rw [same] at second given
  rw [node.given, Option.map_some, sorted] at given
  obtain ⟨nodeType, member, typed⟩ := node.typed
  cases first.symm.trans typed
  exact ⟨fields', parameters', same, ⟨after, code.mpr member, second⟩, given,
    (codeField_sortKeys (loaded.ofLookup node.given) sorted).trans node.found, node.named⟩

/-- The round of the loop for the node, at every place, leaves it alone. -/
def SyncIdle (unicode : Unicode) (reprFloat : Rat → Text) (dir : SnippetsDir) (node : Json) : Prop :=
  ∀ path index, syncNode unicode reprFloat dir path index node = .ok (node, 0)

theorem SyncIdle.sortKeys {node : Json} (idle : SyncIdle unicode reprFloat dir node)
    (loaded : Loaded floats node) : SyncIdle unicode reprFloat dir (sortKeys node) := by
  intro path index
  rcases syncNode_inv (idle path index) with ⟨unmarked, -, -⟩ |
    ⟨fields, parameters, key, body, name, contents, rfl, marked, valid, held⟩
  · cases node with
    | object fields =>
      obtain ⟨_, after, -, typed, -⟩ := @typed_node unicode floats reprFloat fields loaded
      exact syncNode_unmarked typed ((markedName_sortKeys loaded).trans unmarked) path index
    | _ => rfl
  · obtain ⟨fields', parameters', same, sorted⟩ := marked.sortKeys loaded
    have taken := idle path index
    rw [marked.syncNode_eq valid held] at taken
    rw [same, sorted.syncNode_eq valid held]
    by_cases differs : crlfToLf body ≠ closeLine (readSnippet contents)
    · rw [if_pos differs] at taken
      cases congrArg Prod.snd (Except.ok.inj taken)
    · rw [if_neg differs]

/-- Every node of every workflow of the document is left alone. -/
structure Synced (unicode : Unicode) (reprFloat : Rat → Text) (dir : SnippetsDir) (document : Json) :
    Prop where
  workflows : (∃ fields, document = .object fields) ∨ ∃ items, document = .array items
  idle : ∀ entry ∈ iterWorkflows document, ∀ node ∈ nodesOf entry.2, SyncIdle unicode reprFloat dir node

theorem nodesOf_sortKeys {workflow sorted : List (Text × Json)} (loaded : Loaded floats (.object workflow))
    (same : sortKeys (.object workflow) = .object sorted) :
    nodesOf sorted = (nodesOf workflow).map sortKeys := by
  have found : Json.lookup (text "nodes") sorted = (Json.lookup (text "nodes") workflow).map sortKeys := by
    have got := get_sortKeys loaded (text "nodes")
    rwa [same] at got
  rw [nodesOf, nodesOf, found]
  cases Json.lookup (text "nodes") workflow with
  | none => rfl
  | some value =>
    cases value with
    | array nodes => exact sortItems_eq nodes
    | _ => rfl

theorem iterWorkflows_sortKeys {document : Json} {entry : Text × List (Text × Json)}
    (member : entry ∈ iterWorkflows (sortKeys document)) :
    ∃ original ∈ iterWorkflows document, sortKeys (.object original.2) = .object entry.2 := by
  cases document with
  | object workflow =>
    rw [List.mem_singleton.mp member]
    exact ⟨([], workflow), List.mem_singleton_self _, rfl⟩
  | array items =>
    have listed := mem_iterWorkflows_array.mp ⟨entry.1, member⟩
    rw [sortItems_eq] at listed
    obtain ⟨item, known, same⟩ := List.mem_map.mp listed
    cases item with
    | object workflow =>
      obtain ⟨place, there⟩ := mem_iterWorkflows_array.mpr known
      exact ⟨(place, workflow), there, same⟩
    | _ => cases same
  | _ => cases member

theorem loaded_workflow {document : Json} (loaded : Loaded floats document)
    {entry : Text × List (Text × Json)} (member : entry ∈ iterWorkflows document) :
    Loaded floats (.object entry.2) := by
  cases document with
  | object workflow =>
    rw [List.mem_singleton.mp member]
    exact loaded
  | array items => exact loaded.item (mem_iterWorkflows_array.mp ⟨entry.1, member⟩)
  | _ => cases member

theorem loaded_node {workflow : List (Text × Json)} (loaded : Loaded floats (.object workflow)) {node : Json}
    (member : node ∈ nodesOf workflow) : Loaded floats node := by
  unfold nodesOf at member
  split at member
  · rename_i nodes listed
    exact (loaded.ofLookup listed).item member
  · cases member

theorem Synced.sortKeys {document : Json} (synced : Synced unicode reprFloat dir document)
    (loaded : Loaded floats document) : Synced unicode reprFloat dir (sortKeys document) where
  workflows := by
    rcases synced.workflows with ⟨fields, rfl⟩ | ⟨items, rfl⟩
    · exact .inl ⟨_, rfl⟩
    · exact .inr ⟨_, rfl⟩
  idle := by
    intro entry member node listed
    obtain ⟨original, there, same⟩ := iterWorkflows_sortKeys member
    have workflow := loaded_workflow loaded there
    rw [nodesOf_sortKeys workflow same] at listed
    obtain ⟨before, known, rfl⟩ := List.mem_map.mp listed
    exact (synced.idle original there before known).sortKeys (loaded_node workflow known)

/-- What a sync returns is synced. -/
theorem synced_of_syncDocument (marked : dir.Marked) {path : Text} {document synced : Json} {count : Nat}
    (returned : syncDocument unicode reprFloat dir path document = .ok (synced, count)) :
    Synced unicode reprFloat dir synced where
  workflows := by
    cases document with
    | object workflow =>
      obtain ⟨result, -, same⟩ := bind_ok_iff.mp returned
      cases same
      exact .inl ⟨_, rfl⟩
    | array items =>
      obtain ⟨results, -, same⟩ := bind_ok_iff.mp returned
      cases same
      exact .inr ⟨_, rfl⟩
    | _ => cases returned
  idle := by
    intro entry member node listed
    obtain ⟨_, original, -, _, run⟩ := (syncDocument_workflows returned).2 entry member
    obtain ⟨before, -, _, _, step⟩ := (syncWorkflow_nodes run).2 node listed
    exact syncNode_again marked step

theorem mapM_idle {f : Json × Nat → Except ScriptError (Json × Nat)} {items : List Json}
    (idle : ∀ item ∈ items, ∀ index, f (item, index) = .ok (item, 0)) (start : Nat) :
    (items.zipIdx start).mapM f = .ok (items.map fun item => (item, 0)) := by
  induction items generalizing start with
  | nil => rfl
  | cons item rest ih =>
    obtain ⟨here, later⟩ := List.forall_mem_cons.mp idle
    simp only [List.zipIdx_cons, List.mapM_cons, List.map_cons, bind_ok_iff]
    exact ⟨_, here start, _, ih later (start + 1), rfl⟩

theorem pass_idle (items : List Json) :
    (items.map fun item => (item, 0)).map Prod.fst = items ∧
      ((items.map fun item => (item, 0)).map Prod.snd).sum = 0 := by
  induction items with
  | nil => exact ⟨rfl, rfl⟩
  | cons item rest ih => simpa using ih

theorem syncWorkflow_idle {workflow : List (Text × Json)} (loaded : Loaded floats (.object workflow))
    (idle : ∀ node ∈ nodesOf workflow, SyncIdle unicode reprFloat dir node) (path : Text) :
    syncWorkflow unicode reprFloat dir path workflow = .ok (workflow, 0) := by
  unfold syncWorkflow
  split
  · rename_i nodes listed
    rw [nodesOf, listed] at idle
    obtain ⟨values, counts⟩ := pass_idle nodes
    obtain ⟨before, after, same, replaced⟩ := setField_split loaded.distinct listed
    refine bind_ok_iff.mpr ⟨_, mapM_idle (fun node member => idle node member path) 0, ?_⟩
    rw [values, counts, replaced, ← same]
    rfl
  · rfl

/-- A sync of a synced document returns it, and counts no update. -/
theorem Synced.syncDocument_eq {document : Json} (synced : Synced unicode reprFloat dir document)
    (loaded : Loaded floats document) (path : Text) :
    syncDocument unicode reprFloat dir path document = .ok (document, 0) := by
  rcases synced.workflows with ⟨workflow, rfl⟩ | ⟨items, rfl⟩
  · have idle := syncWorkflow_idle loaded (synced.idle ([], workflow) (List.mem_singleton_self _)) path
    exact bind_ok_iff.mpr ⟨_, idle, rfl⟩
  · have each : ∀ item ∈ items, ∀ index,
        syncItem unicode reprFloat dir path index item = .ok (item, 0) := by
      intro item member index
      cases item with
      | object workflow =>
        obtain ⟨place, there⟩ := mem_iterWorkflows_array.mpr member
        have idle := syncWorkflow_idle (loaded.item member) (synced.idle (place, workflow) there)
        exact bind_ok_iff.mpr ⟨_, idle _, rfl⟩
      | _ => rfl
    obtain ⟨values, counts⟩ := pass_idle items
    refine bind_ok_iff.mpr ⟨_, mapM_idle each 0, ?_⟩
    rw [values, counts]
    rfl

/-- The linter says nothing of snippets in a synced document when every file ends its last line. -/
theorem Synced.lint_quiet (marked : dir.Marked) {document : Json}
    (synced : Synced unicode reprFloat dir document)
    (terminated : ∀ name contents, dir.file name = some (some contents) → Terminated contents)
    {path : Text} {issues : List Issue}
    (linted : lintDocument unicode reprFloat dir path document = .ok issues) :
    ∀ issue ∈ issues, issue.finding.isSnippet = false := by
  intro issue member
  rcases (mem_lintDocument linted).2 issue member with ⟨entry, there, found, workflow, reported⟩ | none
  · rcases (mem_lintWorkflow workflow).2 issue reported with
      ⟨node, listed, _, nodeIssues, nodeLinted, inNode⟩ | ⟨other, -⟩
    · rcases mem_lintNode nodeLinted with ⟨empty, -⟩ | ⟨fields, _, _, _, snippet, typed, coded, -, cause⟩
      · rw [empty] at inNode
        cases inNode
      · have quiet := (synced_node_iff marked (synced.idle entry there node listed [] 0) typed coded).mpr
          fun name _ => terminated name
        rcases cause issue inNode with coding | ⟨pinned, -⟩ | ⟨-, -, other⟩
        · rw [quiet] at coding
          cases coding
        · exact Finding.isSnippet_of_isPinData pinned
        · exact other
    · exact other
  · rw [none]
    rfl

theorem syncFile_ok {path : Text} {content after : ByteArray} {updated : Nat}
    (returned : syncFile unicode floats reprFloat dir path content = (.ok updated, after)) :
    ∃ value document synced, decodeUtf8 content = some value ∧ loads floats value = some document ∧
      syncDocument unicode reprFloat dir path document = .ok (synced, updated) ∧
      encodeUtf8 (dumpsStable (dumpsAt floats 0) synced) = some after := by
  unfold syncFile at returned
  cases decoded : decodeUtf8 content with
  | none =>
    rw [decoded] at returned
    cases returned
  | some value =>
    simp only [decoded, loads_universalNewlines] at returned
    cases read : loads floats value with
    | none =>
      rw [read] at returned
      cases returned
    | some document =>
      simp only [read] at returned
      cases run : syncDocument unicode reprFloat dir path document with
      | error failure =>
        rw [run] at returned
        cases returned
      | ok result =>
        obtain ⟨synced, count⟩ := result
        simp only [run] at returned
        cases written : encodeUtf8 (dumpsStable (dumpsAt floats 0) synced) with
        | none =>
          rw [written] at returned
          cases returned
        | some bytes =>
          rw [written] at returned
          cases returned
          exact ⟨value, document, synced, rfl, read, run, written⟩

theorem syncFile_idle (lawful : floats.Lawful) {content : ByteArray} {document : Json}
    (loaded : Loaded floats document) (synced : Synced unicode reprFloat dir document)
    (written : encodeUtf8 (dumpsStable (dumpsAt floats 0) document) = some content) (path : Text) :
    syncFile unicode floats reprFloat dir path content = (.ok 0, content) := by
  simp only [syncFile, decodeUtf8_eq_some_iff.mpr written, loads_universalNewlines,
    loads_dumpsStable lawful loaded,
    (synced.sortKeys loaded).syncDocument_eq (loaded_sortKeys loaded), dumpsStable_sortKeys, written]

/-- When `process_file` returns, a reader of the file gets the synced document of its text
with sorted keys, and a second `process_file` updates no node and writes the same bytes. -/
theorem syncFile_again (lawful : floats.Lawful) (marked : dir.Marked) {path : Text}
    {content after : ByteArray} {updated : Nat}
    (returned : syncFile unicode floats reprFloat dir path content = (.ok updated, after)) :
    (∃ value document synced written, decodeUtf8 content = some value ∧
      loads floats value = some document ∧
      syncDocument unicode reprFloat dir path document = .ok (synced, updated) ∧
      decodeUtf8 after = some written ∧ loads floats written = some (sortKeys synced)) ∧
    ∀ again, syncFile unicode floats reprFloat dir again after = (.ok 0, after) := by
  obtain ⟨value, document, synced, decoded, read, run, written⟩ := syncFile_ok returned
  have loaded : Loaded floats synced :=
    (retexted_syncDocument (loads_loaded lawful read) run).rec (loads_loaded lawful read)
      fun _ last ih => last.loaded ih
  refine ⟨⟨value, document, synced, _, decoded, read, run, decodeUtf8_eq_some_iff.mpr written,
    loads_dumpsStable lawful loaded⟩, ?_⟩
  exact syncFile_idle lawful loaded (synced_of_syncDocument marked run) written

/-- A file that was sanitised and then synced is left alone by both scripts, and the linter
reports no pinned data, no secret and no snippet in it, when no snippet holds a secret and
every snippet ends its last line. -/
theorem sanitized_synced_settled (lawful : floats.Lawful) (marked : dir.Marked)
    (terminated : ∀ name contents, dir.file name = some (some contents) → Terminated contents)
    (plain : ∀ found, Replacement dir found → findSecretMatches unicode (.string found) = [])
    {path : Text} {content clean after : ByteArray} {changed : Bool} {updated : Nat}
    (sanitized : processFile unicode floats content = (.ok changed, clean))
    (returned : syncFile unicode floats reprFloat dir path clean = (.ok updated, after)) :
    processFile unicode floats after = (.ok false, after) ∧
    (∀ again, syncFile unicode floats reprFloat dir again after = (.ok 0, after)) ∧
    ∀ place issues, lintFile unicode floats reprFloat dir place after = some (.ok issues) →
      ∀ issue ∈ issues, issue.finding.isPinData = false ∧ issue.finding.isSecret = false ∧
        issue.finding.isSnippet = false := by
  obtain ⟨_, original, -, -, clean, stripped⟩ := processFile_holds lawful sanitized
  obtain ⟨written, decoded, parsed⟩ := stripped.loads lawful clean.loaded
  obtain ⟨value, document, synced, read, opened, run, printed⟩ := syncFile_ok returned
  cases decoded.symm.trans read
  cases parsed.symm.trans opened
  -- Both scripts keep the document clean, and the second leaves it synced.
  have final : Clean unicode floats synced :=
    clean.sortKeys.retexted plain (retexted_syncDocument clean.sortKeys.loaded run)
  have settled := synced_of_syncDocument marked run
  refine ⟨final.processFile_idle lawful (holds_of_encodeUtf8 lawful final.loaded printed),
    syncFile_idle lawful final.loaded settled printed, ?_⟩
  intro place issues linted issue member
  simp only [lintFile, decodeUtf8_eq_some_iff.mpr printed, loads_universalNewlines,
    loads_dumpsStable lawful final.loaded, Option.bind_some, Option.map_some, Option.some.injEq] at linted
  have bare : ∀ fields, Json.Inside (.object fields) (sortKeys synced) →
      ∀ field ∈ fields, field.1 ∉ dropKeys := by
    intro fields inside field member dropped
    rw [← final.sortKeys.still] at inside
    obtain ⟨path, item, kept, -⟩ := keeps_of_inside inside field member
    simp [keeps, dropped] at kept
  obtain ⟨unpinned, secretless⟩ := lintDocument_quiet linted final.sortKeys.quiet bare issue member
  exact ⟨unpinned, secretless,
    (settled.sortKeys final.loaded).lint_quiet marked terminated linted issue member⟩

end

def markedNode (body : Text) : List (Text × Json) :=
  [(text "parameters", .object [(text "code", .string body)]), (text "type", .string (text "n8n-nodes-base.code"))]

def markedDocument (body : Text) : Json := .object [(text "nodes", .array [.object (markedNode body)])]

/-- The file of that workflow, with what is printed of the body. -/
def markedFile (body : String) : String :=
  "\x7b\n  \"nodes\": [\n    \x7b\n      \"parameters\": \x7b\n        \"code\": \"" ++ body ++
    "\"\n      \x7d,\n      \"type\": \"n8n-nodes-base.code\"\n    \x7d\n  ]\n\x7d\n"

theorem markedDocument_loaded (body : Text) : Loaded noFloats (markedDocument body) := by
  have node : Loaded noFloats (.object (markedNode body)) := by
    refine .object (by decide : [text "parameters", text "type"].Nodup) ?_
    simp only [markedNode, List.forall_mem_cons, List.not_mem_nil, false_implies, implies_true, and_true]
    exact ⟨.object (by decide : [text "code"].Nodup) (by simp [Loaded.string]), .string⟩
  refine .object (by decide : [text "nodes"].Nodup) ?_
  simp only [List.forall_mem_singleton]
  exact .array (by simpa using node)

theorem markedDocument_sorted (body : Text) : sortKeys (markedDocument body) = markedDocument body := by
  have code : sortKeys (.object [(text "code", .string body)]) = .object [(text "code", .string body)] :=
    sortKeys_of_sorted (List.pairwise_singleton _ _)
  have node : sortKeys (.object (markedNode body)) = .object (markedNode body) := by
    have keys : ((markedNode body).map Prod.fst).Pairwise (· ≤ ·) :=
      (by decide : [text "parameters", text "type"].Pairwise (· ≤ ·))
    refine (sortKeys_of_sorted keys).trans ?_
    show Json.object [(text "parameters", sortKeys (.object [(text "code", .string body)])), _] = _
    rw [code]
    rfl
  refine (sortKeys_of_sorted (List.pairwise_singleton _ _)).trans ?_
  show Json.object [(text "nodes", .array [sortKeys (.object (markedNode body))])] = _
  rw [node]
  rfl

theorem markedFile_printed : ∀ body ∈ [("// snippet: a", "// snippet: a"), ("// snippet: a\n", "// snippet: a\\n")],
    dumpsStable (dumpsAt noFloats 0) (markedDocument (text body.1)) = text (markedFile body.2) := by
  simp only [dumpsStable, markedDocument_sorted]
  decide +kernel

theorem syncNode_markedNode : syncNode asciiUnicode (fun _ => []) (oneSnippet (text "// snippet: a\n")) [] 0
    (.object (markedNode (text "// snippet: a"))) = .ok (.object (markedNode (text "// snippet: a\n")), 1) := by
  have marked : MarkedNode asciiUnicode (fun _ => []) (markedNode (text "// snippet: a"))
      [(text "code", .string (text "// snippet: a"))] (text "code") (text "// snippet: a") (text "a") :=
    ⟨⟨text "n8n-nodes-base.code", code_mem, rfl⟩, rfl, rfl, by decide⟩
  have held : (oneSnippet (text "// snippet: a\n")).file (text "a") = some (some (text "// snippet: a\n")) := rfl
  have differs : crlfToLf (text "// snippet: a") ≠ closeLine (readSnippet (text "// snippet: a\n")) := by decide
  rw [marked.syncNode_eq valid_a held, if_pos differs]
  rfl

theorem syncDocument_markedDocument :
    syncDocument asciiUnicode (fun _ => []) (oneSnippet (text "// snippet: a\n")) []
      (markedDocument (text "// snippet: a")) = .ok (markedDocument (text "// snippet: a\n"), 1) := by
  have listed : Json.lookup (text "nodes") [(text "nodes", .array [.object (markedNode (text "// snippet: a"))])] =
      some (.array [.object (markedNode (text "// snippet: a"))]) := rfl
  simp only [syncDocument, markedDocument, syncWorkflow, listed, List.zipIdx_cons, List.zipIdx_nil,
    List.mapM_cons, List.mapM_nil, syncNode_markedNode, bind, Except.bind, pure, Except.pure]
  rfl

/-- The body of the node gets the line feed of the file. -/
theorem syncFile_markedFile :
    syncFile asciiUnicode noFloats (fun _ => []) (oneSnippet (text "// snippet: a\n")) []
      (markedFile "// snippet: a").toByteArray = (.ok 1, (markedFile "// snippet: a\\n").toByteArray) := by
  have before := markedFile_printed ("// snippet: a", "// snippet: a") (by simp)
  have after := markedFile_printed ("// snippet: a\n", "// snippet: a\\n") (by simp)
  have read := loads_dumpsStable noFloats_lawful (markedDocument_loaded (text "// snippet: a"))
  rw [before, markedDocument_sorted] at read
  simp only [syncFile, decodeUtf8_toByteArray, loads_universalNewlines, read, syncDocument_markedDocument,
    after, encodeUtf8_text]

theorem syncFile_again_markedFile :
    syncFile asciiUnicode noFloats (fun _ => []) (oneSnippet (text "// snippet: a\n")) []
      (markedFile "// snippet: a\\n").toByteArray = (.ok 0, (markedFile "// snippet: a\\n").toByteArray) :=
  (syncFile_again noFloats_lawful (oneSnippet_marked (by decide)) syncFile_markedFile).2 []

theorem markedFile_settled :
    processFile asciiUnicode noFloats (markedFile "// snippet: a\\n").toByteArray =
      (.ok false, (markedFile "// snippet: a\\n").toByteArray) := by
  have printed := markedFile_printed ("// snippet: a", "// snippet: a") (by simp)
  have written := (congrArg encodeUtf8 printed).trans (encodeUtf8_text (markedFile "// snippet: a"))
  have holds := holds_of_encodeUtf8 noFloats_lawful (markedDocument_loaded _) written
  have clean : Clean asciiUnicode noFloats (markedDocument (text "// snippet: a")) :=
    ⟨markedDocument_loaded _, by decide +kernel, rfl⟩
  have known {name contents : Text} (held : (oneSnippet (text "// snippet: a\n")).file name = some (some contents)) :
      contents = text "// snippet: a\n" :=
    (Option.some.inj (Option.some.inj (Option.ite_none_right_eq_some.mp held).2)).symm
  refine (sanitized_synced_settled noFloats_lawful (oneSnippet_marked (by decide)) ?_ ?_
    (clean.processFile_idle noFloats_lawful holds) syncFile_markedFile).1
  · intro name contents held
    rw [known held]
    decide
  · rintro found ⟨name, contents, held, rfl⟩
    rw [known held]
    decide +kernel

end N8nSystems.Workflows
