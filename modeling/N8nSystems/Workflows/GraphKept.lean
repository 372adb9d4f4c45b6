import N8nSystems.Workflows.CleanExport

/-! The graph of a workflow after sanitising. `connections` has the node names as
its keys, and `_strip` drops keys by their names. -/

namespace N8nSystems.Workflows

open Lib Lib.Py

/-- `_strip` drops a field of the value, or of an object somewhere in it. -/
inductive Dropped : Text → Json → Prop
  | here {fields : List (Text × Json)} (member : field ∈ fields)
      (drop : keeps path field.1 field.2 = false) : Dropped path (.object fields)
  | field {fields : List (Text × Json)} (member : field ∈ fields)
      (inner : Dropped (childPath path field.1) field.2) : Dropped path (.object fields)
  | item (member : item ∈ items) (inner : Dropped path item) : Dropped path (.array items)

/-- A value stays as it is exactly when nothing in it is dropped. -/
theorem strip_eq_self_iff (path : Text) (value : Json) : strip path value = value ↔ ¬ Dropped path value := by
  induction value using Json.induction generalizing path with
  | array items ih =>
    constructor
    · intro still dropped
      cases dropped with
      | item member inner => exact (ih _ member path).mp (still_item still _ member) inner
    · intro intact
      rw [strip, stripItems_eq, Json.array.injEq]
      conv_rhs => rw [← List.map_id items]
      rw [List.map_inj_left]
      intro item member
      exact (ih item member path).mpr fun inner => intact (.item member inner)
  | object fields ih =>
    constructor
    · intro still dropped
      cases dropped with
      | here member drop =>
        rw [(still_field still _ member).1] at drop
        cases drop
      | field member inner => exact (ih _ member _).mp (still_field still _ member).2 inner
    · intro intact
      rw [strip, Json.object.injEq]
      apply stripFields_self
      intro field member
      constructor
      · by_contra drop
        exact intact (.here member (Bool.not_eq_true _ ▸ drop))
      · exact (ih field member _).mpr fun inner => intact (.field member inner)
  | _ =>
    refine iff_of_true rfl ?_
    intro dropped
    cases dropped

/-- A key that is never dropped keeps its place, with its value stripped. -/
theorem lookup_stripFields {path key : Text} (kept : ∀ item, keeps path key item = true)
    (fields : List (Text × Json)) : Json.lookup key (stripFields path fields) =
      (Json.lookup key fields).map (strip (childPath path key)) := by
  induction fields with
  | nil => rfl
  | cons field fields ih =>
    obtain ⟨name, item⟩ := field
    by_cases here : name = key
    · subst here
      rw [stripFields, if_pos (kept item), stripField]
      simp [Json.lookup]
    · have skipped (item : Json) (rest : List (Text × Json)) :
          Json.lookup key ((name, item) :: rest) = Json.lookup key rest := by
        simp [Json.lookup, here]
      rw [skipped, ← ih, stripFields]
      split
      · rw [stripField, skipped]
      · rfl

theorem get_strip {path key : Text} (kept : ∀ item, keeps path key item = true) (value : Json) :
    (strip path value).get key = (value.get key).map (strip (childPath path key)) := by
  cases value with
  | object fields => exact lookup_stripFields kept fields
  | _ => rfl

/-- A key outside the lists of the script is kept everywhere. -/
theorem keeps_plain {key : Text} (plain : key ∉ dropKeys ++ [text "instanceId", text "execution"])
    (path : Text) (item : Json) : keeps path key item = true := by
  simp only [List.mem_append, List.mem_cons, List.not_mem_nil, or_false, not_or] at plain
  simp [keeps, plain]

theorem map_strip_eq_iff (path : Text) (value : Option Json) :
    value.map (strip path) = value ↔ ∀ given, value = some given → ¬ Dropped path given := by
  cases value with
  | none => simp
  | some given => simp [strip_eq_self_iff]

/-- The members of a node that the graph is made of. -/
def nodeKeys : List Text := [text "name", text "type"]

/-- The connections are the same, and the nodes are as many, with the same names and
types one by one. -/
structure GraphKept (before after : List (Text × Json)) : Prop where
  connections : Json.lookup (text "connections") after = Json.lookup (text "connections") before
  count : (nodesOf after).length = (nodesOf before).length
  nodes : ∀ (index : Nat) (key : Text), key ∈ nodeKeys →
    ((nodesOf after)[index]?.bind fun node => node.get key) =
      (nodesOf before)[index]?.bind fun node => node.get key

/-- Nothing is dropped inside the connections, at any depth, and nothing inside the name
or the type of a node. -/
structure GraphPlain (workflow : List (Text × Json)) : Prop where
  connections : ∀ value, Json.lookup (text "connections") workflow = some value →
    ¬ Dropped (text "connections") value
  nodes : ∀ node ∈ nodesOf workflow, ∀ key ∈ nodeKeys, ∀ value, node.get key = some value →
    ¬ Dropped (childPath (text "nodes") key) value

theorem nodesOf_stripFields (workflow : List (Text × Json)) :
    nodesOf (stripFields [] workflow) = (nodesOf workflow).map (strip (text "nodes")) := by
  have kept : ∀ item, keeps [] (text "nodes") item = true := keeps_plain (by decide) []
  have path : childPath [] (text "nodes") = text "nodes" := rfl
  unfold nodesOf
  rw [lookup_stripFields kept, path]
  cases Json.lookup (text "nodes") workflow with
  | none => rfl
  | some nodes =>
    cases nodes with
    | array nodes => exact stripItems_eq _ nodes
    | _ => rfl

theorem get_node {key : Text} (member : key ∈ nodeKeys) (node : Json) :
    (strip (text "nodes") node).get key =
      (node.get key).map (strip (childPath (text "nodes") key)) := by
  have plain : ∀ key ∈ nodeKeys, key ∉ dropKeys ++ [text "instanceId", text "execution"] := by decide
  exact get_strip (keeps_plain (plain key member) _) node

variable {unicode : Unicode}

/-- Sanitising keeps the graph of a workflow exactly when none of its node names, and
no other key inside the connections, is taken for a field of a run. -/
theorem graph_kept_iff {workflow : List (Text × Json)} {clean : Json}
    (returned : sanitizeDocument unicode (.object workflow) = .ok clean) :
    GraphKept workflow clean.fields ↔ GraphPlain workflow := by
  obtain ⟨-, rfl⟩ := sanitizeDocument_ok_iff.mp returned
  have fields : (strip [] (.object workflow)).fields = stripFields [] workflow := rfl
  have kept : ∀ item, keeps [] (text "connections") item = true := keeps_plain (by decide) []
  have path : childPath [] (text "connections") = text "connections" := rfl
  rw [fields]
  constructor
  · intro graph
    refine ⟨?_, ?_⟩
    · have same := graph.connections
      rw [lookup_stripFields kept, path] at same
      exact (map_strip_eq_iff _ _).mp same
    · intro node member key named
      obtain ⟨index, placed⟩ := List.mem_iff_getElem?.mp member
      have same := graph.nodes index key named
      rw [nodesOf_stripFields, List.getElem?_map, placed] at same
      simp only [Option.map_some, Option.bind_some, get_node named] at same
      exact (map_strip_eq_iff _ _).mp same
  · intro plain
    refine ⟨?_, ?_, ?_⟩
    · rw [lookup_stripFields kept, path]
      exact (map_strip_eq_iff _ _).mpr plain.connections
    · rw [nodesOf_stripFields, List.length_map]
    · intro index key named
      rw [nodesOf_stripFields, List.getElem?_map]
      cases placed : (nodesOf workflow)[index]? with
      | none => rfl
      | some node =>
        simp only [Option.map_some, Option.bind_some, get_node named]
        exact (map_strip_eq_iff _ _).mpr
          (plain.nodes node (List.mem_iff_getElem?.mpr ⟨index, placed⟩) key named)

/-- Two nodes, the first with an edge to the second. -/
def edgeFrom (name : String) : List (Text × Json) := [
  (text "nodes", .array [
    .object [(text "name", .string (text name)), (text "type", .string (text "n8n-nodes-base.set"))],
    .object [(text "name", .string (text "Send")), (text "type", .string (text "n8n-nodes-base.code"))]]),
  (text "connections", .object [(text name, .object [(text "main", .array [.array [
    .object [(text "node", .string (text "Send")), (text "type", .string (text "main")),
      (text "index", .int 0)]]])])])]

theorem edgeFrom_plain : GraphPlain (edgeFrom "Start") := by
  have nodes : nodesOf (edgeFrom "Start") = [_, _] := rfl
  have still : ∀ node ∈ nodesOf (edgeFrom "Start"), ∀ key ∈ nodeKeys,
      (node.get key).map (strip (childPath (text "nodes") key)) = node.get key := by
    rw [nodes, nodeKeys]
    simp only [List.forall_mem_cons, List.not_mem_nil, false_implies, implies_true, and_true]
    exact ⟨⟨rfl, rfl⟩, rfl, rfl⟩
  refine ⟨(map_strip_eq_iff _ _).mp rfl, ?_⟩
  intro node member key named
  exact (map_strip_eq_iff _ _).mp (still node member key named)

theorem edge_kept : sanitizeDocument asciiUnicode (.object (edgeFrom "Start")) =
      .ok (strip [] (.object (edgeFrom "Start"))) ∧
    GraphKept (edgeFrom "Start") (strip [] (.object (edgeFrom "Start"))).fields := by
  have quiet : findSecretMatches asciiUnicode (.object (edgeFrom "Start")) = [] := by decide +kernel
  have returned := sanitizeDocument_ok_iff.mpr ⟨quiet, rfl⟩
  exact ⟨returned, (graph_kept_iff returned).mpr edgeFrom_plain⟩

/-- A node named `pinData` loses its edges. -/
theorem pinData_edge_lost :
    ¬ ∀ (unicode : Unicode) (workflow connections : List (Text × Json)) (clean : Json),
      Json.lookup (text "connections") workflow = some (.object connections) →
      sanitizeDocument unicode (.object workflow) = .ok clean → GraphKept workflow clean.fields := by
  intro keeps
  have quiet : findSecretMatches asciiUnicode (.object (edgeFrom "pinData")) = [] := by decide +kernel
  have graph := keeps asciiUnicode (edgeFrom "pinData") _ _ rfl (sanitizeDocument_ok_iff.mpr ⟨quiet, rfl⟩)
  have emptied : Json.lookup (text "connections") (strip [] (.object (edgeFrom "pinData"))).fields =
      some (.object []) := rfl
  cases emptied.symm.trans graph.connections

end N8nSystems.Workflows
