import N8nSystems.Review.Decide
import N8nSystems.Workflows.Rewritten

/-! The body of a POST to the decision receiver: printable ASCII, from which `json.loads` reads
the decision of a row. -/

namespace N8nSystems.Review

open Lib Lib.Py
open Workflows (sortKeys sortKeys_of_sorted)

/-- The JSON of a `str | None`. -/
def optional : Option Text → Json
  | none => .null
  | some value => .string value

/-- A text that UTF-8 can encode. -/
abbrev IsUnicode (value : Text) : Prop := ∀ c ∈ value, c.isValidChar

section
variable {floats : FloatText}

theorem printAt_optional (level : Nat) (value : Option Text) :
    (Layout.compact true).printAt floats level (optional value) = jsonText value := by
  cases value with
  | none => rfl
  | some value => simp [optional, Layout.printAt, Layout.quoted, Layout.compact, jsonText]

theorem loaded_optional (value : Option Text) : Loaded floats (optional value) := by
  cases value with
  | none => exact .null
  | some value => exact .string

theorem occurs_optional {found : Text} {value : Option Text} :
    Json.Occurs found (optional value) ↔ found ∈ value := by
  cases value with
  | none => simpa using Json.not_occurs_scalar rfl
  | some value => simp [optional, Json.occurs_string, eq_comm]

/-- The dict that `decision_body` builds. -/
def DecisionBody.members (payload : DecisionBody) : List (Text × Option Text) :=
  [(text "callback_workflow_id", payload.callbackWorkflowId), (text "decided_by", payload.decidedBy),
    (text "id", payload.id), (text "kind", payload.kind), (text "project", payload.project),
    (text "reason", payload.reason), (text "status", payload.status.value),
    (text "subject_id", payload.subjectId)]

def DecisionBody.json (payload : DecisionBody) : Json :=
  .object (payload.members.map fun member => (member.1, optional member.2))

theorem DecisionBody.sorted (payload : DecisionBody) :
    (payload.members.map Prod.fst).Pairwise (· ≤ ·) :=
  (by decide : [text "callback_workflow_id", text "decided_by", text "id", text "kind", text "project",
    text "reason", text "status", text "subject_id"].Pairwise (· ≤ ·))

theorem sortKeys_optional (value : Option Text) : sortKeys (optional value) = optional value := by
  cases value <;> rfl

theorem DecisionBody.sortKeys_json (payload : DecisionBody) : sortKeys payload.json = payload.json := by
  rw [json, sortKeys_of_sorted (by simpa only [List.map_map, Function.comp_def] using payload.sorted)]
  simp only [List.map_map, Function.comp_def, sortKeys_optional]

/-- `encode_body` prints with the keys sorted, and the keys are in order already. -/
theorem encodeBody_eq (floats : FloatText) (payload : DecisionBody) :
    encodeBody payload = ((Layout.compact true).dumps floats (sortKeys payload.json)).map UInt8.ofNat := by
  have quoted (name : Text) : (Layout.compact true).quoted name = jsonText (some name) := by
    simp [Layout.quoted, Layout.compact, jsonText]
  have bare : (Layout.compact true).gap = (fun _ => []) ∧ (Layout.compact true).afterComma = (fun _ => []) ∧
      (Layout.compact true).afterColon = [] := ⟨rfl, rfl, rfl⟩
  rw [payload.sortKeys_json, encodeBody]
  refine congrArg (List.map UInt8.ofNat) ?_
  simp only [Layout.dumps, DecisionBody.json, DecisionBody.members, List.map_cons, List.map_nil,
    Layout.printAt, List.isEmpty_cons, if_false, Bool.false_eq_true, Layout.printFields,
    Layout.printField, quoted, bare, printAt_optional, List.intercalate, List.intersperse,
    List.append_nil, List.isEmpty_nil, if_true, List.flatten_cons, List.flatten_nil]
  simp [text]

/-- Every text of the payload is one that UTF-8 can encode. -/
def DecisionBody.Legible (payload : DecisionBody) : Prop :=
  ∀ member ∈ payload.members, ∀ value ∈ member.2, IsUnicode value

theorem DecisionBody.admits {payload : DecisionBody} (legible : payload.Legible) :
    (Layout.compact true).Admits payload.json := by
  have names : ∀ name ∈ payload.members.map Prod.fst, IsUnicode name :=
    (by decide : ∀ name ∈ [text "callback_workflow_id", text "decided_by", text "id", text "kind",
      text "project", text "reason", text "status", text "subject_id"], IsUnicode name)
  intro _ found occurs
  obtain ⟨field, listed, inside⟩ := Json.occurs_object.mp occurs
  obtain ⟨member, here, rfl⟩ := List.mem_map.mp listed
  rcases inside with rfl | inside
  · exact names _ (List.mem_map_of_mem here)
  · exact legible member here found (occurs_optional.mp inside)

theorem DecisionBody.loaded (payload : DecisionBody) : Loaded floats payload.json := by
  have distinct : (payload.members.map Prod.fst).Nodup :=
    (by decide : [text "callback_workflow_id", text "decided_by", text "id", text "kind", text "project",
      text "reason", text "status", text "subject_id"].Nodup)
  refine .object (by simpa only [List.map_map, Function.comp_def] using distinct) ?_
  intro field listed
  obtain ⟨member, -, rfl⟩ := List.mem_map.mp listed
  exact loaded_optional member.2

theorem DecisionBody.visible_dumps (lawful : floats.Lawful) (payload : DecisionBody) :
    ∀ c ∈ (Layout.compact true).dumps floats payload.json, Loads.IsVisible c := by
  intro c member
  rcases Layout.visible_printAt lawful rfl payload.loaded 0 c member with visible | ⟨_, blank | blank⟩ | blank
  · exact visible
  all_goals cases blank

/-- The body that goes over the wire is printable ASCII. -/
theorem encodeBody_visible (payload : DecisionBody) : ∀ byte ∈ encodeBody payload, 32 ≤ byte ∧ byte < 127 := by
  rw [encodeBody_eq Workflows.noFloats, payload.sortKeys_json, List.forall_mem_map]
  intro c member
  obtain ⟨low, high⟩ := payload.visible_dumps Workflows.noFloats_lawful c member
  rw [UInt8.le_iff_toNat_le, UInt8.lt_iff_toNat_lt, UInt8.toNat_ofNat_of_lt' (high.trans (by decide))]
  exact ⟨low, high⟩

/-- `json.loads` reads the payload in it. -/
theorem encodeBody_reads (lawful : floats.Lawful) {payload : DecisionBody} (legible : payload.Legible) :
    loads floats ((encodeBody payload).map UInt8.toNat) = some payload.json := by
  rw [encodeBody_eq floats, payload.sortKeys_json, List.map_map, List.map_congr_left (g := id)]
  · rw [List.map_id]
    exact loads_dumps lawful payload.loaded (payload.admits legible)
  · intro c member
    exact UInt8.toNat_ofNat_of_lt' ((payload.visible_dumps lawful c member).2.trans (by decide))

end

theorem Uuid.isUnicode_str (id : Uuid) : IsUnicode (Uuid.str id) := by
  have digits (c : Nat) (member : c ∈ hexPad 32 id.toNat) : c.isValidChar :=
    .inl ((Loads.visible_hexPad 32 id.toNat c member).2.trans (by decide))
  have dash : IsUnicode [45] := by decide
  simp only [Uuid.str, IsUnicode, List.forall_mem_append]
  refine ⟨⟨⟨⟨⟨⟨⟨⟨?_, dash⟩, ?_⟩, dash⟩, ?_⟩, dash⟩, ?_⟩, dash⟩, ?_⟩
  · exact fun c member => digits c (List.mem_of_mem_take member)
  · exact fun c member => digits c (List.mem_of_mem_drop (List.mem_of_mem_take member))
  · exact fun c member => digits c (List.mem_of_mem_drop (List.mem_of_mem_take member))
  · exact fun c member => digits c (List.mem_of_mem_drop (List.mem_of_mem_take member))
  · exact fun c member => digits c (List.mem_of_mem_drop member)

/-- The columns that go into the body hold text that UTF-8 can encode, as the database has it. -/
abbrev Item.Legible (item : Item) : Prop :=
  ∀ column ∈ [item.callbackWorkflowId, item.kind, item.project, item.subjectId],
    ∀ value ∈ column, IsUnicode value

/-- The columns of the decision hold text that UTF-8 can encode. -/
abbrev Item.LegibleDecision (item : Item) : Prop :=
  (∀ actor ∈ item.decidedBy, IsUnicode actor) ∧
    ∀ decision ∈ item.decision, ∀ reason ∈ decision.reason, IsUnicode reason

/-- The decision that a decided row stands for, as the receiver should get it. -/
def Item.decided (row : Item) (id : Uuid) : Json :=
  .object [(text "callback_workflow_id", optional row.callbackWorkflowId),
    (text "decided_by", optional row.decidedBy), (text "id", .string id.str),
    (text "kind", optional row.kind), (text "project", optional row.project),
    (text "reason", optional (row.decision.bind Decision.reason)),
    (text "status", optional (row.status.map Status.value)), (text "subject_id", optional row.subjectId)]

theorem Item.decided_injective {first second : Item} {id other : Uuid}
    (same : first.decided id = second.decided other) : id = other := by
  simp only [Item.decided, Json.object.injEq, List.cons.injEq, Prod.mk.injEq, Json.string.injEq,
    true_and] at same
  exact Uuid.str_injective same.2.2.1

/-- The payload carries the decision that the row holds. -/
structure Carries (payload : DecisionBody) (row : Item) : Prop where
  status : some payload.status = row.status
  decidedBy : some payload.decidedBy = row.decidedBy
  decision : row.decision = some ⟨payload.reason, payload.status⟩

/-- The call tells the decision that the row holds, in the bytes that go over the wire. -/
structure Tells (settings : Settings) (call : PostCall) (id : Uuid) (row : Item) : Prop where
  carries : Carries call.payload row
  encoded : call.body = encodeBody call.payload
  signed : call.signature = signBody settings call.body
  reads : row.Legible → row.LegibleDecision → ∀ floats : FloatText, floats.Lawful →
    loads floats (call.body.map UInt8.toNat) = some (row.decided id)

end N8nSystems.Review
