import N8nSystems.Workflows.SyncedLint

/-! A second sync finds nothing to do, and a sync touches nothing but marked bodies. -/

namespace N8nSystems.Workflows

open Lib Lib.Py

/-- The node is the same, or a Code node whose marked body was replaced. -/
inductive SyncedNode (unicode : Unicode) (reprFloat : Rat → Text) : Json → Json → Prop
  | kept (node : Json) : SyncedNode unicode reprFloat node node
  | replaced (marked : MarkedNode unicode reprFloat fields parameters key body name) (value : Text) :
      SyncedNode unicode reprFloat (.object fields)
        (.object (replaceBody key value parameters fields))

/-- The workflow is the same apart from synced nodes in its list of nodes. -/
inductive SyncedWorkflow (unicode : Unicode) (reprFloat : Rat → Text) :
    List (Text × Json) → List (Text × Json) → Prop
  | kept (workflow : List (Text × Json)) : SyncedWorkflow unicode reprFloat workflow workflow
  | nodes (listed : Json.lookup (text "nodes") workflow = some (.array before))
      (synced : List.Forall₂ (SyncedNode unicode reprFloat) before after) :
      SyncedWorkflow unicode reprFloat workflow
        (Json.setField (text "nodes") (.array after) workflow)

/-- The item of a list is the same, or a synced workflow. -/
inductive SyncedItem (unicode : Unicode) (reprFloat : Rat → Text) : Json → Json → Prop
  | kept (item : Json) : SyncedItem unicode reprFloat item item
  | workflow (synced : SyncedWorkflow unicode reprFloat before after) :
      SyncedItem unicode reprFloat (.object before) (.object after)

/-- A synced workflow, or a list with synced workflows among its items. -/
inductive SyncedDocument (unicode : Unicode) (reprFloat : Rat → Text) : Json → Json → Prop
  | workflow (synced : SyncedWorkflow unicode reprFloat before after) :
      SyncedDocument unicode reprFloat (.object before) (.object after)
  | list (synced : List.Forall₂ (SyncedItem unicode reprFloat) before after) :
      SyncedDocument unicode reprFloat (.array before) (.array after)

section
variable {unicode : Unicode} {reprFloat : Rat → Text} {dir : SnippetsDir}

theorem syncNode_synced {path : Text} {index : Nat} {node : Json} {result : Json × Nat}
    (returned : syncNode unicode reprFloat dir path index node = .ok result) :
    SyncedNode unicode reprFloat node result.1 := by
  rcases syncNode_inv returned with ⟨-, rfl, -⟩ |
    ⟨fields, parameters, key, body, name, contents, rfl, node, valid, held⟩
  · exact .kept node
  · rw [node.syncNode_eq valid held] at returned
    cases returned
    split
    · exact .replaced node _
    · exact .kept _

/-- The replaced body names the file it came from, and is compared equal to it. -/
theorem syncNode_again (marked : dir.Marked) {path : Text} {index : Nat} {node : Json}
    {result : Json × Nat}
    (returned : syncNode unicode reprFloat dir path index node = .ok result) (again : Text)
    (place : Nat) :
    syncNode unicode reprFloat dir again place result.1 = .ok (result.1, 0) := by
  rcases syncNode_inv returned with ⟨-, rfl, idle⟩ |
    ⟨fields, parameters, key, body, name, contents, rfl, node, valid, held⟩
  · exact idle again place
  · rw [node.syncNode_eq valid held] at returned
    cases returned
    split
    · obtain ⟨nonempty, chars⟩ := snippetName_nameChar node.named
      have renamed := node.replaced (snippetName_replacement marked held nonempty chars)
      rw [renamed.syncNode_eq valid held, if_neg (not_not.mpr (crlfToLf_closeLine contents))]
    · rename_i same
      rw [node.syncNode_eq valid held, if_neg same]

theorem sum_idle (results : List (α × Nat)) :
    ((results.map fun result => (result.1, 0)).map Prod.snd).sum = 0 := by
  induction results with
  | nil => rfl
  | cons result results ih => simpa using ih

theorem map_idle (results : List (α × Nat)) :
    (results.map fun result => (result.1, 0)).map Prod.fst = results.map Prod.fst := by
  rw [List.map_map]
  rfl

theorem syncWorkflow_again (marked : dir.Marked) {path : Text} {workflow : List (Text × Json)}
    {result : List (Text × Json) × Nat}
    (returned : syncWorkflow unicode reprFloat dir path workflow = .ok result) (again : Text) :
    SyncedWorkflow unicode reprFloat workflow result.1 ∧
      syncWorkflow unicode reprFloat dir again result.1 = .ok (result.1, 0) := by
  unfold syncWorkflow at returned
  split at returned
  · rename_i nodes listed
    obtain ⟨results, run, same⟩ := bind_ok_iff.mp returned
    cases same
    refine ⟨.nodes listed (mapM_zipIdx_related (fun _ _ _ => syncNode_synced) run), ?_⟩
    have second : (results.map Prod.fst).zipIdx.mapM (fun entry =>
        syncNode unicode reprFloat dir again entry.2 entry.1) =
          .ok (results.map fun result => (result.1, 0)) :=
      mapM_zipIdx_again (fun _ _ _ here => syncNode_again marked here again) run
    rw [syncWorkflow, Json.lookup_setField_self listed]
    refine bind_ok_iff.mpr ⟨_, second, ?_⟩
    rw [sum_idle, map_idle, Json.setField_setField]
    rfl
  · rename_i other
    cases returned
    refine ⟨.kept workflow, ?_⟩
    unfold syncWorkflow
    split
    · rename_i nodes listed
      exact absurd listed (other nodes)
    · rfl

theorem syncItem_again (marked : dir.Marked) {path : Text} {index : Nat} {item : Json}
    {result : Json × Nat}
    (returned : syncItem unicode reprFloat dir path index item = .ok result) (again : Text) :
    SyncedItem unicode reprFloat item result.1 ∧
      ∀ place, syncItem unicode reprFloat dir again place result.1 = .ok (result.1, 0) := by
  cases item with
  | object workflow =>
    obtain ⟨synced, run, same⟩ := bind_ok_iff.mp returned
    cases same
    refine ⟨.workflow (syncWorkflow_again marked run again).1, ?_⟩
    intro place
    exact bind_ok_iff.mpr ⟨_, (syncWorkflow_again marked run _).2, rfl⟩
  | _ =>
    cases returned
    exact ⟨.kept _, fun _ => rfl⟩

/-- A sync of what a sync returned returns it again and counts no update, and the
first sync changed nothing but the bodies of Code nodes that start with a marker. -/
theorem sync_idempotent (marked : dir.Marked) {path : Text} {document synced : Json} {count : Nat}
    (returned : syncDocument unicode reprFloat dir path document = .ok (synced, count)) :
    (∀ again, syncDocument unicode reprFloat dir again synced = .ok (synced, 0)) ∧
      SyncedDocument unicode reprFloat document synced := by
  cases document with
  | object workflow =>
    obtain ⟨result, run, same⟩ := bind_ok_iff.mp returned
    cases same
    refine ⟨?_, .workflow (syncWorkflow_again marked run path).1⟩
    intro again
    exact bind_ok_iff.mpr ⟨_, (syncWorkflow_again marked run again).2, rfl⟩
  | array items =>
    obtain ⟨results, run, same⟩ := bind_ok_iff.mp returned
    cases same
    refine ⟨?_, .list (mapM_zipIdx_related (fun _ _ _ here => (syncItem_again marked here path).1) run)⟩
    intro again
    have second : (results.map Prod.fst).zipIdx.mapM (fun entry =>
        syncItem unicode reprFloat dir again entry.2 entry.1) =
          .ok (results.map fun result => (result.1, 0)) :=
      mapM_zipIdx_again (fun _ _ _ here => (syncItem_again marked here again).2) run
    refine bind_ok_iff.mpr ⟨_, second, ?_⟩
    rw [sum_idle, map_idle]
    rfl
  | _ => cases returned

end

theorem sync_idempotent_unterminated :
    syncDocument asciiUnicode (fun _ => []) (oneSnippet (text "// snippet: a")) (text "twice")
      (oneCodeNode (text "// snippet: a\n")) = .ok (oneCodeNode (text "// snippet: a\n"), 0) :=
  (sync_idempotent (oneSnippet_marked (by decide)) (sync_oneCodeNode (by decide))).1 _

end N8nSystems.Workflows
