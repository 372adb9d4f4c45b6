import N8nSystems.Workflows.Sanitize

/-! What `_strip` leaves of a value, at whatever path it stands. -/

namespace N8nSystems.Workflows

open Lib Lib.Py

theorem stripItems_eq (path : Text) (items : List Json) : stripItems path items = items.map (strip path) := by
  induction items with
  | nil => rfl
  | cons item items ih => rw [stripItems, ih, List.map_cons]

theorem mem_stripFields {path : Text} {fields : List (Text × Json)} {field : Text × Json} :
    field ∈ stripFields path fields ↔ ∃ item, (field.1, item) ∈ fields ∧
      keeps path field.1 item = true ∧ field.2 = strip (childPath path field.1) item := by
  obtain ⟨key, value⟩ := field
  induction fields with
  | nil => simp [stripFields]
  | cons head fields ih =>
    obtain ⟨name, first⟩ := head
    rw [stripFields]
    by_cases kept : keeps path name first = true
    · rw [if_pos kept, List.mem_cons, ih, stripField]
      constructor
      · rintro (same | ⟨item, member, keep, stripped⟩)
        · cases same
          exact ⟨first, List.mem_cons_self, kept, rfl⟩
        · exact ⟨item, List.mem_cons_of_mem _ member, keep, stripped⟩
      · rintro ⟨item, member, keep, stripped⟩
        rcases List.mem_cons.mp member with same | later
        · cases same
          exact Or.inl (Prod.ext rfl stripped)
        · exact Or.inr ⟨item, later, keep, stripped⟩
    · rw [if_neg kept, ih]
      constructor
      · rintro ⟨item, member, keep, stripped⟩
        exact ⟨item, List.mem_cons_of_mem _ member, keep, stripped⟩
      · rintro ⟨item, member, keep, stripped⟩
        rcases List.mem_cons.mp member with same | later
        · cases same
          exact absurd keep kept
        · exact ⟨item, later, keep, stripped⟩

theorem isString_strip (path : Text) (value : Json) : isString (strip path value) = isString value := by
  cases value <;> rfl

theorem keeps_congr {path key : Text} {first second : Json} (same : isString first = isString second) :
    keeps path key first = keeps path key second := by
  rw [keeps, keeps, same]

theorem stripFields_self {path : Text} {fields : List (Text × Json)}
    (still : ∀ field ∈ fields, keeps path field.1 field.2 = true ∧
      strip (childPath path field.1) field.2 = field.2) : stripFields path fields = fields := by
  induction fields with
  | nil => rfl
  | cons field fields ih =>
    obtain ⟨kept, same⟩ := still field List.mem_cons_self
    have rest := ih fun other member => still other (List.mem_cons_of_mem field member)
    obtain ⟨key, item⟩ := field
    rw [stripFields, if_pos kept, rest, stripField, same]

/-- A second pass at the same path changes nothing. -/
theorem strip_strip (path : Text) (value : Json) : strip path (strip path value) = strip path value := by
  induction value using Json.induction generalizing path with
  | array items ih =>
    simp only [strip, stripItems_eq, List.map_map, Json.array.injEq, List.map_inj_left]
    exact fun item member => ih item member path
  | object fields ih =>
    simp only [strip, Json.object.injEq]
    apply stripFields_self
    intro field member
    obtain ⟨item, original, kept, stripped⟩ := mem_stripFields.mp member
    rw [stripped]
    exact ⟨(keeps_congr (isString_strip _ item)).trans kept, ih _ original _⟩
  | _ => rfl

/-- The fields of the objects inside a stripped value passed the rule of some path. -/
theorem keeps_of_inside {path : Text} {value : Json} {fields : List (Text × Json)}
    (inside : Json.Inside (.object fields) (strip path value)) :
    ∀ field ∈ fields, ∃ path item, keeps path field.1 item = true ∧
      field.2 = strip (childPath path field.1) item := by
  induction value using Json.induction generalizing path with
  | array items ih =>
    rw [strip, stripItems_eq] at inside
    cases inside with
    | item member inside =>
      obtain ⟨item, original, rfl⟩ := List.mem_map.mp member
      exact ih item original inside
  | object originals ih =>
    rw [strip] at inside
    cases inside with
    | self =>
      intro field member
      obtain ⟨item, -, kept, stripped⟩ := mem_stripFields.mp member
      exact ⟨path, item, kept, stripped⟩
    | field member inside =>
      obtain ⟨item, original, -, stripped⟩ := mem_stripFields.mp member
      dsimp only at stripped
      rw [stripped] at inside
      exact ih _ original inside
  | _ => cases inside

theorem underMeta_childPath (path : Text) : underMeta (childPath path (text "meta")) := by
  rw [childPath]
  split
  · exact Or.inr ⟨path, by rw [List.append_assoc]; rfl⟩
  · exact Or.inl rfl

/-- Lists hand their path on, so every object listed under `meta` loses its instance. -/
theorem instanceId_of_listed {path : Text} {value : Json} {fields : List (Text × Json)}
    (under : underMeta path) (listed : Json.Listed (.object fields) (strip path value)) :
    ∀ field ∈ fields, field.1 ≠ text "instanceId" := by
  induction value using Json.induction with
  | array items ih =>
    rw [strip, stripItems_eq] at listed
    cases listed with
    | item member listed =>
      obtain ⟨item, original, rfl⟩ := List.mem_map.mp member
      exact ih item original listed
  | object originals ih =>
    rw [strip] at listed
    cases listed
    intro field member named
    obtain ⟨item, -, kept, -⟩ := mem_stripFields.mp member
    simp [keeps, named, under] at kept
  | _ => cases listed

theorem collectStrings_strip {path : Text} {value : Json} {found : Text}
    (member : found ∈ collectStrings (strip path value)) : found ∈ collectStrings value := by
  induction value using Json.induction generalizing path with
  | array items ih =>
    simp only [strip, stripItems_eq, collectStrings, mem_collectItems, List.mem_map] at member ⊢
    obtain ⟨_, ⟨item, original, rfl⟩, inner⟩ := member
    exact ⟨item, original, ih item original inner⟩
  | object fields ih =>
    simp only [strip, collectStrings, mem_collectFields] at member ⊢
    obtain ⟨field, stripped, inner⟩ := member
    obtain ⟨item, original, -, same⟩ := mem_stripFields.mp stripped
    rw [same] at inner
    exact ⟨(field.1, item), original, ih _ original inner⟩
  | _ => exact member

theorem sortItems_eq (items : List Json) : sortItems items = items.map sortKeys := by
  induction items with
  | nil => rfl
  | cons item items ih => rw [sortItems, ih, List.map_cons]

theorem sortFields_eq (fields : List (Text × Json)) :
    sortFields fields = fields.map fun field => (field.1, sortKeys field.2) := by
  induction fields with
  | nil => rfl
  | cons field fields ih =>
    obtain ⟨key, item⟩ := field
    rw [sortFields, ih, List.map_cons, sortField]

theorem isString_sortKeys (value : Json) : isString (sortKeys value) = isString value := by
  cases value <;> rfl

theorem collectStrings_sortKeys {value : Json} {found : Text} :
    found ∈ collectStrings (sortKeys value) ↔ found ∈ collectStrings value := by
  induction value using Json.induction with
  | array items ih =>
    simp only [sortKeys, sortItems_eq, collectStrings, mem_collectItems, List.mem_map,
      exists_exists_and_eq_and]
    exact exists_congr fun item => and_congr_right fun member => ih item member
  | object fields ih =>
    simp only [sortKeys, sortFields_eq, collectStrings, mem_collectFields, List.mem_mergeSort,
      List.mem_map, exists_exists_and_eq_and]
    exact exists_congr fun field => and_congr_right fun member => ih field member
  | _ => rfl

/-- Every field of an object that a pass leaves alone is kept and left alone. -/
theorem still_field {path : Text} {fields : List (Text × Json)}
    (still : strip path (.object fields) = .object fields) :
    ∀ field ∈ fields, keeps path field.1 field.2 = true ∧
      strip (childPath path field.1) field.2 = field.2 := by
  intro field member
  rw [strip, Json.object.injEq] at still
  rw [← still] at member
  obtain ⟨item, -, kept, stripped⟩ := mem_stripFields.mp member
  rw [stripped, strip_strip]
  exact ⟨(keeps_congr (isString_strip _ item)).trans kept, rfl⟩

theorem still_item {path : Text} {items : List Json}
    (still : strip path (.array items) = .array items) : ∀ item ∈ items, strip path item = item := by
  intro item member
  rw [strip, stripItems_eq, Json.array.injEq] at still
  rw [← still] at member
  obtain ⟨original, -, rfl⟩ := List.mem_map.mp member
  exact strip_strip path original

/-- The rule looks at keys and kinds only, so the order of the fields does not matter. -/
theorem strip_sortKeys {path : Text} {value : Json} (still : strip path value = value) :
    strip path (sortKeys value) = sortKeys value := by
  induction value using Json.induction generalizing path with
  | array items ih =>
    simp only [sortKeys, strip, sortItems_eq, stripItems_eq, List.map_map, Json.array.injEq,
      List.map_inj_left]
    exact fun item member => ih item member (still_item still item member)
  | object fields ih =>
    rw [sortKeys, strip, Json.object.injEq]
    apply stripFields_self
    intro field member
    rw [List.mem_mergeSort, sortFields_eq] at member
    obtain ⟨original, known, rfl⟩ := List.mem_map.mp member
    obtain ⟨kept, same⟩ := still_field still original known
    exact ⟨(keeps_congr (isString_sortKeys original.2)).trans kept, ih original known same⟩
  | _ => rfl

theorem pairwise_sorted (fields : List (Text × Json)) :
    (fields.mergeSort fun first second => first.1 ≤ second.1).Pairwise
      fun first second => decide (first.1 ≤ second.1) = true := by
  apply List.pairwise_mergeSort
  · intro first second third before after
    simp only [decide_eq_true_eq] at before after ⊢
    exact le_trans before after
  · intro first second
    simp only [Bool.or_eq_true, decide_eq_true_eq]
    exact le_total first.1 second.1

theorem sortKeys_sortKeys (value : Json) : sortKeys (sortKeys value) = sortKeys value := by
  induction value using Json.induction with
  | array items ih =>
    simp only [sortKeys, sortItems_eq, List.map_map, Json.array.injEq, List.map_inj_left]
    exact ih
  | object fields ih =>
    simp only [sortKeys, sortFields_eq, Json.object.injEq]
    have sorted := pairwise_sorted (fields.map fun field => (field.1, sortKeys field.2))
    generalize arranged : List.mergeSort _ _ = arrangement at sorted ⊢
    have settled : (arrangement.map fun field => (field.1, sortKeys field.2)) = arrangement := by
      conv_rhs => rw [← List.map_id arrangement]
      rw [List.map_inj_left]
      intro field member
      rw [← arranged, List.mem_mergeSort] at member
      obtain ⟨original, known, rfl⟩ := List.mem_map.mp member
      exact Prod.ext rfl (ih original known)
    rw [settled, List.mergeSort_of_pairwise sorted]
  | _ => rfl

end N8nSystems.Workflows
