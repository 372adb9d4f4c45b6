import Mathlib.Data.List.Induction
import N8nSystems.Lib.GoMap

/-! Items collected under their keys, in the order in which the keys turn up. -/

namespace N8nSystems.Lib

universe u v

variable {Item : Type u} {Key : Type v} [DecidableEq Key]

/-- Append an item to the group of the key, or open one for it at the end. -/
def fileUnder (key : Key) (item : Item) : List (Key × List Item) → List (Key × List Item)
  | [] => [(key, [item])]
  | group :: rest => if group.1 = key then (key, group.2 ++ [item]) :: rest else group :: fileUnder key item rest

def grouped (key : Item → Key) (items : List Item) : List (Key × List Item) :=
  items.foldl (fun groups item => fileUnder (key item) item groups) []

theorem grouped_concat (key : Item → Key) (items : List Item) (item : Item) :
    grouped key (items ++ [item]) = fileUnder (key item) item (grouped key items) := by
  rw [grouped, List.foldl_append]
  rfl

theorem keys_fileUnder (key : Key) (item : Item) (groups : List (Key × List Item)) :
    (fileUnder key item groups).map Prod.fst =
      if key ∈ groups.map Prod.fst then groups.map Prod.fst else groups.map Prod.fst ++ [key] := by
  induction groups with
  | nil => rfl
  | cons group rest ih =>
    rw [fileUnder]
    by_cases here : group.1 = key
    · rw [if_pos here, if_pos (by simp [here])]
      simp [here]
    · have elsewhere : key ∈ (group :: rest).map Prod.fst ↔ key ∈ rest.map Prod.fst := by
        rw [List.map_cons, List.mem_cons, or_iff_right (Ne.symm here)]
      rw [if_neg here, List.map_cons, ih]
      by_cases known : key ∈ rest.map Prod.fst
      · rw [if_pos known, if_pos (elsewhere.mpr known), List.map_cons]
      · rw [if_neg known, if_neg (mt elsewhere.mp known), List.map_cons, List.cons_append]

/-- The keys of the groups, in the order in which the items first show them. -/
theorem keys_grouped (key : Item → Key) (items : List Item) :
    ((grouped key items).map Prod.fst).Nodup ∧ ((grouped key items).map Prod.fst).Sublist (items.map key) := by
  induction items using List.reverseRecOn with
  | nil => exact ⟨List.nodup_nil, List.Sublist.slnil⟩
  | append_singleton items item ih =>
    obtain ⟨distinct, within⟩ := ih
    rw [grouped_concat, keys_fileUnder, List.map_append]
    split
    · exact ⟨distinct, within.trans (List.sublist_append_left _ _)⟩
    · rename_i fresh
      exact ⟨List.concat_eq_append ▸ distinct.concat fresh, within.append (List.Sublist.refl [key item])⟩

theorem keys_grouped_eq [BEq Key] [LawfulBEq Key] (key : Item → Key) (items : List Item) :
    (grouped key items).map Prod.fst = (items.map key).eraseDups := by
  induction items using List.reverseRecOn with
  | nil => rfl
  | append_singleton items item ih =>
    have known : key item ∈ (items.map key).eraseDups ↔ key item ∈ items.map key := List.mem_eraseDups
    rw [grouped_concat, keys_fileUnder, ih, List.map_append, List.map_singleton, List.eraseDups_append]
    by_cases member : key item ∈ items.map key
    · rw [if_pos (known.mpr member), List.removeAll, List.filter_singleton, List.elem_eq_true_of_mem member]
      simp
    · rw [if_neg (mt known.mp member), List.removeAll, List.filter_singleton,
        Bool.eq_false_iff.mpr (mt List.elem_iff.mp member)]
      rfl

theorem lookup_fileUnder (key other : Key) (item : Item) (groups : List (Key × List Item)) :
    ((fileUnder key item groups).lookup other).getD [] =
      (groups.lookup other).getD [] ++ if key = other then [item] else [] := by
  induction groups with
  | nil =>
    by_cases same : key = other
    · subst same
      simp [fileUnder]
    · simp [fileUnder, List.lookup_cons, beq_eq_false_iff_ne.mpr (Ne.symm same), same]
  | cons group rest ih =>
    obtain ⟨name, members⟩ := group
    rw [fileUnder]
    by_cases here : name = key
    · subst here
      by_cases same : name = other
      · subst same
        simp
      · simp [List.lookup_cons, beq_eq_false_iff_ne.mpr (Ne.symm same), same]
    · rw [if_neg here]
      by_cases same : other = name
      · subst same
        simp [Ne.symm here]
      · simp [List.lookup_cons, beq_eq_false_iff_ne.mpr same, ih]

/-- The group of a key has the items of that key, in their order. -/
theorem lookup_grouped (key : Item → Key) (items : List Item) (name : Key) :
    ((grouped key items).lookup name).getD [] = items.filter (key · = name) := by
  induction items using List.reverseRecOn with
  | nil => rfl
  | append_singleton items item ih =>
    rw [grouped_concat, lookup_fileUnder, ih, List.filter_append]
    simp [List.filter_singleton]

theorem mem_keys_grouped (key : Item → Key) (items : List Item) (name : Key) :
    name ∈ (grouped key items).map Prod.fst ↔ ∃ item ∈ items, key item = name := by
  induction items using List.reverseRecOn with
  | nil => simp [grouped]
  | append_singleton items item ih =>
    rw [grouped_concat, keys_fileUnder]
    split
    · rename_i known
      rw [ih]
      constructor
      · rintro ⟨other, member, same⟩
        exact ⟨other, List.mem_append_left _ member, same⟩
      · rintro ⟨other, member, rfl⟩
        rcases List.mem_append.mp member with old | new
        · exact ⟨other, old, rfl⟩
        · obtain rfl := List.mem_singleton.mp new
          obtain ⟨group, held, same⟩ := List.mem_map.mp known
          exact ih.mp (List.mem_map.mpr ⟨group, held, same⟩)
    · simp only [List.mem_append, List.mem_singleton, ih, or_and_right, exists_or, exists_eq_left]
      exact or_congr_right eq_comm

/-- The groups are those of the keys of the items. -/
theorem mem_grouped_iff {key : Item → Key} {items : List Item} {name : Key} {group : List Item} :
    (name, group) ∈ grouped key items ↔ group = items.filter (key · = name) ∧ ∃ item ∈ items, key item = name := by
  have distinct := (keys_grouped key items).1
  have listed := lookup_grouped key items name
  constructor
  · intro member
    rw [(GoMap.lookup_eq_some_iff distinct).mpr member] at listed
    exact ⟨listed, (mem_keys_grouped key items name).mp (List.mem_map.mpr ⟨_, member, rfl⟩)⟩
  · rintro ⟨rfl, present⟩
    obtain ⟨⟨_, group⟩, member, rfl⟩ := List.mem_map.mp ((mem_keys_grouped key items name).mpr present)
    rw [(GoMap.lookup_eq_some_iff distinct).mpr member] at listed
    exact listed ▸ member

end N8nSystems.Lib
