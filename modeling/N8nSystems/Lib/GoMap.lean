import Mathlib.Data.List.Nodup
import Mathlib.Data.UInt

/-! Go's maps, and maps of `uint64` counters. -/

namespace N8nSystems.Lib

/-- A map keeps one entry for each key; the order of the entries says nothing. -/
structure GoMap (Key : Type u) (Value : Type v) where
  entries : List (Key × Value)
  distinct : (entries.map Prod.fst).Nodup

namespace GoMap

variable {Key : Type u} {Value : Type v}

def empty : GoMap Key Value := ⟨[], List.nodup_nil⟩

variable [DecidableEq Key]

/-- Replace the value of the key, or add an entry for it. -/
def put (key : Key) (value : Value) : List (Key × Value) → List (Key × Value)
  | [] => [(key, value)]
  | entry :: rest => if entry.1 = key then (key, value) :: rest else entry :: put key value rest

theorem mem_keys_put {key other : Key} {value : Value} {entries : List (Key × Value)} :
    other ∈ (put key value entries).map Prod.fst ↔ other = key ∨ other ∈ entries.map Prod.fst := by
  induction entries with
  | nil => simp [put]
  | cons entry rest ih =>
    rw [put]
    split
    · rename_i same
      simp [same]
    · simp only [List.map_cons, List.mem_cons, ih]
      exact or_left_comm

theorem nodup_put {key : Key} {value : Value} {entries : List (Key × Value)}
    (distinct : (entries.map Prod.fst).Nodup) : ((put key value entries).map Prod.fst).Nodup := by
  induction entries with
  | nil => simp [put]
  | cons entry rest ih =>
    obtain ⟨fresh, later⟩ := List.nodup_cons.mp distinct
    rw [put]
    split
    · rename_i same
      exact List.nodup_cons.mpr ⟨same ▸ fresh, later⟩
    · rename_i other
      refine List.nodup_cons.mpr ⟨?_, ih later⟩
      intro member
      rcases mem_keys_put.mp member with same | member
      · exact other same
      · exact fresh member

/-- `m[key] = value`. -/
def set (map : GoMap Key Value) (key : Key) (value : Value) : GoMap Key Value :=
  ⟨put key value map.entries, nodup_put map.distinct⟩

/-- `value, ok := m[key]`. -/
def get? (map : GoMap Key Value) (key : Key) : Option Value := map.entries.lookup key

theorem lookup_cons_ite {key : Key} {entry : Key × Value} {rest : List (Key × Value)} :
    (entry :: rest).lookup key = if key = entry.1 then some entry.2 else rest.lookup key := by
  obtain ⟨name, value⟩ := entry
  by_cases same : key = name
  · simp [same]
  · simp [List.lookup_cons, beq_eq_false_iff_ne.mpr same, same]

theorem lookup_put {key other : Key} {value : Value} {entries : List (Key × Value)} :
    (put key value entries).lookup other =
      if other = key then some value else entries.lookup other := by
  induction entries with
  | nil => rw [put, lookup_cons_ite]
  | cons entry rest ih =>
    rw [put]
    split
    · rename_i here
      rw [lookup_cons_ite, lookup_cons_ite, here]
      split <;> rfl
    · rename_i here
      rw [lookup_cons_ite, lookup_cons_ite, ih]
      by_cases first : other = entry.1
      · rw [if_pos first, if_pos first, if_neg fun same => here (first.symm.trans same)]
      · rw [if_neg first, if_neg first]

theorem get?_set {map : GoMap Key Value} {key other : Key} {value : Value} :
    (map.set key value).get? other = if other = key then some value else map.get? other :=
  lookup_put

theorem lookup_eq_some_iff {key : Key} {value : Value} {entries : List (Key × Value)}
    (distinct : (entries.map Prod.fst).Nodup) : entries.lookup key = some value ↔ (key, value) ∈ entries := by
  induction entries with
  | nil => simp
  | cons entry rest ih =>
    obtain ⟨fresh, later⟩ := List.nodup_cons.mp distinct
    rw [lookup_cons_ite, List.mem_cons]
    split
    · rename_i here
      have absent : (key, value) ∉ rest := fun member => fresh (here ▸ List.mem_map_of_mem member)
      rw [or_iff_left absent, Option.some.injEq, Prod.ext_iff]
      exact ⟨fun same => ⟨here, same.symm⟩, fun same => same.2.symm⟩
    · rename_i other
      rw [ih later, or_iff_right]
      exact fun same => other (congrArg Prod.fst same)

theorem get?_eq_some_iff {map : GoMap Key Value} {key : Key} {value : Value} :
    map.get? key = some value ↔ (key, value) ∈ map.entries :=
  lookup_eq_some_iff map.distinct

/-- `m[key]` for a map of counters. -/
def count (map : GoMap Key UInt64) (key : Key) : UInt64 := (map.get? key).getD 0

/-- `m[key]++`. -/
def bump (map : GoMap Key UInt64) (key : Key) : GoMap Key UInt64 := map.set key (map.count key + 1)

/-- The sum of the counters of the selected keys. -/
def total (map : GoMap Key UInt64) (select : Key → Bool) : UInt64 :=
  ((map.entries.filter fun entry => select entry.1).map Prod.snd).sum

theorem count_bump (map : GoMap Key UInt64) (key other : Key) :
    (map.bump key).count other = map.count other + if other = key then 1 else 0 := by
  rw [count, bump, get?_set]
  by_cases same : other = key
  · rw [if_pos same, if_pos same, same, Option.getD_some]
  · rw [if_neg same, if_neg same, UInt64.add_zero, count]

theorem total_put {select : Key → Bool} {key : Key} {entries : List (Key × UInt64)} :
    (((put key ((entries.lookup key).getD 0 + 1) entries).filter fun entry => select entry.1).map
      Prod.snd).sum = ((entries.filter fun entry => select entry.1).map Prod.snd).sum +
        if select key then 1 else 0 := by
  induction entries with
  | nil => cases chosen : select key <;> simp [put, chosen]
  | cons entry rest ih =>
    rw [put, lookup_cons_ite]
    by_cases here : entry.1 = key
    · rw [if_pos here, if_pos here.symm, Option.getD_some]
      cases chosen : select key
      · simp [here, chosen]
      · simp only [List.filter_cons, here, chosen, if_true, List.map_cons, List.sum_cons]
        grind
    · rw [if_neg here, if_neg (Ne.symm here)]
      cases chosen : select entry.1
      · simp only [List.filter_cons, chosen, Bool.false_eq_true, if_false]
        exact ih
      · simp only [List.filter_cons, chosen, if_true, List.map_cons, List.sum_cons, ih]
        grind

theorem total_bump (map : GoMap Key UInt64) (key : Key) (select : Key → Bool) :
    (map.bump key).total select = map.total select + if select key then 1 else 0 :=
  total_put

end GoMap

end N8nSystems.Lib
