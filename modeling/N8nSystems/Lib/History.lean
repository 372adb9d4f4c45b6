import Mathlib.Data.List.Basic
import Mathlib.Data.List.DropRight
import Mathlib.Data.List.Nodup
import Mathlib.Data.List.Perm.Subperm

/-! The part of a history since its last marked event, and what the marks of two
kinds of event leave behind. -/

namespace N8nSystems.Lib

section Since

variable {Event : Type u} (mark : Event → Bool)

/-- The events after the last marked one, or all of them. -/
def since (events : List Event) : List Event := events.rtakeWhile fun event => !mark event

/-- The events up to the last marked one. -/
def upTo (events : List Event) : List Event := events.rdropWhile fun event => !mark event

theorem upTo_append_since (events : List Event) : upTo mark events ++ since mark events = events :=
  List.rdropWhile_append_rtakeWhile

variable {mark}

theorem since_marked {event : Event} (marked : mark event = true) (events : List Event) :
    since mark (events ++ [event]) = [] :=
  List.rtakeWhile_concat_neg _ _ _ (by simp [marked])

theorem since_unmarked {event : Event} (unmarked : mark event = false) (events : List Event) :
    since mark (events ++ [event]) = since mark events ++ [event] :=
  List.rtakeWhile_concat_pos _ _ _ (by simp [unmarked])

end Since

/-- Two lists of the same distinct items, each cut in two: the second parts differ
by the items that are in the second part of one and in the first part of the other. -/
theorem length_crossed [DecidableEq α] {first second first' second' : List α}
    (distinct : (first ++ second).Nodup) (distinct' : (first' ++ second').Nodup)
    (same : ∀ item, item ∈ first ++ second ↔ item ∈ first' ++ second') :
    second.length + (second'.filter (· ∈ first)).length =
      second'.length + (second.filter (· ∈ first')).length := by
  obtain ⟨_, inner, apart⟩ := List.nodup_append'.mp distinct
  obtain ⟨_, inner', apart'⟩ := List.nodup_append'.mp distinct'
  have common : (second.filter (· ∉ first')).Perm (second'.filter (· ∉ first)) := by
    rw [List.perm_ext_iff_of_nodup (inner.filter _) (inner'.filter _)]
    intro item
    have both := same item
    simp only [List.mem_append] at both
    simp only [List.mem_filter, decide_eq_true_eq]
    constructor
    · intro ⟨member, absent⟩
      have other := (both.mp (.inr member)).resolve_left absent
      exact ⟨other, fun earlier => apart earlier member⟩
    · intro ⟨member, absent⟩
      have other := (both.mpr (.inr member)).resolve_left absent
      exact ⟨other, fun earlier => apart' earlier member⟩
  have split := second.length_eq_length_filter_add (· ∈ first')
  have split' := second'.length_eq_length_filter_add (· ∈ first)
  have equal := common.length_eq
  simp only [decide_not] at equal
  omega

end N8nSystems.Lib
