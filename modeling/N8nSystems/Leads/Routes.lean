import N8nSystems.Lib.FirstGreatest
import N8nSystems.Leads.Score

/-! Which entry of the routes a score selects. -/

namespace N8nSystems.Leads

open Lib Lib.Py

variable {score : Int} {config other : ScoringConfig} {route : Route}

/-- The first-listed entry among those with the greatest minimum that the score reaches. -/
def Selected (routes : List Route) (score : Int) (route : Route) : Prop :=
  FirstGreatest Route.min (fun entry => entry.min ≤ score) routes route

theorem routeFromScore_of_selected (selected : Selected config.routes score route) :
    routeFromScore score config = route.name := by
  rw [routeFromScore, find?_insertionSort.mpr selected]

/-- Either an entry is selected, or the score reaches no minimum. -/
theorem selected_or_below (routes : List Route) (score : Int) :
    (∃ route, Selected routes score route) ∨ ∀ route ∈ routes, score < route.min := by
  by_cases reached : ∃ route ∈ routes, route.min ≤ score
  · obtain ⟨route, member, fits⟩ := reached
    exact Or.inl (exists_firstGreatest member (decide_eq_true fits))
  · refine Or.inr fun route member => ?_
    exact not_le.mp fun fits => reached ⟨route, member, fits⟩

theorem routeFromScore_of_below (below : ∀ route ∈ config.routes, score < route.min) :
    routeFromScore score config = text "archive" := by
  have nowhere : (config.routes.insertionSort fun a b => b.min ≤ a.min).find?
      (fun item => item.min ≤ score) = none :=
    find?_insertionSort_none.mpr fun route member => decide_eq_false (not_le.mpr (below route member))
  rw [routeFromScore, nowhere]

theorem routeFromScore_reorder
    (same : ∀ minimum, config.routes.filter (·.min = minimum) = other.routes.filter (·.min = minimum)) :
    routeFromScore score other = routeFromScore score config := by
  rcases selected_or_below config.routes score with ⟨route, selected⟩ | below
  · rw [routeFromScore_of_selected selected, routeFromScore_of_selected (selected.reorder same)]
  · rw [routeFromScore_of_below below]
    apply routeFromScore_of_below
    intro route member
    apply below
    have among : route ∈ config.routes.filter (·.min = route.min) := by
      rw [same]
      simp [member]
    exact List.mem_of_mem_filter among

/-- A higher score still reaches the entry, so what it selects has no lower minimum. -/
theorem Selected.of_le {higher : Int} (selected : Selected config.routes score route)
    (le : score ≤ higher) :
    ∃ above, Selected config.routes higher above ∧ route.min ≤ above.min := by
  obtain ⟨member, fits⟩ := selected.mem
  have reached : decide (route.min ≤ higher) = true := decide_eq_true ((of_decide_eq_true fits).trans le)
  obtain ⟨above, chosen⟩ : ∃ above, Selected config.routes higher above :=
    exists_firstGreatest member reached
  exact ⟨above, chosen, chosen.le route member reached⟩

/-- The route of a score: the name of the first-listed entry with the greatest minimum
that the score reaches, or `archive`. The order of entries with distinct minima does not
count, and a higher score selects no entry with a lower minimum. -/
theorem routeFromScore_greatest (score : Int) (config : ScoringConfig) :
    ((∃ route, Selected config.routes score route ∧ routeFromScore score config = route.name) ∨
      (∀ route ∈ config.routes, score < route.min) ∧ routeFromScore score config = text "archive") ∧
    (∀ other : ScoringConfig,
      (∀ minimum, config.routes.filter (·.min = minimum) = other.routes.filter (·.min = minimum)) →
        routeFromScore score other = routeFromScore score config) ∧
    (∀ other : ScoringConfig, config.routes.Perm other.routes → (config.routes.map Route.min).Nodup →
      routeFromScore score other = routeFromScore score config) ∧
    ∀ higher, score ≤ higher → ∀ route, Selected config.routes score route →
      ∃ above, Selected config.routes higher above ∧ routeFromScore higher config = above.name ∧
        route.min ≤ above.min := by
  refine ⟨?_, fun other same => routeFromScore_reorder same, ?_, ?_⟩
  · rcases selected_or_below config.routes score with ⟨route, selected⟩ | below
    · exact Or.inl ⟨route, selected, routeFromScore_of_selected selected⟩
    · exact Or.inr ⟨below, routeFromScore_of_below below⟩
  · intro other shuffled distinct
    exact routeFromScore_reorder fun minimum => filter_key_perm shuffled distinct
  · intro higher le route selected
    obtain ⟨above, chosen, atLeast⟩ := selected.of_le le
    exact ⟨above, chosen, routeFromScore_of_selected chosen, atLeast⟩

end N8nSystems.Leads
