import N8nSystems.Lib.Run
import Mathlib.Logic.Function.Basic

/-! Concurrent requests over one shared store. Each request is at a local phase;
a step moves one request and may change the store, and a run is any interleaving
of such steps. The set of requests is an arbitrary type with decidable equality. -/

namespace N8nSystems.Lib

universe u v w x

structure Pool (Request : Type u) (Phase : Type v) (Shared : Type w) where
  shared : Shared
  phase : Request → Phase

namespace Pool

variable {Request : Type u} {Phase : Type v} {Shared : Type w} {Choice : Type x}
variable [DecidableEq Request]
variable (act : Request → Choice → Phase → Shared → Option (Phase × Shared))

/-- One step of the request named by the label, with the environment's choice. -/
def step (pool : Pool Request Phase Shared) (label : Request × Choice) :
    Option (Pool Request Phase Shared) :=
  (act label.1 label.2 (pool.phase label.1) pool.shared).map fun out =>
    ⟨out.2, Function.update pool.phase label.1 out.1⟩

theorem step_iff {before after : Pool Request Phase Shared} {label : Request × Choice} :
    step act before label = some after ↔ ∃ phase shared,
      act label.1 label.2 (before.phase label.1) before.shared = some (phase, shared) ∧
        after = ⟨shared, Function.update before.phase label.1 phase⟩ := by
  rw [step, Option.map_eq_some_iff]
  constructor
  · rintro ⟨⟨phase, shared⟩, done, rfl⟩
    exact ⟨phase, shared, done, rfl⟩
  · rintro ⟨phase, shared, done, rfl⟩
    exact ⟨(phase, shared), done, rfl⟩

/-- Only the stepping request changes its phase. -/
theorem step_other {before after : Pool Request Phase Shared} {label : Request × Choice}
    {request : Request} (taken : step act before label = some after)
    (other : request ≠ label.1) : after.phase request = before.phase request := by
  obtain ⟨phase, shared, _, rfl⟩ := (step_iff act).mp taken
  simp [other]

theorem step_own {before after : Pool Request Phase Shared} {label : Request × Choice}
    (taken : step act before label = some after) :
    act label.1 label.2 (before.phase label.1) before.shared =
      some (after.phase label.1, after.shared) := by
  obtain ⟨phase, shared, done, rfl⟩ := (step_iff act).mp taken
  simpa using done

/-- Some step of the request in the history changed the shared store. -/
def Touched (start : Pool Request Phase Shared) (request : Request)
    (labels : List (Request × Choice)) : Prop :=
  ∃ past choice rest before after, labels = past ++ (request, choice) :: rest ∧
    run (step act) start past = some before ∧
    step act before (request, choice) = some after ∧ after.shared ≠ before.shared

variable {act}

theorem not_touched_nil (start : Pool Request Phase Shared) (request : Request) :
    ¬ Touched act start request [] := by
  rintro ⟨past, choice, rest, before, after, same, _⟩
  simp at same

theorem Touched.concat {start before after : Pool Request Phase Shared} {request : Request}
    {labels : List (Request × Choice)} {label : Request × Choice}
    (touched : Touched act start request (labels ++ [label]))
    (reached : run (step act) start labels = some before)
    (taken : step act before label = some after) :
    Touched act start request labels ∨ label.1 = request ∧ after.shared ≠ before.shared := by
  obtain ⟨past, choice, rest, middle, next, same, earlier, stepped, changed⟩ := touched
  rcases List.eq_nil_or_concat rest with rfl | ⟨init, last, rfl⟩
  · right
    obtain ⟨rfl, single⟩ := List.append_inj' same rfl
    obtain rfl : label = (request, choice) := by simpa using single
    obtain rfl : before = middle := Option.some.inj (reached.symm.trans earlier)
    obtain rfl : after = next := Option.some.inj (taken.symm.trans stepped)
    exact ⟨rfl, changed⟩
  · left
    have shape : labels ++ [label] = (past ++ (request, choice) :: init) ++ [last] := by
      simpa using same
    obtain ⟨rfl, _⟩ := List.append_inj' shape rfl
    exact ⟨past, choice, init, middle, next, rfl, earlier, stepped, changed⟩

/-- If every store-changing step leaves its request at a marked phase and marked
requests stay marked, a request that touched the store is marked. -/
theorem marked_of_touched {start final : Pool Request Phase Shared} {request : Request}
    {labels : List (Request × Choice)} (Mark : Phase → Prop)
    (writes : ∀ before label after, step act before label = some after →
      after.shared ≠ before.shared → Mark (after.phase label.1))
    (stays : ∀ before label after, step act before label = some after →
      Mark (before.phase label.1) → Mark (after.phase label.1))
    (reached : run (step act) start labels = some final)
    (touched : Touched act start request labels) : Mark (final.phase request) := by
  refine run_history
    (fun past pool => Touched act start request past → Mark (pool.phase request))
    (fun absurd => False.elim (not_touched_nil start request absurd)) ?_ reached touched
  intro past before label after earlier marked taken touchedNow
  rcases touchedNow.concat earlier taken with old | ⟨rfl, changed⟩
  · by_cases own : request = label.1
    · subst own
      exact stays before label after taken (marked old)
    · rw [step_other act taken own]
      exact marked old
  · exact writes before label after taken changed

end Pool

end N8nSystems.Lib
