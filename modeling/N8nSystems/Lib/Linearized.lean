import N8nSystems.Lib.Run
import Mathlib.Data.List.Nodup

/-! A shared object under concurrent requests, and the same object used by one request after
the other. A run is linearized when every operation settles in one step, between the first
and the last step of its request, and what the operations answer is what they answer on the
sequential object in the order in which they settle. -/

namespace N8nSystems.Lib

universe u v w x

variable {System : Type u} {Label : Type v} {Object : Type w} {Event : Type x}

/-- Each step leaves the object alone or settles one operation that was open before. -/
structure Linearizes (step : System → Label → Option System) (perform : Object → Event → Option Object)
    (Valid : System → Prop) (image : System → Object) (Settled : System → Event → Prop) : Prop where
  valid : ∀ before label after, Valid before → step before label = some after → Valid after
  settles : ∀ before label after, Valid before → step before label = some after →
    (image after = image before ∧ ∀ event, Settled after event ↔ Settled before event) ∨
    ∃ event, perform (image before) event = some (image after) ∧ ¬ Settled before event ∧
      ∀ other, Settled after other ↔ Settled before other ∨ other = event

namespace Linearizes

variable {step : System → Label → Option System} {perform : Object → Event → Option Object}
  {Valid : System → Prop} {image : System → Object} {Settled : System → Event → Prop}

/-- What settles along a run is, in order, a run of the sequential object. -/
theorem run (linear : Linearizes step perform Valid image Settled) {start final : System}
    {labels : List Label} (valid : Valid start) (reached : Lib.run step start labels = some final) :
    ∃ events, Lib.run perform (image start) events = some (image final) ∧ events.Nodup ∧
      (∀ event ∈ events, ¬ Settled start event) ∧
      ∀ event, Settled final event ↔ Settled start event ∨ event ∈ events := by
  refine (run_invariant (fun system => Valid system ∧
    ∃ events, Lib.run perform (image start) events = some (image system) ∧ events.Nodup ∧
      (∀ event ∈ events, ¬ Settled start event) ∧
      ∀ event, Settled system event ↔ Settled start event ∨ event ∈ events)
    ⟨valid, [], rfl, List.nodup_nil, by simp, by simp⟩ ?_ reached).2
  intro before label after ⟨held, events, performed, distinct, fresh, settled⟩ taken
  refine ⟨linear.valid before label after held taken, ?_⟩
  rcases linear.settles before label after held taken with ⟨same, still⟩ | ⟨event, settles, unsettled, now⟩
  · refine ⟨events, same ▸ performed, distinct, fresh, ?_⟩
    intro event
    rw [still, settled]
  · rw [settled, not_or] at unsettled
    refine ⟨events ++ [event], (run_concat_iff perform).mpr ⟨_, performed, settles⟩, ?_, ?_, ?_⟩
    · exact List.Nodup.append distinct (List.nodup_singleton event)
        (List.disjoint_singleton.mpr unsettled.2)
    · exact List.forall_mem_append.mpr ⟨fresh, by simpa using unsettled.1⟩
    · intro other
      rw [now, settled, List.mem_append, List.mem_singleton, or_assoc]

end Linearizes

end N8nSystems.Lib
