import Mathlib.Data.List.Induction

/-! Finite runs of a system given by a partial step function. A label carries
every choice the environment makes, so a list of labels determines the run. -/

namespace N8nSystems.Lib

universe u v w

section Run

variable {State : Type u} {Label : Type v} (step : State → Label → Option State)

/-- Perform the labelled steps from left to right; a disabled step ends the run. -/
def run (state : State) : List Label → Option State
  | [] => some state
  | label :: rest => (step state label).bind fun next => run next rest

@[simp] theorem run_nil (state : State) : run step state [] = some state := rfl

theorem run_eq_foldlM (state : State) (labels : List Label) :
    run step state labels = labels.foldlM step state := by
  induction labels generalizing state with
  | nil => rfl
  | cons label rest ih => simp [run, List.foldlM_cons, ih]

theorem run_append (state : State) (first second : List Label) :
    run step state (first ++ second) =
      (run step state first).bind fun middle => run step middle second := by
  induction first generalizing state with
  | nil => rfl
  | cons label rest ih =>
    simp only [List.cons_append, run]
    cases step state label with
    | none => rfl
    | some next => simpa using ih next

theorem run_append_iff {state final : State} {first second : List Label} :
    run step state (first ++ second) = some final ↔
      ∃ middle, run step state first = some middle ∧ run step middle second = some final := by
  rw [run_append]
  exact Option.bind_eq_some_iff

theorem run_cons_iff {state final : State} {label : Label} {rest : List Label} :
    run step state (label :: rest) = some final ↔
      ∃ next, step state label = some next ∧ run step next rest = some final :=
  Option.bind_eq_some_iff

theorem run_concat_iff {state final : State} {labels : List Label} {label : Label} :
    run step state (labels ++ [label]) = some final ↔
      ∃ before, run step state labels = some before ∧ step before label = some final := by
  simp [run_append_iff, run_cons_iff]

variable {step}

/-- The history rule: a relation between the labels so far and the state holds
at the end of every run when it holds at the start and each step extends it. -/
theorem run_history {start final : State} {labels : List Label}
    (Holds : List Label → State → Prop) (initially : Holds [] start)
    (extended : ∀ past before label after, run step start past = some before →
      Holds past before → step before label = some after → Holds (past ++ [label]) after)
    (reached : run step start labels = some final) : Holds labels final := by
  induction labels using List.reverseRecOn generalizing final with
  | nil =>
    cases reached
    exact initially
  | append_singleton past label ih =>
    obtain ⟨before, earlier, last⟩ := (run_concat_iff step).mp reached
    exact extended past before label final earlier (ih earlier) last

/-- The invariant rule: what holds initially and is kept by every step holds
after every run. -/
theorem run_invariant {start final : State} {labels : List Label}
    (Invariant : State → Prop) (initially : Invariant start)
    (kept : ∀ before label after, Invariant before → step before label = some after →
      Invariant after)
    (reached : run step start labels = some final) : Invariant final :=
  run_history (fun _ state => Invariant state) initially
    (fun _ before label after _ holds taken => kept before label after holds taken) reached

/-- Every step of the run is allowed in the state it starts from. -/
def Along (step : State → Label → Option State) (Allowed : State → Label → Prop) (state : State) :
    List Label → Prop
  | [] => True
  | label :: rest =>
    Allowed state label ∧ ∀ next, step state label = some next → Along step Allowed next rest

theorem Along.cons {Allowed : State → Label → Prop} {state next : State} {label : Label}
    {rest : List Label} (allowed : Allowed state label) (taken : step state label = some next)
    (later : Along step Allowed next rest) : Along step Allowed state (label :: rest) := by
  refine ⟨allowed, ?_⟩
  intro other also
  cases taken.symm.trans also
  exact later

/-- The invariant rule for runs in which every step is allowed. -/
theorem run_invariant_along {Allowed : State → Label → Prop} {start final : State}
    {labels : List Label} (Invariant : State → Prop) (initially : Invariant start)
    (kept : ∀ before label after, Allowed before label → Invariant before →
      step before label = some after → Invariant after)
    (allowed : Along step Allowed start labels) (reached : run step start labels = some final) :
    Invariant final := by
  induction labels generalizing start with
  | nil =>
    cases reached
    exact initially
  | cons label rest ih =>
    obtain ⟨next, taken, later⟩ := (run_cons_iff step).mp reached
    exact ih (kept start label next allowed.1 initially taken) (allowed.2 next taken) later

theorem along_concat_iff {Allowed : State → Label → Prop} {state : State} {past : List Label}
    {label : Label} : Along step Allowed state (past ++ [label]) ↔ Along step Allowed state past ∧
      ∀ before, run step state past = some before → Allowed before label := by
  induction past generalizing state with
  | nil => simp [Along]
  | cons first rest ih =>
    simp only [List.cons_append, Along, ih, run_cons_iff]
    constructor
    · intro ⟨allowed, later⟩
      refine ⟨⟨allowed, fun next taken => (later next taken).1⟩, ?_⟩
      intro before ⟨next, taken, reached⟩
      exact (later next taken).2 before reached
    · intro ⟨⟨allowed, later⟩, last⟩
      exact ⟨allowed, fun next taken => ⟨later next taken, fun before reached =>
        last before ⟨next, taken, reached⟩⟩⟩

theorem Along.front {Allowed : State → Label → Prop} {state : State} {first second : List Label}
    (along : Along step Allowed state (first ++ second)) : Along step Allowed state first := by
  induction first generalizing state with
  | nil => trivial
  | cons label rest ih => exact ⟨along.1, fun next taken => ih (along.2 next taken)⟩

/-- The history rule for runs in which every step is allowed. -/
theorem run_history_along {Allowed : State → Label → Prop} {start final : State}
    {labels : List Label} (Holds : List Label → State → Prop) (initially : Holds [] start)
    (extended : ∀ past before label after, run step start past = some before → Allowed before label →
      Holds past before → step before label = some after → Holds (past ++ [label]) after)
    (allowed : Along step Allowed start labels) (reached : run step start labels = some final) :
    Holds labels final := by
  refine run_history (fun past state => Along step Allowed start past → Holds past state)
    (fun _ => initially) ?_ reached allowed
  intro past before label after earlier holds taken along
  obtain ⟨within, last⟩ := along_concat_iff.mp along
  exact extended past before label after earlier (last before earlier) (holds within) taken

/-- A reflexive and transitive relation respected by every step relates the two
ends of every run. -/
theorem run_relation {start final : State} {labels : List Label}
    (Related : State → State → Prop) (reflexive : ∀ state, Related state state)
    (transitive : ∀ a b c, Related a b → Related b c → Related a c)
    (kept : ∀ before label after, step before label = some after → Related before after)
    (reached : run step start labels = some final) : Related start final :=
  run_invariant (Related start) (reflexive start)
    (fun before label after earlier taken =>
      transitive start before after earlier (kept before label after taken)) reached

/-- What an observer records along a run: at most one item for each step. -/
def observe {Item : Type w} (step : State → Label → Option State)
    (item : State → Label → Option Item) (state : State) : List Label → List Item
  | [] => []
  | label :: rest =>
    (item state label).toList ++
      ((step state label).map fun next => observe step item next rest).getD []

theorem observe_concat {Item : Type w} {item : State → Label → Option Item}
    {state before : State} {labels : List Label} {label : Label}
    (reached : run step state labels = some before) :
    observe step item state (labels ++ [label]) =
      observe step item state labels ++ (item before label).toList := by
  induction labels generalizing state with
  | nil =>
    cases reached
    cases taken : step before label <;> simp [observe, taken]
  | cons first rest ih =>
    obtain ⟨next, taken, later⟩ := (run_cons_iff step).mp reached
    simp [observe, taken, ih later]

end Run

section Trace

variable {State : Type u} {State' : Type v} {Label : Type w} {Output : Type*}

/-- The answers of a total step function to a list of labels, each with the
state after it. -/
def trace (step : State → Label → Output × State) (state : State) :
    List Label → List (Output × State)
  | [] => []
  | label :: rest => step state label :: trace step (step state label).2 rest

/-- Every step of the trace is allowed in the state it starts from. -/
def Throughout (step : State → Label → Output × State) (Allowed : State → Label → Prop)
    (state : State) : List Label → Prop
  | [] => True
  | label :: rest => Allowed state label ∧ Throughout step Allowed (step state label).2 rest

theorem Throughout.of_forall {step : State → Label → Output × State}
    {Allowed : State → Label → Prop} (allowed : ∀ state label, Allowed state label) (state : State)
    (labels : List Label) : Throughout step Allowed state labels := by
  induction labels generalizing state with
  | nil => trivial
  | cons label rest ih => exact ⟨allowed state label, ih _⟩

/-- The simulation rule: a relation under which two allowed steps give the same
answer, and which they keep, relates the whole traces. -/
theorem trace_simulates_throughout {step : State → Label → Output × State}
    {step' : State' → Label → Output × State'} {Allowed : State → Label → Prop}
    {Allowed' : State' → Label → Prop} (Related : State → State' → Prop)
    (kept : ∀ state state' label, Related state state' → Allowed state label →
      Allowed' state' label → (step state label).1 = (step' state' label).1 ∧
        Related (step state label).2 (step' state' label).2)
    (initially : Related start start') (allowed : Throughout step Allowed start labels)
    (allowed' : Throughout step' Allowed' start' labels) :
    List.Forall₂ (fun one other => one.1 = other.1 ∧ Related one.2 other.2)
      (trace step start labels) (trace step' start' labels) := by
  induction labels generalizing start start' with
  | nil => exact .nil
  | cons label rest ih =>
    have both := kept start start' label initially allowed.1 allowed'.1
    exact .cons both (ih both.2 allowed.2 allowed'.2)

theorem trace_simulates {step : State → Label → Output × State}
    {step' : State' → Label → Output × State'} (Related : State → State' → Prop)
    (kept : ∀ state state' label, Related state state' →
      (step state label).1 = (step' state' label).1 ∧
        Related (step state label).2 (step' state' label).2)
    (initially : Related start start') (labels : List Label) :
    List.Forall₂ (fun one other => one.1 = other.1 ∧ Related one.2 other.2)
      (trace step start labels) (trace step' start' labels) :=
  trace_simulates_throughout Related
    (fun state state' label related (_ : True) (_ : True) => kept state state' label related) initially
    (.of_forall (fun _ _ => trivial) start labels) (.of_forall (fun _ _ => trivial) start' labels)

/-- What every step keeps of the state it starts from holds in every state of a trace. -/
theorem trace_invariant {step : State → Label → Output × State} (Invariant : State → Prop)
    (initially : Invariant start)
    (kept : ∀ state, ∀ label ∈ labels, Invariant state → Invariant (step state label).2) :
    ∀ answer ∈ trace step start labels, Invariant answer.2 := by
  induction labels generalizing start with
  | nil => simp [trace]
  | cons label rest ih =>
    have next := kept start label (by simp) initially
    intro answer member
    rcases List.mem_cons.mp member with rfl | later
    · exact next
    · exact ih next (fun state label later => kept state label (by simp [later])) answer later

end Trace

end N8nSystems.Lib
