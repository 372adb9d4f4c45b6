import Mathlib.Algebra.Order.Ring.Unbundled.Rat
import N8nSystems.FlakyApi.Counts

/-! The requests of the flaky API in the order in which they reach the store. Its answers
are those of a store used by one request after the other, but for the failures that a
request for a mode has asked for. -/

namespace N8nSystems.FlakyApi

open Lib Lib.Go

universe u

/-- The modes that `handleAdminMode` lets through. -/
structure RouteMode.Valid (mode : RouteMode) : Prop where
  errorRate : 0 ≤ mode.errorRate ∧ mode.errorRate ≤ 1
  latencyMS : 0 ≤ mode.latencyMS
  retryAfterS : 0 ≤ mode.retryAfterS
  status : mode.status = 0 ∨ 100 ≤ mode.status ∧ mode.status ≤ 599

/-- A response with which the mode makes a request fail. -/
def RouteMode.Fails (runtime : Runtime) (mode : RouteMode) (response : Response) : Prop :=
  (mode.authFail = true ∧ response = writeJSON 401 (.error (lit "unauthorized"))) ∨
    (0 < mode.errorRate ∨ mode.errorRate = 0 ∧ mode.status ≠ 0) ∧ response = failure runtime mode

/-- What a request gets that the mode makes fail. -/
def RouteMode.Injects (runtime : Runtime) (mode : RouteMode) (response : Response) : Prop :=
  ∃ written, mode.Fails runtime written ∧ response = written.sent

/-- The requests that reach the store, with what is drawn and what they are sent. -/
inductive Settled (Request : Type u) where
  | served (request : Request) (draw : Rat) (response : Response)
  | emptied (request : Request)

def Settled.request {Request : Type u} : Settled Request → Request
  | served request _ _ => request
  | emptied request => request

/-- What a request was sent, also before it is observed. -/
def Phase.answer : Phase → Option Response
  | .answered response | .finished response => some response.sent
  | _ => none

section
variable {Request : Type u} (runtime : Runtime) (calls : Request → Call)

def settled (pool : Pool Request Phase Server) (label : Request × Rat) : Option (Settled Request) :=
  match calls label.1, pool.phase label.1 with
  | .item call, .admitted mode =>
    if mode.authFail ∨ shouldFail mode label.2 then none
    else some (.served label.1 label.2 (call.handle runtime label.2 pool.shared.store).1.sent)
  | .reset, .metricsReset => some (.emptied label.1)
  | _, _ => none

open Classical in
/-- The store used by one request after the other. -/
noncomputable def perform (store : Store) : Settled Request → Option Store
  | .served request draw response =>
    match calls request with
    | .item call =>
      if (call.handle runtime draw store).1.sent = response then some (call.handle runtime draw store).2 else none
    | _ => none
  | .emptied request =>
    match calls request with
    | .reset => some .empty
    | _ => none

/-- A request has set the mode for the route. -/
def Asked (pool : Pool Request Phase Server) (route : Route) (mode : RouteMode) : Prop :=
  mode.Valid ∧ ∃ request, calls request = .mode (.ok ⟨.ok route, mode⟩) ∧
    pool.phase request = .finished (writeJSON 200 (.modeSet route))

/-- What one step does to the store and the modes and to the phase of its request, with what
settles in it. -/
inductive Move (before after : Pool Request Phase Server) (request : Request) : Option (Settled Request) → Prop
  | served (call : ItemCall) (mode : RouteMode) (draw : Rat) (asked : calls request = .item call)
    (phase : before.phase request = .admitted mode)
    (next : after.phase request = .answered (call.handle runtime draw before.shared.store).1)
    (store : after.shared.store = (call.handle runtime draw before.shared.store).2)
    (modes : after.shared.modes = before.shared.modes) :
    Move before after request (some (.served request draw (call.handle runtime draw before.shared.store).1.sent))
  | emptied (asked : calls request = .reset) (phase : before.phase request = .metricsReset)
    (next : after.phase request = .finished (writeJSON 200 .ok)) (store : after.shared.store = .empty)
    (modes : after.shared.modes = before.shared.modes) : Move before after request (some (.emptied request))
  | injected (call : ItemCall) (mode : RouteMode) (response : Response) (asked : calls request = .item call)
    (phase : before.phase request = .admitted mode) (next : after.phase request = .answered response)
    (fails : mode.Fails runtime response) (store : after.shared.store = before.shared.store)
    (modes : after.shared.modes = before.shared.modes) : Move before after request none
  | admitted (call : ItemCall) (asked : calls request = .item call) (phase : before.phase request = .counted)
    (next : after.phase request = .admitted ((before.shared.modes.get? call.route).getD .zero))
    (store : after.shared.store = before.shared.store) (modes : after.shared.modes = before.shared.modes) :
    Move before after request none
  | observed (call : ItemCall) (response : Response) (asked : calls request = .item call)
    (phase : before.phase request = .answered response) (next : after.phase request = .finished response)
    (store : after.shared.store = before.shared.store) (modes : after.shared.modes = before.shared.modes) :
    Move before after request none
  | moded (route : Route) (mode : RouteMode) (asked : calls request = .mode (.ok ⟨.ok route, mode⟩))
    (valid : mode.Valid) (phase : before.phase request = .waiting)
    (next : after.phase request = .finished (writeJSON 200 (.modeSet route)))
    (store : after.shared.store = before.shared.store)
    (modes : after.shared.modes = before.shared.modes.set route mode) : Move before after request none
  | silent (fresh : (before.phase request).answer = none)
    (item : ∀ call, calls request = .item call → after.phase request = .counted)
    (store : after.shared.store = before.shared.store)
    (modes : after.shared.modes = before.shared.modes ∨ after.shared.modes = .empty) :
    Move before after request none

end

section
variable {runtime : Runtime}

theorem handleAdminMode_cases (modes : GoMap Route RouteMode) (decoded : Except Bytes ModeRequest) :
    (∃ message, handleAdminMode modes decoded = (badRequest message, modes)) ∨
      ∃ route mode, decoded = .ok ⟨.ok route, mode⟩ ∧ mode.Valid ∧
        handleAdminMode modes decoded = (writeJSON 200 (.modeSet route), modes.set route mode) := by
  match decoded with
  | .error message => exact .inl ⟨_, rfl⟩
  | .ok ⟨.error message, mode⟩ => exact .inl ⟨_, rfl⟩
  | .ok ⟨.ok route, mode⟩ =>
    simp only [handleAdminMode]
    split
    · exact .inl ⟨_, rfl⟩
    rename_i rate
    split
    · exact .inl ⟨_, rfl⟩
    rename_i latency
    split
    · exact .inl ⟨_, rfl⟩
    rename_i retry
    split
    · exact .inl ⟨_, rfl⟩
    rename_i status
    obtain ⟨low, high⟩ := not_or.mp rate
    refine .inr ⟨route, mode, rfl, ⟨⟨not_lt.mp low, not_lt.mp high⟩, by omega, by omega, by omega⟩, rfl⟩

theorem fails_of_shouldFail {mode : RouteMode} {draw : Rat} (fails : shouldFail mode draw = true) :
    mode.Fails runtime (failure runtime mode) := by
  refine .inr ⟨?_, rfl⟩
  unfold shouldFail at fails
  split at fails
  · cases fails
  rename_i low
  split at fails
  · rename_i positive
    exact .inl positive
  · rename_i high
    exact .inr ⟨le_antisymm (not_lt.mp high) (not_lt.mp low), of_decide_eq_true fails⟩

/-- Without a mode no request is made to fail. -/
theorem not_fails_zero {response : Response} : ¬RouteMode.zero.Fails runtime response := by
  rintro (⟨fails, -⟩ | ⟨positive | ⟨-, status⟩, -⟩)
  · cases fails
  · exact lt_irrefl _ positive
  · exact status rfl

/-- A request that reaches its turn is made to fail by its mode, or the store serves it. -/
theorem withFaults_turn {call : ItemCall} {draw : Rat} {mode : RouteMode} {before after : Server} {phase : Phase}
    (taken : withFaults runtime call draw (.admitted mode) before = some (phase, after)) :
    ((mode.authFail ∨ shouldFail mode draw) ∧ after = before ∧
      ∃ response, phase = .answered response ∧ mode.Fails runtime response) ∨
    ¬(mode.authFail ∨ shouldFail mode draw) ∧ phase = .answered (call.handle runtime draw before.store).1 ∧
      after = { before with store := (call.handle runtime draw before.store).2 } := by
  simp only [withFaults] at taken
  split at taken
  · rename_i refused
    cases taken
    exact .inl ⟨.inl refused, rfl, _, rfl, .inl ⟨refused, rfl⟩⟩
  rename_i permitted
  split at taken
  · rename_i fails
    cases taken
    exact .inl ⟨.inr fails, rfl, _, rfl, fails_of_shouldFail fails⟩
  · rename_i passes
    cases taken
    exact .inr ⟨not_or.mpr ⟨permitted, passes⟩, rfl, rfl⟩

end

section
variable {Request : Type u} [DecidableEq Request] {runtime : Runtime} {calls : Request → Call}
  {before after : Pool Request Phase Server} {label : Request × Rat}

theorem step_move (taken : Pool.step (serve runtime calls) before label = some after) :
    Move runtime calls before after label.1 (settled runtime calls before label) := by
  have own := Pool.step_own _ taken
  obtain ⟨request, draw⟩ := label
  simp only [serve] at own
  simp only [settled]
  generalize next : after.phase request = phase' at own
  generalize shared : after.shared = server' at own
  cases asked : calls request with
  | item call =>
    rw [asked] at own
    cases phase : before.phase request with
    | waiting =>
      rw [phase] at own
      cases own
      exact .silent (by rw [phase]; rfl) (fun _ _ => next) (by rw [shared]) (.inl (by rw [shared]))
    | counted =>
      rw [phase] at own
      cases own
      exact .admitted call asked phase next (by rw [shared]) (by rw [shared])
    | admitted mode =>
      rw [phase] at own
      rcases withFaults_turn own with ⟨fails, same, response, answered, made⟩ | ⟨passes, answered, served⟩
      · dsimp only
        rw [if_pos fails]
        exact .injected call mode response asked phase (next.trans answered) made (by rw [shared, same])
          (by rw [shared, same])
      · dsimp only
        rw [if_neg passes]
        exact .served call mode draw asked phase (next.trans answered) (by rw [shared, served]) (by rw [shared, served])
    | answered response =>
      rw [phase] at own
      cases own
      exact .observed call response asked phase next (by rw [shared]) (by rw [shared])
    | modesReset | statsReset | metricsReset | finished =>
      rw [phase] at own
      cases own
  | mode decoded =>
    rw [asked] at own
    cases phase : before.phase request with
    | waiting =>
      rw [phase] at own
      rcases handleAdminMode_cases before.shared.modes decoded with ⟨message, refused⟩ |
        ⟨route, mode, rfl, valid, accepted⟩
      · simp only [refused, Option.some.injEq, Prod.mk.injEq] at own
        refine .silent (by rw [phase]; rfl) ?_ (by rw [shared, ← own.2]) (.inl (by rw [shared, ← own.2]))
        intro call same
        cases asked.symm.trans same
      · simp only [accepted, Option.some.injEq, Prod.mk.injEq] at own
        exact .moded route mode asked valid phase (next.trans own.1.symm) (by rw [shared, ← own.2])
          (by rw [shared, ← own.2])
    | counted | admitted | answered | modesReset | statsReset | metricsReset | finished =>
      rw [phase] at own
      cases own
  | reset =>
    have other : ∀ call, calls request ≠ .item call := by
      intro call same
      cases asked.symm.trans same
    rw [asked] at own
    cases phase : before.phase request with
    | metricsReset =>
      rw [phase] at own
      cases own
      exact .emptied asked phase next (by rw [shared]) (by rw [shared])
    | waiting =>
      rw [phase] at own
      cases own
      exact .silent (by rw [phase]; rfl) (fun call same => absurd same (other call)) (by rw [shared])
        (.inr (by rw [shared]))
    | modesReset | statsReset =>
      rw [phase] at own
      cases own
      exact .silent (by rw [phase]; rfl) (fun call same => absurd same (other call)) (by rw [shared])
        (.inl (by rw [shared]))
    | counted | admitted | answered | finished =>
      rw [phase] at own
      cases own

/-- A request that is answered keeps its answer. -/
theorem answer_step (taken : Pool.step (serve runtime calls) before label = some after) {request : Request}
    {response : Response} (answered : (before.phase request).answer = some response) :
    (after.phase request).answer = some response := by
  by_cases own : request = label.1
  · subst own
    have move := step_move taken
    generalize settled runtime calls before label = seen at move
    cases move with
    | served _ _ _ _ phase | emptied _ phase | injected _ _ _ _ phase | admitted _ _ phase | moded _ _ _ _ phase =>
      rw [phase] at answered
      cases answered
    | observed _ _ _ phase next =>
      rw [phase] at answered
      rw [next]
      exact answered
    | silent fresh => cases fresh.symm.trans answered
  · rw [Pool.step_other _ taken own]
    exact answered

theorem finished_step (taken : Pool.step (serve runtime calls) before label = some after) {request : Request}
    {response : Response} (finished : before.phase request = .finished response) :
    after.phase request = .finished response := by
  by_cases own : request = label.1
  · subst own
    have move := step_move taken
    generalize settled runtime calls before label = seen at move
    cases move with
    | served _ _ _ _ phase | emptied _ phase | injected _ _ _ _ phase | admitted _ _ phase | moded _ _ _ _ phase
      | observed _ _ _ phase => cases phase.symm.trans finished
    | silent fresh =>
      rw [finished] at fresh
      cases fresh
  · rw [Pool.step_other _ taken own]
    exact finished

theorem Asked.step {route : Route} {mode : RouteMode}
    (taken : Pool.step (serve runtime calls) before label = some after) (asked : Asked calls before route mode) :
    Asked calls after route mode := by
  obtain ⟨valid, request, set, finished⟩ := asked
  exact ⟨valid, request, set, finished_step taken finished⟩

/-- Every mode that holds, and every one that a request goes by, was asked for. -/
structure Moded (calls : Request → Call) (pool : Pool Request Phase Server) : Prop where
  modes : ∀ route mode, pool.shared.modes.get? route = some mode → Asked calls pool route mode
  admitted : ∀ request call mode, calls request = .item call → pool.phase request = .admitted mode →
    mode = .zero ∨ Asked calls pool call.route mode

theorem Moded.step (moded : Moded calls before)
    (taken : Pool.step (serve runtime calls) before label = some after) : Moded calls after := by
  have move := step_move taken
  generalize settled runtime calls before label = seen at move
  -- Only the request of the step gets another phase.
  have others : (∀ call mode, calls label.1 = .item call → after.phase label.1 = .admitted mode →
      mode = .zero ∨ Asked calls before call.route mode) →
        ∀ request call mode, calls request = .item call → after.phase request = .admitted mode →
          mode = .zero ∨ Asked calls after call.route mode := by
    intro own request call mode asked phase
    by_cases same : request = label.1
    · subst same
      exact (own call mode asked phase).imp_right (Asked.step taken)
    · rw [Pool.step_other _ taken same] at phase
      exact (moded.admitted request call mode asked phase).imp_right (Asked.step taken)
  have kept (same : after.shared.modes = before.shared.modes) (route : Route) (mode : RouteMode)
      (held : after.shared.modes.get? route = some mode) : Asked calls after route mode := by
    rw [same] at held
    exact (moded.modes route mode held).step taken
  have left {phase : Phase} (next : after.phase label.1 = phase) (gone : ∀ mode, phase ≠ .admitted mode)
      (call : ItemCall) (mode : RouteMode) (_ : calls label.1 = .item call)
      (still : after.phase label.1 = .admitted mode) : mode = .zero ∨ Asked calls before call.route mode :=
    absurd (next.symm.trans still) (gone mode)
  cases move with
  | served _ _ _ _ _ next _ modes | injected _ _ _ _ _ next _ _ modes | observed _ _ _ _ next _ modes
    | emptied _ _ next _ modes => exact ⟨kept modes, others (left next fun _ => Phase.noConfusion)⟩
  | admitted call asked phase next store modes =>
    refine ⟨kept modes, others ?_⟩
    intro other mode same still
    cases asked.symm.trans same
    cases next.symm.trans still
    cases held : before.shared.modes.get? call.route with
    | none => exact .inl rfl
    | some mode => exact .inr (moded.modes call.route mode held)
  | moded route mode asked valid phase next store modes =>
    refine ⟨?_, others (left next fun _ => Phase.noConfusion)⟩
    intro other held given
    rw [modes, GoMap.get?_set] at given
    split at given
    · rename_i same
      cases given
      exact ⟨valid, label.1, same ▸ asked, same ▸ next⟩
    · exact (moded.modes other held given).step taken
  | silent fresh item store modes =>
    refine ⟨?_, others ?_⟩
    · rcases modes with same | emptied
      · exact kept same
      · intro route mode held
        rw [emptied] at held
        cases held
    · intro call mode asked still
      cases (item call asked).symm.trans still

variable {start : Pool Request Phase Server} {history : List (Settled Request)}

/-- What has settled since the start accounts for the store and for the answers. -/
structure Explained (runtime : Runtime) (calls : Request → Call) (start : Pool Request Phase Server)
    (history : List (Settled Request)) (pool : Pool Request Phase Server) : Prop where
  store : run (perform runtime calls) start.shared.store history = some pool.shared.store
  once : (history.map Settled.request).Nodup
  fresh : ∀ event ∈ history, (start.phase event.request).answer = none
  ended : ∀ event ∈ history, (pool.phase event.request).answer ≠ none
  kept : ∀ request, (pool.phase request).answer = none → (start.phase request).answer = none
  answers : ∀ request call response, calls request = .item call → (pool.phase request).answer = some response →
    (start.phase request).answer = some response ∨ (∃ draw, .served request draw response ∈ history) ∨
      (∀ event ∈ history, event.request ≠ request) ∧
        ∃ mode, Asked calls pool call.route mode ∧ mode.Injects runtime response

omit [DecidableEq Request] in
theorem explained_start (start : Pool Request Phase Server) : Explained runtime calls start [] start where
  store := rfl
  once := List.nodup_nil
  fresh := by simp
  ended := by simp
  kept _ open_ := open_
  answers _ _ _ _ answered := .inl answered

theorem unanswered_step (taken : Pool.step (serve runtime calls) before label = some after) {request : Request}
    (open_ : (after.phase request).answer = none) : (before.phase request).answer = none := by
  cases answered : (before.phase request).answer with
  | none => rfl
  | some response => cases open_.symm.trans (answer_step taken answered)

theorem Explained.kept_step (explained : Explained runtime calls start history before)
    (taken : Pool.step (serve runtime calls) before label = some after) (request : Request)
    (open_ : (after.phase request).answer = none) : (start.phase request).answer = none :=
  explained.kept request (unanswered_step taken open_)

theorem Explained.ended_step (explained : Explained runtime calls start history before)
    (taken : Pool.step (serve runtime calls) before label = some after) :
    ∀ event ∈ history, (after.phase event.request).answer ≠ none :=
  fun event member open_ => explained.ended event member (unanswered_step taken open_)

/-- An answer that was there before the step is explained as it was. -/
theorem Explained.older (explained : Explained runtime calls start history before)
    (taken : Pool.step (serve runtime calls) before label = some after) {request : Request} {call : ItemCall}
    {response : Response} (asked : calls request = .item call)
    (answered : (before.phase request).answer = some response) :
    (start.phase request).answer = some response ∨ (∃ draw, .served request draw response ∈ history) ∨
      (∀ event ∈ history, event.request ≠ request) ∧
        ∃ mode, Asked calls after call.route mode ∧ mode.Injects runtime response := by
  refine (explained.answers request call response asked answered).imp_right (Or.imp_right ?_)
  rintro ⟨unserved, mode, given, injects⟩
  exact ⟨unserved, mode, given.step taken, injects⟩

/-- A step in which nothing settles, where it answers its request only with a failure. -/
theorem Explained.quiet (explained : Explained runtime calls start history before)
    (taken : Pool.step (serve runtime calls) before label = some after)
    (store : after.shared.store = before.shared.store)
    (answers : ∀ call response, calls label.1 = .item call → (after.phase label.1).answer = some response →
      (before.phase label.1).answer = some response ∨
        (before.phase label.1).answer = none ∧ ∃ mode, Asked calls before call.route mode ∧
          mode.Injects runtime response) :
    Explained runtime calls start history after where
  store := explained.store.trans (congrArg some store.symm)
  once := explained.once
  fresh := explained.fresh
  ended := explained.ended_step taken
  kept := explained.kept_step taken
  answers := by
    intro request call response asked answered
    by_cases own : request = label.1
    · subst own
      rcases answers call response asked answered with before | ⟨open_, mode, given, injects⟩
      · exact explained.older taken asked before
      · refine .inr (.inr ⟨?_, mode, given.step taken, injects⟩)
        intro event member same
        exact explained.ended event member (by rw [same]; exact open_)
    · rw [Pool.step_other _ taken own] at answered
      exact explained.older taken asked answered

/-- A step in which its request settles. -/
theorem Explained.settle (explained : Explained runtime calls start history before)
    (taken : Pool.step (serve runtime calls) before label = some after) {event : Settled Request}
    (own : event.request = label.1) (open_ : (before.phase label.1).answer = none)
    (store : perform runtime calls before.shared.store event = some after.shared.store)
    (ended : (after.phase label.1).answer ≠ none)
    (answers : ∀ call response, calls label.1 = .item call → (after.phase label.1).answer = some response →
      ∃ draw, event = .served label.1 draw response) :
    Explained runtime calls start (history ++ [event]) after where
  store := (run_concat_iff _).mpr ⟨_, explained.store, store⟩
  once := by
    rw [List.map_append, List.map_singleton]
    refine List.Nodup.append explained.once (List.nodup_singleton _) (List.disjoint_singleton.mpr ?_)
    intro member
    obtain ⟨other, listed, same⟩ := List.mem_map.mp member
    exact explained.ended other listed (by rw [same, own]; exact open_)
  fresh := by
    refine List.forall_mem_append.mpr ⟨explained.fresh, List.forall_mem_singleton.mpr ?_⟩
    rw [own]
    exact explained.kept _ open_
  ended := by
    refine List.forall_mem_append.mpr ⟨explained.ended_step taken, List.forall_mem_singleton.mpr ?_⟩
    rw [own]
    exact ended
  kept := explained.kept_step taken
  answers := by
    intro request call response asked answered
    by_cases moved : request = label.1
    · subst moved
      obtain ⟨draw, same⟩ := answers call response asked answered
      rw [same]
      exact .inr (.inl ⟨draw, by simp⟩)
    · rw [Pool.step_other _ taken moved] at answered
      refine (explained.older taken asked answered).imp_right (Or.imp (Exists.imp fun _ => List.mem_append_left _) ?_)
      rintro ⟨unserved, injected⟩
      refine ⟨List.forall_mem_append.mpr ⟨unserved, List.forall_mem_singleton.mpr ?_⟩, injected⟩
      rw [own]
      exact Ne.symm moved

theorem Explained.step (explained : Explained runtime calls start history before) (moded : Moded calls before)
    (taken : Pool.step (serve runtime calls) before label = some after) :
    Explained runtime calls start (history ++ (settled runtime calls before label).toList) after := by
  have move := step_move taken
  generalize settled runtime calls before label = seen at move
  cases move with
  | served call mode draw asked phase next store modes =>
    refine explained.settle taken rfl (by rw [phase]; rfl) ?_ (by rw [next]; exact Option.some_ne_none _) ?_
    · simp only [perform, asked, if_true, store]
    · intro other response _ answered
      rw [next] at answered
      cases answered
      exact ⟨draw, rfl⟩
  | emptied asked phase next store modes =>
    refine explained.settle taken rfl (by rw [phase]; rfl) ?_ (by rw [next]; exact Option.some_ne_none _) ?_
    · simp only [perform, asked, store]
    · intro call response other
      cases asked.symm.trans other
  | injected call mode response asked phase next fails store modes =>
    rw [Option.toList_none, List.append_nil]
    refine explained.quiet taken store ?_
    intro other given same answered
    cases asked.symm.trans same
    rw [next] at answered
    cases answered
    refine .inr ⟨by rw [phase]; rfl, mode, ?_, response, fails, rfl⟩
    refine (moded.admitted label.1 call mode asked phase).resolve_left ?_
    rintro rfl
    exact not_fails_zero fails
  | admitted call asked phase next store modes =>
    rw [Option.toList_none, List.append_nil]
    refine explained.quiet taken store ?_
    intro other given same answered
    rw [next] at answered
    cases answered
  | observed call response asked phase next store modes =>
    rw [Option.toList_none, List.append_nil]
    refine explained.quiet taken store ?_
    intro other given same answered
    rw [next] at answered
    rw [phase]
    exact .inl answered
  | moded route mode asked valid phase next store modes =>
    rw [Option.toList_none, List.append_nil]
    refine explained.quiet taken store ?_
    intro other given same
    cases asked.symm.trans same
  | silent fresh item store modes =>
    rw [Option.toList_none, List.append_nil]
    refine explained.quiet taken store ?_
    intro call given asked answered
    rw [item call asked] at answered
    cases answered

omit [DecidableEq Request] in
theorem moded_initial : Moded calls initial where
  modes _ _ held := by cases held
  admitted _ _ _ _ phase := by cases phase

/-- What settles in a part of a run, in order. -/
def settledIn (runtime : Runtime) (calls : Request → Call) (start : Pool Request Phase Server)
    (labels : List (Request × Rat)) : List (Settled Request) :=
  observe (Pool.step (serve runtime calls)) (settled runtime calls) start labels

theorem explained_of_run {labels : List (Request × Rat)} {final : Pool Request Phase Server} (moded : Moded calls start)
    (reached : run (Pool.step (serve runtime calls)) start labels = some final) :
    Moded calls final ∧ Explained runtime calls start (settledIn runtime calls start labels) final := by
  refine run_history (fun past pool => Moded calls pool ∧
    Explained runtime calls start (settledIn runtime calls start past) pool) ⟨moded, explained_start start⟩ ?_ reached
  rintro past before label after earlier ⟨moded, explained⟩ taken
  refine ⟨moded.step taken, ?_⟩
  rw [settledIn, observe_concat earlier]
  exact explained.step moded taken

/-- In any stretch of any run, the store goes through what settles there as a store would that
serves one request after the other, each at most once and between its arrival and its answer.
An item request that is answered in the stretch got the answer of that store, or else it never
reached it and got a failure of a valid mode that a request had set for its route. What a
request gets is what `net/http` sends of the response. -/
theorem answers_explained {labels more : List (Request × Rat)} {system later : Pool Request Phase Server}
    (reached : run (Pool.step (serve runtime calls)) initial labels = some system)
    (continued : run (Pool.step (serve runtime calls)) system more = some later) :
    run (perform runtime calls) system.shared.store (settledIn runtime calls system more) =
        some later.shared.store ∧
      ((settledIn runtime calls system more).map Settled.request).Nodup ∧
      (∀ event ∈ settledIn runtime calls system more,
        (system.phase event.request).answer = none ∧ (later.phase event.request).answer ≠ none) ∧
      ∀ request call response, calls request = .item call → (later.phase request).answer = some response →
        (system.phase request).answer = some response ∨
        (∃ draw, .served request draw response ∈ settledIn runtime calls system more) ∨
        (∀ event ∈ settledIn runtime calls system more, event.request ≠ request) ∧
          ∃ mode, Asked calls later call.route mode ∧ mode.Injects runtime response := by
  have moded := (explained_of_run moded_initial reached).1
  have explained := (explained_of_run moded continued).2
  exact ⟨explained.store, explained.once,
    fun event member => ⟨explained.fresh event member, explained.ended event member⟩, explained.answers⟩

end

/-- A request to list the items, and a request for a mode that refuses it. -/
def listAndMode : Bool → Call
  | false => .item .list
  | true => .mode (.ok ⟨.ok .getItems, ⟨0, 0, 0, 0, true⟩⟩)

/-- The list request is counted, the mode is set, and the list request goes by it. -/
def refused : List (Bool × Rat) :=
  [(false, 0), (true, 0), (false, 0), (false, 0), (false, 0)]

theorem answers_explained_refused : ∃ final : Pool Bool Phase Server,
    run (Pool.step (serve plainRuntime listAndMode)) initial refused = some final ∧
      (final.phase false).answer = some (writeJSON 401 (.error (lit "unauthorized"))) ∧
      settledIn plainRuntime listAndMode initial refused = [] ∧
      ∃ mode, Asked listAndMode final .getItems mode ∧
        mode.Injects plainRuntime (writeJSON 401 (.error (lit "unauthorized"))) := by
  have answered : (run (Pool.step (serve plainRuntime listAndMode)) initial refused).map
      (fun system => (system.phase false).answer) =
        some (some (writeJSON 401 (.error (lit "unauthorized")))) := rfl
  have none_settled : settledIn plainRuntime listAndMode initial refused = [] := rfl
  obtain ⟨final, reached, answer⟩ := Option.map_eq_some_iff.mp answered
  have start : run (Pool.step (serve plainRuntime listAndMode)) initial [] = some initial := rfl
  obtain ⟨-, -, -, answers⟩ := answers_explained start reached
  refine ⟨final, reached, answer, none_settled, ?_⟩
  rcases answers false .list _ rfl answer with early | ⟨_, served⟩ | ⟨-, injected⟩
  · cases early
  · rw [none_settled] at served
    cases served
  · exact injected

end N8nSystems.FlakyApi
