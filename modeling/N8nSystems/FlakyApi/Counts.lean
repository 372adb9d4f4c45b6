import N8nSystems.FlakyApi.Server
import N8nSystems.Lib.History

/-! What the statistics and the metrics of the flaky API say of each other. A
request is counted into the one when it enters and into the other when it exits,
and a reset clears them one after the other, whatever requests run meanwhile. -/

namespace N8nSystems.FlakyApi

open Lib Lib.Go

universe u

/-- The steps that change a counter. -/
inductive Event (Request : Type u) where
  | entered (request : Request)
  | exited (request : Request)
  | statsCleared
  | metricsCleared

namespace Event

variable {Request : Type u}

def clearsStats : Event Request → Bool
  | statsCleared => true
  | _ => false

def clearsMetrics : Event Request → Bool
  | metricsCleared => true
  | _ => false

def enteredOne : Event Request → Option Request
  | entered request => some request
  | _ => none

def exitedOne : Event Request → Option Request
  | exited request => some request
  | _ => none

end Event

/-- Between the two counts of an item request. -/
def Phase.flying : Phase → Bool
  | .counted | .admitted _ | .answered _ => true
  | _ => false

section Observed

variable {Request : Type u} (calls : Request → Call)

def onRoute (route : Route) (request : Request) : Bool :=
  match calls request with
  | .item call => call.route = route
  | _ => false

def event (pool : Pool Request Phase Server) (label : Request × Rat) : Option (Event Request) :=
  match calls label.1, pool.phase label.1 with
  | .item _, .waiting => some (.entered label.1)
  | .item _, .answered _ => some (.exited label.1)
  | .reset, .modesReset => some .statsCleared
  | .reset, .statsReset => some .metricsCleared
  | _, _ => none

/-- The requests of the route that entered in this part of a run. -/
def enteredOn (route : Route) (events : List (Event Request)) : List Request :=
  (events.filterMap Event.enteredOne).filter (onRoute calls route)

/-- The requests of the route that exited in this part of a run. -/
def exitedOn (route : Route) (events : List (Event Request)) : List Request :=
  (events.filterMap Event.exitedOne).filter (onRoute calls route)

/-- What one step does to the counters and to the phase of its request, with the
event it is seen as. -/
inductive Effect (before after : Pool Request Phase Server) (request : Request) :
    Option (Event Request) → Prop
  | enter (call : ItemCall) (asked : calls request = .item call)
    (phase : before.phase request = .waiting) (next : after.phase request = .counted)
    (stats : after.shared.stats = before.shared.stats.bump call.route)
    (metrics : after.shared.metrics = before.shared.metrics) :
    Effect before after request (some (.entered request))
  | exit (call : ItemCall) (response : Response) (code : Bytes) (asked : calls request = .item call)
    (phase : before.phase request = .answered response) (next : after.phase request = .finished response)
    (stats : after.shared.stats = before.shared.stats)
    (metrics : after.shared.metrics = before.shared.metrics.bump ⟨call.route, code⟩) :
    Effect before after request (some (.exited request))
  | clearStats (asked : calls request = .reset) (phase : before.phase request = .modesReset)
    (next : after.phase request = .statsReset) (stats : after.shared.stats = .empty)
    (metrics : after.shared.metrics = before.shared.metrics) :
    Effect before after request (some .statsCleared)
  | clearMetrics (asked : calls request = .reset) (phase : before.phase request = .statsReset)
    (next : after.phase request = .metricsReset) (stats : after.shared.stats = before.shared.stats)
    (metrics : after.shared.metrics = .empty) :
    Effect before after request (some .metricsCleared)
  | silent (stats : after.shared.stats = before.shared.stats)
    (metrics : after.shared.metrics = before.shared.metrics)
    (item : ∀ call, calls request = .item call →
      (before.phase request).flying = true ∧ (after.phase request).flying = true)
    (reset : calls request = .reset →
      before.phase request ≠ .statsReset ∧ after.phase request ≠ .statsReset) :
    Effect before after request none

variable {calls}

theorem onRoute_item {call : ItemCall} {request : Request} (asked : calls request = .item call) (route : Route) :
    onRoute calls route request = decide (call.route = route) := by
  simp [onRoute, asked]

theorem enteredOn_concat (route : Route) (events : List (Event Request)) (event : Event Request) :
    enteredOn calls route (events ++ [event]) =
      enteredOn calls route events ++ event.enteredOne.toList.filter (onRoute calls route) := by
  cases event <;> simp [enteredOn, Event.enteredOne]

theorem exitedOn_concat (route : Route) (events : List (Event Request)) (event : Event Request) :
    exitedOn calls route (events ++ [event]) =
      exitedOn calls route events ++ event.exitedOne.toList.filter (onRoute calls route) := by
  cases event <;> simp [exitedOn, Event.exitedOne]

/-- What the events of a run say of the state at its end. -/
structure Told (calls : Request → Call) (events : List (Event Request))
    (pool : Pool Request Phase Server) : Prop where
  stats : ∀ route, pool.shared.stats.count route =
    UInt64.ofNat (enteredOn calls route (since Event.clearsStats events)).length
  metrics : ∀ route, pool.shared.metrics.total (fun key => decide (key.route = route)) =
    UInt64.ofNat (exitedOn calls route (since Event.clearsMetrics events)).length
  entered : ∀ route request, request ∈ enteredOn calls route events ↔
    onRoute calls route request = true ∧ pool.phase request ≠ .waiting
  exited : ∀ route request, request ∈ exitedOn calls route events ↔
    onRoute calls route request = true ∧ ∃ response, pool.phase request = .finished response
  enteredOnce : ∀ route, (enteredOn calls route events).Nodup
  exitedOnce : ∀ route, (exitedOn calls route events).Nodup

variable {before after : Pool Request Phase Server} {request : Request}

/-- The counters after one more step. -/
theorem told_counters (told : Told calls events before)
    (effect : Effect calls before after request seen) :
    (∀ route, after.shared.stats.count route = UInt64.ofNat
      (enteredOn calls route (since Event.clearsStats (events ++ seen.toList))).length) ∧
    ∀ route, after.shared.metrics.total (fun key => decide (key.route = route)) = UInt64.ofNat
      (exitedOn calls route (since Event.clearsMetrics (events ++ seen.toList))).length := by
  cases effect with
  | enter call asked phase next stats metrics =>
    rw [Option.toList_some, since_unmarked rfl, since_unmarked rfl, stats, metrics]
    constructor
    · intro route
      rw [enteredOn_concat, GoMap.count_bump, told.stats]
      by_cases same : call.route = route
      · simp [Event.enteredOne, onRoute_item asked, same]
      · simp [Event.enteredOne, onRoute_item asked, same, Ne.symm same]
    · intro route
      rw [exitedOn_concat, told.metrics]
      simp [Event.exitedOne]
  | exit call response code asked phase next stats metrics =>
    rw [Option.toList_some, since_unmarked rfl, since_unmarked rfl, stats, metrics]
    constructor
    · intro route
      rw [enteredOn_concat, told.stats]
      simp [Event.enteredOne]
    · intro route
      rw [exitedOn_concat, GoMap.total_bump, told.metrics]
      by_cases same : call.route = route
      · simp [Event.exitedOne, onRoute_item asked, same]
      · simp [Event.exitedOne, onRoute_item asked, same]
  | clearStats asked phase next stats metrics =>
    rw [Option.toList_some, since_marked rfl, since_unmarked rfl, stats, metrics]
    refine ⟨fun route => rfl, fun route => ?_⟩
    rw [exitedOn_concat, told.metrics]
    simp [Event.exitedOne]
  | clearMetrics asked phase next stats metrics =>
    rw [Option.toList_some, since_unmarked rfl, since_marked rfl, stats, metrics]
    refine ⟨fun route => ?_, fun route => rfl⟩
    rw [enteredOn_concat, told.stats]
    simp [Event.enteredOne]
  | silent stats metrics item reset =>
    rw [Option.toList_none, List.append_nil, stats, metrics]
    exact ⟨told.stats, told.metrics⟩

theorem mem_enteredOn_seen {route : Route} {events : List (Event Request)}
    {seen : Option (Event Request)} {other : Request} :
    other ∈ enteredOn calls route (events ++ seen.toList) ↔ other ∈ enteredOn calls route events ∨
      onRoute calls route other = true ∧ seen = some (.entered other) := by
  cases seen with
  | none => simp
  | some event =>
    rw [Option.toList_some, enteredOn_concat, List.mem_append]
    cases event with
    | entered first =>
      simp only [Event.enteredOne, Option.toList_some, List.mem_filter, List.mem_singleton,
        Option.some.injEq, Event.entered.injEq]
      rw [and_comm, eq_comm (a := other)]
    | exited | statsCleared | metricsCleared => simp [Event.enteredOne]

theorem mem_exitedOn_seen {route : Route} {events : List (Event Request)}
    {seen : Option (Event Request)} {other : Request} :
    other ∈ exitedOn calls route (events ++ seen.toList) ↔ other ∈ exitedOn calls route events ∨
      onRoute calls route other = true ∧ seen = some (.exited other) := by
  cases seen with
  | none => simp
  | some event =>
    rw [Option.toList_some, exitedOn_concat, List.mem_append]
    cases event with
    | exited first =>
      simp only [Event.exitedOne, Option.toList_some, List.mem_filter, List.mem_singleton,
        Option.some.injEq, Event.exited.injEq]
      rw [and_comm, eq_comm (a := other)]
    | entered | statsCleared | metricsCleared => simp [Event.exitedOne]

theorem onRoute_iff {route : Route} :
    onRoute calls route request = true ↔ ∃ call, calls request = .item call ∧ call.route = route := by
  unfold onRoute
  cases calls request <;> simp

/-- An item request has left the waiting phase when it has been seen to enter. -/
theorem effect_entered {other : Request} {route : Route} (effect : Effect calls before after request seen)
    (item : onRoute calls route other = true)
    (others : ∀ other, other ≠ request → after.phase other = before.phase other) :
    after.phase other ≠ .waiting ↔ before.phase other ≠ .waiting ∨ seen = some (.entered other) := by
  obtain ⟨call, asked, _⟩ := onRoute_iff.mp item
  by_cases own : other = request
  · subst own
    cases effect with
    | enter _ _ phase next => simp [phase, next]
    | exit _ _ _ _ phase next => simp [phase, next]
    | clearStats reset => cases asked.symm.trans reset
    | clearMetrics reset => cases asked.symm.trans reset
    | silent _ _ flying _ =>
      obtain ⟨here, there⟩ := flying call asked
      refine iff_of_true ?_ (.inl ?_)
      · intro waiting
        rw [waiting] at there
        cases there
      · intro waiting
        rw [waiting] at here
        cases here
  · rw [others other own]
    have unseen : seen ≠ some (.entered other) := by
      intro same
      rw [same] at effect
      cases effect
      exact own rfl
    simp [unseen]

/-- An item request is finished when it has been seen to exit. -/
theorem effect_exited {other : Request} {route : Route} (effect : Effect calls before after request seen)
    (item : onRoute calls route other = true)
    (others : ∀ other, other ≠ request → after.phase other = before.phase other) :
    (∃ response, after.phase other = .finished response) ↔
      (∃ response, before.phase other = .finished response) ∨ seen = some (.exited other) := by
  obtain ⟨call, asked, _⟩ := onRoute_iff.mp item
  by_cases own : other = request
  · subst own
    cases effect with
    | enter _ _ phase next => simp [phase, next]
    | exit _ _ _ _ phase next => simp [phase, next]
    | clearStats reset => cases asked.symm.trans reset
    | clearMetrics reset => cases asked.symm.trans reset
    | silent _ _ flying _ =>
      obtain ⟨here, there⟩ := flying call asked
      refine iff_of_false ?_ ?_
      · intro ⟨response, finished⟩
        rw [finished] at there
        cases there
      · intro ended
        rcases ended with ⟨response, finished⟩ | exited
        · rw [finished] at here
          cases here
        · cases exited
  · rw [others other own]
    have unseen : seen ≠ some (.exited other) := by
      intro same
      rw [same] at effect
      cases effect
      exact own rfl
    simp [unseen]

/-- The events tell of the state after one more step. -/
theorem told_step (told : Told calls events before) (effect : Effect calls before after request seen)
    (others : ∀ other, other ≠ request → after.phase other = before.phase other) :
    Told calls (events ++ seen.toList) after := by
  obtain ⟨stats, metrics⟩ := told_counters told effect
  refine ⟨stats, metrics, ?_, ?_, ?_, ?_⟩
  · intro route other
    rw [mem_enteredOn_seen, told.entered, ← and_or_left]
    exact and_congr_right fun item => (effect_entered effect item others).symm
  · intro route other
    rw [mem_exitedOn_seen, told.exited, ← and_or_left]
    exact and_congr_right fun item => (effect_exited effect item others).symm
  · intro route
    cases effect with
    | enter call asked phase next =>
      rw [Option.toList_some, enteredOn_concat]
      refine (told.enteredOnce route).append ((List.nodup_singleton request).filter _) ?_
      intro other earlier now
      obtain rfl := List.mem_singleton.mp (List.mem_of_mem_filter now)
      exact ((told.entered route other).mp earlier).2 phase
    | exit | clearStats | clearMetrics =>
      rw [Option.toList_some, enteredOn_concat]
      simpa [Event.enteredOne] using told.enteredOnce route
    | silent => simpa using told.enteredOnce route
  · intro route
    cases effect with
    | exit call response code asked phase next =>
      rw [Option.toList_some, exitedOn_concat]
      refine (told.exitedOnce route).append ((List.nodup_singleton request).filter _) ?_
      intro other earlier now
      obtain rfl := List.mem_singleton.mp (List.mem_of_mem_filter now)
      obtain ⟨_, ended, finished⟩ := (told.exited route other).mp earlier
      cases phase.symm.trans finished
    | enter | clearStats | clearMetrics =>
      rw [Option.toList_some, exitedOn_concat]
      simpa [Event.exitedOne] using told.exitedOnce route
    | silent => simpa using told.exitedOnce route

/-- A reset clears the statistics with no item request between its two counts, and
no item request enters before that reset has cleared the metrics. -/
def Quiet (calls : Request → Call) (pool : Pool Request Phase Server) (label : Request × Rat) : Prop :=
  (calls label.1 = .reset → pool.phase label.1 = .modesReset →
    ∀ request call, calls request = .item call → (pool.phase request).flying = false) ∧
  (∀ call, calls label.1 = .item call → pool.phase label.1 = .waiting →
    ∀ request, calls request = .reset → pool.phase request ≠ .statsReset)

/-- The two counts of a quiet run: they are of the same requests, but for those in
flight, except while a reset is between the two. -/
structure Aligned (calls : Request → Call) (events : List (Event Request))
    (pool : Pool Request Phase Server) : Prop where
  clearing : ∀ reset, calls reset = .reset → pool.phase reset = .statsReset →
    (∀ route, enteredOn calls route (since Event.clearsStats events) = []) ∧
      ∀ request call, calls request = .item call → (pool.phase request).flying = false
  aligned : (∀ reset, calls reset = .reset → pool.phase reset ≠ .statsReset) → ∀ route request,
    request ∈ enteredOn calls route (since Event.clearsStats events) ↔
      request ∈ exitedOn calls route (since Event.clearsMetrics events) ∨
        onRoute calls route request = true ∧ (pool.phase request).flying = true

/-- A step of an item request leaves the resets where they are. -/
theorem quiet_of_item (asked : calls request = .item call)
    (others : ∀ other, other ≠ request → after.phase other = before.phase other)
    (quiet : ∀ reset, calls reset = .reset → before.phase reset ≠ .statsReset) :
    ∀ reset, calls reset = .reset → after.phase reset ≠ .statsReset := by
  intro reset called
  have away : reset ≠ request := by
    intro same
    rw [same, asked] at called
    cases called
  rw [others reset away]
  exact quiet reset called

theorem aligned_enter (aligned : Aligned calls events before) (asked : calls request = .item call)
    (quiet : ∀ reset, calls reset = .reset → before.phase reset ≠ .statsReset)
    (phase : before.phase request = .waiting) (next : after.phase request = .counted)
    (others : ∀ other, other ≠ request → after.phase other = before.phase other) :
    Aligned calls (events ++ [.entered request]) after := by
  constructor
  · intro reset called clearing
    exact absurd clearing (quiet_of_item asked others quiet reset called)
  · intro _ route other
    have earlier := aligned.aligned quiet route other
    rw [since_unmarked rfl, since_unmarked rfl]
    rw [show [Event.entered request] = (some (Event.entered request)).toList from rfl,
      mem_enteredOn_seen, mem_exitedOn_seen, earlier]
    by_cases own : other = request
    · subst own
      simp [phase, next, Phase.flying]
    · simp [others other own, Ne.symm own]

theorem aligned_exit (aligned : Aligned calls events before) (asked : calls request = .item call)
    (phase : before.phase request = .answered response) (next : after.phase request = .finished response)
    (others : ∀ other, other ≠ request → after.phase other = before.phase other) :
    Aligned calls (events ++ [.exited request]) after := by
  have flying : (before.phase request).flying = true := by
    rw [phase]
    rfl
  have quiet : ∀ reset, calls reset = .reset → before.phase reset ≠ .statsReset := by
    intro reset called clearing
    have landed := (aligned.clearing reset called clearing).2 request call asked
    rw [flying] at landed
    cases landed
  constructor
  · intro reset called clearing
    exact absurd clearing (quiet_of_item asked others quiet reset called)
  · intro _ route other
    have earlier := aligned.aligned quiet route other
    rw [since_unmarked rfl, since_unmarked rfl]
    rw [show [Event.exited request] = (some (Event.exited request)).toList from rfl,
      mem_enteredOn_seen, mem_exitedOn_seen, earlier]
    by_cases own : other = request
    · subst own
      simp [phase, next, Phase.flying]
    · simp [others other own, Ne.symm own]

/-- A step of a reset request leaves the item requests where they are. -/
theorem landed_of_reset (asked : calls request = .reset)
    (others : ∀ other, other ≠ request → after.phase other = before.phase other)
    (landed : ∀ other call, calls other = .item call → (before.phase other).flying = false) :
    ∀ other call, calls other = .item call → (after.phase other).flying = false := by
  intro other call item
  have away : other ≠ request := by
    intro same
    rw [same, asked] at item
    cases item
  rw [others other away]
  exact landed other call item

theorem aligned_clearStats (asked : calls request = .reset) (next : after.phase request = .statsReset)
    (others : ∀ other, other ≠ request → after.phase other = before.phase other)
    (landed : ∀ other call, calls other = .item call → (before.phase other).flying = false) :
    Aligned calls (events ++ [.statsCleared]) after := by
  constructor
  · intro reset called clearing
    refine ⟨fun route => ?_, landed_of_reset asked others landed⟩
    rw [since_marked rfl]
    rfl
  · intro none
    exact absurd next (none request asked)

theorem aligned_clearMetrics (aligned : Aligned calls events before) (asked : calls request = .reset)
    (phase : before.phase request = .statsReset)
    (others : ∀ other, other ≠ request → after.phase other = before.phase other) :
    Aligned calls (events ++ [.metricsCleared]) after := by
  obtain ⟨empty, still⟩ := aligned.clearing request asked phase
  have landed := landed_of_reset asked others still
  have cleared : ∀ route, enteredOn calls route
      (since Event.clearsStats (events ++ [.metricsCleared])) = [] := by
    intro route
    rw [since_unmarked rfl, enteredOn_concat, empty]
    rfl
  constructor
  · intro _ _ _
    exact ⟨cleared, landed⟩
  · intro _ route other
    rw [cleared, since_marked rfl]
    constructor
    · intro member
      cases member
    · intro either
      rcases either with member | ⟨item, flying⟩
      · cases member
      · obtain ⟨call, called, _⟩ := onRoute_iff.mp item
        rw [landed other call called] at flying
        cases flying

theorem aligned_silent (aligned : Aligned calls events before)
    (item : ∀ call, calls request = .item call →
      (before.phase request).flying = true ∧ (after.phase request).flying = true)
    (reset : calls request = .reset →
      before.phase request ≠ .statsReset ∧ after.phase request ≠ .statsReset)
    (others : ∀ other, other ≠ request → after.phase other = before.phase other) :
    Aligned calls events after := by
  have flying : ∀ other call, calls other = .item call →
      (after.phase other).flying = (before.phase other).flying := by
    intro other call called
    by_cases own : other = request
    · subst own
      obtain ⟨here, there⟩ := item call called
      rw [here, there]
    · rw [others other own]
  have clearing : ∀ other, calls other = .reset →
      (after.phase other = .statsReset ↔ before.phase other = .statsReset) := by
    intro other called
    by_cases own : other = request
    · subst own
      obtain ⟨here, there⟩ := reset called
      exact iff_of_false there here
    · rw [others other own]
  constructor
  · intro other called now
    obtain ⟨cleared, landed⟩ := aligned.clearing other called ((clearing other called).mp now)
    exact ⟨cleared, fun another call item => (flying another call item).trans (landed another call item)⟩
  · intro none route other
    rw [aligned.aligned (fun reset called now => none reset called ((clearing reset called).mpr now))]
    refine or_congr_right (and_congr_right fun onIt => ?_)
    obtain ⟨call, called, _⟩ := onRoute_iff.mp onIt
    rw [flying other call called]

theorem aligned_step (aligned : Aligned calls events before) (quiet : Quiet calls before (request, draw))
    (effect : Effect calls before after request seen)
    (others : ∀ other, other ≠ request → after.phase other = before.phase other) :
    Aligned calls (events ++ seen.toList) after := by
  cases effect with
  | enter call asked phase next =>
    exact aligned_enter aligned asked (quiet.2 call asked phase) phase next others
  | exit call response code asked phase next =>
    exact aligned_exit aligned asked phase next others
  | clearStats asked phase next =>
    exact aligned_clearStats asked next others (quiet.1 asked phase)
  | clearMetrics asked phase =>
    exact aligned_clearMetrics aligned asked phase others
  | silent stats metrics item reset =>
    rw [Option.toList_none, List.append_nil]
    exact aligned_silent aligned item reset others

/-- No request is in flight: each has not begun or has ended. -/
def Quiescent (pool : Pool Request Phase Server) : Prop :=
  ∀ request, pool.phase request = .waiting ∨ ∃ response, pool.phase request = .finished response

theorem enteredOn_parts (calls : Request → Call) (route : Route) (events : List (Event Request)) :
    enteredOn calls route (upTo Event.clearsStats events) ++
      enteredOn calls route (since Event.clearsStats events) = enteredOn calls route events := by
  rw [enteredOn, enteredOn, ← List.filter_append, ← List.filterMap_append, upTo_append_since]
  rfl

theorem exitedOn_parts (calls : Request → Call) (route : Route) (events : List (Event Request)) :
    exitedOn calls route (upTo Event.clearsMetrics events) ++
      exitedOn calls route (since Event.clearsMetrics events) = exitedOn calls route events := by
  rw [exitedOn, exitedOn, ← List.filter_append, ← List.filterMap_append, upTo_append_since]
  rfl

/-- With no request in flight, those that entered are those that exited. -/
theorem Told.same (told : Told calls events pool) (quiescent : Quiescent pool) (route : Route)
    (request : Request) : request ∈ enteredOn calls route events ↔ request ∈ exitedOn calls route events := by
  rw [told.entered, told.exited]
  refine and_congr_right fun _ => ?_
  rcases quiescent request with waiting | ⟨response, finished⟩
  · simp [waiting]
  · simp [finished]

end Observed

variable {Request : Type u} [DecidableEq Request] {runtime : Runtime} {calls : Request → Call}
variable {before after : Pool Request Phase Server} {label : Request × Rat}

/-- An answer changes no counter. -/
theorem withFaults_admitted {server : Server} {out : Phase × Server}
    (taken : withFaults runtime call draw (.admitted mode) server = some out) :
    out.1.flying = true ∧ out.2.stats = server.stats ∧ out.2.metrics = server.metrics := by
  simp only [withFaults] at taken
  split at taken
  · cases taken
    exact ⟨rfl, rfl, rfl⟩
  · split at taken
    · cases taken
      exact ⟨rfl, rfl, rfl⟩
    · cases taken
      exact ⟨rfl, rfl, rfl⟩

theorem step_effect (taken : Pool.step (serve runtime calls) before label = some after) :
    Effect calls before after label.1 (event calls before label) := by
  have own := Pool.step_own _ taken
  obtain ⟨request, draw⟩ := label
  simp only [serve] at own
  simp only [event]
  generalize next : after.phase request = phase' at own
  generalize shared : after.shared = server' at own
  cases asked : calls request with
  | item call =>
    have other : calls request ≠ .reset := by
      rw [asked]
      intro same
      cases same
    rw [asked] at own
    cases phase : before.phase request with
    | waiting =>
      rw [phase] at own
      cases own
      exact .enter call asked phase next (by rw [shared]) (by rw [shared])
    | counted =>
      rw [phase] at own
      cases own
      exact .silent (by rw [shared]) (by rw [shared])
        (fun _ _ => ⟨by rw [phase]; rfl, by rw [next]; rfl⟩) fun reset => absurd reset other
    | admitted mode =>
      rw [phase] at own
      obtain ⟨flying, stats, metrics⟩ := withFaults_admitted own
      exact .silent (by rw [shared, stats]) (by rw [shared, metrics])
        (fun _ _ => ⟨by rw [phase]; rfl, by rw [next]; exact flying⟩) fun reset => absurd reset other
    | answered response =>
      rw [phase] at own
      cases own
      exact .exit call response _ asked phase next (by rw [shared]) (by rw [shared])
    | modesReset | statsReset | metricsReset | finished =>
      rw [phase] at own
      cases own
  | mode decoded =>
    rw [asked] at own
    cases phase : before.phase request with
    | waiting =>
      rw [phase] at own
      cases own
      refine .silent (by rw [shared]) (by rw [shared]) ?_ ?_
      · intro call same
        rw [asked] at same
        cases same
      · intro same
        rw [asked] at same
        cases same
    | counted | admitted | answered | modesReset | statsReset | metricsReset | finished =>
      rw [phase] at own
      cases own
  | reset =>
    have other : ∀ call, calls request ≠ .item call := by
      intro call same
      rw [asked] at same
      cases same
    rw [asked] at own
    cases phase : before.phase request with
    | waiting | metricsReset =>
      rw [phase] at own
      cases own
      refine .silent (by rw [shared]) (by rw [shared]) (fun call same => absurd same (other call)) ?_
      intro _
      rw [phase, next]
      exact ⟨Phase.noConfusion, Phase.noConfusion⟩
    | modesReset =>
      rw [phase] at own
      cases own
      exact .clearStats asked phase next (by rw [shared]) (by rw [shared])
    | statsReset =>
      rw [phase] at own
      cases own
      exact .clearMetrics asked phase next (by rw [shared]) (by rw [shared])
    | counted | admitted | answered | finished =>
      rw [phase] at own
      cases own

section History

/-- The counted steps of a run. -/
def eventsOf (runtime : Runtime) (calls : Request → Call) (start : Pool Request Phase Server)
    (labels : List (Request × Rat)) : List (Event Request) :=
  observe (Pool.step (serve runtime calls)) (event calls) start labels

/-- No request has done anything yet. -/
def initial : Pool Request Phase Server := ⟨newServer, fun _ => .waiting⟩

theorem told_of_run (reached : run (Pool.step (serve runtime calls)) initial labels = some final) :
    Told calls (eventsOf runtime calls initial labels) final := by
  refine run_history (fun past pool => Told calls (eventsOf runtime calls initial past) pool) ?_ ?_ reached
  · exact ⟨fun _ => rfl, fun _ => rfl, by simp [eventsOf, observe, enteredOn, initial],
      by simp [eventsOf, observe, exitedOn, initial], fun _ => List.nodup_nil, fun _ => List.nodup_nil⟩
  · intro past before label after earlier told taken
    rw [eventsOf, observe_concat earlier]
    exact told_step told (step_effect taken) fun other away => Pool.step_other _ taken away

theorem aligned_of_run (quiet : Along (Pool.step (serve runtime calls)) (Quiet calls) initial labels)
    (reached : run (Pool.step (serve runtime calls)) initial labels = some final) :
    Aligned calls (eventsOf runtime calls initial labels) final := by
  refine run_history_along (fun past pool => Aligned calls (eventsOf runtime calls initial past) pool)
    ?_ ?_ quiet reached
  · constructor
    · intro reset _ clearing
      cases clearing
    · intro _ route request
      simp [eventsOf, observe, since, enteredOn, exitedOn, initial, Phase.flying]
  · intro past before label after earlier allowed aligned taken
    rw [eventsOf, observe_concat earlier]
    exact aligned_step aligned allowed (step_effect taken) fun other away => Pool.step_other _ taken away

/-- Counted into the metrics since these were last cleared, but into the statistics
before those were. -/
def missedByStats (calls : Request → Call) (route : Route) (events : List (Event Request)) :
    List Request :=
  (exitedOn calls route (since Event.clearsMetrics events)).filter
    (· ∈ enteredOn calls route (upTo Event.clearsStats events))

/-- Counted into the statistics since these were last cleared, but into the metrics
before those were. -/
def missedByMetrics (calls : Request → Call) (route : Route) (events : List (Event Request)) :
    List Request :=
  (enteredOn calls route (since Event.clearsStats events)).filter
    (· ∈ exitedOn calls route (upTo Event.clearsMetrics events))

/-- The statistics and the metrics of a route with no request in flight, after any
run: they differ by the requests that a reset took from one of them only, and they
are equal after a run whose resets are quiet. -/
theorem counts_agree (route : Route)
    (reached : run (Pool.step (serve runtime calls)) initial labels = some final)
    (quiescent : Quiescent final) :
    (final.shared.stats.count route +
        UInt64.ofNat (missedByStats calls route (eventsOf runtime calls initial labels)).length =
      final.shared.metrics.total (fun key => decide (key.route = route)) +
        UInt64.ofNat (missedByMetrics calls route (eventsOf runtime calls initial labels)).length) ∧
    (Along (Pool.step (serve runtime calls)) (Quiet calls) initial labels →
      final.shared.stats.count route =
        final.shared.metrics.total (fun key => decide (key.route = route))) := by
  have told := told_of_run reached
  have once := told.enteredOnce route
  have once' := told.exitedOnce route
  rw [← enteredOn_parts] at once
  rw [← exitedOn_parts] at once'
  constructor
  · have crossed := length_crossed once once' (by
      intro request
      rw [enteredOn_parts, exitedOn_parts]
      exact told.same quiescent route request)
    rw [told.stats, told.metrics, ← UInt64.ofNat_add, ← UInt64.ofNat_add]
    exact congrArg UInt64.ofNat crossed
  · intro quiet
    have idle : ∀ reset, calls reset = .reset → final.phase reset ≠ .statsReset := by
      intro reset _ clearing
      rcases quiescent reset with waiting | ⟨response, finished⟩
      · cases waiting.symm.trans clearing
      · cases finished.symm.trans clearing
    have landed : ∀ request, (final.phase request).flying = false := by
      intro request
      rcases quiescent request with waiting | ⟨response, finished⟩
      · rw [waiting]
        rfl
      · rw [finished]
        rfl
    have same : (enteredOn calls route (since Event.clearsStats (eventsOf runtime calls initial labels))).Perm
        (exitedOn calls route (since Event.clearsMetrics (eventsOf runtime calls initial labels))) := by
      rw [List.perm_ext_iff_of_nodup (List.nodup_append'.mp once).2.1 (List.nodup_append'.mp once').2.1]
      intro request
      rw [(aligned_of_run quiet reached).aligned idle route request, landed]
      simp
    rw [told.stats, told.metrics, same.length_eq]

end History

section Example

/-- A request to list the items, and a reset. -/
def listAndReset : Bool → Call
  | false => .item .list
  | true => .reset

/-- The list request is counted, the reset runs through, and the list request goes on. -/
def overtaken : List (Bool × Rat) :=
  [(false, 0), (true, 0), (true, 0), (true, 0), (true, 0), (false, 0), (false, 0), (false, 0)]

theorem overtaken_run : ∃ final : Pool Bool Phase Server,
    run (Pool.step (serve plainRuntime listAndReset)) initial overtaken = some final ∧ Quiescent final ∧
      final.shared.stats.count .getItems = 0 ∧
      final.shared.metrics.total (fun key => decide (key.route = .getItems)) = 1 := by
  refine ⟨_, rfl, ?_, rfl, rfl⟩
  intro request
  cases request
  · exact .inr ⟨_, rfl⟩
  · exact .inr ⟨_, rfl⟩

theorem overtaken_disagree : ∃ final : Pool Bool Phase Server,
    run (Pool.step (serve plainRuntime listAndReset)) initial overtaken = some final ∧ Quiescent final ∧
      final.shared.stats.count .getItems ≠
        final.shared.metrics.total (fun key => decide (key.route = .getItems)) := by
  obtain ⟨final, reached, quiescent, stats, metrics⟩ := overtaken_run
  refine ⟨final, reached, quiescent, ?_⟩
  rw [stats, metrics]
  decide

theorem counts_agree_overtaken : ∃ final : Pool Bool Phase Server,
    run (Pool.step (serve plainRuntime listAndReset)) initial overtaken = some final ∧ Quiescent final ∧
      final.shared.stats.count .getItems + UInt64.ofNat (missedByStats listAndReset .getItems
        (eventsOf plainRuntime listAndReset initial overtaken)).length =
      final.shared.metrics.total (fun key => decide (key.route = .getItems)) +
        UInt64.ofNat (missedByMetrics listAndReset .getItems
          (eventsOf plainRuntime listAndReset initial overtaken)).length := by
  obtain ⟨final, reached, quiescent, _⟩ := overtaken_run
  exact ⟨final, reached, quiescent, (counts_agree .getItems reached quiescent).1⟩

end Example

end N8nSystems.FlakyApi
