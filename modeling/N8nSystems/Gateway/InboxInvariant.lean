import N8nSystems.Gateway.Server

/-! What holds of the inbox after any interleaving of requests, from the first
insert of a key to the last answer. -/

namespace N8nSystems.Gateway

open Lib Lib.Go

variable {ι : Type u}

/-- A request's phase agrees with what its local checks gave. -/
def Admitted (server : Server) (request : Request) : Phase → Prop
  | .received => True
  | .ready ev => server.prepare request = .ok ev
  | .returned ev _ => server.prepare request = .ok ev
  | .answered answer => answer.status = 200 → ∃ ev, server.prepare request = .ok ev

/-- The request's insert stored `ev`. -/
def Won (server : Server) (requests : ι → Request) (system : System ι) (request : ι)
    (ev : InboxEvent) : Prop :=
  server.prepare (requests request) = .ok ev ∧
    (system.phase request = .returned ev (some true) ∨ system.phase request = .answered .new)

/-- The request's insert of `ev` returned without an error. -/
def Accepted (server : Server) (requests : ι → Request) (system : System ι) (request : ι)
    (ev : InboxEvent) : Prop :=
  server.prepare (requests request) = .ok ev ∧
    ∃ inserted, system.phase request = .returned ev (some inserted) ∨
      system.phase request = .answered (answerInsert (some inserted))

theorem Won.accepted {server : Server} {requests : ι → Request} {system : System ι}
    (won : Won server requests system request ev) : Accepted server requests system request ev :=
  ⟨won.1, true, won.2⟩

/-- The event handed to an insert that works, if the step is one. -/
def insertCall (system : System ι) (label : ι × Outcome) : Option InboxEvent :=
  match system.phase label.1, label.2 with
  | .ready ev, .works => some ev
  | _, _ => none

variable [DecidableEq ι]

/-- The events of the successful insert calls of a run, in call order. -/
def insertCalls (server : Server) (requests : ι → Request) (labels : List (ι × Outcome)) :
    List InboxEvent :=
  observe (server.step requests) insertCall (System.init ι) labels

section Step

variable {server : Server} {requests : ι → Request} {before after : System ι}
  {label : ι × Outcome}

theorem admitted_step (taken : server.step requests before label = some after)
    (valid : ∀ request, Admitted server (requests request) (before.phase request)) (request : ι) :
    Admitted server (requests request) (after.phase request) := by
  by_cases own : request = label.1
  · subst own
    have known := valid label.1
    rcases Server.step_cases taken with ⟨answer, _, refused, next, _⟩ | ⟨ev, _, admitted, next, _⟩ |
      ⟨ev, phase, _, next, _⟩ | ⟨ev, phase, _, next, _⟩ | ⟨ev, inserted, phase, next, _⟩
    · rw [next]
      intro success
      exact absurd success (Server.prepare_error refused)
    · rw [next]
      exact admitted
    · rw [next]
      rw [phase] at known
      exact known
    · rw [next]
      rw [phase] at known
      exact known
    · rw [next]
      rw [phase] at known
      exact fun _ => ⟨ev, known⟩
  · rw [Pool.step_other _ taken own]
    exact valid request

/-- A step either leaves the stored events alone or appends the event of the
moving request, whose key was not stored before. -/
theorem events_step (taken : server.step requests before label = some after) :
    (after.shared = before.shared ∧
        ∀ ev ∈ insertCall before label, ∃ stored ∈ before.shared.events, stored.key = ev.key) ∨
      ∃ ev, insertCall before label = some ev ∧ before.phase label.1 = .ready ev ∧
        after.phase label.1 = .returned ev (some true) ∧
        after.shared.events = before.shared.events ++ [ev] ∧
        ∀ stored ∈ before.shared.events, stored.key ≠ ev.key := by
  rcases Server.step_cases taken with ⟨_, phase, _, _, same⟩ | ⟨_, phase, _, _, same⟩ |
    ⟨_, phase, failed, _, same⟩ | ⟨ev, phase, works, next, store⟩ | ⟨_, _, phase, _, same⟩
  · exact .inl ⟨same, by simp [insertCall, phase]⟩
  · exact .inl ⟨same, by simp [insertCall, phase]⟩
  · exact .inl ⟨same, by simp [insertCall, phase, failed]⟩
  · have call : insertCall before label = some ev := by simp [insertCall, phase, works]
    rcases before.shared.insert_cases ev with ⟨kept, known⟩ | ⟨stored, grown, fresh⟩
    · rw [kept] at store
      exact .inl ⟨store, by simpa [call] using known⟩
    · rw [stored] at next
      exact .inr ⟨ev, call, phase, next, by rw [store, grown], fresh⟩
  · exact .inl ⟨same, by simp [insertCall, phase]⟩

theorem won_mono (taken : server.step requests before label = some after)
    (won : Won server requests before request ev) : Won server requests after request ev := by
  by_cases own : request = label.1
  · subst own
    obtain ⟨admitted, phases⟩ := won
    refine ⟨admitted, .inr ?_⟩
    rcases Server.step_cases taken with ⟨_, phase, _⟩ | ⟨_, phase, _⟩ | ⟨_, phase, _⟩ |
      ⟨_, phase, _⟩ | ⟨_, _, phase, next, _⟩
    all_goals rw [phase] at phases
    · simp at phases
    · simp at phases
    · simp at phases
    · simp at phases
    · obtain ⟨rfl, rfl⟩ : _ = ev ∧ _ = some true := by simpa using phases
      exact next
  · rw [Won, Pool.step_other _ taken own]
    exact won

/-- A request wins only by the insert that appends its event. -/
theorem won_step (taken : server.step requests before label = some after)
    (valid : ∀ request, Admitted server (requests request) (before.phase request))
    (won : Won server requests after request ev) :
    Won server requests before request ev ∨ request = label.1 ∧
      ∀ stored ∈ before.shared.events, stored.key ≠ ev.key := by
  by_cases own : request = label.1
  · subst own
    obtain ⟨admitted, phases⟩ := won
    have known := valid label.1
    rcases Server.step_cases taken with ⟨_, _, refused, _⟩ | ⟨_, _, _, next, _⟩ |
      ⟨_, _, _, next, _⟩ | ⟨stored, phase, works, next, _⟩ | ⟨held, inserted, phase, next, _⟩
    · rw [refused] at admitted
      cases admitted
    · rw [next] at phases
      simp at phases
    · rw [next] at phases
      simp at phases
    · right
      rw [next] at phases
      obtain ⟨rfl, reported⟩ : stored = ev ∧ (before.shared.insert stored).1 = true := by
        simpa using phases
      refine ⟨rfl, ?_⟩
      rcases before.shared.insert_cases stored with ⟨kept, _⟩ | ⟨_, _, fresh⟩
      · rw [kept] at reported
        cases reported
      · exact fresh
    · left
      rw [phase] at known
      obtain rfl : held = ev := Except.ok.inj (known.symm.trans admitted)
      rw [next] at phases
      have reported : inserted = some true := by
        cases inserted with
        | none => simp [answerInsert] at phases
        | some fresh => cases fresh <;> simp [answerInsert] at phases ⊢
      exact ⟨admitted, .inl (by rw [phase, reported])⟩
  · left
    rw [Won, Pool.step_other _ taken own] at won
    exact won

/-- A request is accepted only by an insert after which its key is stored. -/
theorem accepted_step (taken : server.step requests before label = some after)
    (valid : ∀ request, Admitted server (requests request) (before.phase request))
    (accepted : Accepted server requests after request ev) :
    Accepted server requests before request ev ∨
      ∃ stored ∈ after.shared.events, stored.key = ev.key := by
  by_cases own : request = label.1
  · subst own
    obtain ⟨admitted, inserted, phases⟩ := accepted
    have known := valid label.1
    rcases Server.step_cases taken with ⟨_, _, refused, _⟩ | ⟨_, _, _, next, _⟩ |
      ⟨_, _, _, next, _⟩ | ⟨stored, _, _, next, store⟩ | ⟨held, earlier, phase, next, _⟩
    · rw [refused] at admitted
      cases admitted
    · rw [next] at phases
      simp at phases
    · rw [next] at phases
      simp at phases
    · right
      rw [next] at phases
      obtain ⟨rfl, _⟩ : stored = ev ∧ _ := by simpa using phases
      rw [store]
      rcases before.shared.insert_cases stored with ⟨kept, known⟩ | ⟨_, grown, _⟩
      · rw [kept]
        exact known
      · exact ⟨stored, by simp [grown], rfl⟩
    · left
      rw [phase] at known
      obtain rfl : held = ev := Except.ok.inj (known.symm.trans admitted)
      rw [next] at phases
      cases earlier with
      | none => cases inserted <;> simp [answerInsert] at phases
      | some fresh => exact ⟨admitted, fresh, .inl phase⟩
  · left
    rw [Accepted, Pool.step_other _ taken own] at accepted
    exact accepted

end Step

/-- The inbox invariant, relating the history, the store and every request. -/
structure InboxInvariant (server : Server) (requests : ι → Request) (past : List (ι × Outcome))
    (system : System ι) : Prop where
  admitted : ∀ request, Admitted server (requests request) (system.phase request)
  firsts : ∀ key, system.shared.events.find? (·.key = key) =
    (insertCalls server requests past).find? (·.key = key)
  winner : ∀ stored ∈ system.shared.events, ∃ request, Won server requests system request stored
  unique : ∀ first second ev other, Won server requests system first ev →
    Won server requests system second other → ev.key = other.key → first = second
  held : ∀ request ev, Accepted server requests system request ev →
    ∃ stored ∈ system.shared.events, stored.key = ev.key

theorem InboxInvariant.init (server : Server) (requests : ι → Request) :
    InboxInvariant server requests [] (System.init ι) where
  admitted _ := trivial
  firsts key := by simp [insertCalls, observe, System.init, MemoryStore.empty, MemoryStore.events]
  winner stored member := by simp [System.init, MemoryStore.empty, MemoryStore.events] at member
  unique first second ev other won _ _ := by simp [Won, System.init] at won
  held request ev accepted := by simp [Accepted, System.init] at accepted

/-- The first successful insert of each key stays the stored one. -/
theorem firsts_step {server : Server} {requests : ι → Request} {before after : System ι}
    (taken : server.step requests before label = some after)
    (firsts : ∀ key, before.shared.events.find? (·.key = key) = calls.find? (·.key = key))
    (key : Source × Bytes) :
    after.shared.events.find? (·.key = key) =
      (calls ++ (insertCall before label).toList).find? (·.key = key) := by
  rw [List.find?_append, ← firsts]
  rcases events_step taken with ⟨same, known⟩ | ⟨ev, call, _, _, grown, _⟩
  · rw [same]
    cases call : insertCall before label with
    | none => simp
    | some ev =>
      obtain ⟨stored, member, equal⟩ := known ev (by simp [call])
      by_cases wanted : ev.key = key
      · -- The call was a duplicate, so a stored event with this key is found before it.
        have found : (before.shared.events.find? (·.key = key)).isSome := by
          rw [List.find?_isSome]
          exact ⟨stored, member, by simp [equal, wanted]⟩
        obtain ⟨first, selected⟩ := Option.isSome_iff_exists.mp found
        simp [selected]
      · simp [wanted]
  · rw [grown, List.find?_append, call]
    rfl

theorem InboxInvariant.step {server : Server} {requests : ι → Request} {past : List (ι × Outcome)}
    {before after : System ι} (reached : run (server.step requests) (System.init ι) past = some before)
    (valid : InboxInvariant server requests past before)
    (taken : server.step requests before label = some after) :
    InboxInvariant server requests (past ++ [label]) after where
  admitted := admitted_step taken valid.admitted
  firsts key := by
    rw [insertCalls, observe_concat reached]
    exact firsts_step taken valid.firsts key
  winner stored member := by
    rcases events_step taken with ⟨same, _⟩ | ⟨ev, _, phase, next, grown, _⟩
    · rw [same] at member
      obtain ⟨request, won⟩ := valid.winner stored member
      exact ⟨request, won_mono taken won⟩
    · rw [grown] at member
      rcases List.mem_append.mp member with old | new
      · obtain ⟨request, won⟩ := valid.winner stored old
        exact ⟨request, won_mono taken won⟩
      · obtain rfl : stored = ev := by simpa using new
        have admitted := valid.admitted label.1
        rw [phase] at admitted
        exact ⟨label.1, admitted, .inl next⟩
  unique first second ev other wonFirst wonSecond same := by
    rcases won_step taken valid.admitted wonFirst with old | ⟨rfl, fresh⟩
    · rcases won_step taken valid.admitted wonSecond with also | ⟨rfl, fresh⟩
      · exact valid.unique first second ev other old also same
      · obtain ⟨stored, member, equal⟩ := valid.held first ev old.accepted
        exact absurd (equal.trans same) (fresh stored member)
    · rcases won_step taken valid.admitted wonSecond with also | ⟨rfl, _⟩
      · obtain ⟨stored, member, equal⟩ := valid.held second other also.accepted
        exact absurd (equal.trans same.symm) (fresh stored member)
      · rfl
  held request ev accepted := by
    rcases accepted_step taken valid.admitted accepted with old | stored
    · obtain ⟨stored, member, equal⟩ := valid.held request ev old
      rcases events_step taken with ⟨same, _⟩ | ⟨_, _, _, _, grown, _⟩
      · exact ⟨stored, same ▸ member, equal⟩
      · exact ⟨stored, by simp [grown, member], equal⟩
    · exact stored

/-- The invariant holds after every run of the ingress. -/
theorem InboxInvariant.of_run {server : Server} {requests : ι → Request}
    {labels : List (ι × Outcome)} {system : System ι}
    (reached : run (server.step requests) (System.init ι) labels = some system) :
    InboxInvariant server requests labels system :=
  run_history (InboxInvariant server requests) (.init server requests)
    (fun _ _ _ _ earlier valid taken => valid.step earlier taken) reached

theorem rows_step {server : Server} {requests : ι → Request} {before after : System ι}
    (taken : server.step requests before label = some after) :
    before.shared.rows <+: after.shared.rows := by
  rcases Server.step_cases taken with ⟨_, _, _, _, same⟩ | ⟨_, _, _, _, same⟩ |
    ⟨_, _, _, _, same⟩ | ⟨ev, _, _, _, store⟩ | ⟨_, _, _, _, same⟩
  · exact same ▸ List.prefix_refl _
  · exact same ▸ List.prefix_refl _
  · exact same ▸ List.prefix_refl _
  · rw [store, MemoryStore.insert]
    split
    · exact List.prefix_refl _
    · exact List.prefix_append _ _
  · exact same ▸ List.prefix_refl _

/-- Rows are only ever appended. -/
theorem rows_run {server : Server} {requests : ι → Request} {system later : System ι}
    {more : List (ι × Outcome)}
    (continued : run (server.step requests) system more = some later) :
    system.shared.rows <+: later.shared.rows :=
  run_relation (fun before after : System ι => before.shared.rows <+: after.shared.rows)
    (fun _ => List.prefix_refl _) (fun _ _ _ first second => List.IsPrefix.trans first second)
    (fun _ _ _ taken => rows_step taken) continued

/-- A request whose step changed the store is at the phase of a stored event. -/
def Wrote : Phase → Prop
  | .returned _ inserted => inserted = some true
  | .answered answer => answer = .new
  | _ => False

theorem wrote_of_touched {server : Server} {requests : ι → Request} {labels : List (ι × Outcome)}
    {system : System ι} {request : ι}
    (reached : run (server.step requests) (System.init ι) labels = some system)
    (touched : Pool.Touched (server.act requests) (System.init ι) request labels) :
    Wrote (system.phase request) := by
  refine Pool.marked_of_touched Wrote ?_ ?_ reached touched
  · intro before label after taken changed
    have stepped : server.step requests before label = some after := taken
    rcases events_step stepped with ⟨same, _⟩ | ⟨ev, _, _, next, _⟩
    · exact absurd same changed
    · rw [next]
      rfl
  · intro before label after taken wrote
    have stepped : server.step requests before label = some after := taken
    rcases Server.step_cases stepped with
      ⟨_, phase, _⟩ | ⟨_, phase, _⟩ | ⟨_, phase, _⟩ | ⟨_, phase, _⟩ | ⟨_, inserted, phase, next, _⟩
    all_goals rw [phase] at wrote
    · exact wrote.elim
    · exact wrote.elim
    · exact wrote.elim
    · exact wrote.elim
    · rw [next, show inserted = some true from wrote]
      rfl

/-- The two 200 answers are the ones an insert without an error leads to. -/
theorem Answer.status_ok_iff (answer : Answer) :
    answer.status = 200 ↔ ∃ inserted, answer = answerInsert (some inserted) := by
  cases answer <;> simp [Answer.status, answerInsert]

theorem accepted_of_answered {server : Server} {requests : ι → Request} {system : System ι}
    (valid : InboxInvariant server requests past system)
    (phase : system.phase request = .answered answer) (success : answer.status = 200) :
    ∃ ev, Accepted server requests system request ev := by
  have admitted := valid.admitted request
  rw [phase] at admitted
  obtain ⟨ev, local_⟩ := admitted success
  obtain ⟨inserted, rfl⟩ := answer.status_ok_iff.mp success
  exact ⟨ev, local_, inserted, .inr phase⟩

/-- After every interleaving of any requests: the inbox has at most one row for
each source and external id; rows are never changed or removed, and each is the
event of the first successful insert of its key; at most one request of a key is
answered `new`, every other 200 answer of that key is `duplicate`, and once all
requests are answered each stored key has exactly one `new`; a 200 answer means
the row is there; every other answer left the inbox unchanged. -/
theorem inbox_interleaving (server : Server) (requests : ι → Request)
    (labels : List (ι × Outcome)) (system : System ι)
    (reached : run (server.step requests) (System.init ι) labels = some system) :
    (system.shared.events.map InboxEvent.key).Nodup ∧
    (∀ more later, run (server.step requests) system more = some later →
      system.shared.rows <+: later.shared.rows) ∧
    (∀ stored ∈ system.shared.events,
      (insertCalls server requests labels).find? (·.key = stored.key) = some stored) ∧
    (∀ first second ev other, server.prepare (requests first) = .ok ev →
      server.prepare (requests second) = .ok other → ev.key = other.key →
      system.phase first = .answered .new →
      (system.phase second = .answered .new → second = first) ∧
      (∀ answer, second ≠ first → system.phase second = .answered answer →
        answer.status = 200 → answer = .duplicate)) ∧
    ((∀ request, ∃ answer, system.phase request = .answered answer) →
      ∀ stored ∈ system.shared.events, ∃! request, system.phase request = .answered .new ∧
        ∃ ev, server.prepare (requests request) = .ok ev ∧ ev.key = stored.key) ∧
    (∀ request answer, system.phase request = .answered answer → answer.status = 200 →
      ∃ ev, server.prepare (requests request) = .ok ev ∧
        ∃ stored ∈ system.shared.events, stored.key = ev.key) ∧
    (∀ request answer, system.phase request = .answered answer →
      answer.status ∈ [404, 413, 400, 401, 503] →
      ¬ Pool.Touched (server.act requests) (System.init ι) request labels) := by
  have valid := InboxInvariant.of_run reached
  have oneNew : ∀ first second ev other, server.prepare (requests first) = .ok ev →
      server.prepare (requests second) = .ok other → ev.key = other.key →
      system.phase first = .answered .new → system.phase second = .answered .new →
      second = first :=
    fun first second ev other admitted also same phase phase' =>
      (valid.unique first second ev other ⟨admitted, .inr phase⟩ ⟨also, .inr phase'⟩ same).symm
  refine ⟨system.shared.keys_nodup, fun more later => rows_run, ?_, ?_, ?_, ?_, ?_⟩
  · intro stored member
    rw [← valid.firsts]
    have found : (system.shared.events.find? (·.key = stored.key)).isSome := by
      rw [List.find?_isSome]
      exact ⟨stored, member, by simp⟩
    obtain ⟨first, selected⟩ := Option.isSome_iff_exists.mp found
    have same : first.key = stored.key := by simpa using List.find?_some selected
    have present := List.mem_of_find?_eq_some selected
    rw [selected, List.inj_on_of_nodup_map system.shared.keys_nodup present member same]
  · intro first second ev other admitted also same phase
    refine ⟨oneNew first second ev other admitted also same phase, ?_⟩
    intro answer different phase' success
    obtain ⟨inserted, rfl⟩ := answer.status_ok_iff.mp success
    cases inserted with
    | false => rfl
    | true => exact absurd (oneNew first second ev other admitted also same phase phase') different
  · intro finished stored member
    obtain ⟨request, won⟩ := valid.winner stored member
    have phase : system.phase request = .answered .new := by
      rcases won.2 with waiting | done
      · obtain ⟨answer, answered⟩ := finished request
        rw [waiting] at answered
        cases answered
      · exact done
    refine ⟨request, ⟨phase, stored, won.1, rfl⟩, ?_⟩
    rintro other ⟨phase', ev, admitted, same⟩
    exact oneNew request other stored ev won.1 admitted same.symm phase phase'
  · intro request answer phase success
    obtain ⟨ev, accepted⟩ := accepted_of_answered valid phase success
    exact ⟨ev, accepted.1, valid.held request ev accepted⟩
  · intro request answer phase refused touched
    have wrote := wrote_of_touched reached touched
    rw [phase] at wrote
    rw [show answer = .new from wrote] at refused
    simp [Answer.status] at refused

/-- Two deliveries of one GitHub push, signed with the key `github-secret`. -/
def stormServer : Server where
  crypto := {
    hmac := fun key message =>
      if key = lit "github-secret" ∧ message = lit "[]" then (hexDecodeString (lit
        "1ca1be62fc2a86a03684fda515e3c23fe0f2abc6131306228e967f0066cc9057")).getD []
      else []
    hexDecode := hexDecodeString
    base64Decode := fun _ => none }
  decode := {
    jsonValid := fun body => body == lit "[]"
    unmarshalStripe := fun _ => none
    parseRFC3339Nano := fun _ => none
    parseRFC3339 := fun _ => none }
  secrets := ⟨lit "stripe-secret", lit "shopify-secret", lit "github-secret", lit "custom-secret"⟩

def stormRequest : Request where
  source := lit "github"
  body := lit "[]"
  broken := false
  header := fun name =>
    if name = lit "X-Hub-Signature-256" then [lit
      "sha256=1ca1be62fc2a86a03684fda515e3c23fe0f2abc6131306228e967f0066cc9057"]
    else if name = lit "X-Github-Delivery" then [lit "storm-1"]
    else if name = lit "X-Github-Event" then [lit "push"]
    else []
  now := 0

def stormEvent : InboxEvent where
  source := .github
  externalEventID := lit "storm-1"
  eventType := lit "push"
  sourceTS := none
  headers := [(headerGitHubDelivery, lit "storm-1"), (headerGitHubEvent, lit "push")]
  payload := lit "[]"

theorem storm_prepared : stormServer.prepare stormRequest = .ok stormEvent := by
  decide +kernel

/-- Both requests are checked before either inserts, and the second one wins. -/
def stormLabels : List (Fin 2 × Outcome) :=
  [(0, .works), (1, .works), (1, .works), (0, .works), (0, .works), (1, .works)]

theorem storm_run :
    ∃ system, run (stormServer.step fun _ => stormRequest) (System.init (Fin 2)) stormLabels =
          some system ∧
      system.phase 1 = .answered .new ∧ system.phase 0 = .answered .duplicate ∧
      system.shared.events.map InboxEvent.payload = [lit "[]"] := by
  have outcome : (run (stormServer.step fun _ => stormRequest) (System.init (Fin 2))
      stormLabels).map (fun system =>
        (system.phase 1, system.phase 0, system.shared.events.map InboxEvent.payload)) =
        some (.answered .new, .answered .duplicate, [lit "[]"]) := by
    simp only [stormLabels, run, Server.step, Pool.step, System.init, Server.act, storm_prepared,
      Option.bind_some, Option.map_some]
    rfl
  obtain ⟨system, reached, same⟩ := Option.map_eq_some_iff.mp outcome
  obtain ⟨first, others⟩ := Prod.mk.inj same
  obtain ⟨second, payloads⟩ := Prod.mk.inj others
  exact ⟨system, reached, first, second, payloads⟩

theorem inbox_interleaving_storm :
    ∃ system, run (stormServer.step fun _ => stormRequest) (System.init (Fin 2)) stormLabels =
          some system ∧
      system.phase 1 = .answered .new ∧ system.phase 0 = .answered .duplicate ∧
      (system.shared.events.map InboxEvent.key).Nodup := by
  obtain ⟨system, reached, first, second, _⟩ := storm_run
  exact ⟨system, reached, first, second,
    (inbox_interleaving stormServer (fun _ => stormRequest) stormLabels system reached).1⟩

end N8nSystems.Gateway
