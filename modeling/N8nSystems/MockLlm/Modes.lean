import N8nSystems.Lib.Pool
import N8nSystems.MockLlm.Contents

/-! Completions while the mode changes. The endpoint reads `state.mode` anew for each of its
tests and `set_mode` runs in another thread, so a step reads or writes the mode once. -/

namespace N8nSystems.MockLlm

open Lib Lib.Py

universe u

inductive Call where
  | completion (body : ChatCompletionRequest)
  | setMode (mode : AdminMode)

/-- How far a request has come, with the digest that the endpoint computes first. -/
inductive Phase where
  | waiting
  /-- The mode was not `500`. -/
  | notServerError (digest : Text)
  /-- Nor was it `429` when it was read again. -/
  | notTooMany (digest : Text)
  /-- In `asyncio.sleep`. -/
  | sleeping (digest : Text)
  /-- At the test for `invalid_json`. -/
  | awake (digest : Text) (slept : Bool)
  | answered (slept : Bool) (response : Except Failure Response)
  /-- `set_mode` has written the mode and is about to read it for its reply. -/
  | written
  | replied (mode : AdminMode)

section
variable (sha256 : ByteArray → Text) (floats : FloatText) (fixtures : Option (List (Text × ByteArray)))

def promptText (body : ChatCompletionRequest) : Text :=
  [32].intercalate (body.messages.map fun message => messageText message.content)

/-- The completion with the fixture or the default. -/
def completed (body : ChatCompletionRequest) (digest : Text) : Except Failure Response := do
  let fixture ← lookupFixture sha256 floats digest fixtures
  let payload ← payloadFor body fixture
  return completionResponse body.model digest (assistantContent floats payload) (promptText body)

/-- `chat_completions`, cut where it reads the mode. -/
def chatStep (body : ChatCompletionRequest) (state : ServiceState) : Phase → Option Phase
  | .waiting =>
    match requestHash sha256 floats body.model (body.messages.map ChatMessage.dump) with
    | .error failure => some (.answered false (.error failure))
    | .ok digest =>
      if state.mode = .serverError then
        some (.answered false (.ok (.error 500 (text "Internal server error") (text "server_error")
          (text "internal_error") none)))
      else some (.notServerError digest)
  | .notServerError digest =>
    if state.mode = .tooManyRequests then
      some (.answered false (.ok (.error 429 (text "Rate limit exceeded") (text "rate_limit_error")
        (text "rate_limit_exceeded") (some state.retryAfterS))))
    else some (.notTooMany digest)
  | .notTooMany digest => if state.mode = .timeout then some (.sleeping digest) else some (.awake digest false)
  | .sleeping digest => some (.awake digest true)
  | .awake digest slept =>
    if state.mode = .invalidJson then
      some (.answered slept (.ok (completionResponse body.model digest (text "not-json\x7b") (promptText body))))
    else some (.answered slept (completed sha256 floats fixtures body digest))
  | _ => none

/-- `set_mode`. -/
def setModeStep (mode : AdminMode) (state : ServiceState) : Phase → Option (Phase × ServiceState)
  | .waiting => some (.written, { state with mode })
  | .written => some (.replied state.mode, state)
  | _ => none

variable {Request : Type u} (calls : Request → Call)

def serve (request : Request) (_ : Unit) (phase : Phase) (state : ServiceState) : Option (Phase × ServiceState) :=
  match calls request with
  | .completion body => (chatStep sha256 floats fixtures body state phase).map fun phase => (phase, state)
  | .setMode mode => setModeStep mode state phase

/-- The modes that the steps of a stretch found, in order. -/
def modesIn [DecidableEq Request] (start : Pool Request Phase ServiceState) (labels : List (Request × Unit)) :
    List AdminMode :=
  observe (Pool.step (serve sha256 floats fixtures calls)) (fun pool _ => some pool.shared.mode) start labels

/-- A request for the mode has written it. -/
def Asked (pool : Pool Request Phase ServiceState) (mode : AdminMode) : Prop :=
  ∃ request, calls request = .setMode mode ∧
    (pool.phase request = .written ∨ ∃ reply, pool.phase request = .replied reply)

/-- The answer is the one that the endpoint gives in the mode. -/
def AnswersIn (retryAfterS : Nat) (body : ChatCompletionRequest) (response : Except Failure Response)
    (mode : AdminMode) : Prop :=
  response = chatCompletions sha256 floats ⟨mode, retryAfterS⟩ fixtures body

/-- Two of the modes differ. -/
def Changed (modes : List AdminMode) : Prop := ∃ mode ∈ modes, ∃ other ∈ modes, mode ≠ other

/-- The answer is that of a mode that the request could have read, or the normal one although
the mode was never normal, which takes a change of the mode under the request. -/
def ByMode (retryAfterS : Nat) (body : ChatCompletionRequest) (modes : List AdminMode)
    (response : Except Failure Response) : Prop :=
  (∃ mode ∈ modes, AnswersIn sha256 floats fixtures retryAfterS body response mode) ∨
    Changed modes ∧ AnswersIn sha256 floats fixtures retryAfterS body response .normal

/-- What the modes found so far say about a completion request. -/
structure Passed (body : ChatCompletionRequest) (digest : Text) (modes : List AdminMode) : Prop where
  hashed : requestHash sha256 floats body.model (body.messages.map ChatMessage.dump) = .ok digest
  spared : ∃ mode ∈ modes, mode ≠ .serverError

def Accounts (retryAfterS : Nat) (body : ChatCompletionRequest) (modes : List AdminMode) : Phase → Prop
  | .waiting => True
  | .notServerError digest => Passed sha256 floats body digest modes
  | .notTooMany digest => Passed sha256 floats body digest modes ∧ ∃ mode ∈ modes, mode ≠ .tooManyRequests
  | .sleeping digest =>
    Passed sha256 floats body digest modes ∧ (∃ mode ∈ modes, mode ≠ .tooManyRequests) ∧ .timeout ∈ modes
  | .awake digest slept =>
    Passed sha256 floats body digest modes ∧ (∃ mode ∈ modes, mode ≠ .tooManyRequests) ∧
      if slept then .timeout ∈ modes else ∃ mode ∈ modes, mode ≠ .timeout
  | .answered slept response =>
    ByMode sha256 floats fixtures retryAfterS body modes response ∧ (slept = true → .timeout ∈ modes) ∧
      (slept = false → response = .error .encode ∨ ∃ mode ∈ modes, mode ≠ .timeout)
  | .written | .replied _ => False

end

section
variable {sha256 : ByteArray → Text} {floats : FloatText} {fixtures : Option (List (Text × ByteArray))}
  {body : ChatCompletionRequest} {retryAfterS : Nat} {modes : List AdminMode} {digest : Text}

theorem answersIn_refused {failure : Failure}
    (refused : requestHash sha256 floats body.model (body.messages.map ChatMessage.dump) = .error failure)
    (mode : AdminMode) : AnswersIn sha256 floats fixtures retryAfterS body (.error failure) mode := by
  rw [AnswersIn, chatCompletions, refused]
  rfl

theorem requestHash_error {model : Text} {messages : List (List (Text × Json))} {failure : Failure}
    (refused : requestHash sha256 floats model messages = .error failure) : failure = .encode := by
  unfold requestHash at refused
  split at refused
  · cases refused
  · cases refused
    rfl

theorem answersIn_serverError
    (hashed : requestHash sha256 floats body.model (body.messages.map ChatMessage.dump) = .ok digest) :
    AnswersIn sha256 floats fixtures retryAfterS body (.ok (.error 500 (text "Internal server error")
      (text "server_error") (text "internal_error") none)) .serverError := by
  rw [AnswersIn, chatCompletions, hashed]
  rfl

theorem answersIn_tooManyRequests
    (hashed : requestHash sha256 floats body.model (body.messages.map ChatMessage.dump) = .ok digest) :
    AnswersIn sha256 floats fixtures retryAfterS body (.ok (.error 429 (text "Rate limit exceeded")
      (text "rate_limit_error") (text "rate_limit_exceeded") (some retryAfterS))) .tooManyRequests := by
  rw [AnswersIn, chatCompletions, hashed]
  rfl

theorem answersIn_invalidJson
    (hashed : requestHash sha256 floats body.model (body.messages.map ChatMessage.dump) = .ok digest) :
    AnswersIn sha256 floats fixtures retryAfterS body
      (.ok (completionResponse body.model digest (text "not-json\x7b") (promptText body))) .invalidJson := by
  rw [AnswersIn, chatCompletions, hashed]
  rfl

/-- Once it has slept, a request is answered as in the normal mode. -/
theorem answersIn_completed
    (hashed : requestHash sha256 floats body.model (body.messages.map ChatMessage.dump) = .ok digest)
    {mode : AdminMode} (either : mode = .normal ∨ mode = .timeout) :
    AnswersIn sha256 floats fixtures retryAfterS body (completed sha256 floats fixtures body digest) mode := by
  rw [AnswersIn, chatCompletions, hashed]
  rcases either with rfl | rfl
  · rfl
  · rfl

/-- A request that no test has stopped is answered as in a mode that it found, or two of its tests
found different modes. -/
theorem byMode_completed
    (hashed : requestHash sha256 floats body.model (body.messages.map ChatMessage.dump) = .ok digest)
    {mode : AdminMode} (last : mode ∈ modes) (valid : mode ≠ .invalidJson)
    (spared : ∃ mode ∈ modes, mode ≠ .serverError) (few : ∃ mode ∈ modes, mode ≠ .tooManyRequests) :
    ByMode sha256 floats fixtures retryAfterS body modes (completed sha256 floats fixtures body digest) := by
  have changed (differs : ∃ other ∈ modes, other ≠ mode) :
      ByMode sha256 floats fixtures retryAfterS body modes (completed sha256 floats fixtures body digest) := by
    obtain ⟨other, member, apart⟩ := differs
    exact .inr ⟨⟨other, member, mode, last, apart⟩, answersIn_completed hashed (.inl rfl)⟩
  cases mode with
  | invalidJson => exact absurd rfl valid
  | serverError => exact changed spared
  | tooManyRequests => exact changed few
  | normal => exact .inl ⟨_, last, answersIn_completed hashed (.inl rfl)⟩
  | timeout => exact .inl ⟨_, last, answersIn_completed hashed (.inr rfl)⟩

theorem ByMode.mono {response : Except Failure Response} {more : List AdminMode} (within : modes ⊆ more)
    (by_ : ByMode sha256 floats fixtures retryAfterS body modes response) :
    ByMode sha256 floats fixtures retryAfterS body more response := by
  rcases by_ with ⟨mode, member, answers⟩ | ⟨⟨mode, member, other, also, apart⟩, answers⟩
  · exact .inl ⟨mode, within member, answers⟩
  · exact .inr ⟨⟨mode, within member, other, within also, apart⟩, answers⟩

theorem Passed.mono {more : List AdminMode} (within : modes ⊆ more) (passed : Passed sha256 floats body digest modes) :
    Passed sha256 floats body digest more where
  hashed := passed.hashed
  spared := passed.spared.imp fun _ found => ⟨within found.1, found.2⟩

theorem Accounts.mono {phase : Phase} {more : List AdminMode} (within : modes ⊆ more)
    (accounts : Accounts sha256 floats fixtures retryAfterS body modes phase) :
    Accounts sha256 floats fixtures retryAfterS body more phase := by
  have still {mode : AdminMode} (found : ∃ other ∈ modes, other ≠ mode) : ∃ other ∈ more, other ≠ mode :=
    found.imp fun _ found => ⟨within found.1, found.2⟩
  cases phase with
  | waiting => trivial
  | notServerError digest => exact Passed.mono within accounts
  | notTooMany digest => exact ⟨accounts.1.mono within, still accounts.2⟩
  | sleeping digest => exact ⟨accounts.1.mono within, still accounts.2.1, within accounts.2.2⟩
  | awake digest slept =>
    obtain ⟨passed, few, slept_⟩ := accounts
    refine ⟨passed.mono within, still few, ?_⟩
    cases slept with
    | true => exact within slept_
    | false => exact still slept_
  | answered slept response =>
    obtain ⟨answers, woken, awake⟩ := accounts
    exact ⟨answers.mono within, fun slept => within (woken slept), fun slept => (awake slept).imp_right still⟩
  | written | replied mode => exact accounts

/-- One read of the mode, which then counts among those found. -/
theorem Accounts.chatStep {state : ServiceState} {phase next : Phase}
    (accounts : Accounts sha256 floats fixtures state.retryAfterS body modes phase)
    (found : state.mode ∈ modes) (taken : chatStep sha256 floats fixtures body state phase = some next) :
    Accounts sha256 floats fixtures state.retryAfterS body modes next := by
  cases phase with
  | waiting =>
    simp only [MockLlm.chatStep] at taken
    split at taken
    · rename_i failure refused
      cases taken
      cases requestHash_error refused
      exact ⟨.inl ⟨_, found, answersIn_refused refused _⟩, Bool.noConfusion, fun _ => .inl rfl⟩
    · rename_i digest hashed
      split at taken
      · rename_i mode
        cases taken
        rw [mode] at found
        exact ⟨.inl ⟨_, found, answersIn_serverError hashed⟩, Bool.noConfusion,
          fun _ => .inr ⟨_, found, AdminMode.noConfusion⟩⟩
      · rename_i mode
        cases taken
        exact ⟨hashed, _, found, mode⟩
  | notServerError digest =>
    have passed : Passed sha256 floats body digest modes := accounts
    simp only [MockLlm.chatStep] at taken
    split at taken
    · rename_i mode
      cases taken
      rw [mode] at found
      exact ⟨.inl ⟨_, found, answersIn_tooManyRequests passed.hashed⟩, Bool.noConfusion,
        fun _ => .inr ⟨_, found, AdminMode.noConfusion⟩⟩
    · rename_i mode
      cases taken
      exact ⟨passed, _, found, mode⟩
  | notTooMany digest =>
    obtain ⟨passed, few⟩ := accounts
    simp only [MockLlm.chatStep] at taken
    split at taken
    · rename_i mode
      cases taken
      exact ⟨passed, few, mode ▸ found⟩
    · rename_i mode
      cases taken
      exact ⟨passed, few, _, found, mode⟩
  | sleeping digest =>
    cases taken
    exact accounts
  | awake digest slept =>
    obtain ⟨passed, few, timing⟩ := accounts
    have woken : slept = true → .timeout ∈ modes := by
      rintro rfl
      exact timing
    have awake : slept = false → ∃ mode ∈ modes, mode ≠ .timeout := by
      rintro rfl
      exact timing
    simp only [MockLlm.chatStep] at taken
    split at taken
    · rename_i mode
      cases taken
      rw [mode] at found
      exact ⟨.inl ⟨_, found, answersIn_invalidJson passed.hashed⟩, woken, fun slept => .inr (awake slept)⟩
    · rename_i mode
      cases taken
      exact ⟨byMode_completed passed.hashed found mode passed.spared few, woken, fun slept => .inr (awake slept)⟩
  | answered | written | replied => cases taken

end

section
variable {sha256 : ByteArray → Text} {floats : FloatText} {fixtures : Option (List (Text × ByteArray))}
  {Request : Type u} [DecidableEq Request] {calls : Request → Call}
  {start before after final : Pool Request Phase ServiceState} {label : Request × Unit}
  {labels : List (Request × Unit)}

/-- What a step does to the service and to the phase of its request. -/
theorem step_cases (taken : Pool.step (serve sha256 floats fixtures calls) before label = some after) :
    (∃ body, calls label.1 = .completion body ∧ after.shared = before.shared ∧
      chatStep sha256 floats fixtures body before.shared (before.phase label.1) = some (after.phase label.1)) ∨
    (∃ mode, calls label.1 = .setMode mode ∧ before.phase label.1 = .waiting ∧ after.phase label.1 = .written ∧
      after.shared = { before.shared with mode }) ∨
    ∃ mode, calls label.1 = .setMode mode ∧ before.phase label.1 = .written ∧
      after.phase label.1 = .replied before.shared.mode ∧ after.shared = before.shared := by
  have own := Pool.step_own _ taken
  simp only [serve] at own
  cases asked : calls label.1 with
  | completion body =>
    rw [asked] at own
    obtain ⟨phase, stepped, same⟩ := Option.map_eq_some_iff.mp own
    obtain ⟨rfl, shared⟩ := Prod.mk.inj same
    exact .inl ⟨body, rfl, shared.symm, stepped⟩
  | setMode mode =>
    rw [asked] at own
    cases phase : before.phase label.1 with
    | waiting =>
      rw [phase] at own
      obtain ⟨next, shared⟩ := Prod.mk.inj (Option.some.inj own)
      exact .inr (.inl ⟨mode, rfl, rfl, next.symm, shared.symm⟩)
    | written =>
      rw [phase] at own
      obtain ⟨next, shared⟩ := Prod.mk.inj (Option.some.inj own)
      exact .inr (.inr ⟨mode, rfl, rfl, next.symm, shared.symm⟩)
    | _ =>
      rw [phase] at own
      cases own

theorem Asked.step {mode : AdminMode} (asked : Asked calls before mode)
    (taken : Pool.step (serve sha256 floats fixtures calls) before label = some after) :
    Asked calls after mode := by
  obtain ⟨request, set, through⟩ := asked
  by_cases own : request = label.1
  · subst own
    rcases step_cases taken with ⟨_, completion, -⟩ | ⟨_, -, waiting, -⟩ | ⟨_, -, -, replied, -⟩
    · cases set.symm.trans completion
    · rw [waiting] at through
      rcases through with through | ⟨_, through⟩ <;> cases through
    · exact ⟨_, set, .inr ⟨_, replied⟩⟩
  · refine ⟨request, set, ?_⟩
    rw [Pool.step_other _ taken own]
    exact through

/-- What the modes found in a stretch say about the service and the requests that began in it. -/
structure Followed (sha256 : ByteArray → Text) (floats : FloatText) (fixtures : Option (List (Text × ByteArray)))
    (calls : Request → Call) (start : Pool Request Phase ServiceState) (modes : List AdminMode)
    (pool : Pool Request Phase ServiceState) : Prop where
  retryAfterS : pool.shared.retryAfterS = start.shared.retryAfterS
  mode : pool.shared.mode = start.shared.mode ∨ Asked calls pool pool.shared.mode
  found : ∀ mode ∈ modes, mode = start.shared.mode ∨ Asked calls pool mode
  completions : ∀ request body, calls request = .completion body → start.phase request = .waiting →
    Accounts sha256 floats fixtures start.shared.retryAfterS body modes (pool.phase request)
  writes : ∀ request mode, calls request = .setMode mode → start.phase request = .waiting →
    pool.phase request = .waiting ∨ Asked calls pool pool.shared.mode ∧
      (pool.phase request = .written ∨ ∃ reply, pool.phase request = .replied reply ∧ Asked calls pool reply)

omit [DecidableEq Request] in
theorem followed_start (start : Pool Request Phase ServiceState) :
    Followed sha256 floats fixtures calls start [] start where
  retryAfterS := rfl
  mode := .inl rfl
  found := by simp
  completions _ _ _ waiting := by
    rw [waiting]
    trivial
  writes _ _ _ waiting := .inl waiting

/-- The mode that a step leaves was there, or the request of the step asked for it. -/
theorem mode_step (taken : Pool.step (serve sha256 floats fixtures calls) before label = some after) :
    after.shared.mode = before.shared.mode ∨ Asked calls after after.shared.mode := by
  rcases step_cases taken with ⟨_, -, same, -⟩ | ⟨mode, asked, -, written, changed⟩ | ⟨_, -, -, -, same⟩
  · exact .inl (congrArg ServiceState.mode same)
  · rw [changed]
    exact .inr ⟨label.1, asked, .inl written⟩
  · exact .inl (congrArg ServiceState.mode same)

theorem retryAfterS_step (taken : Pool.step (serve sha256 floats fixtures calls) before label = some after) :
    after.shared.retryAfterS = before.shared.retryAfterS := by
  rcases step_cases taken with ⟨_, -, same, -⟩ | ⟨_, -, -, -, changed⟩ | ⟨_, -, -, -, same⟩
  · rw [same]
  · rw [changed]
  · rw [same]

theorem asked_mode_step (taken : Pool.step (serve sha256 floats fixtures calls) before label = some after)
    (asked : Asked calls before before.shared.mode) : Asked calls after after.shared.mode := by
  rcases mode_step taken with same | asked
  · rw [same]
    exact asked.step taken
  · exact asked

theorem Followed.step {modes : List AdminMode}
    (followed : Followed sha256 floats fixtures calls start modes before)
    (taken : Pool.step (serve sha256 floats fixtures calls) before label = some after) :
    Followed sha256 floats fixtures calls start (modes ++ [before.shared.mode]) after where
  retryAfterS := (retryAfterS_step taken).trans followed.retryAfterS
  mode := by
    rcases mode_step taken with same | asked
    · rw [same]
      exact followed.mode.imp_right (Asked.step · taken)
    · exact .inr asked
  found := by
    refine List.forall_mem_append.mpr ⟨?_, List.forall_mem_singleton.mpr ?_⟩
    · exact fun mode member => (followed.found mode member).imp_right (Asked.step · taken)
    · exact followed.mode.imp_right (Asked.step · taken)
  completions := by
    intro request body asked waiting
    have earlier := (followed.completions request body asked waiting).mono
      (List.subset_append_left modes [before.shared.mode])
    by_cases own : request = label.1
    · subst own
      rcases step_cases taken with ⟨other, same, -, stepped⟩ | ⟨_, set, -⟩ | ⟨_, set, -⟩
      · cases asked.symm.trans same
        rw [← followed.retryAfterS] at earlier ⊢
        exact earlier.chatStep (List.mem_append_right _ (List.mem_singleton.mpr rfl)) stepped
      · cases asked.symm.trans set
      · cases asked.symm.trans set
    · rw [Pool.step_other _ taken own]
      exact earlier
  writes := by
    intro request mode asked waiting
    by_cases own : request = label.1
    · subst own
      right
      rcases step_cases taken with ⟨_, completion, -⟩ | ⟨other, same, -, written, changed⟩ |
        ⟨_, -, written, replied, same⟩
      · cases asked.symm.trans completion
      · refine ⟨?_, .inl written⟩
        rw [changed]
        exact ⟨label.1, same, .inl written⟩
      · have mode_asked : Asked calls before before.shared.mode :=
          ((followed.writes label.1 mode asked waiting).resolve_left
            (fun still => by cases still.symm.trans written)).1
        exact ⟨asked_mode_step taken mode_asked, .inr ⟨_, replied, mode_asked.step taken⟩⟩
    · rw [Pool.step_other _ taken own]
      refine (followed.writes request mode asked waiting).imp_right ?_
      rintro ⟨now, through⟩
      refine ⟨asked_mode_step taken now, through.imp_right ?_⟩
      rintro ⟨reply, replied, was⟩
      exact ⟨reply, replied, was.step taken⟩

theorem followed_of_run
    (reached : run (Pool.step (serve sha256 floats fixtures calls)) start labels = some final) :
    Followed sha256 floats fixtures calls start (modesIn sha256 floats fixtures calls start labels) final := by
  refine run_history (fun past pool =>
    Followed sha256 floats fixtures calls start (modesIn sha256 floats fixtures calls start past) pool)
    (followed_start start) ?_ reached
  intro past before label after earlier followed taken
  rw [modesIn, observe_concat earlier]
  exact followed.step taken

/-- In any stretch of any run, every mode that a step finds was there at the start or was asked for.
A completion request that begins and is answered in the stretch is answered as in a mode that was found
there, or as in the normal mode although the mode changed under it; so as in the mode itself when it does
not change. It sleeps only if the mode was found to be `timeout`, and only then. A request for a mode is
told a mode that was asked for. -/
theorem completions_by_mode
    (reached : run (Pool.step (serve sha256 floats fixtures calls)) start labels = some final) :
    (∀ mode ∈ modesIn sha256 floats fixtures calls start labels,
      mode = start.shared.mode ∨ Asked calls final mode) ∧
    (∀ request body slept response, calls request = .completion body → start.phase request = .waiting →
      final.phase request = .answered slept response →
      ByMode sha256 floats fixtures start.shared.retryAfterS body
        (modesIn sha256 floats fixtures calls start labels) response ∧
      (∀ mode, (∀ found ∈ modesIn sha256 floats fixtures calls start labels, found = mode) →
        AnswersIn sha256 floats fixtures start.shared.retryAfterS body response mode ∧
          (slept = true → mode = .timeout) ∧ (slept = false → response = .error .encode ∨ mode ≠ .timeout))) ∧
    ∀ request mode reply, calls request = .setMode mode → start.phase request = .waiting →
      final.phase request = .replied reply → Asked calls final reply := by
  have followed := followed_of_run reached
  refine ⟨followed.found, ?_, ?_⟩
  · intro request body slept response asked waiting answered
    have accounts := followed.completions request body asked waiting
    rw [answered] at accounts
    obtain ⟨answers, woken, awake⟩ := accounts
    refine ⟨answers, ?_⟩
    intro mode constant
    refine ⟨?_, fun slept => (constant _ (woken slept)).symm, fun still => (awake still).imp_right ?_⟩
    · rcases answers with ⟨other, member, answers⟩ | ⟨⟨one, first, other, second, apart⟩, -⟩
      · exact constant other member ▸ answers
      · exact absurd ((constant one first).trans (constant other second).symm) apart
    · rintro ⟨other, member, apart⟩
      exact constant other member ▸ apart
  · intro request mode reply asked waiting replied
    rcases followed.writes request mode asked waiting with still | ⟨-, written | ⟨_, told, known⟩⟩
    · cases still.symm.trans replied
    · cases written.symm.trans replied
    · cases told.symm.trans replied
      exact known

end

/-- A completion request, and one for the mode `500`. -/
def helloAndMode : Bool → Call
  | false => .completion (helloRequest none)
  | true => .setMode .serverError

/-- No request has come, and the mode is `429`. -/
def limited : Pool Bool Phase ServiceState := ⟨⟨.tooManyRequests, 2⟩, fun _ => .waiting⟩

/-- The mode becomes `500` between the tests for `500` and for `429`. -/
def between : List (Bool × Unit) := [(false, ()), (true, ()), (false, ()), (false, ()), (false, ())]

/-- The request is answered as in the normal mode, which it never was. -/
theorem completions_by_mode_between : ∃ final,
    run (Pool.step (serve spelledOut wholeFloats none helloAndMode)) limited between = some final ∧
      final.phase false = .answered false (completed spelledOut wholeFloats none (helloRequest none)
        (spelledOut helloBlob.toByteArray)) ∧
      .normal ∉ modesIn spelledOut wholeFloats none helloAndMode limited between ∧
      ByMode spelledOut wholeFloats none 2 (helloRequest none)
        (modesIn spelledOut wholeFloats none helloAndMode limited between)
        (completed spelledOut wholeFloats none (helloRequest none) (spelledOut helloBlob.toByteArray)) := by
  have hashed : requestHash spelledOut wholeFloats (helloRequest none).model
      ((helloRequest none).messages.map ChatMessage.dump) = .ok (spelledOut helloBlob.toByteArray) :=
    hello_hashed hello.dump (by simp)
  have first : chatStep spelledOut wholeFloats none (helloRequest none) ⟨.tooManyRequests, 2⟩ .waiting =
      some (.notServerError (spelledOut helloBlob.toByteArray)) := by
    rw [chatStep, hashed]
    rfl
  have outcome : (run (Pool.step (serve spelledOut wholeFloats none helloAndMode)) limited between).map
      (fun system => system.phase false) = some (.answered false (completed spelledOut wholeFloats none
        (helloRequest none) (spelledOut helloBlob.toByteArray))) := by
    simp only [between, run, Pool.step, limited, serve, helloAndMode, first, Option.map_some, Option.bind_some]
    rfl
  have modes : modesIn spelledOut wholeFloats none helloAndMode limited between =
      [.tooManyRequests, .tooManyRequests, .serverError, .serverError, .serverError] := by
    simp only [modesIn, observe, between, Pool.step, limited, serve, helloAndMode, first, Option.map_some]
    rfl
  obtain ⟨final, reached, answered⟩ := Option.map_eq_some_iff.mp outcome
  refine ⟨final, reached, answered, ?_, ?_⟩
  · rw [modes]
    decide
  · exact ((completions_by_mode reached).2.1 false _ _ _ rfl rfl answered).1

end N8nSystems.MockLlm
