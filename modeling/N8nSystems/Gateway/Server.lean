import N8nSystems.Gateway.Event
import N8nSystems.Lib.Pool

/-! The request handler of the ingress (`ingress/server.go`), first as one
function and then as the steps that concurrent requests interleave. -/

namespace N8nSystems.Gateway

open Lib Lib.Go

structure Secrets where
  stripe : Bytes
  shopify : Bytes
  github : Bytes
  custom : Bytes

/-- The configuration of one ingress process. -/
structure Server where
  crypto : Crypto
  decode : Decode
  secrets : Secrets

/-- A `POST /hooks/{source}` request. The body is a stream that may break off,
and `now` is what the clock reads when the signature is checked. -/
structure Request where
  source : Bytes
  body : Bytes
  broken : Bool
  header : Header
  now : Time

/-- The exits of `handleHook`. -/
inductive Answer where
  | notFound | tooLarge | invalidBody | badSignature | invalidJSON | missingID | unavailable
  | duplicate | new
  deriving DecidableEq, Repr

def Answer.status : Answer → Nat
  | .notFound => 404
  | .tooLarge => 413
  | .invalidBody => 400
  | .badSignature => 401
  | .invalidJSON => 400
  | .missingID => 400
  | .unavailable => 503
  | .duplicate => 200
  | .new => 200

/-- The JSON object of the response; an unknown source is answered in plain text. -/
def Answer.json : Answer → List (String × String)
  | .notFound => []
  | .tooLarge => [("error", "too large")]
  | .invalidBody => [("error", "invalid body")]
  | .badSignature => [("error", "bad signature")]
  | .invalidJSON => [("error", "invalid json")]
  | .missingID => [("error", "missing id")]
  | .unavailable => [("error", "unavailable")]
  | .duplicate => [("status", "ok"), ("result", "duplicate")]
  | .new => [("status", "ok"), ("result", "new")]

/-- `io.ReadAll` over `http.MaxBytesReader`: the limit is met before a later
break of the stream is seen. -/
def readBody (request : Request) : Except Answer Bytes :=
  if maxBodyBytes < request.body.length then .error .tooLarge
  else if request.broken then .error .invalidBody
  else .ok request.body

def Server.verify (server : Server) (source : Source) (body : Bytes) (h : Header) (now : Time) :
    Bool :=
  match source with
  | .github =>
    validGitHub server.crypto body (h.get headerGitHubSignature) server.secrets.github
  | .stripe =>
    validStripe server.crypto body (h.get headerStripeSignature) server.secrets.stripe now
  | .shopify =>
    validShopify server.crypto body (h.get headerShopifyHMAC) server.secrets.shopify
  | .custom =>
    validCustom server.crypto body (h.get headerCustomTimestamp) (h.get headerCustomSignature)
      server.secrets.custom now

/-- The part of `handleHook` before `Store.Insert`: route, read, verify, parse
and extract, in this order. -/
def Server.prepare (server : Server) (request : Request) : Except Answer InboxEvent :=
  match Source.ofName request.source with
  | none => .error .notFound
  | some source =>
    match readBody request with
    | .error answer => .error answer
    | .ok body =>
      if !server.verify source body request.header request.now then .error .badSignature
      else if !server.decode.jsonValid body then .error .invalidJSON
      else
        match extractEvent server.decode source body request.header with
        | none => .error .missingID
        | some ev => .ok ev

/-- The answer after `Store.Insert` returned; `none` is its error. -/
def answerInsert : Option Bool → Answer
  | none => .unavailable
  | some true => .new
  | some false => .duplicate

/-- `handleHook` over any store. -/
def Server.handleHook {Store : Type u} (server : Server)
    (insert : Store → InboxEvent → Option Bool × Store) (request : Request) (store : Store) :
    Answer × Store :=
  match server.prepare request with
  | .error answer => (answer, store)
  | .ok ev =>
    let (inserted, next) := insert store ev
    (answerInsert inserted, next)

/-- What an admitted request is made of: a known source, the whole body within
the limit, an accepted signature and the extracted event. -/
theorem Server.prepare_ok {server : Server} (admitted : server.prepare request = .ok ev) :
    ∃ source, Source.ofName request.source = some source ∧
      server.verify source request.body request.header request.now = true ∧
      extractEvent server.decode source request.body request.header = some ev := by
  unfold Server.prepare at admitted
  split at admitted
  · cases admitted
  · rename_i source known
    split at admitted
    · cases admitted
    · rename_i body read
      have whole : request.body = body := by
        unfold readBody at read
        split at read
        · cases read
        · split at read
          · cases read
          · exact Except.ok.inj read
      subst whole
      split at admitted
      · cases admitted
      · rename_i verified
        split at admitted
        · cases admitted
        · split at admitted
          · cases admitted
          · rename_i event extracted
            obtain rfl := Except.ok.inj admitted
            exact ⟨source, known, by simpa using verified, extracted⟩

theorem readBody_error (failed : readBody request = .error answer) : answer.status ≠ 200 := by
  unfold readBody at failed
  split at failed
  · obtain rfl := Except.error.inj failed
    decide
  · split at failed
    · obtain rfl := Except.error.inj failed
      decide
    · cases failed

theorem Server.prepare_error {server : Server} (refused : server.prepare request = .error answer) :
    answer.status ≠ 200 := by
  unfold Server.prepare at refused
  split at refused
  · obtain rfl := Except.error.inj refused
    decide
  · split at refused
    · rename_i failed
      obtain rfl := Except.error.inj refused
      exact readBody_error failed
    · split at refused
      · obtain rfl := Except.error.inj refused
        decide
      · split at refused
        · obtain rfl := Except.error.inj refused
          decide
        · split at refused
          · obtain rfl := Except.error.inj refused
            decide
          · cases refused

/-- Where a request stands between its atomic steps. -/
inductive Phase where
  | received
  | ready (ev : InboxEvent)
  | returned (ev : InboxEvent) (inserted : Option Bool)
  | answered (answer : Answer)

/-- The environment's choice at a step: whether `Store.Insert` fails. -/
inductive Outcome where
  | works | fails
  deriving DecidableEq, Repr

/-- One step of a request: the local checks, the atomic insert, the answer. -/
def Server.act (server : Server) {ι : Type u} (requests : ι → Request) (request : ι)
    (outcome : Outcome) (phase : Phase) (store : MemoryStore) : Option (Phase × MemoryStore) :=
  match phase with
  | .received =>
    match server.prepare (requests request) with
    | .error answer => some (.answered answer, store)
    | .ok ev => some (.ready ev, store)
  | .ready ev =>
    match outcome with
    | .fails => some (.returned ev none, store)
    | .works => some (.returned ev (some (store.insert ev).1), (store.insert ev).2)
  | .returned _ inserted => some (.answered (answerInsert inserted), store)
  | .answered _ => none

abbrev System (ι : Type u) := Pool ι Phase MemoryStore

def System.init (ι : Type u) : System ι := ⟨.empty, fun _ => .received⟩

variable {ι : Type u} [DecidableEq ι]

def Server.step (server : Server) (requests : ι → Request) (system : System ι)
    (label : ι × Outcome) : Option (System ι) :=
  Pool.step (server.act requests) system label

/-- Everything one step can do to the moving request and the store. -/
theorem Server.step_cases {server : Server} {requests : ι → Request} {before after : System ι}
    (taken : server.step requests before label = some after) :
    (∃ answer, before.phase label.1 = .received ∧
        server.prepare (requests label.1) = .error answer ∧
        after.phase label.1 = .answered answer ∧ after.shared = before.shared) ∨
      (∃ ev, before.phase label.1 = .received ∧ server.prepare (requests label.1) = .ok ev ∧
        after.phase label.1 = .ready ev ∧ after.shared = before.shared) ∨
      (∃ ev, before.phase label.1 = .ready ev ∧ label.2 = .fails ∧
        after.phase label.1 = .returned ev none ∧ after.shared = before.shared) ∨
      (∃ ev, before.phase label.1 = .ready ev ∧ label.2 = .works ∧
        after.phase label.1 = .returned ev (some (before.shared.insert ev).1) ∧
        after.shared = (before.shared.insert ev).2) ∨
      (∃ ev inserted, before.phase label.1 = .returned ev inserted ∧
        after.phase label.1 = .answered (answerInsert inserted) ∧
        after.shared = before.shared) := by
  have own := Pool.step_own _ taken
  cases phase : before.phase label.1 with
  | received =>
    simp only [Server.act, phase] at own
    split at own
    · rename_i answer refused
      obtain ⟨next, store⟩ := Prod.mk.inj (Option.some.inj own)
      exact .inl ⟨answer, rfl, refused, next.symm, store.symm⟩
    · rename_i ev admitted
      obtain ⟨next, store⟩ := Prod.mk.inj (Option.some.inj own)
      exact .inr (.inl ⟨ev, rfl, admitted, next.symm, store.symm⟩)
  | ready ev =>
    simp only [Server.act, phase] at own
    split at own
    · rename_i failed
      obtain ⟨next, store⟩ := Prod.mk.inj (Option.some.inj own)
      exact .inr (.inr (.inl ⟨ev, rfl, failed, next.symm, store.symm⟩))
    · rename_i works
      obtain ⟨next, store⟩ := Prod.mk.inj (Option.some.inj own)
      exact .inr (.inr (.inr (.inl ⟨ev, rfl, works, next.symm, store.symm⟩)))
  | returned ev inserted =>
    simp only [Server.act, phase] at own
    obtain ⟨next, store⟩ := Prod.mk.inj (Option.some.inj own)
    exact .inr (.inr (.inr (.inr ⟨ev, inserted, rfl, next.symm, store.symm⟩)))
  | answered answer =>
    simp [Server.act, phase] at own

/-- `Store.Insert` of the in-memory store under an outcome. -/
def MemoryStore.tryInsert (outcome : Outcome) (store : MemoryStore) (ev : InboxEvent) :
    Option Bool × MemoryStore :=
  match outcome with
  | .works => (some (store.insert ev).1, (store.insert ev).2)
  | .fails => (none, store)

/-- The steps of one request without steps of others in between are `handleHook`. -/
theorem Server.handleHook_run (server : Server) (requests : ι → Request) {system : System ι}
    {request : ι} (idle : system.phase request = .received) (outcome : Outcome) :
    ∃ steps, (run (server.step requests) system (List.replicate steps (request, outcome))).map
        (fun after => (after.phase request, after.shared)) =
      let hook := server.handleHook (MemoryStore.tryInsert outcome) (requests request) system.shared
      some (.answered hook.1, hook.2) := by
  cases prepared : server.prepare (requests request) with
  | error answer =>
    refine ⟨1, ?_⟩
    simp [List.replicate, run, Server.step, Pool.step, Server.act, idle, prepared,
      Server.handleHook]
  | ok ev =>
    refine ⟨3, ?_⟩
    cases outcome <;>
      simp [List.replicate, run, Server.step, Pool.step, Server.act, idle, prepared,
        Server.handleHook, MemoryStore.tryInsert]

end N8nSystems.Gateway
