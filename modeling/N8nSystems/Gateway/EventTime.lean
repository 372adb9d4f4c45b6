import N8nSystems.Gateway.Freshness
import N8nSystems.Gateway.InboxInvariant

/-! The event time of the custom scheme. `validCustom` trims `X-Timestamp` before
it parses it and `extractEvent` parses the header as it came. -/

namespace N8nSystems.Gateway

open Lib Lib.Go

/-- The `X-Timestamp` header as received. -/
def Request.timestamp (request : Request) : Bytes := request.header.get headerCustomTimestamp

/-- The event carries the time that `validCustom` parsed and held against the
tolerance. -/
def VerifiedTime (request : Request) (ev : InboxEvent) : Prop :=
  ∃ unix, parseInt (trimSpace request.timestamp) = some unix ∧
    withinTolerance (Time.unix unix) request.now sigTolerance = true ∧
    ev.sourceTS = some (Time.unix unix)

theorem Source.ofName_custom : Source.ofName (lit "custom") = some .custom := by
  rfl

theorem Source.name_of_ofName (known : Source.ofName text = some source) : source.name = text := by
  have found := List.find?_some known
  exact beq_iff_eq.mp found

/-- A text that `strconv.ParseInt` reads has no space to trim. -/
theorem trimSpace_parsed (parsed : parseInt text = some n) : trimSpace text = text :=
  trimSpace_plain fun b member => (parseInt_intByte parsed b member).word.plain

theorem parseInt_present (parsed : parseInt text = some n) : text.isEmpty = false := by
  cases text with
  | nil => cases parsed
  | cons => rfl

/-- The time of a custom event: the header, parsed without trimming. -/
theorem extractEvent_customTime
    (extracted : extractEvent decode .custom body h = some ev) :
    ev.sourceTS = (parseInt (h.get headerCustomTimestamp)).map Time.unix := by
  have filled := (Option.filter_eq_some_iff.mp extracted).1
  cases Option.some.inj filled
  cases parsed : parseInt (h.get headerCustomTimestamp) with
  | none => simp
  | some unix => simp [parseInt_present parsed]

variable {server : Server} {request : Request}

/-- What an admitted custom request went through: a parsed and fresh timestamp,
and the extraction of its event. -/
theorem prepare_custom (custom : request.source = lit "custom")
    (admitted : server.prepare request = .ok ev) :
    ∃ unix, parseInt (trimSpace request.timestamp) = some unix ∧
      withinTolerance (Time.unix unix) request.now sigTolerance = true ∧
      ev.sourceTS = (parseInt request.timestamp).map Time.unix := by
  obtain ⟨source, known, verified, extracted⟩ := Server.prepare_ok admitted
  rw [custom, Source.ofName_custom] at known
  cases known
  obtain ⟨⟨unix, parsed⟩, _⟩ := validCustom_accepts verified
  exact ⟨unix, parsed, validCustom_fresh parsed verified, extractEvent_customTime extracted⟩

theorem verifiedTime_iff (custom : request.source = lit "custom")
    (admitted : server.prepare request = .ok ev) :
    VerifiedTime request ev ↔ trimSpace request.timestamp = request.timestamp := by
  obtain ⟨unix, parsed, fresh, stamped⟩ := prepare_custom custom admitted
  constructor
  · rintro ⟨_, _, _, present⟩
    rw [stamped] at present
    obtain ⟨_, direct, _⟩ := Option.map_eq_some_iff.mp present
    exact trimSpace_parsed direct
  · intro trimmed
    refine ⟨unix, parsed, fresh, ?_⟩
    rw [trimmed] at parsed
    rw [stamped, parsed, Option.map_some]

/-- A request that is answered 200 has handed an event to the store. -/
theorem handleHook_accepted {Store : Type u} {insert : Store → InboxEvent → Option Bool × Store}
    {store : Store} (accepted : (server.handleHook insert request store).1.status = 200) :
    ∃ ev, server.prepare request = .ok ev ∧
      (server.handleHook insert request store).2 = (insert store ev).2 := by
  cases prepared : server.prepare request with
  | error answer =>
    rw [Server.handleHook, prepared] at accepted
    exact absurd accepted (Server.prepare_error prepared)
  | ok ev => exact ⟨ev, rfl, by rw [Server.handleHook, prepared]⟩

/-- The event of an accepted custom request has the verified time exactly when
the timestamp header came without space around it, over any store. -/
theorem customTime_verified_iff {Store : Type u} (server : Server)
    (insert : Store → InboxEvent → Option Bool × Store) (request : Request) (store : Store)
    (custom : request.source = lit "custom")
    (accepted : (server.handleHook insert request store).1.status = 200) :
    ∃ ev, server.prepare request = .ok ev ∧
      (server.handleHook insert request store).2 = (insert store ev).2 ∧
      (VerifiedTime request ev ↔ trimSpace request.timestamp = request.timestamp) := by
  obtain ⟨ev, admitted, stored⟩ := handleHook_accepted accepted
  exact ⟨ev, admitted, stored, verifiedTime_iff custom admitted⟩

def customServer : Server where
  crypto := ⟨sampleHmac, hexDecodeString, fun _ => none⟩
  decode := {
    jsonValid := fun body => body == lit "[]"
    unmarshalStripe := fun _ => none
    parseRFC3339Nano := fun _ => none
    parseRFC3339 := fun _ => none }
  secrets := ⟨[], [], [], lit "st"⟩

/-- A signed custom request with this timestamp header, one minute later. -/
def customRequest (timestamp : Bytes) : Request where
  source := lit "custom"
  body := lit "[]"
  broken := false
  header := fun name =>
    if name = lit "X-Timestamp" then [timestamp]
    else if name = lit "X-Signature" then [lit
      "e0fa00649e46cbcc4e8b32f24ff49ce888514febf6ff789728487136b1f8b453"]
    else if name = lit "X-Event-Id" then [lit "evt-1"]
    else []
  now := Time.unix 1789136820

/-- The event of such a request. -/
def customEvent (timestamp : Bytes) (time : Option Time) : InboxEvent where
  source := .custom
  externalEventID := lit "evt-1"
  eventType := lit "custom"
  sourceTS := time
  headers := [(headerCustomEventID, lit "evt-1"), (headerCustomTimestamp, timestamp)]
  payload := lit "[]"

theorem trimmed_prepared : customServer.prepare (customRequest (lit "1789136760")) =
    .ok (customEvent (lit "1789136760") (some (Time.unix 1789136760))) := by
  decide +kernel

theorem customTime_verified_trimmed :
    ∃ ev, customServer.prepare (customRequest (lit "1789136760")) = .ok ev ∧
      VerifiedTime (customRequest (lit "1789136760")) ev := by
  have accepted : (customServer.handleHook (MemoryStore.tryInsert .works)
      (customRequest (lit "1789136760")) .empty).1.status = 200 := by
    rw [Server.handleHook, trimmed_prepared]
    rfl
  obtain ⟨ev, admitted, _, verified⟩ := customTime_verified_iff customServer
    (MemoryStore.tryInsert .works) (customRequest (lit "1789136760")) .empty rfl accepted
  exact ⟨ev, admitted, verified.mpr (by decide +kernel)⟩

/-- A no-break space behind the timestamp. -/
def spacedRequest : Request := customRequest (lit "1789136760" ++ [0xC2, 0xA0])

theorem spaced_prepared : customServer.prepare spacedRequest =
    .ok (customEvent (lit "1789136760" ++ [0xC2, 0xA0]) none) := by
  decide +kernel

/-- The request with the space is accepted and its event is stored without a time. -/
theorem spaced_time_lost :
    let hook := customServer.handleHook (MemoryStore.tryInsert .works) spacedRequest .empty
    hook.1 = .new ∧ parseInt (trimSpace spacedRequest.timestamp) = some 1789136760 ∧
      ∃ ev, hook.2.events = [ev] ∧ ev.sourceTS = none ∧ ¬ VerifiedTime spacedRequest ev := by
  intro hook
  have handled : hook = (.new, (MemoryStore.empty.insert
      (customEvent (lit "1789136760" ++ [0xC2, 0xA0]) none)).2) := by
    simp only [hook, Server.handleHook, spaced_prepared]
    rfl
  rw [handled]
  refine ⟨rfl, by decide +kernel, _, rfl, rfl, ?_⟩
  rintro ⟨unix, _, _, stamped⟩
  cases stamped

/-- In every state of interleaved requests, each stored custom event was stored
for a request, and has the time verified there when that one's header is trimmed. -/
theorem stored_custom_time {ι : Type u} [DecidableEq ι] {requests : ι → Request}
    {labels : List (ι × Outcome)} {system : System ι}
    (reached : run (server.step requests) (System.init ι) labels = some system)
    (stored : ev ∈ system.shared.events) (custom : ev.source = .custom) :
    ∃ request, Won server requests system request ev ∧
      (VerifiedTime (requests request) ev ↔
        trimSpace (requests request).timestamp = (requests request).timestamp) := by
  obtain ⟨request, won⟩ := (InboxInvariant.of_run reached).winner ev stored
  obtain ⟨source, known, _, extracted⟩ := Server.prepare_ok won.1
  refine ⟨request, won, verifiedTime_iff ?_ won.1⟩
  rw [← Source.name_of_ofName known, ← (extractEvent_spec extracted).1, custom]
  rfl

end N8nSystems.Gateway
