import Mathlib.Data.List.Nodup
import N8nSystems.Gateway.Verify

/-! Event extraction and the in-memory inbox (`ingress/extract.go` and
`ingress/store.go`). JSON decoding and RFC 3339 parsing are parameters. -/

namespace N8nSystems.Gateway

open Lib.Go

/-- The keys of `allowedSources`. -/
inductive Source where
  | stripe | shopify | github | custom
  deriving DecidableEq, Repr

def Source.name : Source → Bytes
  | .stripe => lit "stripe"
  | .shopify => lit "shopify"
  | .github => lit "github"
  | .custom => lit "custom"

/-- The lookup of a path value in `allowedSources`. -/
def Source.ofName (name : Bytes) : Option Source :=
  [Source.stripe, .shopify, .github, .custom].find? (·.name == name)

theorem Source.name_injective : Function.Injective Source.name := by
  intro first second same
  revert same
  cases first <;> cases second <;> decide

def headerAllow : Source → List Bytes
  | .github => [headerGitHubDelivery, headerGitHubEvent, lit "User-Agent", lit "X-GitHub-Hook-ID"]
  | .shopify => [headerShopifyWebhookID, headerShopifyTopic, headerShopifyShop,
      headerShopifyAPIVersion, headerShopifyTriggered, headerShopifyEventID]
  | .stripe => [lit "Stripe-Account", lit "User-Agent"]
  | .custom => [headerCustomEventID, headerCustomEventType, headerCustomTimestamp]

structure StripeBody where
  id : Bytes
  type : Bytes
  created : Int

/-- The standard-library decoders the ingress calls on untrusted text. -/
structure Decode where
  /-- `json.Valid`. -/
  jsonValid : Bytes → Bool
  /-- `json.Unmarshal` into a `stripeBody`. -/
  unmarshalStripe : Bytes → Option StripeBody
  parseRFC3339Nano : Bytes → Option Time
  parseRFC3339 : Bytes → Option Time

structure InboxEvent where
  source : Source
  externalEventID : Bytes
  eventType : Bytes
  sourceTS : Option Time
  headers : List (Bytes × Bytes)
  payload : Bytes
  deriving DecidableEq

/-- The pair under which the inbox deduplicates. -/
def InboxEvent.key (ev : InboxEvent) : Source × Bytes := (ev.source, ev.externalEventID)

def allowHeaders (source : Source) (h : Header) : List (Bytes × Bytes) :=
  (headerAllow source).filterMap fun name =>
    let v := h.get name
    if v.isEmpty then none else some (name, v)

/-- The switch of `extractEvent`, before its final check for empty fields. -/
def fillEvent (decode : Decode) (source : Source) (body : Bytes) (h : Header) :
    Option InboxEvent :=
  let ev : InboxEvent :=
    { source := source, externalEventID := [], eventType := [], sourceTS := none,
      headers := allowHeaders source h, payload := body }
  match source with
  | .github => some { ev with
      externalEventID := h.get headerGitHubDelivery
      eventType := h.get headerGitHubEvent }
  | .shopify =>
    let raw := h.get headerShopifyTriggered
    some { ev with
      externalEventID := h.get headerShopifyWebhookID
      eventType := h.get headerShopifyTopic
      sourceTS :=
        if raw.isEmpty then none
        else (decode.parseRFC3339Nano raw).or (decode.parseRFC3339 raw) }
  | .stripe => (decode.unmarshalStripe body).map fun (p : StripeBody) => { ev with
      externalEventID := p.id
      eventType := p.type
      sourceTS := if 0 < p.created then some (Time.unix p.created) else none }
  | .custom =>
    let eventType := h.get headerCustomEventType
    let raw := h.get headerCustomTimestamp
    some { ev with
      externalEventID := h.get headerCustomEventID
      eventType := if eventType.isEmpty then lit "custom" else eventType
      sourceTS := if raw.isEmpty then none else (parseInt raw).map Time.unix }

def extractEvent (decode : Decode) (source : Source) (body : Bytes) (h : Header) :
    Option InboxEvent :=
  (fillEvent decode source body h).filter fun ev =>
    !ev.externalEventID.isEmpty && !ev.eventType.isEmpty

/-- Where each source's event id comes from. -/
def eventID (decode : Decode) (source : Source) (body : Bytes) (h : Header) : Option Bytes :=
  match source with
  | .github => some (h.get headerGitHubDelivery)
  | .shopify => some (h.get headerShopifyWebhookID)
  | .stripe => (decode.unmarshalStripe body).map (·.id)
  | .custom => some (h.get headerCustomEventID)

theorem fillEvent_spec (filled : fillEvent decode source body h = some ev) :
    ev.source = source ∧ ev.payload = body ∧ ev.headers = allowHeaders source h ∧
      eventID decode source body h = some ev.externalEventID := by
  cases source with
  | stripe =>
    obtain ⟨p, parsed, rfl⟩ := Option.map_eq_some_iff.mp filled
    simp [eventID, parsed]
  | shopify =>
    cases Option.some.inj filled
    exact ⟨rfl, rfl, rfl, rfl⟩
  | github =>
    cases Option.some.inj filled
    exact ⟨rfl, rfl, rfl, rfl⟩
  | custom =>
    cases Option.some.inj filled
    exact ⟨rfl, rfl, rfl, rfl⟩

/-- An extracted event keeps its source and the raw body, and takes its id from
the place named by `eventID`. -/
theorem extractEvent_spec (extracted : extractEvent decode source body h = some ev) :
    ev.source = source ∧ ev.payload = body ∧ ev.headers = allowHeaders source h ∧
      eventID decode source body h = some ev.externalEventID :=
  fillEvent_spec (Option.filter_eq_some_iff.mp extracted).1

theorem extractEvent_complete (extracted : extractEvent decode source body h = some ev) :
    ev.externalEventID ≠ [] ∧ ev.eventType ≠ [] := by
  have present := (Option.filter_eq_some_iff.mp extracted).2
  simpa using present

def inboxKey (source id : Bytes) : Bytes := source ++ 0 :: id

theorem Source.nul_not_mem (source : Source) : (0 : UInt8) ∉ source.name := by
  cases source <;> decide

/-- No source name holds a NUL byte, so the concatenated key determines the
source and the id, whatever bytes the id holds. -/
theorem inboxKey_injective {source₁ source₂ : Source}
    (same : inboxKey source₁.name id₁ = inboxKey source₂.name id₂) :
    source₁ = source₂ ∧ id₁ = id₂ := by
  obtain ⟨names, ids⟩ := frame_injective source₁.nul_not_mem source₂.nul_not_mem same
  exact ⟨Source.name_injective names, ids⟩

def InboxEvent.rowKey (ev : InboxEvent) : Bytes := inboxKey ev.source.name ev.externalEventID

theorem InboxEvent.rowKey_eq_iff {first second : InboxEvent} :
    first.rowKey = second.rowKey ↔ first.key = second.key := by
  constructor
  · intro same
    obtain ⟨sources, ids⟩ := inboxKey_injective same
    exact Prod.ext sources ids
  · intro same
    have sources : first.source = second.source := congrArg Prod.fst same
    have ids : first.externalEventID = second.externalEventID := congrArg Prod.snd same
    rw [InboxEvent.rowKey, InboxEvent.rowKey, sources, ids]

/-- The rows of the map, oldest first. Every event is stored under its own key
and no key has two rows. -/
structure MemoryStore where
  rows : List (Bytes × InboxEvent)
  keyed : ∀ row ∈ rows, row.1 = row.2.rowKey
  nodup : (rows.map Prod.fst).Nodup

def MemoryStore.empty : MemoryStore := ⟨[], by simp, by simp⟩

def MemoryStore.events (store : MemoryStore) : List InboxEvent := store.rows.map Prod.snd

/-- `MemoryStore.Insert`: keep the first event of a key and report whether the
event was stored. -/
def MemoryStore.insert (store : MemoryStore) (ev : InboxEvent) : Bool × MemoryStore :=
  if exists_ : ev.rowKey ∈ store.rows.map Prod.fst then (false, store)
  else (true, {
    rows := store.rows ++ [(ev.rowKey, ev)]
    keyed := by
      intro row member
      rcases List.mem_append.mp member with old | new
      · exact store.keyed row old
      · obtain rfl : row = (ev.rowKey, ev) := by simpa using new
        rfl
    nodup := by
      have grown := List.Nodup.concat exists_ store.nodup
      simpa using grown })

/-- `MemoryStore.Has`. -/
def MemoryStore.has (store : MemoryStore) (source : Source) (id : Bytes) : Bool :=
  (store.rows.map Prod.fst).contains (inboxKey source.name id)

theorem MemoryStore.mem_keys_iff (store : MemoryStore) (ev : InboxEvent) :
    ev.rowKey ∈ store.rows.map Prod.fst ↔ ∃ stored ∈ store.events, stored.key = ev.key := by
  constructor
  · intro member
    obtain ⟨row, present, same⟩ := List.mem_map.mp member
    refine ⟨row.2, List.mem_map.mpr ⟨row, present, rfl⟩, ?_⟩
    rw [store.keyed row present] at same
    exact InboxEvent.rowKey_eq_iff.mp same
  · rintro ⟨stored, member, same⟩
    obtain ⟨row, present, rfl⟩ := List.mem_map.mp member
    refine List.mem_map.mpr ⟨row, present, ?_⟩
    rw [store.keyed row present]
    exact InboxEvent.rowKey_eq_iff.mpr same

/-- The store holds at most one event for each source and external id. -/
theorem MemoryStore.keys_nodup (store : MemoryStore) :
    (store.events.map InboxEvent.key).Nodup := by
  have rowKeys : store.rows.map Prod.fst = store.events.map InboxEvent.rowKey := by
    rw [MemoryStore.events, List.map_map]
    exact List.map_congr_left store.keyed
  have distinct : (store.events.map InboxEvent.rowKey).Nodup := rowKeys ▸ store.nodup
  have shape : store.events.map InboxEvent.rowKey =
      (store.events.map InboxEvent.key).map fun key => inboxKey key.1.name key.2 := by
    simp [InboxEvent.rowKey, InboxEvent.key]
  rw [shape] at distinct
  exact List.Nodup.of_map _ distinct

/-- What one insert does: a new key is appended and reported as stored, a known
key leaves the store as it is. -/
theorem MemoryStore.insert_cases (store : MemoryStore) (ev : InboxEvent) :
    (store.insert ev = (false, store) ∧ ∃ stored ∈ store.events, stored.key = ev.key) ∨
      ((store.insert ev).1 = true ∧ (store.insert ev).2.events = store.events ++ [ev] ∧
        ∀ stored ∈ store.events, stored.key ≠ ev.key) := by
  by_cases known : ev.rowKey ∈ store.rows.map Prod.fst
  · left
    exact ⟨by simp only [MemoryStore.insert, known, ↓reduceDIte],
      (store.mem_keys_iff ev).mp known⟩
  · right
    refine ⟨by simp only [MemoryStore.insert, known, ↓reduceDIte], ?_, ?_⟩
    · simp only [MemoryStore.insert, known, ↓reduceDIte, MemoryStore.events, List.map_append,
        List.map_cons, List.map_nil]
    · intro stored member same
      exact known ((store.mem_keys_iff ev).mpr ⟨stored, member, same⟩)

end N8nSystems.Gateway
