import N8nSystems.Gateway.InboxInvariant

/-! What a stored row proves about the request it came from, and which part of a
request decides the key of its row. -/

namespace N8nSystems.Gateway

open Lib Lib.Go

variable {ι : Type u} [DecidableEq ι]

/-- The header carries a tag of the source's signed message under its secret. -/
def Signed (server : Server) (source : Source) (body : Bytes) (h : Header) : Prop :=
  match source with
  | .github => ∃ digits, trimSpace (h.get headerGitHubSignature) = lit "sha256=" ++ digits ∧
      server.crypto.hexDecode digits = some (server.crypto.hmac server.secrets.github body)
  | .stripe => ∃ ts text digits, HasPart (h.get headerStripeSignature) (lit "t") text ∧
      parseInt text = some ts ∧ HasPart (h.get headerStripeSignature) (lit "v1") digits ∧
      server.crypto.hexDecode digits =
        some (server.crypto.hmac server.secrets.stripe (stripeMessage ts body))
  | .shopify => server.crypto.base64Decode (trimSpace (h.get headerShopifyHMAC)) =
      some (server.crypto.hmac server.secrets.shopify body)
  | .custom => (∃ unix, parseInt (trimSpace (h.get headerCustomTimestamp)) = some unix) ∧
      server.crypto.hexDecode (trimSpace (h.get headerCustomSignature)) =
        some (server.crypto.hmac server.secrets.custom
          (customMessage (h.get headerCustomTimestamp) body))

theorem Server.verify_signed {server : Server}
    (verified : server.verify source body h now = true) : Signed server source body h := by
  cases source with
  | stripe => exact validStripe_accepts verified
  | shopify => exact validShopify_accepts verified
  | github => exact validGitHub_accepts verified
  | custom => exact validCustom_accepts verified

/-- The winner of a stored event is a handled request that carried the event's
payload as its body, with an accepted signature. -/
theorem stored_signed {server : Server} {requests : ι → Request} {past : List (ι × Outcome)}
    {system : System ι} {stored : InboxEvent} (valid : InboxInvariant server requests past system)
    (member : stored ∈ system.shared.events) :
    ∃ request, system.phase request ≠ .received ∧
      Source.ofName (requests request).source = some stored.source ∧
      (requests request).body = stored.payload ∧
      Signed server stored.source stored.payload (requests request).header := by
  obtain ⟨request, admitted, phases⟩ := valid.winner stored member
  obtain ⟨source, known, verified, extracted⟩ := Server.prepare_ok admitted
  obtain ⟨sameSource, samePayload, _, _⟩ := extractEvent_spec extracted
  refine ⟨request, ?_, ?_, samePayload.symm, ?_⟩
  · intro waiting
    rw [waiting] at phases
    simp at phases
  · rw [sameSource]
    exact known
  · rw [sameSource, samePayload]
    exact Server.verify_signed verified

theorem stripeMessage_injective (same : stripeMessage ts₁ body₁ = stripeMessage ts₂ body₂) :
    ts₁ = ts₂ ∧ body₁ = body₂ := by
  obtain ⟨texts, bodies⟩ := dotFrame_injective (formatInt_intByte ts₁) (formatInt_intByte ts₂) same
  exact ⟨formatInt_injective texts, bodies⟩

/-- `strconv.ParseInt` accepts no dot, so accepted timestamps end at the first one. -/
theorem customMessage_injective
    (first : validCustom crypto body₁ ts₁ sig₁ secret₁ now₁ = true)
    (second : validCustom crypto body₂ ts₂ sig₂ secret₂ now₂ = true)
    (same : customMessage ts₁ body₁ = customMessage ts₂ body₂) :
    trimSpace ts₁ = trimSpace ts₂ ∧ body₁ = body₂ := by
  obtain ⟨⟨_, parsed₁⟩, _⟩ := validCustom_accepts first
  obtain ⟨⟨_, parsed₂⟩, _⟩ := validCustom_accepts second
  exact dotFrame_injective (parseInt_intByte parsed₁) (parseInt_intByte parsed₂) same

/-- Two messages with one tag under a secret: a collision of the HMAC itself. -/
def Collide (crypto : Crypto) (secret first second : Bytes) : Prop :=
  first ≠ second ∧ crypto.hmac secret first = crypto.hmac secret second

theorem eq_or_collide (same : crypto.hmac secret first = crypto.hmac secret second) :
    first = second ∨ Collide crypto secret first second := by
  by_cases equal : first = second
  · exact .inl equal
  · exact .inr ⟨equal, same⟩

/-- A tag read from two accepted headers is the tag of both their messages. -/
theorem validCustom_same_tag
    (first : validCustom crypto body₁ ts₁ sig₁ secret now₁ = true)
    (second : validCustom crypto body₂ ts₂ sig₂ secret now₂ = true)
    (same : crypto.hexDecode (trimSpace sig₁) = crypto.hexDecode (trimSpace sig₂)) :
    crypto.hmac secret (customMessage ts₁ body₁) = crypto.hmac secret (customMessage ts₂ body₂) := by
  have tag₁ := (validCustom_accepts first).2
  have tag₂ := (validCustom_accepts second).2
  rw [same] at tag₁
  exact Option.some.inj (tag₁.symm.trans tag₂)

/-- Every stored row was carried as the raw body of a handled request for its
source, with a tag of the framed message under the source's secret. The Stripe
and custom framings lose nothing: the message gives back the timestamp text and
the body, so one tag fits one pair only, unless the two framed messages themselves
have the same HMAC. -/
theorem inbox_authentic (server : Server) (requests : ι → Request)
    (labels : List (ι × Outcome)) (system : System ι)
    (reached : run (server.step requests) (System.init ι) labels = some system) :
    (∀ stored ∈ system.shared.events, ∃ request, system.phase request ≠ .received ∧
      Source.ofName (requests request).source = some stored.source ∧
      (requests request).body = stored.payload ∧
      Signed server stored.source stored.payload (requests request).header) ∧
    (∀ ts₁ ts₂ body₁ body₂, stripeMessage ts₁ body₁ = stripeMessage ts₂ body₂ →
      ts₁ = ts₂ ∧ formatInt ts₁ = formatInt ts₂ ∧ body₁ = body₂) ∧
    (∀ body₁ ts₁ sig₁ secret₁ now₁ body₂ ts₂ sig₂ secret₂ now₂,
      validCustom server.crypto body₁ ts₁ sig₁ secret₁ now₁ = true →
      validCustom server.crypto body₂ ts₂ sig₂ secret₂ now₂ = true →
      customMessage ts₁ body₁ = customMessage ts₂ body₂ →
      trimSpace ts₁ = trimSpace ts₂ ∧ body₁ = body₂) ∧
    (∀ secret ts₁ ts₂ body₁ body₂, server.crypto.hmac secret (stripeMessage ts₁ body₁) =
        server.crypto.hmac secret (stripeMessage ts₂ body₂) → (ts₁ = ts₂ ∧ body₁ = body₂) ∨
      Collide server.crypto secret (stripeMessage ts₁ body₁) (stripeMessage ts₂ body₂)) ∧
    (∀ secret body₁ ts₁ sig₁ now₁ body₂ ts₂ sig₂ now₂,
      validCustom server.crypto body₁ ts₁ sig₁ secret now₁ = true →
      validCustom server.crypto body₂ ts₂ sig₂ secret now₂ = true →
      server.crypto.hexDecode (trimSpace sig₁) = server.crypto.hexDecode (trimSpace sig₂) →
      (trimSpace ts₁ = trimSpace ts₂ ∧ body₁ = body₂) ∨
        Collide server.crypto secret (customMessage ts₁ body₁) (customMessage ts₂ body₂)) := by
  have valid := InboxInvariant.of_run reached
  refine ⟨fun stored member => stored_signed valid member, ?_, ?_, ?_, ?_⟩
  · intro ts₁ ts₂ body₁ body₂ same
    obtain ⟨rfl, bodies⟩ := stripeMessage_injective same
    exact ⟨rfl, rfl, bodies⟩
  · intro body₁ ts₁ sig₁ secret₁ now₁ body₂ ts₂ sig₂ secret₂ now₂ first second same
    exact customMessage_injective first second same
  · intro secret ts₁ ts₂ body₁ body₂ tags
    exact (eq_or_collide tags).imp_left stripeMessage_injective
  · intro secret body₁ ts₁ sig₁ now₁ body₂ ts₂ sig₂ now₂ first second same
    exact (eq_or_collide (validCustom_same_tag first second same)).imp_left
      (customMessage_injective first second)

theorem inbox_authentic_storm :
    ∃ system, run (stormServer.step fun _ => stormRequest) (System.init (Fin 2)) stormLabels =
        some system ∧
      system.shared.events.map InboxEvent.payload = [lit "[]"] ∧
      ∀ stored ∈ system.shared.events,
        Signed stormServer stored.source stored.payload stormRequest.header := by
  obtain ⟨system, reached, _, _, payload⟩ := storm_run
  refine ⟨system, reached, payload, ?_⟩
  intro stored member
  obtain ⟨_, _, _, _, signed⟩ :=
    (inbox_authentic stormServer (fun _ => stormRequest) stormLabels system reached).1 stored member
  exact signed

/-- The headers a source's verifier reads. -/
def signatureHeaders : Source → List Bytes
  | .github => [headerGitHubSignature]
  | .stripe => [headerStripeSignature]
  | .shopify => [headerShopifyHMAC]
  | .custom => [headerCustomTimestamp, headerCustomSignature]

/-- The header a source's event id is taken from; Stripe's is in the body. -/
def idHeader : Source → Option Bytes
  | .github => some headerGitHubDelivery
  | .stripe => none
  | .shopify => some headerShopifyWebhookID
  | .custom => some headerCustomEventID

theorem Server.verify_congr (server : Server) (source : Source) (body : Bytes) (now : Time)
    {h₁ h₂ : Header} (same : ∀ name ∈ signatureHeaders source, h₁.get name = h₂.get name) :
    server.verify source body h₁ now = server.verify source body h₂ now := by
  cases source with
  | stripe => simp only [Server.verify, same headerStripeSignature (by simp [signatureHeaders])]
  | shopify => simp only [Server.verify, same headerShopifyHMAC (by simp [signatureHeaders])]
  | github => simp only [Server.verify, same headerGitHubSignature (by simp [signatureHeaders])]
  | custom => simp only [Server.verify, same headerCustomTimestamp (by simp [signatureHeaders]),
      same headerCustomSignature (by simp [signatureHeaders])]

/-- For one source and one body, the event ids agree exactly when the id headers do. -/
theorem eventID_eq_iff (first : eventID decode source body h₁ = some id₁)
    (second : eventID decode source body h₂ = some id₂) :
    id₁ = id₂ ↔ ∀ name ∈ idHeader source, h₁.get name = h₂.get name := by
  cases source with
  | stripe =>
    have same : id₁ = id₂ := Option.some.inj (first.symm.trans second)
    simp [idHeader, same]
  | shopify =>
    obtain rfl := Option.some.inj first
    obtain rfl := Option.some.inj second
    simp [idHeader]
  | github =>
    obtain rfl := Option.some.inj first
    obtain rfl := Option.some.inj second
    simp [idHeader]
  | custom =>
    obtain rfl := Option.some.inj first
    obtain rfl := Option.some.inj second
    simp [idHeader]

/-- The signed part of a message does not fix its key: the same body under the
same signature header, with another delivery id, is stored a second time. -/
def replayRequest : Fin 2 → Request
  | 0 => stormRequest
  | 1 => { stormRequest with
      header := fun name =>
        if name = lit "X-Github-Delivery" then [lit "storm-2"] else stormRequest.header name }

theorem replay_prepared : stormServer.prepare (replayRequest 1) = .ok { stormEvent with
    externalEventID := lit "storm-2"
    headers := [(headerGitHubDelivery, lit "storm-2"), (headerGitHubEvent, lit "push")] } := by
  decide +kernel

theorem replay_second_row :
    ∃ system, run (stormServer.step replayRequest) (System.init (Fin 2)) stormLabels =
        some system ∧
      (replayRequest 0).source = (replayRequest 1).source ∧
      (replayRequest 0).body = (replayRequest 1).body ∧
      (replayRequest 0).header.get headerGitHubSignature =
        (replayRequest 1).header.get headerGitHubSignature ∧
      system.phase 0 = .answered .new ∧ system.phase 1 = .answered .new ∧
      system.shared.events.map InboxEvent.key =
        [(.github, lit "storm-2"), (.github, lit "storm-1")] := by
  have outcome : (run (stormServer.step replayRequest) (System.init (Fin 2)) stormLabels).map
      (fun system => (system.phase 0, system.phase 1, system.shared.events.map InboxEvent.key)) =
        some (.answered .new, .answered .new,
          [(.github, lit "storm-2"), (.github, lit "storm-1")]) := by
    have first : stormServer.prepare (replayRequest 0) = .ok stormEvent := storm_prepared
    simp only [stormLabels, run, Server.step, Pool.step, System.init, Server.act, first,
      replay_prepared, Option.bind_some, Option.map_some]
    rfl
  obtain ⟨system, reached, same⟩ := Option.map_eq_some_iff.mp outcome
  obtain ⟨first, others⟩ := Prod.mk.inj same
  obtain ⟨second, keys⟩ := Prod.mk.inj others
  exact ⟨system, reached, rfl, rfl, by decide, first, second, keys⟩

/-- Two admitted requests for one source with the same body have the same key
exactly when the id header of the source agrees, and always for Stripe. With
the same key they never add two rows. The verdict on a signature depends on the
body and the signature headers alone, and no id header is one of them. -/
theorem replay_key (server : Server) (requests : ι → Request) (labels : List (ι × Outcome))
    (system : System ι)
    (reached : run (server.step requests) (System.init ι) labels = some system)
    (first second : ι) (ev other : InboxEvent)
    (admitted : server.prepare (requests first) = .ok ev)
    (also : server.prepare (requests second) = .ok other)
    (source : (requests first).source = (requests second).source)
    (body : (requests first).body = (requests second).body) :
    (ev.key = other.key ↔ ∀ name ∈ idHeader ev.source,
      (requests first).header.get name = (requests second).header.get name) ∧
    (ev.source = .stripe → ev.key = other.key) ∧
    (ev.key = other.key → system.phase first = .answered .new →
      system.phase second = .answered .new → first = second) ∧
    (∀ h now, (∀ name ∈ signatureHeaders ev.source,
        (requests first).header.get name = h.get name) →
      server.verify ev.source (requests first).body h now =
        server.verify ev.source (requests first).body (requests first).header now) ∧
    (∀ name ∈ idHeader ev.source, canonicalHeaderKey name ∉
      (signatureHeaders ev.source).map canonicalHeaderKey) := by
  have valid := InboxInvariant.of_run reached
  obtain ⟨known, ofName, _, extracted⟩ := Server.prepare_ok admitted
  obtain ⟨known', ofName', _, extracted'⟩ := Server.prepare_ok also
  obtain rfl : known = known' := by
    rw [source] at ofName
    exact Option.some.inj (ofName.symm.trans ofName')
  obtain ⟨sameSource, _, _, id⟩ := extractEvent_spec extracted
  obtain ⟨sameSource', _, _, id'⟩ := extractEvent_spec extracted'
  rw [← body] at id'
  have keys : ev.key = other.key ↔ ev.externalEventID = other.externalEventID := by
    simp [InboxEvent.key, sameSource, sameSource']
  have headers := eventID_eq_iff id id'
  rw [sameSource]
  refine ⟨keys.trans headers, ?_, ?_, ?_, ?_⟩
  · intro stripe
    apply (keys.trans headers).mpr
    simp [stripe, idHeader]
  · intro same phase phase'
    exact valid.unique first second ev other ⟨admitted, .inr phase⟩ ⟨also, .inr phase'⟩ same
  · intro h now same
    exact (server.verify_congr known _ now same).symm
  · cases known <;> decide

/-- The storm request again, with another event type: a header no signature covers. -/
def retypedRequest : Request where
  source := stormRequest.source
  body := stormRequest.body
  broken := stormRequest.broken
  header := fun name =>
    if name = lit "X-Github-Event" then [lit "ping"] else stormRequest.header name
  now := stormRequest.now

def retypedStorm : Fin 2 → Request := Fin.cases stormRequest fun _ => retypedRequest

theorem retyped_prepared : stormServer.prepare (retypedStorm 1) = .ok { stormEvent with
    eventType := lit "ping"
    headers := [(headerGitHubDelivery, lit "storm-1"), (headerGitHubEvent, lit "ping")] } := by
  decide +kernel

theorem retyped_run :
    ∃ system, run (stormServer.step retypedStorm) (System.init (Fin 2)) stormLabels = some system ∧
      system.phase 1 = .answered .new := by
  have outcome : (run (stormServer.step retypedStorm) (System.init (Fin 2)) stormLabels).map
      (fun system => system.phase 1) = some (.answered .new) := by
    have first : stormServer.prepare (retypedStorm 0) = .ok stormEvent := storm_prepared
    simp only [stormLabels, run, Server.step, Pool.step, System.init, Server.act, first,
      retyped_prepared, Option.bind_some, Option.map_some]
    rfl
  exact Option.map_eq_some_iff.mp outcome

theorem replay_key_storm :
    ∃ system ev other,
      run (stormServer.step retypedStorm) (System.init (Fin 2)) stormLabels = some system ∧
      stormServer.prepare (retypedStorm 0) = .ok ev ∧
      stormServer.prepare (retypedStorm 1) = .ok other ∧
      ev.eventType ≠ other.eventType ∧ ev.key = other.key ∧
      system.phase 1 = .answered .new ∧ system.phase 0 ≠ .answered .new := by
  obtain ⟨system, reached, new⟩ := retyped_run
  have replayed := replay_key stormServer retypedStorm stormLabels system reached 0 1 stormEvent _
    storm_prepared retyped_prepared rfl rfl
  have key := replayed.1.mpr (by decide)
  refine ⟨system, _, _, reached, storm_prepared, retyped_prepared, by decide, key, new, ?_⟩
  intro again
  cases replayed.2.2.1 key again new

end N8nSystems.Gateway
