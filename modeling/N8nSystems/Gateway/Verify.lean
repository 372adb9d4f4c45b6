import N8nSystems.Lib.GoText
import N8nSystems.Lib.GoTime
import N8nSystems.Lib.Run
import Mathlib.Algebra.Order.Group.Abs

/-! The signature checks of the webhook ingress (`ingress/verify.go`). HMAC and
the two decoders are parameters of the model. -/

namespace N8nSystems.Gateway

open Lib.Go

def maxBodyBytes : Nat := 2 ^ 20

def sigTolerance : Duration := 5 * 60 * 10 ^ 9

def headerGitHubSignature : Bytes := lit "X-Hub-Signature-256"
def headerGitHubDelivery : Bytes := lit "X-GitHub-Delivery"
def headerGitHubEvent : Bytes := lit "X-GitHub-Event"
def headerStripeSignature : Bytes := lit "Stripe-Signature"
def headerShopifyHMAC : Bytes := lit "X-Shopify-Hmac-Sha256"
def headerShopifyWebhookID : Bytes := lit "X-Shopify-Webhook-Id"
def headerShopifyTopic : Bytes := lit "X-Shopify-Topic"
def headerShopifyTriggered : Bytes := lit "X-Shopify-Triggered-At"
def headerShopifyShop : Bytes := lit "X-Shopify-Shop-Domain"
def headerShopifyAPIVersion : Bytes := lit "X-Shopify-API-Version"
def headerShopifyEventID : Bytes := lit "X-Shopify-Event-Id"
def headerCustomTimestamp : Bytes := lit "X-Timestamp"
def headerCustomSignature : Bytes := lit "X-Signature"
def headerCustomEventID : Bytes := lit "X-Event-Id"
def headerCustomEventType : Bytes := lit "X-Event-Type"

/-- The cryptographic and decoding functions the verifiers call. -/
structure Crypto where
  /-- HMAC-SHA256 of a key and a message. -/
  hmac : Bytes → Bytes → Bytes
  hexDecode : Bytes → Option Bytes
  base64Decode : Bytes → Option Bytes

section Verifiers

variable (crypto : Crypto)

def validGitHub (body header secret : Bytes) : Bool :=
  let header := trimSpace header
  if secret.isEmpty || !(lit "sha256=").isPrefixOf header then false
  else
    match crypto.hexDecode (header.drop (lit "sha256=").length) with
    | none => false
    | some got => got == crypto.hmac secret body

def withinTolerance (t now : Time) (d : Duration) : Bool :=
  let delta := now.sub t
  let delta := if delta < 0 then Duration.neg delta else delta
  decide (delta ≤ d)

/-- The check accepts an exact difference within the tolerance, and also one that
`Time.Sub` saturates at the least duration, which is its own negation. The upper
saturation is accepted by the greatest tolerance only. -/
theorem withinTolerance_iff (lower : minDuration ≤ d) (upper : d ≤ maxDuration) :
    withinTolerance t now d = true ↔
      now - t ≤ minDuration ∨ |now - t| ≤ d ∨ maxDuration < now - t ∧ d = maxDuration := by
  rw [withinTolerance, decide_eq_true_eq, abs_le]
  by_cases below : now - t ≤ minDuration
  · rw [Time.sub_least below, if_pos (by decide), Duration.neg_least]
    simp only [below, true_or, iff_true]
    exact lower
  · by_cases above : maxDuration < now - t
    · rw [Time.sub_greatest above, if_neg (by decide)]
      simp only [Time, Duration, minDuration, maxDuration] at lower upper below above ⊢
      omega
    · have least : minDuration < now - t := lt_of_not_ge below
      have greatest : now - t ≤ maxDuration := le_of_not_gt above
      rw [Time.sub_exact least.le greatest]
      by_cases negative : now - t < 0
      · rw [if_pos negative, Duration.neg_exact least greatest]
        simp only [Time, Duration, minDuration, maxDuration] at lower upper below above negative ⊢
        omega
      · rw [if_neg negative]
        simp only [Time, Duration, minDuration, maxDuration] at lower upper below above negative ⊢
        omega

/-- The accumulators of the header loop in `validStripe`. -/
structure StripeParts where
  ts : Int
  haveTS : Bool
  sigs : List Bytes

/-- One pass of the header loop; `none` is its early `return false`. -/
def stripePart (parts : StripeParts) (part : Bytes) : Option StripeParts :=
  match cut (trimSpace part) 61 with
  | none => none
  | some (key, value) =>
    if key = lit "t" then
      (parseInt value).map fun n => { parts with ts := n, haveTS := true }
    else if key = lit "v1" then
      match crypto.hexDecode value with
      | none => some parts
      | some sig => some { parts with sigs := parts.sigs ++ [sig] }
    else some parts

def stripeParts (header : Bytes) : Option StripeParts :=
  (split header 44).foldlM (stripePart crypto) ⟨0, false, []⟩

/-- The message Stripe signs: `{unix}.{raw body}`. -/
def stripeMessage (ts : Int) (body : Bytes) : Bytes := formatInt ts ++ dot :: body

def validStripe (body header secret : Bytes) (now : Time) : Bool :=
  if secret.isEmpty || (trimSpace header).isEmpty then false
  else
    match stripeParts crypto header with
    | none => false
    | some parts =>
      if !parts.haveTS || parts.sigs.isEmpty then false
      else if !withinTolerance (Time.unix parts.ts) now sigTolerance then false
      else
        let expected := crypto.hmac secret (stripeMessage parts.ts body)
        parts.sigs.any (expected == ·)

def validShopify (body header secret : Bytes) : Bool :=
  let header := trimSpace header
  if secret.isEmpty || header.isEmpty then false
  else
    match crypto.base64Decode header with
    | none => false
    | some got => got == crypto.hmac secret body

/-- The message of the custom scheme: the trimmed timestamp header, a dot and
the raw body. -/
def customMessage (ts body : Bytes) : Bytes := trimSpace ts ++ dot :: body

def validCustom (body ts sig secret : Bytes) (now : Time) : Bool :=
  if secret.isEmpty then false
  else
    match parseInt (trimSpace ts) with
    | none => false
    | some unix =>
      if !withinTolerance (Time.unix unix) now sigTolerance then false
      else
        match crypto.hexDecode (trimSpace sig) with
        | none => false
        | some got => got == crypto.hmac secret (customMessage ts body)

variable {crypto}

theorem validGitHub_accepts (accepted : validGitHub crypto body header secret = true) :
    ∃ digits, trimSpace header = lit "sha256=" ++ digits ∧
      crypto.hexDecode digits = some (crypto.hmac secret body) := by
  simp only [validGitHub] at accepted
  split at accepted
  · cases accepted
  · rename_i guard
    have marked : (lit "sha256=").isPrefixOf (trimSpace header) = true := by
      simp only [Bool.or_eq_true, Bool.not_eq_true', not_or, Bool.not_eq_false] at guard
      exact guard.2
    obtain ⟨digits, same⟩ := List.isPrefixOf_iff_prefix.mp marked
    rw [← same, List.drop_left] at accepted
    split at accepted
    · cases accepted
    · rename_i got decoded
      exact ⟨digits, same.symm, by rw [decoded, beq_iff_eq.mp accepted]⟩

/-- The comma-separated header holds a `key=value` part, up to surrounding space. -/
def HasPart (header key value : Bytes) : Prop :=
  ∃ part ∈ split header 44, cut (trimSpace part) 61 = some (key, value)

/-- What the header loop has read: a timestamp came from a `t` part and every
collected signature from a decodable `v1` part. -/
structure StripePartsRead (crypto : Crypto) (seen : List Bytes) (parts : StripeParts) : Prop where
  timestamp : parts.haveTS = true → ∃ part ∈ seen, ∃ text,
    cut (trimSpace part) 61 = some (lit "t", text) ∧ parseInt text = some parts.ts
  signatures : ∀ sig ∈ parts.sigs, ∃ part ∈ seen, ∃ digits,
    cut (trimSpace part) 61 = some (lit "v1", digits) ∧ crypto.hexDecode digits = some sig

theorem StripePartsRead.weaken (read : StripePartsRead crypto seen parts) (part : Bytes) :
    StripePartsRead crypto (seen ++ [part]) parts where
  timestamp have_ts := by
    obtain ⟨source, member, text, shape, parsed⟩ := read.timestamp have_ts
    exact ⟨source, List.mem_append_left _ member, text, shape, parsed⟩
  signatures sig collected := by
    obtain ⟨source, member, digits, shape, decoded⟩ := read.signatures sig collected
    exact ⟨source, List.mem_append_left _ member, digits, shape, decoded⟩

theorem stripePart_read (read : StripePartsRead crypto seen parts)
    (passed : stripePart crypto parts part = some next) :
    StripePartsRead crypto (seen ++ [part]) next := by
  unfold stripePart at passed
  have here : part ∈ seen ++ [part] := by simp
  split at passed
  · cases passed
  · rename_i key value shape
    split at passed
    · rename_i isTimestamp
      obtain ⟨n, parsed, rfl⟩ := Option.map_eq_some_iff.mp passed
      rw [isTimestamp] at shape
      exact ⟨fun _ => ⟨part, here, value, shape, parsed⟩, (read.weaken part).signatures⟩
    · split at passed
      · rename_i isSignature
        rw [isSignature] at shape
        split at passed
        · cases passed
          exact read.weaken part
        · rename_i sig decoded
          cases passed
          refine ⟨(read.weaken part).timestamp, ?_⟩
          intro other collected
          rcases List.mem_append.mp collected with old | new
          · exact (read.weaken part).signatures other old
          · obtain rfl : other = sig := by simpa using new
            exact ⟨part, here, value, shape, decoded⟩
      · cases passed
        exact read.weaken part

theorem stripeParts_read (parsed : stripeParts crypto header = some parts) :
    StripePartsRead crypto (split header 44) parts := by
  rw [stripeParts, ← Lib.run_eq_foldlM] at parsed
  refine Lib.run_history (StripePartsRead crypto) ⟨?_, ?_⟩ ?_ parsed
  · simp
  · simp
  · intro seen before part after _ read passed
    exact stripePart_read read passed

theorem validStripe_accepts (accepted : validStripe crypto body header secret now = true) :
    ∃ ts text digits, HasPart header (lit "t") text ∧ parseInt text = some ts ∧
      HasPart header (lit "v1") digits ∧
      crypto.hexDecode digits = some (crypto.hmac secret (stripeMessage ts body)) := by
  unfold validStripe at accepted
  split at accepted
  · cases accepted
  · split at accepted
    · cases accepted
    · rename_i parts parsed
      have read := stripeParts_read parsed
      split at accepted
      · cases accepted
      · rename_i complete
        split at accepted
        · cases accepted
        · have stamped : parts.haveTS = true := by
            simp only [Bool.or_eq_true, Bool.not_eq_true', not_or, Bool.not_eq_false] at complete
            exact complete.1
          obtain ⟨part, member, text, shape, value⟩ := read.timestamp stamped
          obtain ⟨sig, collected, same⟩ := List.any_eq_true.mp accepted
          obtain ⟨source, present, digits, signed, decoded⟩ := read.signatures sig collected
          refine ⟨parts.ts, text, digits, ⟨part, member, shape⟩, value, ⟨source, present, signed⟩, ?_⟩
          rw [decoded, beq_iff_eq.mp same]

theorem validShopify_accepts (accepted : validShopify crypto body header secret = true) :
    crypto.base64Decode (trimSpace header) = some (crypto.hmac secret body) := by
  simp only [validShopify] at accepted
  split at accepted
  · cases accepted
  · split at accepted
    · cases accepted
    · rename_i got decoded
      rw [decoded, beq_iff_eq.mp accepted]

theorem validCustom_accepts (accepted : validCustom crypto body ts sig secret now = true) :
    (∃ unix, parseInt (trimSpace ts) = some unix) ∧
      crypto.hexDecode (trimSpace sig) = some (crypto.hmac secret (customMessage ts body)) := by
  unfold validCustom at accepted
  split at accepted
  · cases accepted
  · split at accepted
    · cases accepted
    · rename_i unix parsed
      split at accepted
      · cases accepted
      · split at accepted
        · cases accepted
        · rename_i got decoded
          exact ⟨⟨unix, parsed⟩, by rw [decoded, beq_iff_eq.mp accepted]⟩

end Verifiers

end N8nSystems.Gateway
