import N8nSystems.Gateway.Verify
import N8nSystems.Lib.GoCodec

/-! The sender's side of the signature schemes, and that the verifiers accept
what a sender with the same secret signs. -/

namespace N8nSystems.Gateway

open Lib.Go

/-- The encoders a sender uses, with what the verifiers' decoders know of them. -/
structure Signer extends Crypto where
  hexEncode : Bytes → Bytes
  base64Encode : Bytes → Bytes
  hex_decode : ∀ bytes, hexDecode (hexEncode bytes) = some bytes
  hex_word : ∀ bytes, ∀ b ∈ hexEncode bytes, WordByte b
  base64_decode : ∀ bytes, base64Decode (base64Encode bytes) = some bytes
  base64_word : ∀ bytes, ∀ b ∈ base64Encode bytes, WordByte b
  base64_present : ∀ bytes, bytes ≠ [] → base64Encode bytes ≠ []
  hmac_present : ∀ key message, hmac key message ≠ []

/-- A signer with the codecs of the standard library. -/
def Signer.standard (hmac : Bytes → Bytes → Bytes) (present : ∀ key message, hmac key message ≠ []) :
    Signer where
  hmac := hmac
  hexDecode := hexDecodeString
  base64Decode := base64DecodeString
  hexEncode := hexEncodeToString
  base64Encode := base64EncodeToString
  hex_decode := hexDecodeString_encode
  hex_word := hexEncodeToString_word
  base64_decode := base64DecodeString_encode
  base64_word := base64EncodeToString_word
  base64_present := fun _ => base64EncodeToString_ne_nil
  hmac_present := present

namespace Signer

variable (signer : Signer)

def githubMAC (secret body : Bytes) : Bytes :=
  lit "sha256=" ++ signer.hexEncode (signer.hmac secret body)

def shopifyMAC (secret body : Bytes) : Bytes := signer.base64Encode (signer.hmac secret body)

def customMAC (secret ts body : Bytes) : Bytes :=
  signer.hexEncode (signer.hmac secret (ts ++ dot :: body))

/-- The `t` part of a Stripe signature header. -/
def stampPart (ts : Int) : Bytes := lit "t=" ++ formatInt ts

/-- The `v1` part of a Stripe signature header. -/
def signaturePart (secret : Bytes) (ts : Int) (body : Bytes) : Bytes :=
  lit "v1=" ++ signer.hexEncode (signer.hmac secret (formatInt ts ++ dot :: body))

def stripeMAC (secret : Bytes) (ts : Int) (body : Bytes) : Bytes :=
  stampPart ts ++ 44 :: signer.signaturePart secret ts body

end Signer

/-- The part with white space around it. -/
def Padded (core part : Bytes) : Prop :=
  ∃ left right, Blank left ∧ Blank right ∧ part = left ++ (core ++ right)

/-- A comma-free `key=value` part whose key, after leading white space, is not
`t`. Any value may stand there, hexadecimal or not. -/
structure FurtherPart (part : Bytes) : Prop where
  commaFree : (44 : UInt8) ∉ part
  keyed : ∃ left key value, Blank left ∧ part = left ++ (key ++ 61 :: value) ∧
    (61 : UInt8) ∉ key ∧ Stops spaceRunes key ∧ key ≠ lit "t"

theorem equals_plain : Plain 61 := by
  decide

theorem comma_plain : Plain 44 := by
  decide

theorem padded_self (core : Bytes) : Padded core core := ⟨[], [], blank_nil, blank_nil, by simp⟩

section Loop

variable {crypto : Crypto}

/-- A further part passes, and at most a signature is collected from it. -/
theorem stripePart_further (further : FurtherPart part) (parts : StripeParts) :
    ∃ more, stripePart crypto parts part = some { parts with sigs := parts.sigs ++ more } := by
  obtain ⟨left, key, value, blank, rfl, separated, starts, other⟩ := further.keyed
  obtain ⟨kept, trimmed⟩ := trimSpace_before blank equals_plain starts value
  rw [stripePart, trimmed, cut_append separated]
  simp only [other, ↓reduceIte]
  split
  · split
    · exact ⟨[], by simp⟩
    · rename_i sig decoded
      exact ⟨[sig], rfl⟩
  · exact ⟨[], by simp⟩

theorem foldlM_further (crypto : Crypto) {list : List Bytes} (further : ∀ part ∈ list, FurtherPart part)
    (parts : StripeParts) :
    ∃ more, list.foldlM (stripePart crypto) parts =
      some { parts with sigs := parts.sigs ++ more } := by
  induction list generalizing parts with
  | nil => exact ⟨[], by simp⟩
  | cons first rest ih =>
    obtain ⟨more, passed⟩ := stripePart_further (further first (by simp)) parts
    obtain ⟨others, remaining⟩ := ih (fun part later => further part (by simp [later]))
      { parts with sigs := parts.sigs ++ more }
    refine ⟨more ++ others, ?_⟩
    rw [List.foldlM_cons, passed, Option.bind_eq_bind, Option.bind_some, remaining]
    simp

theorem Padded.trimSpace (padded : Padded core part) (word : ∀ b ∈ core, WordByte b)
    (present : core ≠ []) : trimSpace part = core := by
  obtain ⟨left, right, leading, trailing, rfl⟩ := padded
  exact trimSpace_padded leading trailing (fun b member => (word b member).plain) present

theorem Padded.commaFree (padded : Padded core part) (word : ∀ b ∈ core, WordByte b) :
    (44 : UInt8) ∉ part := by
  obtain ⟨left, right, leading, trailing, rfl⟩ := padded
  simp only [List.mem_append, not_or]
  exact ⟨leading.not_mem comma_plain, fun member => (word 44 member).ne_comma rfl,
    trailing.not_mem comma_plain⟩

theorem stampPart_word (ts : Int) : ∀ b ∈ Signer.stampPart ts, WordByte b := by
  have keys : ∀ b ∈ lit "t=", WordByte b := wordBytes_of_all rfl
  intro b member
  rcases List.mem_append.mp member with key | value
  · exact keys b key
  · exact (formatInt_intByte ts b value).word

theorem stripePart_stamp (padded : Padded (Signer.stampPart ts) part) (lower : -(2 ^ 63) ≤ ts)
    (upper : ts < 2 ^ 63) (parts : StripeParts) :
    stripePart crypto parts part = some { parts with ts := ts, haveTS := true } := by
  have shape : Signer.stampPart ts = lit "t" ++ 61 :: formatInt ts := rfl
  rw [stripePart, padded.trimSpace (stampPart_word ts) (by simp [shape]), shape,
    cut_append (by decide)]
  simp only [↓reduceIte, parseInt_formatInt lower upper, Option.map_some]

end Loop

namespace Signer

variable (signer : Signer)

theorem signaturePart_word (secret : Bytes) (ts : Int) (body : Bytes) :
    ∀ b ∈ signer.signaturePart secret ts body, WordByte b := by
  have keys : ∀ b ∈ lit "v1=", WordByte b := wordBytes_of_all rfl
  intro b member
  rcases List.mem_append.mp member with key | value
  · exact keys b key
  · exact signer.hex_word _ b value

theorem stripePart_signature (padded : Padded (signer.signaturePart secret ts body) part)
    (parts : StripeParts) : stripePart signer.toCrypto parts part =
      some { parts with
        sigs := parts.sigs ++ [signer.hmac secret (stripeMessage ts body)] } := by
  have shape : signer.signaturePart secret ts body =
      lit "v1" ++ 61 :: signer.hexEncode (signer.hmac secret (stripeMessage ts body)) := rfl
  rw [stripePart, padded.trimSpace (signer.signaturePart_word secret ts body) (by simp [shape]),
    shape, cut_append (by decide)]
  simp only [show lit "v1" ≠ lit "t" by decide, ↓reduceIte, signer.hex_decode]

/-- A signed header read back into its parts. -/
theorem split_signed (further : ∀ part ∈ before ++ middle ++ after, FurtherPart part)
    (stamp : Padded (stampPart ts) stamped)
    (signature : Padded (signer.signaturePart secret ts body) signed) :
    split ([44].intercalate (before ++ stamped :: (middle ++ signed :: after))) 44 =
      before ++ stamped :: (middle ++ signed :: after) := by
  simp only [List.mem_append] at further
  apply List.splitOn_intercalate
  · intro part member
    simp only [List.mem_append, List.mem_cons] at member
    rcases member with early | rfl | inner | rfl | late
    · exact (further part (.inl (.inl early))).commaFree
    · exact stamp.commaFree (stampPart_word ts)
    · exact (further part (.inl (.inr inner))).commaFree
    · exact signature.commaFree (signer.signaturePart_word secret ts body)
    · exact (further part (.inr late)).commaFree
  · simp

/-- The header loop over a signed header with further parts anywhere in it. -/
theorem stripeParts_signed (lower : -(2 ^ 63) ≤ ts) (upper : ts < 2 ^ 63)
    (further : ∀ part ∈ before ++ middle ++ after, FurtherPart part)
    (stamp : Padded (stampPart ts) stamped)
    (signature : Padded (signer.signaturePart secret ts body) signed) :
    ∃ first second, stripeParts signer.toCrypto
        ([44].intercalate (before ++ stamped :: (middle ++ signed :: after))) =
      some ⟨ts, true, first ++ signer.hmac secret (stripeMessage ts body) :: second⟩ := by
  rw [stripeParts, signer.split_signed further stamp signature]
  simp only [List.mem_append] at further
  obtain ⟨early, passed⟩ := foldlM_further signer.toCrypto
    (fun part member => further part (.inl (.inl member))) ⟨0, false, []⟩
  obtain ⟨inner, inside⟩ := foldlM_further signer.toCrypto
    (fun part member => further part (.inl (.inr member))) ⟨ts, true, [] ++ early⟩
  obtain ⟨late, rest⟩ := foldlM_further signer.toCrypto
    (fun part member => further part (.inr member))
    ⟨ts, true, [] ++ early ++ inner ++ [signer.hmac secret (stripeMessage ts body)]⟩
  refine ⟨early ++ inner, late, ?_⟩
  simp only [List.foldlM_append, List.foldlM_cons, Option.bind_eq_bind, passed, Option.bind_some,
    stripePart_stamp stamp lower upper, inside, signer.stripePart_signature signature, rest]
  simp

theorem comma_mem_of_split (parts : split text 44 = before ++ stamped :: (middle ++ signed :: after)) :
    (44 : UInt8) ∈ text := by
  by_contra absent
  have sizes := congrArg List.length (parts.symm.trans (List.splitOn_eq_singleton absent))
  simp only [List.length_append, List.length_cons, List.length_nil] at sizes
  omega

theorem validStripe_signed (keyed : secret ≠ []) (lower : -(2 ^ 63) ≤ ts) (upper : ts < 2 ^ 63)
    (fresh : withinTolerance (Time.unix ts) now sigTolerance = true)
    (further : ∀ part ∈ before ++ middle ++ after, FurtherPart part)
    (stamp : Padded (stampPart ts) stamped)
    (signature : Padded (signer.signaturePart secret ts body) signed) :
    validStripe signer.toCrypto body
      ([44].intercalate (before ++ stamped :: (middle ++ signed :: after))) secret now = true := by
  obtain ⟨first, second, parsed⟩ :=
    signer.stripeParts_signed lower upper further stamp signature
  have key : secret.isEmpty = false := by simpa using keyed
  have comma := comma_mem_of_split (signer.split_signed further stamp signature)
  have text : (trimSpace ([44].intercalate
      (before ++ stamped :: (middle ++ signed :: after)))).isEmpty = false := by
    rw [List.isEmpty_eq_false_iff]
    exact List.ne_nil_of_mem (mem_trimSpace comma_plain comma)
  rw [validStripe, key, text, parsed]
  simp [fresh]

theorem stripeMAC_eq (secret : Bytes) (ts : Int) (body : Bytes) :
    signer.stripeMAC secret ts body =
      [44].intercalate ([] ++ stampPart ts :: ([] ++ [signer.signaturePart secret ts body])) := by
  simp [stripeMAC, List.intercalate]

theorem validStripe_stripeMAC (keyed : secret ≠ []) (lower : -(2 ^ 63) ≤ ts) (upper : ts < 2 ^ 63)
    (fresh : withinTolerance (Time.unix ts) now sigTolerance = true) (body : Bytes) :
    validStripe signer.toCrypto body (signer.stripeMAC secret ts body) secret now = true := by
  rw [stripeMAC_eq]
  exact signer.validStripe_signed keyed lower upper fresh (by simp) (padded_self _) (padded_self _)

theorem validCustom_signed (keyed : secret ≠ []) (lower : -(2 ^ 63) ≤ ts) (upper : ts < 2 ^ 63)
    (fresh : withinTolerance (Time.unix ts) now sigTolerance = true) (body : Bytes) :
    validCustom signer.toCrypto body (formatInt ts) (signer.customMAC secret (formatInt ts) body)
      secret now = true := by
  have key : secret.isEmpty = false := by simpa using keyed
  have stamp : trimSpace (formatInt ts) = formatInt ts :=
    trimSpace_plain fun b member => (formatInt_intByte ts b member).word.plain
  have tag : trimSpace (signer.customMAC secret (formatInt ts) body) =
      signer.customMAC secret (formatInt ts) body :=
    trimSpace_plain fun b member => (signer.hex_word _ b member).plain
  rw [validCustom, key, stamp, tag, parseInt_formatInt lower upper]
  simp [fresh, customMAC, customMessage, stamp, signer.hex_decode]

theorem validGitHub_signed (keyed : secret ≠ []) (body : Bytes) :
    validGitHub signer.toCrypto body (signer.githubMAC secret body) secret = true := by
  have key : secret.isEmpty = false := by simpa using keyed
  have header : trimSpace (signer.githubMAC secret body) = signer.githubMAC secret body := by
    apply trimSpace_plain
    intro b member
    have scheme : ∀ b ∈ lit "sha256=", WordByte b := wordBytes_of_all rfl
    rcases List.mem_append.mp member with named | digits
    · exact (scheme b named).plain
    · exact (signer.hex_word _ b digits).plain
  have marked : (lit "sha256=").isPrefixOf (signer.githubMAC secret body) = true := by
    rw [List.isPrefixOf_iff_prefix]
    exact List.prefix_append _ _
  simp only [validGitHub, key, header, marked]
  simp [githubMAC, signer.hex_decode]

theorem validShopify_signed (keyed : secret ≠ []) (body : Bytes) :
    validShopify signer.toCrypto body (signer.shopifyMAC secret body) secret = true := by
  have key : secret.isEmpty = false := by simpa using keyed
  have header : trimSpace (signer.shopifyMAC secret body) = signer.shopifyMAC secret body :=
    trimSpace_plain fun b member => (signer.base64_word _ b member).plain
  have present : (signer.shopifyMAC secret body).isEmpty = false := by
    rw [List.isEmpty_eq_false_iff]
    exact signer.base64_present _ (signer.hmac_present secret body)
  simp only [validShopify, key, header, present]
  simp [shopifyMAC, signer.base64_decode]

end Signer

/-- A request signed with the verifier's secret is accepted, by every scheme and
at every time within the tolerance of the timestamp. A Stripe header stays
accepted with any padding of its parts and any further parts between them. -/
theorem signed_accepted (signer : Signer) (secret body : Bytes) (now : Time) (keyed : secret ≠ []) :
    validGitHub signer.toCrypto body (signer.githubMAC secret body) secret = true ∧
    validShopify signer.toCrypto body (signer.shopifyMAC secret body) secret = true ∧
    ∀ ts : Int, -(2 ^ 63) ≤ ts → ts < 2 ^ 63 → |now - Time.unix ts| ≤ sigTolerance →
      validCustom signer.toCrypto body (formatInt ts)
        (signer.customMAC secret (formatInt ts) body) secret now = true ∧
      validStripe signer.toCrypto body (signer.stripeMAC secret ts body) secret now = true ∧
      ∀ (before middle after : List Bytes) (stamped signed : Bytes),
        (∀ part ∈ before ++ middle ++ after, FurtherPart part) →
        Padded (Signer.stampPart ts) stamped →
        Padded (signer.signaturePart secret ts body) signed →
        validStripe signer.toCrypto body
          ([44].intercalate (before ++ stamped :: (middle ++ signed :: after))) secret now = true := by
  refine ⟨signer.validGitHub_signed keyed body, signer.validShopify_signed keyed body, ?_⟩
  intro ts lower upper near
  have fresh : withinTolerance (Time.unix ts) now sigTolerance = true := by
    rw [withinTolerance_iff (by decide) (by decide)]
    exact .inr (.inl near)
  refine ⟨signer.validCustom_signed keyed lower upper fresh body, ?_, ?_⟩
  · exact signer.validStripe_stripeMAC keyed lower upper fresh body
  · intro before middle after stamped signed further stamp signature
    exact signer.validStripe_signed keyed lower upper fresh further stamp signature

/-- HMAC-SHA256 under the secret `st` of the body `[]`, and of the body framed
with two timestamps. -/
def sampleHmac (key message : Bytes) : Bytes :=
  let tag := if key ≠ lit "st" then none
    else if message = lit "[]" then hexDecodeString (lit
      "fd7abb51e6e73f54f236be19ee48bcbfd4d533e4dede48093d8953667932d319")
    else if message = lit "1789136760.[]" then hexDecodeString (lit
      "e0fa00649e46cbcc4e8b32f24ff49ce888514febf6ff789728487136b1f8b453")
    else if message = lit "11012509097.[]" then hexDecodeString (lit
      "6c8b92d9ff66c3f683b3921cfb3052bad25f10a10efffe732ae1f2c210980273")
    else none
  match tag with
  | some (first :: rest) => first :: rest
  | _ => List.replicate 32 0

def sampleSigner : Signer := Signer.standard sampleHmac (by
  intro key message
  simp only [sampleHmac]
  split
  · simp
  · simp)

/-- A rotated secret: other `v1` parts and a `v0` part around the valid one. The
timestamp is 300 seconds before the clock. -/
theorem signed_accepted_rotation :
    validGitHub sampleSigner.toCrypto (lit "[]") (sampleSigner.githubMAC (lit "st") (lit "[]"))
      (lit "st") = true ∧
    validStripe sampleSigner.toCrypto (lit "[]")
      ([44].intercalate [lit " v1=zz", lit "\tt=1789136760", lit "v0=a=b", lit
        "v1=e0fa00649e46cbcc4e8b32f24ff49ce888514febf6ff789728487136b1f8b453 ",
        lit "v1=00ff"]) (lit "st") (Time.unix 1789137060) = true := by
  have accepted := signed_accepted sampleSigner (lit "st") (lit "[]") (Time.unix 1789137060) (by decide)
  refine ⟨accepted.1, ?_⟩
  have tail := (accepted.2.2 1789136760 (by decide) (by decide) (by decide)).2.2
    [lit " v1=zz"] [lit "v0=a=b"] [lit "v1=00ff"]
    (lit "\tt=1789136760") (lit
      "v1=e0fa00649e46cbcc4e8b32f24ff49ce888514febf6ff789728487136b1f8b453 ")
  have space : Blank [32] := ⟨[[32]], by decide, rfl⟩
  have tab : Blank [9] := ⟨[[9]], by decide, rfl⟩
  apply tail
  · intro part member
    simp only [List.cons_append, List.nil_append, List.mem_cons, List.not_mem_nil, or_false] at member
    rcases member with rfl | rfl | rfl
    · exact ⟨by decide, [32], lit "v1", lit "zz", space, by decide, by decide, by decide, by decide⟩
    · exact ⟨by decide, [], lit "v0", lit "a=b", blank_nil, by decide, by decide, by decide,
        by decide⟩
    · exact ⟨by decide, [], lit "v1", lit "00ff", blank_nil, by decide, by decide, by decide,
        by decide⟩
  · exact ⟨[9], [], tab, blank_nil, by decide⟩
  · exact ⟨[], [32], blank_nil, space, by decide +kernel⟩

end N8nSystems.Gateway
