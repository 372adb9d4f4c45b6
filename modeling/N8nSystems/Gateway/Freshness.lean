import N8nSystems.Gateway.Signing

/-! How far an accepted timestamp is from the clock, in exact arithmetic, and
the timestamps at which the tolerance check tells near from far. -/

namespace N8nSystems.Gateway

open Lib.Go

/-- The time of a unix timestamp in exact arithmetic. -/
def exactTime (ts : Int) : Int := (ts + secondsToInternal) * 10 ^ 9

/-- The timestamp has a `time.Time`: its internal second count does not wrap. -/
def Represented (ts : Int) : Prop := ts + secondsToInternal < 2 ^ 63

instance (ts : Int) : Decidable (Represented ts) :=
  inferInstanceAs (Decidable (ts + secondsToInternal < 2 ^ 63))

/-- A request accepted with this Stripe timestamp was signed near the clock. -/
def StripeFresh (crypto : Crypto) (ts : Int) (now : Time) : Prop :=
  ∀ body header secret parts, stripeParts crypto header = some parts → parts.ts = ts →
    validStripe crypto body header secret now = true → |now - exactTime ts| ≤ sigTolerance

/-- A request accepted with this `X-Timestamp` was signed near the clock. -/
def CustomFresh (crypto : Crypto) (ts : Int) (now : Time) : Prop :=
  ∀ body text sig secret, parseInt (trimSpace text) = some ts →
    validCustom crypto body text sig secret now = true → |now - exactTime ts| ≤ sigTolerance

/-- The timestamp is less than `2 ^ 63` nanoseconds after the clock. One without
a `time.Time` is in addition not taken for a time near the clock. -/
def ToldFresh (ts : Int) (now : Time) : Prop :=
  if Represented ts then exactTime ts - now < 2 ^ 63
  else Time.unix ts - now < 2 ^ 63 ∧ sigTolerance < |now - Time.unix ts|

/-- The difference does not saturate where saturation changes the verdict of the
tolerance check. -/
def ToldApart (ts : Int) (now : Time) (d : Duration) : Prop :=
  if Represented ts then
    exactTime ts - now < 2 ^ 63 ∧ (now - exactTime ts < 2 ^ 63 ∨ d < maxDuration)
  else if d = maxDuration then |now - exactTime ts| ≤ maxDuration
  else Time.unix ts - now < 2 ^ 63 ∧ d < |now - Time.unix ts| ∧ d < |now - exactTime ts|

theorem validStripe_fresh (parsed : stripeParts crypto header = some parts)
    (accepted : validStripe crypto body header secret now = true) :
    withinTolerance (Time.unix parts.ts) now sigTolerance = true := by
  rw [validStripe, parsed] at accepted
  split at accepted
  · cases accepted
  · simp only [] at accepted
    split at accepted
    · cases accepted
    · split at accepted
      · cases accepted
      · rename_i fresh
        simpa using fresh

theorem validCustom_fresh (parsed : parseInt (trimSpace text) = some ts)
    (accepted : validCustom crypto body text sig secret now = true) :
    withinTolerance (Time.unix ts) now sigTolerance = true := by
  rw [validCustom, parsed] at accepted
  split at accepted
  · cases accepted
  · simp only [] at accepted
    split at accepted
    · cases accepted
    · rename_i fresh
      simpa using fresh

section Bounds

variable {ts now d : Int}

/-- In exact arithmetic a timestamp without a `time.Time` is one full turn of the
second counter after the time it is taken for. -/
theorem unix_cases (lower : -(2 ^ 63) ≤ ts) (upper : ts < 2 ^ 63) :
    Represented ts ∧ Time.unix ts = exactTime ts ∨
      ¬ Represented ts ∧ Time.unix ts = exactTime ts - 2 ^ 64 * 10 ^ 9 := by
  by_cases represented : Represented ts
  · exact .inl ⟨represented, Time.unix_exact lower represented⟩
  · refine .inr ⟨represented, ?_⟩
    rw [Time.unix_wrapped (Int.not_lt.mp represented) upper, exactTime, Int.sub_mul]

theorem toldApart_iff (lower : -(2 ^ 63) ≤ ts) (upper : ts < 2 ^ 63) (least : -(2 ^ 63) ≤ d)
    (greatest : d ≤ 2 ^ 63 - 1) :
    (withinTolerance (Time.unix ts) now d = true ↔ |now - exactTime ts| ≤ d) ↔
      ToldApart ts now d := by
  rw [withinTolerance_iff least greatest, ToldApart]
  obtain ⟨represented, same⟩ | ⟨wrapped, turn⟩ := unix_cases lower upper
  · rw [if_pos represented, same]
    generalize exactTime ts = time
    simp only [Time, Duration, minDuration, maxDuration, abs_le]
    omega
  · rw [if_neg wrapped, turn]
    generalize exactTime ts = time
    simp only [Time, Duration, minDuration, maxDuration, abs_le, lt_abs]
    split
    · omega
    · omega

theorem toldFresh_iff (lower : -(2 ^ 63) ≤ ts) (upper : ts < 2 ^ 63) :
    (withinTolerance (Time.unix ts) now sigTolerance = true → |now - exactTime ts| ≤ sigTolerance) ↔
      ToldFresh ts now := by
  rw [withinTolerance_iff (by decide) (by decide), ToldFresh]
  obtain ⟨represented, same⟩ | ⟨wrapped, turn⟩ := unix_cases lower upper
  · rw [if_pos represented, same]
    generalize exactTime ts = time
    simp only [Time, Duration, minDuration, maxDuration, sigTolerance, abs_le]
    omega
  · rw [if_neg wrapped, turn]
    generalize exactTime ts = time
    simp only [Time, Duration, minDuration, maxDuration, sigTolerance, abs_le, lt_abs]
    omega

end Bounds

namespace Signer

variable (signer : Signer)

/-- Every timestamp within the tolerance check is the one of an accepted request. -/
theorem stripeFresh_iff (lower : -(2 ^ 63) ≤ ts) (upper : ts < 2 ^ 63) (now : Time) :
    StripeFresh signer.toCrypto ts now ↔
      (withinTolerance (Time.unix ts) now sigTolerance = true →
        |now - exactTime ts| ≤ sigTolerance) := by
  constructor
  · intro fresh within
    have alone : ∀ part ∈ ([] ++ [] ++ [] : List Bytes), FurtherPart part := by simp
    obtain ⟨first, second, parsed⟩ := signer.stripeParts_signed lower upper alone
      (padded_self _) (padded_self (signer.signaturePart [1] ts []))
    rw [← stripeMAC_eq] at parsed
    apply fresh [] (signer.stripeMAC [1] ts []) [1] _ parsed rfl
    exact signer.validStripe_stripeMAC (by simp) lower upper within []
  · intro near body header secret parts parsed same accepted
    apply near
    rw [← same]
    exact validStripe_fresh parsed accepted

theorem customFresh_iff (lower : -(2 ^ 63) ≤ ts) (upper : ts < 2 ^ 63) (now : Time) :
    CustomFresh signer.toCrypto ts now ↔
      (withinTolerance (Time.unix ts) now sigTolerance = true →
        |now - exactTime ts| ≤ sigTolerance) := by
  constructor
  · intro fresh within
    have stamp : trimSpace (formatInt ts) = formatInt ts :=
      trimSpace_plain fun b member => (formatInt_intByte ts b member).word.plain
    apply fresh [] (formatInt ts) (signer.customMAC [1] (formatInt ts) []) [1]
    · rw [stamp, parseInt_formatInt lower upper]
    · exact signer.validCustom_signed (by simp) lower upper within []
  · intro near body text sig secret parsed accepted
    exact near (validCustom_fresh parsed accepted)

end Signer

/-- Exactly when an accepted timestamp is within the tolerance of the clock, for
both schemes, and when the tolerance check is exact. -/
theorem freshness_iff (signer : Signer) (ts : Int) (now : Time) (lower : -(2 ^ 63) ≤ ts)
    (upper : ts < 2 ^ 63) :
    (StripeFresh signer.toCrypto ts now ↔ ToldFresh ts now) ∧
    (CustomFresh signer.toCrypto ts now ↔ ToldFresh ts now) ∧
    ∀ d : Duration, minDuration ≤ d → d ≤ maxDuration →
      ((withinTolerance (Time.unix ts) now d = true ↔ |now - exactTime ts| ≤ d) ↔
        ToldApart ts now d) := by
  refine ⟨?_, ?_, ?_⟩
  · rw [signer.stripeFresh_iff lower upper now, toldFresh_iff lower upper]
  · rw [signer.customFresh_iff lower upper now, toldFresh_iff lower upper]
  · intro d least greatest
    exact toldApart_iff lower upper least greatest

theorem freshness_iff_today :
    StripeFresh sampleSigner.toCrypto 1789136760 (Time.unix 1789137060) ∧
      CustomFresh sampleSigner.toCrypto 1789136760 (Time.unix 1789137060) := by
  have exactly := freshness_iff sampleSigner 1789136760 (Time.unix 1789137060) (by decide) (by decide)
  have told : ToldFresh 1789136760 (Time.unix 1789137060) := by
    rw [ToldFresh, if_pos (by decide)]
    decide
  exact ⟨exactly.1.mpr told, exactly.2.1.mpr told⟩

/-- A timestamp more than 292 years after the clock, signed, is accepted: the
saturated difference is its own negation and below every tolerance. -/
theorem far_future_accepted :
    validStripe sampleSigner.toCrypto (lit "[]")
      (sampleSigner.stripeMAC (lit "st") 11012509097 (lit "[]")) (lit "st")
      (Time.unix 1789137060) = true ∧
    validCustom sampleSigner.toCrypto (lit "[]") (formatInt 11012509097)
      (sampleSigner.customMAC (lit "st") (formatInt 11012509097) (lit "[]")) (lit "st")
      (Time.unix 1789137060) = true ∧
    withinTolerance (Time.unix 11012509097) (Time.unix 1789137060) sigTolerance = true ∧
    ¬ |Time.unix 1789137060 - exactTime 11012509097| ≤ sigTolerance := by
  have within : withinTolerance (Time.unix 11012509097) (Time.unix 1789137060) sigTolerance = true := by
    decide
  refine ⟨?_, ?_, within, by decide⟩
  · exact sampleSigner.validStripe_stripeMAC (by decide) (by decide) (by decide) within _
  · exact sampleSigner.validCustom_signed (by decide) (by decide) (by decide) within _

end N8nSystems.Gateway
