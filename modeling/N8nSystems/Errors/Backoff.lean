import N8nSystems.Lib.Binary64
import N8nSystems.Errors.Agreement

/-! `compute_next_delay` in both languages: full jitter under an exponential ceiling. -/

namespace N8nSystems.Errors

open Lib Lib.Binary64
open Lib.Js (Number Engine TypeError toNumber)

def baseDelayS : Number := .finite 2

def capDelayS : Number := .finite 300

namespace Python

/-- `min(first, second)`. -/
def min (first second : Number) : Number := if lt second first then second else first

/-- `jitter` is what `jitter_fn()` returns. -/
def computeNextDelay (attempt : Option Int) (base cap jitter : Number) :
    Except OverflowError Number := do
  let exp := match attempt with
    | none => 0
    | some attempt => if attempt < 0 then 0 else attempt.toNat
  let power ← ofInt (2 ^ exp)
  return mul jitter (min cap (mul base power))

end Python

namespace JavaScript

/-- An engine with `Math.pow`, which the standard lets it approximate. The powers of two
are exact, and infinite beyond the doubles. -/
structure PowEngine extends Engine where
  pow : Number → Number → Number
  pow_two : ∀ n : Nat, n < exponentLimit → pow (.finite 2) (.finite n) = .finite (2 ^ n)
  pow_two_large : ∀ n : Nat, exponentLimit ≤ n → pow (.finite 2) (.finite n) = .infinite false

variable (engine : PowEngine)

def toAttempt (attempt : Option Json) : Except TypeError Number := do
  match ← toNumber engine.toEngine attempt with
  | .finite n => return .finite (if n < 0 then 0 else ⌊n⌋)
  | _ => return .finite 0

/-- `value == null ? fallback : Number(value)`. -/
def numberOr (fallback : Number) : Option Json → Except TypeError Number
  | none | some .null => .ok fallback
  | value => toNumber engine.toEngine value

/-- `Math.min(first, second)`. -/
def min : Number → Number → Number
  | .nan, _ | _, .nan => .nan
  | first, second => if lt second first then second else first

/-- `jitter` is what `jitter_fn()` returns. -/
def computeNextDelay (attempt base cap : Option Json) (jitter : Number) :
    Except TypeError Number := do
  let exp ← toAttempt engine attempt
  let b ← numberOr engine baseDelayS base
  let c ← numberOr engine capDelayS cap
  return mul jitter (min c (mul b (engine.pow (.finite 2) exp)))

end JavaScript

/-- The longest delay after an attempt. -/
def ceiling (attempt : Nat) : Nat := min 300 (2 * 2 ^ attempt)

theorem ceiling_mono {first second : Nat} (le : first ≤ second) : ceiling first ≤ ceiling second :=
  min_le_min_left 300 (Nat.mul_le_mul_left 2 (Nat.pow_le_pow_right two_pos le))

/-- The delay before the cap: exact, or infinite where it is far above the cap. -/
def Uncapped (attempt : Nat) (product : Number) : Prop :=
  product = .finite ((2 * 2 ^ attempt : Nat) : Rat) ∨ product = .infinite false ∧ 300 ≤ 2 * 2 ^ attempt

theorem cap_le {attempt : Nat} (large : exponentLimit ≤ attempt + 1) : 300 ≤ 2 * 2 ^ attempt := by
  have most : 9 ≤ attempt + 1 := (by decide : 9 ≤ exponentLimit).trans large
  calc 300 ≤ 2 ^ 9 := by decide
    _ ≤ 2 ^ (attempt + 1) := Nat.pow_le_pow_right two_pos most
    _ = 2 * 2 ^ attempt := Nat.pow_succ'

theorem ceiling_large {attempt : Nat} (large : exponentLimit ≤ attempt) : ceiling attempt = 300 :=
  Nat.min_eq_left (cap_le (large.trans (Nat.le_succ attempt)))

theorem uncapped_mul (attempt : Nat) :
    Uncapped attempt (mul baseDelayS (.finite (2 ^ attempt))) := by
  change Uncapped attempt (nearestDouble (2 * 2 ^ attempt))
  rw [Uncapped, ← pow_succ']
  by_cases last : attempt + 1 < exponentLimit
  · left
    rw [nearestDouble_two_pow last, pow_succ']
    push_cast
    rfl
  · right
    exact ⟨nearestDouble_two_pow_large (not_lt.mp last), cap_le (not_lt.mp last)⟩

theorem uncapped_infinite {attempt : Nat} (large : exponentLimit ≤ attempt) :
    Uncapped attempt (mul baseDelayS (.infinite false)) := by
  refine Or.inr ⟨?_, cap_le (large.trans (Nat.le_succ attempt))⟩
  decide

theorem min_uncapped {attempt : Nat} {product : Number} (uncapped : Uncapped attempt product) :
    (if lt product capDelayS then product else capDelayS) = .finite (ceiling attempt) := by
  rcases uncapped with rfl | ⟨rfl, high⟩
  · by_cases low : 2 * 2 ^ attempt < 300
    · have less : lt (.finite ((2 * 2 ^ attempt : Nat) : Rat)) capDelayS = true :=
        decide_eq_true (by exact_mod_cast low)
      rw [if_pos less, ceiling, Nat.min_eq_right low.le]
    · have more : ¬lt (.finite ((2 * 2 ^ attempt : Nat) : Rat)) capDelayS = true := by
        change ¬decide (((2 * 2 ^ attempt : Nat) : Rat) < 300) = true
        rw [decide_eq_true_eq]
        exact_mod_cast low
      rw [if_neg more, ceiling, Nat.min_eq_left (not_lt.mp low)]
      rfl
  · rw [if_neg (by decide), ceiling, Nat.min_eq_left high]
    rfl

theorem mul_one_ceiling (attempt : Nat) :
    mul (.finite 1) (.finite (ceiling attempt)) = .finite (ceiling attempt) := by
  have positive : 0 < ceiling attempt := lt_min (by decide) (by positivity)
  have short : ceiling attempt < 2 ^ 53 := (Nat.min_le_left 300 _).trans_lt (by decide)
  rw [mul, one_mul, nearestDouble_nat positive short]

theorem Python.computeNextDelay_nat (attempt : Nat) (base cap jitter : Number) :
    Python.computeNextDelay (some attempt) base cap jitter = do
      let power ← ofInt (2 ^ attempt)
      return mul jitter (Python.min cap (mul base power)) := by
  unfold Python.computeNextDelay
  simp only [if_neg (not_lt.mpr (Int.natCast_nonneg attempt)), Int.toNat_natCast]

theorem Python.delay_small {attempt : Nat} (small : attempt < exponentLimit) :
    Python.computeNextDelay (some attempt) baseDelayS capDelayS (.finite 1) =
      .ok (.finite (ceiling attempt)) := by
  rw [Python.computeNextDelay_nat, ofInt_two_pow small]
  change Except.ok (mul (.finite 1) (Python.min capDelayS (mul baseDelayS (.finite (2 ^ attempt))))) = _
  rw [Python.min, min_uncapped (uncapped_mul attempt), mul_one_ceiling]

theorem Python.delay_large {attempt : Nat} (large : exponentLimit ≤ attempt) :
    Python.computeNextDelay (some attempt) baseDelayS capDelayS (.finite 1) = .error .intTooLarge := by
  rw [Python.computeNextDelay_nat, ofInt_two_pow_large large]
  rfl

theorem JavaScript.min_cap {attempt : Nat} {product : Number} (uncapped : Uncapped attempt product) :
    JavaScript.min capDelayS product = .finite (ceiling attempt) := by
  rw [← min_uncapped uncapped]
  rcases uncapped with rfl | ⟨rfl, -⟩ <;> rfl

theorem JavaScript.toAttempt_nat (engine : PowEngine) {attempt : Nat} (exact : attempt ≤ 2 ^ 53) :
    JavaScript.toAttempt engine (some (.int attempt)) = .ok (.finite attempt) := by
  have read : engine.round ((attempt : Int) : Rat) = .finite ((attempt : Int) : Rat) :=
    engine.round_small attempt exact
  have whole : ¬((attempt : Int) : Rat) < 0 := not_lt.mpr (by positivity)
  rw [JavaScript.toAttempt, toNumber, read]
  change Except.ok (Number.finite (if ((attempt : Int) : Rat) < 0 then 0 else ⌊((attempt : Int) : Rat)⌋)) = _
  rw [if_neg whole, Int.floor_intCast, Int.cast_natCast]

/-- JavaScript keeps to the ceiling as long as the attempt is an exact number. -/
theorem JavaScript.delay_exact (engine : PowEngine) {attempt : Nat} (exact : attempt ≤ 2 ^ 53) :
    JavaScript.computeNextDelay engine (some (.int attempt)) none none (.finite 1) =
      .ok (.finite (ceiling attempt)) := by
  have uncapped : Uncapped attempt (mul baseDelayS (engine.pow (.finite 2) (.finite attempt))) := by
    by_cases small : attempt < exponentLimit
    · rw [engine.pow_two attempt small]
      exact uncapped_mul attempt
    · rw [engine.pow_two_large attempt (not_lt.mp small)]
      exact uncapped_infinite (not_lt.mp small)
  rw [JavaScript.computeNextDelay, JavaScript.toAttempt_nat engine exact]
  change Except.ok (mul (.finite 1) (JavaScript.min capDelayS
    (mul baseDelayS (engine.pow (.finite 2) (.finite attempt))))) = _
  rw [JavaScript.min_cap uncapped, mul_one_ceiling]

/-- Both languages return after the attempt, with the same delay: the ceiling, and no
less than after an earlier attempt. -/
def MeetsCeiling (engine : JavaScript.PowEngine) (attempt : Nat) : Prop :=
  ∃ delay : Rat, delay = min 300 (2 * 2 ^ attempt) ∧
    ∀ earlier ≤ attempt, ∃ less : Rat, less ≤ delay ∧ (earlier = attempt → less = delay) ∧
      Python.computeNextDelay (some earlier) baseDelayS capDelayS (.finite 1) = .ok (.finite less) ∧
      JavaScript.computeNextDelay engine (some (.int earlier)) none none (.finite 1) =
        .ok (.finite less)

/-- Python multiplies before it takes the minimum, so from 1024 on the power does not fit. -/
theorem meetsCeiling_iff (engine : JavaScript.PowEngine) (attempt : Nat) :
    MeetsCeiling engine attempt ↔ attempt < 1024 := by
  constructor
  · rintro ⟨delay, -, earlier⟩
    obtain ⟨less, -, -, python, -⟩ := earlier attempt le_rfl
    by_contra large
    rw [Python.delay_large (not_lt.mp large)] at python
    cases python
  · intro small
    refine ⟨ceiling attempt, ?_, ?_⟩
    · rw [ceiling]
      push_cast
      rfl
    · intro earlier le
      refine ⟨ceiling earlier, ?_, ?_, ?_, ?_⟩
      · exact_mod_cast ceiling_mono le
      · rintro rfl
        rfl
      · exact Python.delay_small (le.trans_lt small)
      · exact JavaScript.delay_exact engine (le.trans (small.le.trans (by decide)))

/-- `Math.pow` on whole exponents. -/
def wholePow : Number → Number → Number
  | .finite x, .finite y => if y.den = 1 then nearestDouble (x ^ y.num) else .nan
  | _, _ => .nan

theorem wholePow_two (n : Nat) : wholePow (.finite 2) (.finite n) = nearestDouble (2 ^ n) := by
  rw [wholePow, if_pos (Rat.den_natCast n), Rat.num_natCast, zpow_natCast]

theorem wholePow_small (n : Nat) (small : n < exponentLimit) :
    wholePow (.finite 2) (.finite n) = .finite (2 ^ n) := by
  rw [wholePow_two, nearestDouble_two_pow small]

theorem wholePow_large (n : Nat) (large : exponentLimit ≤ n) :
    wholePow (.finite 2) (.finite n) = .infinite false := by
  rw [wholePow_two, nearestDouble_two_pow_large large]

def wholeEngine : JavaScript.PowEngine where
  toEngine := exactEngine
  pow := wholePow
  pow_two := wholePow_small
  pow_two_large := wholePow_large

/-- After attempt 1024 Python raises, and JavaScript waits for 300 seconds. -/
theorem delay_overflow :
    Python.computeNextDelay (some (1024 : Nat)) baseDelayS capDelayS (.finite 1) = .error .intTooLarge ∧
    JavaScript.computeNextDelay wholeEngine (some (.int (1024 : Nat))) none none (.finite 1) =
      .ok (.finite 300) ∧
    ¬∀ attempt, MeetsCeiling wholeEngine attempt := by
  have raises := Python.delay_large (le_refl 1024)
  refine ⟨raises, ?_, ?_⟩
  · have capped : ceiling 1024 = 300 := ceiling_large (le_refl 1024)
    rw [JavaScript.delay_exact wholeEngine (by decide), capped]
    rfl
  · intro meets
    obtain ⟨delay, -, earlier⟩ := meets 1024
    obtain ⟨less, -, -, python, -⟩ := earlier 1024 le_rfl
    rw [raises] at python
    cases python

end N8nSystems.Errors
