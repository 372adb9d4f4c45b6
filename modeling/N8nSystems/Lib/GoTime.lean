import Mathlib.Algebra.Order.Ring.Int

/-! Go's `time.Time` and `time.Duration` as exact integers of nanoseconds, with
the 64-bit behaviour of the operations that have one. -/

namespace N8nSystems.Lib.Go

/-- Nanoseconds since the zero time, January 1 of year 1. -/
abbrev Time := Int

abbrev Duration := Int

def secondsToInternal : Int := 62135596800

/-- `time.Unix(sec, 0)`: the internal second count is an int64 and wraps around. -/
def Time.unix (sec : Int) : Time := Int.bmod (sec + secondsToInternal) (2 ^ 64) * 10 ^ 9

def minDuration : Duration := -(2 ^ 63)

def maxDuration : Duration := 2 ^ 63 - 1

/-- `Time.Sub`: a difference out of range saturates. -/
def Time.sub (t u : Time) : Duration := max minDuration (min maxDuration (t - u))

/-- Two's complement negation; the least duration is its own negation. -/
def Duration.neg (d : Duration) : Duration := Int.bmod (-d) (2 ^ 64)

theorem Time.sub_least (below : t - u ≤ minDuration) : Time.sub t u = minDuration := by
  simp only [Time, Duration, Time.sub, minDuration, maxDuration] at below ⊢
  omega

theorem Time.sub_greatest (above : maxDuration < t - u) : Time.sub t u = maxDuration := by
  simp only [Time, Duration, Time.sub, minDuration, maxDuration] at above ⊢
  omega

theorem Time.sub_exact (lower : minDuration ≤ t - u) (upper : t - u ≤ maxDuration) :
    Time.sub t u = t - u := by
  simp only [Time, Duration, Time.sub, minDuration, maxDuration] at lower upper ⊢
  omega

theorem Duration.neg_least : Duration.neg minDuration = minDuration := by
  decide

theorem Duration.neg_exact (lower : minDuration < d) (upper : d ≤ maxDuration) :
    Duration.neg d = -d := by
  simp only [Duration, Duration.neg, minDuration, maxDuration] at lower upper ⊢
  apply Int.bmod_eq_of_le
  · omega
  · omega

/-- The second count of a unix time below `2 ^ 63` internal seconds does not wrap. -/
theorem Time.unix_exact (lower : -(2 ^ 63) ≤ sec) (upper : sec + secondsToInternal < 2 ^ 63) :
    Time.unix sec = (sec + secondsToInternal) * 10 ^ 9 := by
  rw [Time.unix]
  simp only [secondsToInternal] at upper ⊢
  rw [Int.bmod_eq_of_le (by omega) (by omega)]

theorem Time.unix_wrapped (lower : 2 ^ 63 ≤ sec + secondsToInternal) (upper : sec < 2 ^ 63) :
    Time.unix sec = (sec + secondsToInternal - 2 ^ 64) * 10 ^ 9 := by
  rw [Time.unix]
  simp only [secondsToInternal] at lower ⊢
  have wraps : Int.bmod (sec + 62135596800) (2 ^ 64) = sec + 62135596800 - 2 ^ 64 := by
    rw [Int.bmod_def]
    omega
  rw [wraps]

end N8nSystems.Lib.Go
