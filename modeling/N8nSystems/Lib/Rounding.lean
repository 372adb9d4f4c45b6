import Mathlib.Data.Int.Log
import Mathlib.Algebra.Order.Floor.Ring

/-! Rounding to a number of significant digits, half to even, with a least place for
the last digit. -/

namespace N8nSystems.Lib

variable {K : Type u} [Field K] [LinearOrder K] [IsStrictOrderedRing K] [FloorRing K]

/-- The nearest integer, and the even one of two. -/
def nearest (x : K) : Int :=
  if 1 / 2 < Int.fract x ∨ Int.fract x = 1 / 2 ∧ ⌊x⌋ % 2 = 1 then ⌊x⌋ + 1 else ⌊x⌋

theorem nearest_intCast (n : Int) : nearest (n : K) = n := by
  simp [nearest, Int.fract_intCast]

omit [IsStrictOrderedRing K] in
theorem le_nearest {x : K} {n : Int} (below : (n : K) ≤ x) : n ≤ nearest x := by
  have floor : n ≤ ⌊x⌋ := Int.le_floor.mpr below
  unfold nearest
  split
  · omega
  · exact floor

theorem nearest_le {x : K} {n : Int} (above : x ≤ n) : nearest x ≤ n := by
  unfold nearest
  split
  · rename_i up
    -- the number is rounded up, so it lies above its floor
    have part : 0 < Int.fract x := by
      rcases up with more | ⟨tie, -⟩
      · exact lt_trans (by positivity) more
      · rw [tie]
        positivity
    have floor : ((⌊x⌋ : Int) : K) < n := by
      have split : (⌊x⌋ : K) + Int.fract x = x := Int.floor_add_fract x
      linarith
    exact Int.add_one_le_iff.mpr (Int.cast_lt.mp floor)
  · exact Int.cast_le.mp ((Int.floor_le x).trans above)

/-- The logarithm of a natural number at a place. -/
theorem log_mul_zpow {b c : Nat} (base : 1 < b) (positive : 0 < c) (e : Int) :
    Int.log b ((c : K) * (b : K) ^ e) = Nat.log b c + e := by
  have radix : (0 : K) < b := by exact_mod_cast (by omega : 0 < b)
  have scale : (0 : K) < (b : K) ^ e := zpow_pos radix e
  have size : (0 : K) < (c : K) * (b : K) ^ e := mul_pos (by exact_mod_cast positive) scale
  apply le_antisymm
  · apply Int.lt_add_one_iff.mp
    rw [← Int.lt_zpow_iff_log_lt base size, add_right_comm, zpow_add₀ radix.ne']
    apply mul_lt_mul_of_pos_right _ scale
    exact_mod_cast Nat.lt_pow_succ_log_self base c
  · rw [← Int.zpow_le_iff_le_log base size, zpow_add₀ radix.ne']
    apply mul_le_mul_of_nonneg_right _ scale.le
    exact_mod_cast Nat.pow_log_le_self b positive.ne'

/-- A number of significant digits in a base, and the least place of a digit. -/
structure Precision where
  base : Nat
  digits : Nat
  least : Int
  base_lt : 1 < base
  digits_pos : 0 < digits

namespace Precision

variable (p : Precision)

/-- The place of the last digit that is kept. -/
def place (x : K) : Int := max (Int.log p.base |x| + 1 - p.digits) p.least

/-- The size of the rounded number. -/
def size (x : K) : K := nearest (|x| / (p.base : K) ^ p.place x) * (p.base : K) ^ p.place x

def rounded (x : K) : K := if x < 0 then -p.size x else p.size x

theorem radix_pos : (0 : K) < p.base := by
  have base := p.base_lt
  exact_mod_cast (by omega : 0 < p.base)

theorem scale_pos (e : Int) : (0 : K) < (p.base : K) ^ e := zpow_pos p.radix_pos e

theorem size_nonneg (x : K) : 0 ≤ p.size x := by
  have count : 0 ≤ nearest (|x| / (p.base : K) ^ p.place x) := by
    apply le_nearest
    rw [Int.cast_zero]
    exact div_nonneg (abs_nonneg x) (p.scale_pos _).le
  exact mul_nonneg (Int.cast_nonneg count) (p.scale_pos _).le

theorem abs_rounded (x : K) : |p.rounded x| = p.size x := by
  unfold rounded
  split
  · rw [abs_neg, abs_of_nonneg (p.size_nonneg x)]
  · exact abs_of_nonneg (p.size_nonneg x)

theorem size_abs (x : K) : p.size |x| = p.size x := by
  simp only [size, place, abs_abs]

theorem rounded_abs (x : K) : p.rounded |x| = |p.rounded x| := by
  rw [rounded, if_neg (not_lt.mpr (abs_nonneg x)), size_abs, abs_rounded]

/-- A number with a whole count at a place that is kept. -/
theorem size_of_multiple {x : K} {n e : Int} (whole : |x| = n * (p.base : K) ^ e)
    (kept : p.place x ≤ e) : p.size x = |x| := by
  have scale := p.scale_pos (K := K) (p.place x)
  obtain ⟨k, rfl⟩ := Int.le.dest kept
  have count : |x| / (p.base : K) ^ p.place x = ((n * p.base ^ k : Int) : K) := by
    rw [whole, zpow_add₀ p.radix_pos.ne', zpow_natCast]
    push_cast
    field_simp
  rw [size, count, nearest_intCast, ← count, div_mul_cancel₀ _ scale.ne']

theorem rounded_of_size {x : K} (same : p.size x = |x|) : p.rounded x = x := by
  rw [rounded, same]
  split
  · rename_i negative
    rw [abs_of_neg negative, neg_neg]
  · rename_i positive
    exact abs_of_nonneg (not_lt.mp positive)

theorem size_zero : p.size (0 : K) = 0 := by
  simpa using p.size_of_multiple (x := (0 : K)) (n := 0) (by simp) le_rfl

omit [IsStrictOrderedRing K] in
theorem place_le {x : K} {k : Int} (short : Int.log p.base |x| ≤ k) (bounded : p.least ≤ k) :
    p.place x ≤ k := by
  have digits := p.digits_pos
  rw [place, max_le_iff]
  omega

/-- A power of the base is kept, so no smaller number is rounded above it. -/
theorem size_le_zpow {x : K} {k : Int} (small : |x| ≤ (p.base : K) ^ k) (bounded : p.least ≤ k) :
    p.size x ≤ (p.base : K) ^ k := by
  by_cases zero : x = 0
  · rw [zero, size_zero]
    exact (p.scale_pos k).le
  · have short : Int.log p.base |x| ≤ k := by
      rw [← Int.log_zpow (R := K) p.base_lt k]
      exact Int.log_mono_right (abs_pos.mpr zero) small
    obtain ⟨m, rfl⟩ := Int.le.dest (p.place_le short bounded)
    have scale := p.scale_pos (K := K) (p.place x)
    rw [zpow_add₀ p.radix_pos.ne', zpow_natCast, mul_comm] at small ⊢
    apply mul_le_mul_of_nonneg_right _ scale.le
    have count : nearest (|x| / (p.base : K) ^ p.place x) ≤ (p.base : Int) ^ m := by
      apply nearest_le
      push_cast
      exact (div_le_iff₀ scale).mpr small
    exact_mod_cast count

/-- Nor is a larger number rounded below it. -/
theorem zpow_log_le_size {x : K} (nonzero : x ≠ 0) (bounded : p.least ≤ Int.log p.base |x|) :
    (p.base : K) ^ Int.log p.base |x| ≤ p.size x := by
  have large := Int.zpow_log_le_self p.base_lt (abs_pos.mpr nonzero)
  obtain ⟨m, same⟩ := Int.le.dest (p.place_le le_rfl bounded)
  have scale := p.scale_pos (K := K) (p.place x)
  rw [← same, zpow_add₀ p.radix_pos.ne', zpow_natCast, mul_comm] at large ⊢
  apply mul_le_mul_of_nonneg_right _ scale.le
  have count : (p.base : Int) ^ m ≤ nearest (|x| / (p.base : K) ^ p.place x) := by
    apply le_nearest
    push_cast
    exact (le_div_iff₀ scale).mpr large
  exact_mod_cast count

/-- The rounded number has at most one digit more than are kept, and then it is a
power of the base. -/
theorem count_le (x : K) :
    nearest (|x| / (p.base : K) ^ p.place x) ≤ (p.base : Int) ^ p.digits := by
  have scale := p.scale_pos (K := K) (p.place x)
  apply nearest_le
  push_cast
  rw [div_le_iff₀ scale, ← zpow_natCast, ← zpow_add₀ p.radix_pos.ne']
  have above := Int.lt_zpow_succ_log_self p.base_lt |x|
  refine above.le.trans (zpow_le_zpow_right₀ ?_ ?_)
  · exact_mod_cast p.base_lt.le
  · have lower : Int.log p.base |x| + 1 - p.digits ≤ p.place x := le_max_left _ _
    omega

theorem rounded_rounded (x : K) : p.rounded (p.rounded x) = p.rounded x := by
  apply p.rounded_of_size
  by_cases zero : p.rounded x = 0
  · rw [zero, size_zero, abs_zero]
  · have positive := abs_pos.mpr zero
    have bounded : p.least ≤ p.place x := le_max_right _ _
    have digits := p.digits_pos
    have whole := p.abs_rounded x
    rw [size] at whole
    rcases (p.count_le x).lt_or_eq with fewer | carry
    · apply p.size_of_multiple whole
      -- the count has no more digits than are kept
      have short : |p.rounded x| < (p.base : K) ^ (p.digits + p.place x : Int) := by
        rw [whole, zpow_add₀ p.radix_pos.ne', zpow_natCast]
        apply mul_lt_mul_of_pos_right _ (p.scale_pos _)
        exact_mod_cast fewer
      rw [Int.lt_zpow_iff_log_lt p.base_lt positive] at short
      rw [place, max_le_iff]
      omega
    · have power : |p.rounded x| = (p.base : K) ^ (p.digits + p.place x : Int) := by
        rw [whole, carry, zpow_add₀ p.radix_pos.ne', zpow_natCast]
        push_cast
        rfl
      have moved : |p.rounded x| =
          ((p.base ^ (p.digits - 1) : Int) : K) * (p.base : K) ^ (p.place x + 1) := by
        rw [power]
        push_cast
        rw [← zpow_natCast, ← zpow_add₀ p.radix_pos.ne']
        congr 1
        omega
      apply p.size_of_multiple moved
      have length : Int.log p.base |p.rounded x| = p.digits + p.place x := by
        rw [power, Int.log_zpow p.base_lt]
      rw [place, max_le_iff]
      omega

end Precision

end N8nSystems.Lib
