import N8nSystems.Lib.PyDecimal
import N8nSystems.Lib.Rounding
import Mathlib.Data.Rat.Floor

/-! What decimal arithmetic computes: the exact results, rounded to the context. -/

namespace N8nSystems.Lib.Py.Decimal

theorem one_lt_ten : 1 < 10 := by decide

theorem precision_pos : 0 < precision := by decide

/-- The digits of the default context. -/
def context : Precision := ⟨10, precision, tiny, one_lt_ten, precision_pos⟩

def isFinite : Decimal → Bool
  | .finite _ _ _ => true
  | _ => false

/-- The exact value of a finite decimal. -/
def value : Decimal → Rat
  | .finite negative coefficient exponent => exactly negative coefficient exponent
  | _ => 0

/-- The rounded number has an exponent in the range of the context. -/
def InRange (x : Rat) : Prop := context.size x < 10 ^ (maxExponent + 1)

/-- A finite decimal for a number. -/
structure Denotes (decimal : Decimal) (x : Rat) : Prop where
  finite : decimal.isFinite = true
  exact : decimal.value = x

variable {negative : Bool} {coefficient : Nat} {exponent : Int}

theorem abs_exactly :
    |exactly negative coefficient exponent| = coefficient * (10 : Rat) ^ exponent := by
  have scale : (0 : Rat) < 10 ^ exponent := zpow_pos (by norm_num) _
  rw [exactly, abs_mul, abs_mul, abs_of_pos scale, Nat.abs_cast]
  cases negative <;> simp

theorem width_le_iff (positive : 0 < k) : width n ≤ k ↔ n < 10 ^ k :=
  Nat.length_toDigits_le_iff (by decide) positive

theorem width_eq (n : Nat) : width n = Nat.log 10 n + 1 := by
  apply le_antisymm
  · rw [width_le_iff (Nat.succ_pos _)]
    exact Nat.lt_pow_succ_log_self (by decide) n
  · have positive : 0 < width n := Nat.length_toDigits_pos
    exact Nat.log_lt_of_lt_pow' positive.ne' ((width_le_iff positive).mp le_rfl)

theorem log_exactly (positive : 0 < coefficient) :
    Int.log 10 |exactly negative coefficient exponent| + 1 = width coefficient + exponent := by
  have log := log_mul_zpow (K := Rat) one_lt_ten positive exponent
  rw [Nat.cast_ofNat] at log
  rw [abs_exactly, log, width_eq]
  push_cast
  ring

theorem place_exactly (positive : 0 < coefficient) :
    context.place (exactly negative coefficient exponent) =
      max (width coefficient + exponent - precision) tiny := by
  rw [Precision.place, ← log_exactly positive]
  rfl

theorem nearest_halfEven (n drop : Nat) : nearest ((n : Rat) / 10 ^ drop) = halfEven n drop := by
  have unit : (0 : Rat) < ((10 ^ drop : Nat) : Rat) := by positivity
  have floor : ⌊(n : Rat) / ((10 ^ drop : Nat) : Rat)⌋ = ((n / 10 ^ drop : Nat) : Int) := by
    rw [Rat.floor_natCast_div_natCast]
    rfl
  have more : (1 : Rat) / 2 < ((n % 10 ^ drop : Nat) : Rat) / ((10 ^ drop : Nat) : Rat) ↔
      10 ^ drop < 2 * (n % 10 ^ drop) := by
    rw [div_lt_div_iff₀ (by norm_num) unit, one_mul, mul_comm]
    exact_mod_cast Iff.rfl
  have tie : ((n % 10 ^ drop : Nat) : Rat) / ((10 ^ drop : Nat) : Rat) = 1 / 2 ↔
      2 * (n % 10 ^ drop) = 10 ^ drop := by
    rw [div_eq_div_iff unit.ne' (by norm_num), one_mul, mul_comm]
    exact_mod_cast Iff.rfl
  have odd : ((n / 10 ^ drop : Nat) : Int) % 2 = 1 ↔ n / 10 ^ drop % 2 = 1 := by omega
  have power : (10 : Rat) ^ drop = ((10 ^ drop : Nat) : Rat) := by push_cast; rfl
  rw [power, nearest, Int.fract_div_natCast_eq_div_natCast_mod, floor, halfEven]
  simp only [more, tie, odd]
  split
  · push_cast
    rfl
  · rfl

/-- The rounding of the size of a number, with the sign of the number. -/
theorem rounded_exactly {kept : Nat} {place : Int}
    (same : context.size (exactly negative coefficient exponent) = kept * (10 : Rat) ^ place) :
    context.rounded (exactly negative coefficient exponent) = exactly negative kept place := by
  have scale : (0 : Rat) < 10 ^ exponent := zpow_pos (by norm_num) _
  have size : (0 : Rat) ≤ coefficient * 10 ^ exponent := by positivity
  cases negative with
  | false =>
    have above : ¬ exactly false coefficient exponent < 0 := by simpa [exactly] using size
    rw [Precision.rounded, if_neg above, same]
    simp [exactly]
  | true =>
    by_cases zero : coefficient = 0
    · have nothing : exactly true coefficient exponent = 0 := by simp [exactly, zero]
      rw [nothing, Precision.size_zero] at same
      rw [nothing, Precision.rounded, if_neg (lt_irrefl 0), Precision.size_zero, exactly, if_pos rfl,
        mul_assoc, ← same, mul_zero]
    · have below : exactly true coefficient exponent < 0 := by
        have positive : (0 : Rat) < coefficient * 10 ^ exponent :=
          mul_pos (by exact_mod_cast Nat.pos_of_ne_zero zero) scale
        simpa [exactly] using positive
      rw [Precision.rounded, if_pos below, same]
      simp [exactly]

theorem base_cast : ((context.base : Nat) : Rat) = 10 := by norm_num [context]

/-- The count at the last kept place, when that lies above the exponent. -/
theorem count_exactly {place : Int}
    (kept : context.place (exactly negative coefficient exponent) = place)
    (above : exponent ≤ place) :
    nearest (|exactly negative coefficient exponent| / (context.base : Rat) ^
        context.place (exactly negative coefficient exponent)) =
      halfEven coefficient (place - exponent).toNat := by
  have nonzero : (10 : Rat) ≠ 0 := by norm_num
  obtain ⟨drop, rfl⟩ := Int.le.dest above
  have quotient : |exactly negative coefficient exponent| / (10 : Rat) ^ (exponent + drop) =
      coefficient / 10 ^ drop := by
    rw [abs_exactly, zpow_add₀ nonzero, zpow_natCast]
    have scale : (10 : Rat) ^ exponent ≠ 0 := zpow_ne_zero _ nonzero
    field_simp
  rw [kept, base_cast, quotient, nearest_halfEven]
  simp

theorem size_exactly {place : Int}
    (kept : context.place (exactly negative coefficient exponent) = place)
    (above : exponent ≤ place) :
    context.size (exactly negative coefficient exponent) =
      halfEven coefficient (place - exponent).toNat * (10 : Rat) ^ place := by
  rw [Precision.size, count_exactly kept above, kept, base_cast]
  push_cast
  rfl

/-- A carry into a new digit leaves a power of ten. -/
theorem halfEven_carried {place : Int}
    (kept : context.place (exactly negative coefficient exponent) = place)
    (above : exponent ≤ place)
    (carried : ¬ width (halfEven coefficient (place - exponent).toNat) ≤ precision) :
    halfEven coefficient (place - exponent).toNat = 10 ^ precision := by
  rw [width_le_iff precision_pos, not_lt] at carried
  have most := context.count_le (exactly negative coefficient exponent)
  rw [count_exactly kept above] at most
  have bound : halfEven coefficient (place - exponent).toNat ≤ 10 ^ precision := by
    exact_mod_cast most
  exact bound.antisymm carried

/-- A number whose leading digit is out of range is not rounded into it. -/
theorem not_inRange_of_log {x : Rat} (nonzero : x ≠ 0) (large : maxExponent < Int.log 10 |x|) :
    ¬ InRange x := by
  have bounded : context.least ≤ Int.log context.base |x| := by
    have low : tiny ≤ maxExponent := by decide
    exact low.trans large.le
  have size := context.zpow_log_le_size nonzero bounded
  rw [base_cast] at size
  rw [InRange, not_lt]
  refine le_trans ?_ size
  exact zpow_le_zpow_right₀ (by norm_num) large

/-- Nor is one that the rounding carries out of it. -/
theorem not_inRange_of_carry {x : Rat} {place : Int}
    (size : context.size x = ((10 ^ precision : Nat) : Rat) * 10 ^ place) (large : top < place + 1) :
    ¬ InRange x := by
  rw [InRange, not_lt, size]
  push_cast
  rw [← zpow_natCast, ← zpow_add₀ (by norm_num)]
  apply zpow_le_zpow_right₀ (by norm_num)
  simp only [top] at large
  omega

/-- A number with no digit below the last kept place. -/
theorem rounded_kept (positive : 0 < coefficient)
    (kept : max (width coefficient + exponent - precision) tiny ≤ exponent) :
    coefficient < 10 ^ precision ∧ context.rounded (exactly negative coefficient exponent) =
      exactly negative coefficient exponent := by
  constructor
  · rw [← width_le_iff precision_pos]
    have reach := (max_le_iff.mp kept).1
    omega
  · apply rounded_exactly
    rw [← @abs_exactly negative]
    apply context.size_of_multiple (n := coefficient) (e := exponent)
    · rw [abs_exactly, base_cast]
      push_cast
      rfl
    · rw [place_exactly positive]
      exact kept

/-- Rounding an exact result to the context, when it does not overflow. -/
theorem fix_spec (range : InRange (exactly negative coefficient exponent)) :
    ∃ kept place, fix negative coefficient exponent = .ok (.finite negative kept place) ∧
      kept < 10 ^ precision ∧
      context.rounded (exactly negative coefficient exponent) = exactly negative kept place := by
  unfold fix
  split
  · rename_i zero
    refine ⟨0, _, rfl, by decide, rounded_exactly ?_⟩
    simp [exactly, zero, Precision.size_zero]
  · rename_i nonzero
    have positive : 0 < coefficient := Nat.pos_of_ne_zero nonzero
    have log : Int.log 10 |exactly negative coefficient exponent| + 1 = width coefficient + exponent :=
      log_exactly positive
    have placed : context.place (exactly negative coefficient exponent) =
        max (width coefficient + exponent - precision) tiny := place_exactly positive
    simp only
    split
    · rename_i large
      refine absurd range (not_inRange_of_log ?_ ?_)
      · rw [← abs_pos, abs_exactly]
        exact mul_pos (by exact_mod_cast positive) (zpow_pos (by norm_num) _)
      · simp only [top, precision, maxExponent] at large ⊢
        omega
    · split
      · rename_i small
        have size := size_exactly placed small.le
        split
        · rename_i narrow
          exact ⟨_, _, rfl, (width_le_iff precision_pos).mp narrow, rounded_exactly size⟩
        · rename_i carried
          have full := halfEven_carried placed small.le carried
          rw [full] at size ⊢
          split
          · rename_i large
            exact absurd range (not_inRange_of_carry size large)
          · refine ⟨_, _, rfl, by decide, rounded_exactly ?_⟩
            rw [size, zpow_add_one₀ (by norm_num)]
            norm_num [precision]
            ring
      · rename_i kept
        obtain ⟨narrow, same⟩ := rounded_kept positive (not_lt.mp kept)
        exact ⟨coefficient, exponent, rfl, narrow, same⟩

/-- The coefficient has no more digits than the context keeps. -/
def Narrow : Decimal → Prop
  | .finite _ coefficient _ => coefficient < 10 ^ precision
  | _ => False

/-- A computation returns a number rounded to the context. -/
def Returns (computed : Except DecimalError Decimal) (x : Rat) : Prop :=
  ∃ decimal, computed = .ok decimal ∧ decimal.Denotes (context.rounded x) ∧ decimal.Narrow

theorem Denotes.cases {decimal : Decimal} (denotes : decimal.Denotes x) :
    ∃ negative coefficient exponent, decimal = .finite negative coefficient exponent ∧
      exactly negative coefficient exponent = x := by
  obtain ⟨finite, exact⟩ := denotes
  cases decimal with
  | finite negative coefficient exponent => exact ⟨negative, coefficient, exponent, rfl, exact⟩
  | infinite negative => cases finite
  | nan negative signaling payload => cases finite

theorem fix_returns (same : exactly negative coefficient exponent = x) (range : InRange x) :
    Returns (fix negative coefficient exponent) x := by
  subst same
  obtain ⟨kept, place, fixed, narrow, rounded⟩ := fix_spec range
  exact ⟨_, fixed, ⟨rfl, rounded.symm⟩, narrow⟩

theorem exactly_shift (shift : Nat) :
    exactly negative (coefficient * 10 ^ shift) exponent =
      exactly negative coefficient (exponent + shift) := by
  rw [exactly, exactly, zpow_add₀ (by norm_num), zpow_natCast]
  push_cast
  ring

theorem exactly_negate :
    exactly (!negative) coefficient exponent = -exactly negative coefficient exponent := by
  cases negative <;> simp [exactly]

theorem exactly_addSigned (first second : Bool × Nat) :
    exactly (addSigned first second).1 (addSigned first second).2 exponent =
      exactly first.1 first.2 exponent + exactly second.1 second.2 exponent := by
  obtain ⟨n₁, c₁⟩ := first
  obtain ⟨n₂, c₂⟩ := second
  unfold addSigned
  split
  · rename_i signs
    simp only at signs
    subst signs
    simp only [exactly]
    push_cast
    ring
  · rename_i signs
    have opposite : n₂ = !n₁ := by cases n₁ <;> cases n₂ <;> simp_all
    subst opposite
    rw [exactly_negate]
    split
    · rename_i sizes
      simp only at sizes
      subst sizes
      simp [exactly]
    · split
      · rename_i smaller
        simp only [exactly, Nat.cast_sub smaller.le]
        ring
      · rename_i larger
        rw [exactly_negate]
        simp only [exactly, Nat.cast_sub (not_lt.mp larger)]
        ring

theorem addNumbers_returns {first second : Decimal} (left : first.Denotes x) (right : second.Denotes y)
    (range : InRange (x + y)) : Returns (addNumbers first second) (x + y) := by
  obtain ⟨n₁, c₁, e₁, rfl, rfl⟩ := left.cases
  obtain ⟨n₂, c₂, e₂, rfl, rfl⟩ := right.cases
  refine fix_returns ?_ range
  rw [exactly_addSigned, exactly_shift, exactly_shift]
  congr 2
  · have least := min_le_left e₁ e₂
    omega
  · have least := min_le_right e₁ e₂
    omega

theorem nanOf_finite {first second : Decimal} (left : first.Denotes x) (right : second.Denotes y) :
    nanOf first second = .ok none := by
  obtain ⟨n₁, c₁, e₁, rfl, -⟩ := left.cases
  obtain ⟨n₂, c₂, e₂, rfl, -⟩ := right.cases
  rfl

theorem Denotes.negate {decimal : Decimal} (denotes : decimal.Denotes x) :
    decimal.negate.Denotes (-x) := by
  obtain ⟨negative, coefficient, exponent, rfl, rfl⟩ := denotes.cases
  exact ⟨rfl, exactly_negate⟩

theorem exactly_stripZeros (fuel coefficient : Nat) (exponent : Int) :
    exactly negative (stripZeros fuel coefficient exponent).1 (stripZeros fuel coefficient exponent).2 =
      exactly negative coefficient exponent := by
  induction fuel generalizing coefficient exponent with
  | zero => rfl
  | succ fuel ih =>
    unfold stripZeros
    split
    · rename_i zeros
      have whole : coefficient = coefficient / 10 * 10 ^ 1 := by omega
      rw [ih, ← Int.natCast_one, ← exactly_shift, ← whole]
    · rfl

/-- The quotient by a hundred comes out even within the digits computed for it. -/
theorem exactly_quotient_hundred (narrow : coefficient < 10 ^ precision) (ideal : Int) :
    exactly negative (quotient coefficient 100 ideal).1 (quotient coefficient 100 ideal).2 =
      exactly negative coefficient ideal / 100 := by
  have digits : width coefficient ≤ 28 := (width_le_iff precision_pos).mpr narrow
  obtain ⟨k, wide⟩ := Nat.le.dest (digits.trans (by decide : 28 ≤ 30))
  have hundred : width 100 = 3 := by decide
  have shift : ((width 100 : Int) - width coefficient + precision + 1) = (k + 2 : Nat) := by
    simp only [hundred, precision]
    omega
  have power : coefficient * 10 ^ (k + 2) = coefficient * 10 ^ k * 100 := by ring
  have opposite : (-((k + 2 : Nat) : Int)).toNat = 0 := by omega
  simp only [quotient, shift, opposite, Int.toNat_natCast, pow_zero, mul_one, power]
  rw [Nat.mul_mod_left, Nat.mul_div_left _ (by decide), if_neg (not_not.mpr rfl), exactly_stripZeros,
    exactly_shift]
  have place : ideal - ((k + 2 : Nat) : Int) + k = ideal - 2 := by omega
  have square : (10 : Rat) ^ (2 : Int) = 100 := by norm_num
  rw [place, exactly, exactly, zpow_sub₀ (by norm_num), square, mul_div_assoc]

section Operations

variable {first second : Decimal}

theorem add_returns (left : first.Denotes x) (right : second.Denotes y) (range : InRange (x + y)) :
    Returns (first.add second) (x + y) := by
  have same : first.add second = addNumbers first second := by
    rw [add, nanOf_finite left right]
    rfl
  rw [same]
  exact addNumbers_returns left right range

theorem sub_returns (left : first.Denotes x) (right : second.Denotes y) (range : InRange (x - y)) :
    Returns (first.sub second) (x - y) := by
  have same : first.sub second = addNumbers first second.negate := by
    rw [sub, nanOf_finite left right]
    rfl
  rw [sub_eq_add_neg] at range ⊢
  rw [same]
  exact addNumbers_returns left right.negate range

theorem mul_returns (left : first.Denotes x) (right : second.Denotes y) (range : InRange (x * y)) :
    Returns (first.mul second) (x * y) := by
  have same : first.mul second = mulNumbers first second := by
    rw [mul, nanOf_finite left right]
    rfl
  obtain ⟨n₁, c₁, e₁, rfl, rfl⟩ := left.cases
  obtain ⟨n₂, c₂, e₂, rfl, rfl⟩ := right.cases
  rw [same]
  refine fix_returns ?_ range
  simp only [exactly, zpow_add₀ (show (10 : Rat) ≠ 0 by norm_num)]
  cases n₁ <;> cases n₂ <;> simp <;> ring

theorem div_hundred_returns (left : first.Denotes x) (narrow : first.Narrow)
    (range : InRange (x / 100)) : Returns (first.div hundred) (x / 100) := by
  have same : first.div hundred = divNumbers first hundred := by
    have finite : hundred.Denotes hundred.value := ⟨rfl, rfl⟩
    rw [div, nanOf_finite left finite]
    rfl
  obtain ⟨n₁, c₁, e₁, rfl, rfl⟩ := left.cases
  rw [same, hundred, divNumbers, if_neg (by decide), Bool.bne_false, sub_zero]
  split
  · rename_i zero
    refine fix_returns ?_ range
    simp [exactly, zero]
  · exact fix_returns (exactly_quotient_hundred narrow e₁) range

theorem abs_returns (left : first.Denotes x) (range : InRange |x|) : Returns first.abs |x| := by
  obtain ⟨n₁, c₁, e₁, rfl, rfl⟩ := left.cases
  refine fix_returns ?_ range
  rw [abs_exactly]
  simp [exactly]

/-- The decimal, finite or infinite, is at least a number. -/
def AtLeast : Decimal → Rat → Prop
  | .finite negative coefficient exponent, x => x ≤ exactly negative coefficient exponent
  | .infinite negative, _ => negative = false
  | .nan _ _ _, _ => False

theorem le_returns (left : first.Denotes x) (number : second.isNan = false) :
    ∃ verdict, first.le second = .ok verdict ∧ (verdict = true ↔ second.AtLeast x) := by
  obtain ⟨n₁, c₁, e₁, rfl, rfl⟩ := left.cases
  cases second with
  | finite n₂ c₂ e₂ =>
    refine ⟨_, rfl, ?_⟩
    simp [below, AtLeast]
  | infinite n₂ =>
    refine ⟨_, rfl, ?_⟩
    simp [below, AtLeast]
  | nan negative signaling payload => cases number

theorem zero_denotes : zero.Denotes 0 := ⟨rfl, by simp [zero, value, exactly]⟩

theorem lt_zero_returns (left : first.Denotes x) (nonneg : 0 ≤ x) : first.lt zero = .ok false := by
  obtain ⟨n₁, c₁, e₁, rfl, rfl⟩ := left.cases
  have origin : exactly false 0 0 = 0 := zero_denotes.exact
  have above : below (.finite n₁ c₁ e₁) zero = false := by
    rw [zero, below, origin, decide_eq_false_iff_not, not_lt]
    exact nonneg
  rw [lt, above]
  rfl

end Operations

/-- The size of a rounded number is kept as it is. -/
theorem rounded_size (x : Rat) : context.rounded |context.rounded x| = |context.rounded x| := by
  rw [Precision.rounded_abs, Precision.rounded_rounded]

theorem inRange_size {x : Rat} (range : InRange x) : InRange |context.rounded x| := by
  have same : context.size |context.rounded x| = context.size x := by
    rw [← Precision.abs_rounded, rounded_size, abs_abs, Precision.abs_rounded]
  rw [InRange, same]
  exact range

theorem inRange_hundredth {x : Rat} (range : InRange x) : InRange (context.rounded x / 100) := by
  have nonzero : (10 : Rat) ≠ 0 := by norm_num
  have small : |context.rounded x / 100| ≤ (10 : Rat) ^ (maxExponent - 1) := by
    have same : (10 : Rat) ^ (maxExponent - 1) = 10 ^ (maxExponent + 1) / 100 := by
      have split : maxExponent + 1 = maxExponent - 1 + 2 := by decide
      have square : (10 : Rat) ^ (2 : Int) = 100 := by norm_num
      rw [split, zpow_add₀ nonzero, square, mul_div_cancel_right₀ _ (by norm_num)]
    rw [abs_div, Precision.abs_rounded, abs_of_pos (by norm_num : (0 : Rat) < 100), same]
    exact div_le_div_of_nonneg_right (le_of_lt range) (by norm_num)
  rw [← base_cast] at small
  have size := context.size_le_zpow small (by decide)
  rw [base_cast] at size
  refine lt_of_le_of_lt size (zpow_lt_zpow_right₀ (by norm_num) ?_)
  decide

/-- A number that the context holds as it is. -/
structure Kept (x : Rat) : Prop where
  unrounded : context.rounded x = x
  range : InRange x

/-- Numbers with few enough digits at a place in range are kept. -/
theorem kept_of_multiple {x : Rat} {n : Nat} {e : Int} (whole : |x| = n * (10 : Rat) ^ e)
    (short : n < 10 ^ precision) (lower : tiny ≤ e) (upper : e ≤ top) : Kept x := by
  have scale : (0 : Rat) < 10 ^ e := zpow_pos (by norm_num) _
  have small : |x| < (10 : Rat) ^ (precision + e : Int) := by
    rw [whole, zpow_add₀ (by norm_num), zpow_natCast]
    apply mul_lt_mul_of_pos_right _ scale
    exact_mod_cast short
  have size : context.size x = |x| := by
    by_cases zero : x = 0
    · rw [zero, Precision.size_zero, abs_zero]
    · have log : Int.log 10 |x| < precision + e := by
        rw [← Int.lt_zpow_iff_log_lt one_lt_ten (abs_pos.mpr zero)]
        exact_mod_cast small
      have place : context.place x ≤ e := by
        rw [Precision.place, max_le_iff]
        refine ⟨?_, lower⟩
        simp only [context]
        omega
      apply context.size_of_multiple (n := n) _ place
      rw [whole, base_cast]
      push_cast
      rfl
  refine ⟨context.rounded_of_size size, ?_⟩
  rw [InRange, size]
  refine lt_of_lt_of_le small (zpow_le_zpow_right₀ (by norm_num) ?_)
  simp only [top] at upper
  omega

theorem kept_natCast (n : Nat) (short : n < 10 ^ precision) : Kept n :=
  kept_of_multiple (n := n) (e := 0) (by simp) short (by decide) (by decide)

end N8nSystems.Lib.Py.Decimal
