import Mathlib.Algebra.Group.Nat.Defs
import N8nSystems.Lib.PyValue

/-! Python's `datetime.date`. -/

namespace N8nSystems.Lib.Py

def isLeap (year : Nat) : Bool := year % 4 == 0 && (year % 100 != 0 || year % 400 == 0)

def daysInMonth (year month : Nat) : Nat :=
  if month = 2 then (if isLeap year then 29 else 28)
  else if month = 4 ∨ month = 6 ∨ month = 9 ∨ month = 11 then 30
  else 31

/-- A calendar date between `date.min` and `date.max`. -/
structure Date where
  year : Nat
  month : Nat
  day : Nat
  year_range : 1 ≤ year ∧ year ≤ 9999
  month_range : 1 ≤ month ∧ month ≤ 12
  day_range : 1 ≤ day ∧ day ≤ daysInMonth year month
  deriving DecidableEq, Repr

theorem spelled_concat (digits : List Nat) (digit : Nat) :
    spelled (digits ++ [digit]) = 10 * spelled digits + digit := by
  rw [spelled, List.foldl_append]
  rfl

theorem spelled_lt {digits : List Nat} (small : ∀ digit ∈ digits, digit < 10) :
    spelled digits < 10 ^ digits.length := by
  induction digits using List.reverseRecOn with
  | nil => exact Nat.one_pos
  | append_singleton rest digit ih =>
    have here := small digit (by simp)
    have there := ih fun other member => small other (by simp [member])
    rw [spelled_concat, List.length_append, List.length_singleton, Nat.pow_succ]
    omega

/-- As many digits that spell the same number are the same. -/
theorem spelled_injective {first second : List Nat} (length : first.length = second.length)
    (small : ∀ digit ∈ first, digit < 10) (small' : ∀ digit ∈ second, digit < 10)
    (same : spelled first = spelled second) : first = second := by
  induction first using List.reverseRecOn generalizing second with
  | nil => exact (List.length_eq_zero_iff.mp length.symm).symm
  | append_singleton rest digit ih =>
    rcases List.eq_nil_or_concat' second with rfl | ⟨rest', digit', rfl⟩
    · simp at length
    · have here := small digit (by simp)
      have here' := small' digit' (by simp)
      rw [spelled_concat, spelled_concat] at same
      have fronts : rest = rest' := by
        refine ih ?_ (fun other member => small other (by simp [member]))
          (fun other member => small' other (by simp [member])) (by omega)
        simpa using length
      have ends : digit = digit' := by omega
      rw [fronts, ends]

namespace Date

/-- `date(year, month, day)`; nothing where it raises `ValueError`. -/
def make (year month day : Nat) : Option Date :=
  if valid : (1 ≤ year ∧ year ≤ 9999) ∧ (1 ≤ month ∧ month ≤ 12) ∧
      (1 ≤ day ∧ day ≤ daysInMonth year month) then
    some ⟨year, month, day, valid.1, valid.2.1, valid.2.2⟩
  else none

/-- Dates compare by year, then month, then day. -/
instance : LT Date :=
  ⟨fun first second => first.year < second.year ∨ first.year = second.year ∧
    (first.month < second.month ∨ first.month = second.month ∧ first.day < second.day)⟩

instance (first second : Date) : Decidable (first < second) :=
  inferInstanceAs (Decidable (first.year < second.year ∨ first.year = second.year ∧
    (first.month < second.month ∨ first.month = second.month ∧ first.day < second.day)))

instance : LE Date := ⟨fun first second => first < second ∨ first = second⟩

instance (first second : Date) : Decidable (first ≤ second) :=
  inferInstanceAs (Decidable (first < second ∨ first = second))

theorem lt_iff {first second : Date} : first < second ↔
    first.year < second.year ∨ first.year = second.year ∧
      (first.month < second.month ∨ first.month = second.month ∧ first.day < second.day) := Iff.rfl

theorem le_iff {first second : Date} : first ≤ second ↔ first < second ∨ first = second := Iff.rfl

theorem not_lt {first second : Date} : ¬ first < second ↔ second ≤ first := by
  obtain ⟨year, month, day, _, _, _⟩ := first
  obtain ⟨year', month', day', _, _, _⟩ := second
  rw [le_iff, lt_iff, lt_iff, mk.injEq]
  simp only
  omega

theorem day_lt (date : Date) : date.day < 100 := by
  have bound := date.day_range.2
  unfold daysInMonth at bound
  split at bound
  · split at bound <;> omega
  · split at bound <;> omega

theorem make_self (date : Date) : make date.year date.month date.day = some date :=
  dif_pos ⟨date.year_range, date.month_range, date.day_range⟩

theorem make_eq_some_iff {year month day : Nat} {date : Date} : make year month day = some date ↔
    date.year = year ∧ date.month = month ∧ date.day = day := by
  constructor
  · intro made
    unfold make at made
    split at made
    · cases made
      exact ⟨rfl, rfl, rfl⟩
    · cases made
  · rintro ⟨rfl, rfl, rfl⟩
    exact date.make_self

/-- `%0wd`. -/
def padded (width n : Nat) : Text :=
  let digits := (Nat.toDigits 10 n).map Char.toNat
  List.replicate (width - digits.length) 48 ++ digits

theorem padded_digits (width n : Nat) : ∀ c ∈ padded width n, isAsciiDigit c = true := by
  intro c member
  rcases List.mem_append.mp member with zero | inside
  · rw [List.eq_of_mem_replicate zero]
    rfl
  · obtain ⟨char, digit, rfl⟩ := List.mem_map.mp inside
    have decimal := Nat.isDigit_of_mem_toDigits (by decide) (by decide) digit
    rw [Char.isDigit_iff_toNat] at decimal
    exact isAsciiDigit_iff.mpr decimal

theorem length_padded (positive : 0 < width) (small : n < 10 ^ width) : (padded width n).length = width := by
  have short : (Nat.toDigits 10 n).length ≤ width :=
    (Nat.length_toDigits_le_iff (by decide) positive).mpr small
  simp only [padded, List.length_append, List.length_replicate, List.length_map]
  omega

/-- The digits of a padded number spell it. -/
theorem spelled_padded (width n : Nat) : spelled ((padded width n).map (· - 48)) = n := by
  have zeros (count : Nat) : (List.replicate count 0).foldl (fun value digit => 10 * value + digit) 0 = 0 := by
    induction count with
    | zero => rfl
    | succ count ih => rwa [List.replicate_succ, List.foldl_cons]
  rw [padded, List.map_append, List.map_replicate, Nat.sub_self, spelled, List.foldl_append, zeros,
    List.map_map, List.foldl_map]
  exact Nat.ofDigitChars_ten_toDigits

/-- `date.isoformat()`. -/
def isoformat (date : Date) : Text :=
  padded 4 date.year ++ [45] ++ padded 2 date.month ++ [45] ++ padded 2 date.day

end Date

end N8nSystems.Lib.Py
