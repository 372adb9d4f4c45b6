import N8nSystems.Lib.PyRounded
import N8nSystems.Validators.Vat

/-! What `vat_math` compares: the sums, products and differences of the invoice, each
rounded to the decimal context. -/

namespace N8nSystems.Validators

open Lib Lib.Py

/-- The VAT that a line should have. -/
def VatLine.expected (round : Rat → Rat) (rateUnit : Text) (line : VatLine) : Rat :=
  let product := round (line.base.value * line.rate.value)
  if rateUnit = text "fraction" then product else round (product / 100)

/-- The sum of the VAT of the lines, added up one by one. -/
def sumFrom (round : Rat → Rat) (start : Rat) (lines : List VatLine) : Rat :=
  lines.foldl (fun sum line => round (sum + line.vat.value)) start

/-- The arguments of `vat_math`. -/
structure Amounts where
  net : Decimal
  vat : Decimal
  gross : Decimal
  lines : List VatLine
  tolerance : Decimal
  rateUnit : Text

namespace Amounts

variable (amounts : Amounts) (round : Rat → Rat)

def TotalsAgree : Prop := amounts.tolerance.AtLeast
  |round (amounts.gross.value - round (amounts.net.value + amounts.vat.value))|

def LineAgrees (line : VatLine) : Prop := amounts.tolerance.AtLeast
  |round (line.vat.value - line.expected round amounts.rateUnit)|

def SumAgrees : Prop := amounts.tolerance.AtLeast
  |round (sumFrom round 0 amounts.lines - amounts.vat.value)|

/-- The three comparisons, with every result of an operation rounded. -/
structure Agrees : Prop where
  totals : amounts.TotalsAgree round
  lines : ∀ line ∈ amounts.lines, amounts.LineAgrees round line
  sum : amounts.lines ≠ [] → amounts.SumAgrees round

/-- The exact results of the operations that are reached. -/
inductive Evaluated : Rat → Prop
  | gross : Evaluated (amounts.net.value + amounts.vat.value)
  | totals :
      Evaluated (amounts.gross.value - round (amounts.net.value + amounts.vat.value))
  | product (reached : amounts.TotalsAgree round) (member : line ∈ amounts.lines) :
      Evaluated (line.base.value * line.rate.value)
  | percent (reached : amounts.TotalsAgree round) (member : line ∈ amounts.lines)
      (percent : amounts.rateUnit ≠ text "fraction") :
      Evaluated (round (line.base.value * line.rate.value) / 100)
  | line (reached : amounts.TotalsAgree round) (member : line ∈ amounts.lines) :
      Evaluated (line.vat.value - line.expected round amounts.rateUnit)
  | sum (reached : amounts.TotalsAgree round) (listed : amounts.lines = before ++ line :: after) :
      Evaluated (sumFrom round 0 before + line.vat.value)
  | difference (reached : amounts.TotalsAgree round)
      (fitting : ∀ line ∈ amounts.lines, amounts.LineAgrees round line) (some : amounts.lines ≠ []) :
      Evaluated (sumFrom round 0 amounts.lines - amounts.vat.value)

/-- Finite amounts, totals that are not negative and a tolerance to compare with. -/
structure Valid : Prop where
  net : amounts.net.isFinite = true
  vat : amounts.vat.isFinite = true
  gross : amounts.gross.isFinite = true
  lines : ∀ line ∈ amounts.lines,
    line.rate.isFinite = true ∧ line.base.isFinite = true ∧ line.vat.isFinite = true
  nonneg : 0 ≤ amounts.net.value ∧ 0 ≤ amounts.vat.value ∧ 0 ≤ amounts.gross.value
  tolerance : amounts.tolerance.isNan = false

end Amounts

/-! Two roundings that agree on what is computed. -/

section Congruence

variable {amounts : Amounts} {round other : Rat → Rat}
  (same : ∀ x, amounts.Evaluated round x → other x = round x)

include same

theorem totalsAgree_congr : amounts.TotalsAgree other ↔ amounts.TotalsAgree round := by
  rw [Amounts.TotalsAgree, Amounts.TotalsAgree, same _ .gross, same _ .totals]

theorem expected_congr (reached : amounts.TotalsAgree round) (member : line ∈ amounts.lines) :
    line.expected other amounts.rateUnit = line.expected round amounts.rateUnit := by
  simp only [VatLine.expected, same _ (.product reached member)]
  split
  · rfl
  · rename_i percent
    exact same _ (.percent reached member percent)

theorem lineAgrees_congr (reached : amounts.TotalsAgree round) (member : line ∈ amounts.lines) :
    amounts.LineAgrees other line ↔ amounts.LineAgrees round line := by
  rw [Amounts.LineAgrees, Amounts.LineAgrees, expected_congr same reached member,
    same _ (.line reached member)]

theorem sumFrom_congr (reached : amounts.TotalsAgree round)
    (listed : amounts.lines = before ++ after) :
    sumFrom other 0 before = sumFrom round 0 before := by
  induction before using List.reverseRecOn generalizing after with
  | nil => rfl
  | append_singleton before line ih =>
    have split : amounts.lines = before ++ line :: after := by simpa using listed
    have earlier := ih split
    have here := same _ (.sum reached split)
    simp only [sumFrom, List.foldl_append, List.foldl_cons, List.foldl_nil] at earlier here ⊢
    rw [earlier, here]

theorem agrees_congr : amounts.Agrees other ↔ amounts.Agrees round := by
  have totals := totalsAgree_congr same
  by_cases reached : amounts.TotalsAgree round
  · have lines : (∀ line ∈ amounts.lines, amounts.LineAgrees other line) ↔
        ∀ line ∈ amounts.lines, amounts.LineAgrees round line :=
      forall₂_congr fun _ member => lineAgrees_congr same reached member
    have sum (fitting : ∀ line ∈ amounts.lines, amounts.LineAgrees round line)
        (some : amounts.lines ≠ []) : amounts.SumAgrees other ↔ amounts.SumAgrees round := by
      rw [Amounts.SumAgrees, Amounts.SumAgrees,
        sumFrom_congr same reached (List.append_nil _).symm, same _ (.difference reached fitting some)]
    constructor
    · intro agrees
      have fitting := lines.mp agrees.lines
      exact ⟨reached, fitting, fun some => (sum fitting some).mp (agrees.sum some)⟩
    · intro agrees
      exact ⟨totals.mpr reached, lines.mpr agrees.lines,
        fun some => (sum agrees.lines some).mpr (agrees.sum some)⟩
  · constructor
    · intro agrees
      exact absurd (totals.mp agrees.totals) reached
    · intro agrees
      exact absurd agrees.totals reached

theorem evaluated_congr (evaluated : amounts.Evaluated other x) : amounts.Evaluated round x := by
  have totals := totalsAgree_congr same
  cases evaluated with
  | gross => exact .gross
  | totals =>
    rw [same _ .gross]
    exact .totals
  | product reached member => exact .product (totals.mp reached) member
  | percent reached member percent =>
    rw [same _ (.product (totals.mp reached) member)]
    exact .percent (totals.mp reached) member percent
  | line reached member =>
    rw [expected_congr same (totals.mp reached) member]
    exact .line (totals.mp reached) member
  | sum reached listed =>
    rw [sumFrom_congr same (totals.mp reached) listed]
    exact .sum (totals.mp reached) listed
  | difference reached fitting some =>
    rw [sumFrom_congr same (totals.mp reached) (List.append_nil _).symm]
    refine .difference (totals.mp reached) ?_ some
    intro line member
    exact (lineAgrees_congr same (totals.mp reached) member).mp (fitting line member)

end Congruence

/-! The code computes with the rounding of the context. -/

section Code

open Decimal

variable {tolerance : Decimal}

theorem within_returns {actual expected : Decimal} (left : actual.Denotes x)
    (right : expected.Denotes y) (number : tolerance.isNan = false) (range : InRange (x - y)) :
    ∃ verdict, within actual expected tolerance = .ok verdict ∧
      (verdict = true ↔ tolerance.AtLeast |context.rounded (x - y)|) := by
  obtain ⟨difference, subtracted, denotes, -⟩ := sub_returns left right range
  obtain ⟨size, sized, measures, -⟩ := abs_returns denotes (inRange_size range)
  rw [rounded_size] at measures
  obtain ⟨verdict, compared, meaning⟩ := le_returns measures number
  refine ⟨verdict, ?_, meaning⟩
  rw [within, subtracted]
  simp only [bind, Except.bind, sized, compared]

theorem lineVat_returns {line : VatLine} (rate : line.rate.isFinite = true)
    (base : line.base.isFinite = true) (range : InRange (line.base.value * line.rate.value)) :
    ∃ expected, lineVat line rateUnit = .ok expected ∧
      expected.Denotes (line.expected context.rounded rateUnit) := by
  obtain ⟨product, multiplied, denotes, narrow⟩ := mul_returns ⟨base, rfl⟩ ⟨rate, rfl⟩ range
  simp only [lineVat, multiplied, bind, Except.bind, VatLine.expected]
  split
  · exact ⟨product, rfl, denotes⟩
  · obtain ⟨hundredth, divided, same, -⟩ :=
      div_hundred_returns denotes narrow (inRange_hundredth range)
    exact ⟨hundredth, divided, same⟩

/-- The loop adds up the VAT of the lines and reports those that do not agree. -/
theorem vatLines_returns (number : tolerance.isNan = false) {lines : List VatLine}
    (finite : ∀ line ∈ lines,
      line.rate.isFinite = true ∧ line.base.isFinite = true ∧ line.vat.isFinite = true)
    (products : ∀ line ∈ lines, InRange (line.base.value * line.rate.value))
    (differences : ∀ line ∈ lines,
      InRange (line.vat.value - line.expected context.rounded rateUnit))
    {sum : Decimal} {start : Rat} (started : sum.Denotes start)
    (sums : ∀ before line after, lines = before ++ line :: after →
      InRange (sumFrom context.rounded start before + line.vat.value)) (index : Nat) :
    ∃ mismatches total, vatLines tolerance rateUnit index sum lines = .ok (mismatches, total) ∧
      total.Denotes (sumFrom context.rounded start lines) ∧
      (mismatches.isEmpty = true ↔ ∀ line ∈ lines, tolerance.AtLeast
        |context.rounded (line.vat.value - line.expected context.rounded rateUnit)|) := by
  induction lines generalizing index sum start with
  | nil => exact ⟨[], sum, rfl, started, by simp⟩
  | cons line rest ih =>
    simp only [List.forall_mem_cons] at finite products differences
    obtain ⟨⟨rate, base, vat⟩, finite⟩ := finite
    obtain ⟨expected, computed, denotes⟩ := @lineVat_returns rateUnit line rate base products.1
    obtain ⟨next, added, counted, -⟩ := add_returns started ⟨vat, rfl⟩ (sums [] line rest rfl)
    obtain ⟨fits, compared, meaning⟩ := within_returns ⟨vat, rfl⟩ denotes number differences.1
    obtain ⟨mismatches, total, others, summed, silent⟩ := ih finite products.2 differences.2 counted
      (fun before other after listed => sums (line :: before) other after (by rw [listed]; rfl))
      (index + 1)
    simp only [vatLines, computed, added, compared, others, bind, Except.bind, List.forall_mem_cons]
    cases fits with
    | true => exact ⟨mismatches, total, rfl, summed, by simp [silent, ← meaning]⟩
    | false => exact ⟨_, total, rfl, summed, by simp [← meaning]⟩

theorem anyNegative_nonneg {values : List Decimal}
    (finite : ∀ value ∈ values, value.isFinite = true) (nonneg : ∀ value ∈ values, 0 ≤ value.value) :
    anyNegative values = .ok false := by
  induction values with
  | nil => rfl
  | cons value rest ih =>
    simp only [List.forall_mem_cons] at finite nonneg
    have above := lt_zero_returns ⟨finite.1, rfl⟩ nonneg.1
    simp only [anyNegative, above, bind, Except.bind]
    exact ih finite.2 nonneg.2

/-- Where no result overflows, the verdict is that of the rounded comparisons. -/
theorem vatMath_returns {amounts : Amounts} (valid : amounts.Valid)
    (range : ∀ x, amounts.Evaluated context.rounded x → InRange x) :
    ∃ result, vatMath (some amounts.net) (some amounts.vat) (some amounts.gross) amounts.lines
        amounts.tolerance amounts.rateUnit = .ok result ∧
      (result.passed = true ↔ amounts.Agrees context.rounded) := by
  have positive : anyNegative [amounts.net, amounts.vat, amounts.gross] = .ok false := by
    apply anyNegative_nonneg
    · simp [valid.net, valid.vat, valid.gross]
    · simp [valid.nonneg]
  obtain ⟨expected, added, denotes, -⟩ :=
    add_returns ⟨valid.net, rfl⟩ ⟨valid.vat, rfl⟩ (range _ .gross)
  obtain ⟨fits, compared, totals⟩ :=
    within_returns ⟨valid.gross, rfl⟩ denotes valid.tolerance (range _ .totals)
  simp only [vatMath, positive, added, compared, bind, Except.bind]
  cases fits with
  | false =>
    refine ⟨_, rfl, iff_of_false Bool.false_ne_true ?_⟩
    intro agrees
    cases totals.mpr agrees.totals
  | true =>
    have reached : amounts.TotalsAgree context.rounded := totals.mp rfl
    obtain ⟨mismatches, total, looped, summed, silent⟩ := vatLines_returns valid.tolerance valid.lines
      (fun _ member => range _ (.product reached member))
      (fun _ member => range _ (.line reached member)) zero_denotes
      (fun _ _ _ listed => range _ (.sum reached listed)) 0
    simp only [looped]
    cases quiet : mismatches.isEmpty with
    | false =>
      refine ⟨_, rfl, iff_of_false Bool.false_ne_true ?_⟩
      intro agrees
      rw [silent.mpr agrees.lines] at quiet
      cases quiet
    | true =>
      have fitting : ∀ line ∈ amounts.lines, amounts.LineAgrees context.rounded line :=
        silent.mp quiet
      cases none : amounts.lines.isEmpty with
      | true =>
        have empty : amounts.lines = [] := List.isEmpty_iff.mp none
        exact ⟨_, rfl, iff_of_true rfl ⟨reached, fitting, fun some => absurd empty some⟩⟩
      | false =>
        have some : amounts.lines ≠ [] := List.isEmpty_eq_false_iff.mp none
        obtain ⟨balanced, compared, sums⟩ := within_returns summed ⟨valid.vat, rfl⟩ valid.tolerance
          (range _ (.difference reached fitting some))
        simp only [compared]
        cases balanced with
        | false =>
          refine ⟨_, rfl, iff_of_false Bool.false_ne_true ?_⟩
          intro agrees
          cases sums.mpr (agrees.sum some)
        | true => exact ⟨_, rfl, iff_of_true rfl ⟨reached, fitting, fun _ => sums.mp rfl⟩⟩

/-- The arithmetic of `vat_math`. Where no result that it reaches overflows, it returns
and passes exactly the amounts that agree with every result rounded to the context. Where
the context holds every exact result that it reaches, these are the amounts that agree in
exact arithmetic. -/
theorem vatMath_arithmetic (amounts : Amounts) (valid : amounts.Valid) :
    ((∀ x, amounts.Evaluated context.rounded x → InRange x) →
      ∃ result, vatMath (some amounts.net) (some amounts.vat) (some amounts.gross) amounts.lines
          amounts.tolerance amounts.rateUnit = .ok result ∧
        (result.passed = true ↔ amounts.Agrees context.rounded)) ∧
    ((∀ x, amounts.Evaluated id x → Kept x) →
      ∃ result, vatMath (some amounts.net) (some amounts.vat) (some amounts.gross) amounts.lines
          amounts.tolerance amounts.rateUnit = .ok result ∧
        (result.passed = true ↔ amounts.Agrees id)) := by
  refine ⟨vatMath_returns valid, ?_⟩
  intro kept
  have same (x : Rat) (evaluated : amounts.Evaluated id x) : context.rounded x = id x :=
    (kept x evaluated).unrounded
  obtain ⟨result, returned, verdict⟩ := vatMath_returns valid
    (fun x evaluated => (kept x (evaluated_congr same evaluated)).range)
  exact ⟨result, returned, verdict.trans (agrees_congr same)⟩

/-- Ten percent on a hundred. -/
def tenPercent : Amounts where
  net := .finite false 100 0
  vat := .finite false 10 0
  gross := .finite false 110 0
  lines := [⟨.finite false 10 0, .finite false 100 0, .finite false 10 0⟩]
  tolerance := .finite false 1 (-2)
  rateUnit := text "percent"

theorem tenPercent_line (member : line ∈ tenPercent.lines) :
    line.base.value = 100 ∧ line.rate.value = 10 ∧ line.vat.value = 10 ∧
      line.expected id tenPercent.rateUnit = 10 := by
  have percent : tenPercent.rateUnit ≠ text "fraction" := by decide
  obtain rfl := List.mem_singleton.mp member
  simp only [VatLine.expected, if_neg percent, value, exactly]
  norm_num

theorem tenPercent_kept (evaluated : tenPercent.Evaluated id x) : Kept x := by
  cases evaluated with
  | gross =>
    norm_num [tenPercent, value, exactly]
    exact kept_natCast 110 (by decide)
  | totals =>
    norm_num [tenPercent, value, exactly]
    exact kept_natCast 0 (by decide)
  | product reached member =>
    rw [(tenPercent_line member).1, (tenPercent_line member).2.1]
    norm_num
    exact kept_natCast 1000 (by decide)
  | percent reached member percent =>
    rw [(tenPercent_line member).1, (tenPercent_line member).2.1]
    norm_num
    exact kept_natCast 10 (by decide)
  | line reached member =>
    rw [(tenPercent_line member).2.2.1, (tenPercent_line member).2.2.2]
    norm_num
    exact kept_natCast 0 (by decide)
  | @sum before line after reached listed =>
    have single : before = [] ∧ line ∈ tenPercent.lines := by
      cases before with
      | nil => exact ⟨rfl, listed ▸ List.mem_cons_self⟩
      | cons first rest => simp [tenPercent] at listed
    rw [single.1, (tenPercent_line single.2).2.2.1]
    norm_num [sumFrom]
    exact kept_natCast 10 (by decide)
  | difference reached fitting some =>
    norm_num [tenPercent, sumFrom, value, exactly]
    exact kept_natCast 0 (by decide)

theorem vatMath_arithmetic_tenPercent :
    ∃ result, vatMath (some tenPercent.net) (some tenPercent.vat) (some tenPercent.gross)
        tenPercent.lines tenPercent.tolerance tenPercent.rateUnit = .ok result ∧
      result.passed = true := by
  have valid : tenPercent.Valid := by
    refine ⟨rfl, rfl, rfl, ?_, ?_, rfl⟩
    · simp [tenPercent, isFinite]
    · norm_num [tenPercent, value, exactly]
  obtain ⟨result, returned, verdict⟩ :=
    (vatMath_arithmetic tenPercent valid).2 fun _ => tenPercent_kept
  refine ⟨result, returned, verdict.mpr ⟨?_, ?_, ?_⟩⟩
  · norm_num [Amounts.TotalsAgree, tenPercent, AtLeast, value, exactly]
  · intro line member
    rw [Amounts.LineAgrees, (tenPercent_line member).2.2.1, (tenPercent_line member).2.2.2]
    norm_num [tenPercent, AtLeast, exactly]
  · intro some
    norm_num [Amounts.SumAgrees, tenPercent, AtLeast, sumFrom, value, exactly]

/-- A gross without the VAT. -/
def largeAmounts : Amounts where
  net := .finite false 1 28
  vat := .finite false 1 0
  gross := .finite false 1 28
  lines := []
  tolerance := .finite false 1 (-2)
  rateUnit := text "percent"

theorem vatMath_overflow (lines : List VatLine) (tolerance : Decimal) (rateUnit : Text) :
    vatMath (some (.finite false 9 999999)) (some (.finite false 9 999999))
      (some (.finite false 9 999999)) lines tolerance rateUnit = .error .overflow := by
  have size : 0 ≤ exactly false 9 999999 := by
    rw [exactly]
    exact mul_nonneg (by norm_num) (zpow_nonneg (by norm_num) _)
  have positive : anyNegative [.finite false 9 999999, .finite false 9 999999,
      .finite false 9 999999] = .ok false := by
    apply anyNegative_nonneg
    · simp [isFinite]
    · simpa [value] using size
  simp only [vatMath, positive, bind, Except.bind]
  rfl

/-- The sum of 29 digits loses the last one, so that a gross which lacks the VAT passes;
and a sum above the exponent range raises. -/
theorem lost_digit_passes :
    (∃ result, vatMath (some largeAmounts.net) (some largeAmounts.vat) (some largeAmounts.gross)
        largeAmounts.lines largeAmounts.tolerance largeAmounts.rateUnit = .ok result ∧
      result.passed = true) ∧ ¬ largeAmounts.Agrees id ∧
    vatMath (some (.finite false 9 999999)) (some (.finite false 9 999999))
      (some (.finite false 9 999999)) [] (.finite false 1 (-2)) (text "percent") =
        .error .overflow := by
  refine ⟨?_, ?_, vatMath_overflow [] _ _⟩
  · have computed : (vatMath (some largeAmounts.net) (some largeAmounts.vat) (some largeAmounts.gross)
        largeAmounts.lines largeAmounts.tolerance largeAmounts.rateUnit).map RuleResult.passed =
          .ok true := by decide +kernel
    cases returned : vatMath (some largeAmounts.net) (some largeAmounts.vat) (some largeAmounts.gross)
        largeAmounts.lines largeAmounts.tolerance largeAmounts.rateUnit with
    | error signal =>
      rw [returned] at computed
      cases computed
    | ok result =>
      rw [returned] at computed
      exact ⟨result, rfl, Except.ok.inj computed⟩
  · intro agrees
    have totals := agrees.totals
    norm_num [Amounts.TotalsAgree, largeAmounts, AtLeast, exactly, value] at totals

end Code

end N8nSystems.Validators
