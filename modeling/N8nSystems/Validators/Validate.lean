import N8nSystems.Validators.Identifiers

/-! The validation endpoint (`validate_extraction` in `main.py`), and what its
date and rate rules say together. -/

namespace N8nSystems.Validators

open Lib Lib.Py

structure VatLineIn where
  rate : Decimal
  base : Decimal
  vat : Decimal

structure ValidateIn where
  supplierBusinessId : Option Text
  iban : Option Text
  referenceNumber : Option Text
  invoiceDate : Option Text
  dueDate : Option Text
  netTotal : Option Decimal
  vatTotal : Option Decimal
  grossTotal : Option Decimal
  vatBreakdown : List VatLineIn

/-- `validate_extraction`, with `today_helsinki()` as a parameter. The rules run in
this order, and an exception in one of them is the answer to the request. -/
def validateExtraction (letters : Letters) (vatConfig : VatRatesConfig) (moneyTolerance : Decimal)
    (today : Date) (body : ValidateIn) : Except Failure (List RuleResult) := do
  let lines := body.vatBreakdown.map fun item => (⟨item.rate, item.base, item.vat⟩ : VatLine)
  let businessId ← businessIdChecksum letters body.supplierBusinessId
  let iban ← ibanChecksum letters body.iban
  let reference ← referenceNumber letters body.referenceNumber
  let vatMath ← (vatMath body.netTotal body.vatTotal body.grossTotal lines moneyTolerance
    vatConfig.rateUnit).mapError .decimal
  let vatRates ← vatRates letters.toUnicode lines vatConfig body.invoiceDate
  return [businessId, iban, reference,
    dates letters.toUnicode body.invoiceDate body.dueDate today, vatMath, vatRates]

/-- Some result of the rule is a pass. -/
def RulePassed (results : List RuleResult) (rule : String) : Prop :=
  ∃ result ∈ results, result.rule = text rule ∧ result.passed = true

instance : Decidable (RulePassed results rule) :=
  inferInstanceAs (Decidable (∃ result ∈ results, result.rule = text rule ∧ result.passed = true))

/-- The result of a validator, whatever its outcome, names the rule and the field. -/
structure Names (rule field : String) (outcome : Except ε RuleResult) : Prop where
  of_ok : ∀ result, outcome = .ok result → result.rule = text rule ∧ result.field = text field

theorem Names.failed (rule field reason : String) (details : List (Text × Json)) :
    Names rule field (.ok (failed rule field reason details) : Except ε RuleResult) where
  of_ok := by
    intro result same
    cases same
    exact ⟨rfl, rfl⟩

theorem Names.passed (rule field : String) (details : List (Text × Json)) :
    Names rule field (.ok (passed rule field details) : Except ε RuleResult) where
  of_ok := by
    intro result same
    cases same
    exact ⟨rfl, rfl⟩

theorem Names.bind {first : Except ε α} {next : α → Except ε RuleResult}
    (names : ∀ value, Names rule field (next value)) : Names rule field (first >>= next) where
  of_ok := by
    intro result same
    obtain ⟨value, _, returned⟩ := bind_ok_iff.mp same
    exact (names value).of_ok result returned

theorem Names.ite {condition : Prop} [Decidable condition] {yes no : Except ε RuleResult}
    (first : Names rule field yes) (second : Names rule field no) :
    Names rule field (if condition then yes else no) := by
  split
  · exact first
  · exact second

theorem Names.mapError {outcome : Except ε RuleResult} (change : ε → ε')
    (names : Names rule field outcome) : Names rule field (outcome.mapError change) where
  of_ok := by
    intro result same
    cases outcome with
    | error _ => cases same
    | ok value =>
      cases same
      exact names.of_ok _ rfl

section Names

variable (letters : Letters)

theorem businessIdChecksum_names (value : Option Text) :
    Names "business_id_checksum" "supplier_business_id" (businessIdChecksum letters value) := by
  unfold businessIdChecksum
  refine .ite (.failed ..) ?_
  split
  · exact .failed ..
  · refine .bind fun total => .ite (.failed ..) (.bind fun actual => .ite (.failed ..) (.passed ..))

theorem ibanChecksum_names (value : Option Text) :
    Names "iban_checksum" "iban" (ibanChecksum letters value) := by
  unfold ibanChecksum
  refine .ite (.failed ..) (.ite (.failed ..) (.ite (.failed ..) (.ite (.failed ..) ?_)))
  exact .bind fun remainder => .ite (.failed ..) (.ite (.failed ..) (.passed ..))

theorem referenceNumber_names (value : Option Text) :
    Names "reference_number" "reference_number" (referenceNumber letters value) := by
  unfold referenceNumber rfReference finnishReference
  refine .ite (.failed ..) (.ite ?_ ?_)
  · refine .ite (.failed ..) (.ite (.failed ..) (.ite (.failed ..) ?_))
    exact .bind fun remainder => .ite (.failed ..) (.ite (.failed ..) (.passed ..))
  · refine .ite (.failed ..) (.ite (.failed ..) ?_)
    exact .bind fun actual => .bind fun expected => .ite (.failed ..) (.passed ..)

theorem vatMath_names (netTotal vatTotal grossTotal : Option Decimal) (lines : List VatLine)
    (tolerance : Decimal) (rateUnit : Text) : Names "vat_math" "gross_total"
      (vatMath netTotal vatTotal grossTotal lines tolerance rateUnit) := by
  unfold vatMath
  split
  · refine .bind fun negative => .ite (.failed ..) (.bind fun expected => .bind fun fits => ?_)
    refine .ite (.failed ..) (.bind fun found => .ite (.failed ..) (.ite ?_ (.passed ..)))
    exact .bind fun agree => .ite (.failed ..) (.passed ..)
  · exact .failed ..

theorem vatRates_names (unicode : Unicode) (lines : List VatLine) (config : VatRatesConfig)
    (invoiceDate : Option Text) :
    Names "vat_rates" "vat_breakdown" (vatRates unicode lines config invoiceDate) := by
  have unhashable : Names "vat_rates" "vat_breakdown" (.error .unhashable : Except Failure RuleResult) :=
    ⟨by intro result same; cases same⟩
  unfold vatRates
  refine .ite (.failed ..) (.ite unhashable ?_)
  split
  · exact .failed ..
  · exact .ite unhashable (.ite (.failed ..) (.ite (.failed ..) (.passed ..)))

end Names

variable {letters : Letters}

/-- The rules of a response, in the order of the list. -/
def ruleNames : List String :=
  ["business_id_checksum", "iban_checksum", "reference_number", "dates", "vat_math", "vat_rates"]

/-- A response has one result for each rule, and two of them are those of the dates
and of the rates. -/
theorem validateExtraction_ok
    (returned : validateExtraction letters config tolerance today body = .ok results) :
    ∃ businessId iban reference math rates,
      results = [businessId, iban, reference,
        dates letters.toUnicode body.invoiceDate body.dueDate today, math, rates] ∧
      results.map RuleResult.rule = ruleNames.map text ∧
      vatRates letters.toUnicode (body.vatBreakdown.map fun item => ⟨item.rate, item.base, item.vat⟩)
        config body.invoiceDate = .ok rates := by
  unfold validateExtraction at returned
  obtain ⟨businessId, idChecked, returned⟩ := bind_ok_iff.mp returned
  obtain ⟨iban, ibanChecked, returned⟩ := bind_ok_iff.mp returned
  obtain ⟨reference, referenceChecked, returned⟩ := bind_ok_iff.mp returned
  obtain ⟨math, mathChecked, returned⟩ := bind_ok_iff.mp returned
  obtain ⟨rates, ratesChecked, returned⟩ := bind_ok_iff.mp returned
  cases returned
  refine ⟨businessId, iban, reference, math, rates, rfl, ?_, ratesChecked⟩
  have first := ((businessIdChecksum_names letters _).of_ok _ idChecked).1
  have second := ((ibanChecksum_names letters _).of_ok _ ibanChecked).1
  have third := ((referenceNumber_names letters _).of_ok _ referenceChecked).1
  have fifth := (((vatMath_names _ _ _ _ _ _).mapError _).of_ok _ mathChecked).1
  have sixth := ((vatRates_names _ _ _ _).of_ok _ ratesChecked).1
  simp only [List.map_cons, List.map_nil, ruleNames, first, second, third, dates_rule, fifth, sixth]

/-- The only result that passes for a rule is the one in its place. -/
theorem passed_in_place (index : Nat) {result : RuleResult}
    (named : results.map RuleResult.rule = ruleNames.map text)
    (placed : results[index]? = some result) (rule : ruleNames[index]? = some name)
    (accepted : RulePassed results name) : result.passed = true := by
  obtain ⟨other, member, called, passed⟩ := accepted
  obtain ⟨place, found⟩ := List.mem_iff_getElem?.mp member
  have distinct : (ruleNames.map text).Nodup := by decide
  have here : (ruleNames.map text)[index]? = some (text name) := by
    rw [List.getElem?_map, rule, Option.map_some]
  have there : (ruleNames.map text)[place]? = some (text name) := by
    rw [← named, List.getElem?_map, found, Option.map_some, called]
  have bound := (List.getElem?_eq_some_iff.mp here).1
  have same : index = place := (List.getElem?_inj bound distinct).mp (here.trans there.symm)
  rw [← same, placed] at found
  cases found
  exact passed

/-- The dates and the rates that passed fit together: every rate was in force at
the invoice date, which `vat_rates` on its own does not promise. -/
theorem rates_in_force
    (returned : validateExtraction letters config tolerance today body = .ok results)
    (datesPassed : RulePassed results "dates") (ratesPassed : RulePassed results "vat_rates") :
    config.rates ≠ [] ∧ body.vatBreakdown ≠ [] ∧
      ∃ invoice due, parseDate letters.toUnicode body.invoiceDate = some invoice ∧
        parseDate letters.toUnicode body.dueDate = some due ∧ invoice ≤ today ∧ invoice ≤ due ∧
        ∀ line ∈ body.vatBreakdown, ∃ entry ∈ config.rates, line.rate.same entry.rate = true ∧
          ∃ started, parseDate letters.toUnicode (some entry.validFrom) = some started ∧
            started ≤ invoice := by
  obtain ⟨businessId, iban, reference, math, rates, rfl, named, checked⟩ :=
    validateExtraction_ok returned
  obtain ⟨invoice, due, parsed, later, present, ordered⟩ :=
    dates_passed (passed_in_place 3 named rfl rfl datesPassed)
  obtain ⟨configured, filled, known⟩ :=
    vatRates_passed checked (passed_in_place 5 named rfl rfl ratesPassed)
  refine ⟨configured, ?_, invoice, due, parsed, later, present, ordered, ?_⟩
  · intro empty
    exact filled (by rw [empty, List.map_nil])
  · intro line member
    obtain ⟨given, same, nonempty⟩ := parseDate_some parsed
    have used : (if orEmpty body.invoiceDate = [] then none
        else parseDate letters.toUnicode body.invoiceDate) = some invoice := by
      rw [if_neg (by rw [same]; exact nonempty), parsed]
    rw [used] at known
    exact contains_allowedRates_iff.mp (known _ (List.mem_map_of_mem member))

section Example

/-- One general rate, in force from September 2024. -/
def generalRate : VatRatesConfig where
  version := 1
  rateUnit := text "percent"
  rates := [⟨.finite false 255 (-1), text "2024-09-01", text "general"⟩]

/-- A padded Finnish date, an ISO due date and a line with the rate 25.50. -/
def octoberInvoice : ValidateIn where
  supplierBusinessId := none
  iban := none
  referenceNumber := none
  invoiceDate := some (text " 1.10.2025")
  dueDate := some (text "2025-10-15")
  netTotal := none
  vatTotal := none
  grossTotal := none
  vatBreakdown := [⟨.finite false 2550 (-2), .finite false 100 0, .finite false 2550 (-2)⟩]

def fifthOfOctober : Date where
  year := 2025
  month := 10
  day := 5
  year_range := by decide
  month_range := by decide
  day_range := by decide

theorem rates_in_force_october : ∃ results,
    validateExtraction asciiLetters generalRate (.finite false 2 (-2)) fifthOfOctober octoberInvoice =
      .ok results ∧ RulePassed results "dates" ∧ RulePassed results "vat_rates" ∧
    ∃ invoice due, parseDate asciiUnicode octoberInvoice.invoiceDate = some invoice ∧
      parseDate asciiUnicode octoberInvoice.dueDate = some due ∧ invoice ≤ fifthOfOctober ∧
      invoice ≤ due := by
  have evaluated : (validateExtraction asciiLetters generalRate (.finite false 2 (-2))
      fifthOfOctober octoberInvoice).toOption.any (fun results =>
        decide (RulePassed results "dates" ∧ RulePassed results "vat_rates")) = true := by
    decide +kernel
  cases returned : validateExtraction asciiLetters generalRate (.finite false 2 (-2))
      fifthOfOctober octoberInvoice with
  | error _ =>
    rw [returned] at evaluated
    cases evaluated
  | ok results =>
    rw [returned] at evaluated
    obtain ⟨dates, rates⟩ := of_decide_eq_true evaluated
    obtain ⟨_, _, invoice, due, parsed, later, present, ordered, _⟩ :=
      rates_in_force returned dates rates
    exact ⟨results, rfl, dates, rates, invoice, due, parsed, later, present, ordered⟩

end Example

end N8nSystems.Validators
