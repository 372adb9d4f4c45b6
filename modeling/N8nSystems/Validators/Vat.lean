import N8nSystems.Lib.PyDecimal
import N8nSystems.Validators.Dates

/-! VAT arithmetic and VAT rates of an extraction (`validators/vat.py`), with the
rates of `config.py`. -/

namespace N8nSystems.Validators

open Lib Lib.Py

structure VatRateEntry where
  rate : Decimal
  validFrom : Text
  label : Text

structure VatRatesConfig where
  version : Int
  rateUnit : Text
  rates : List VatRateEntry

def VatRatesConfig.verified (config : VatRatesConfig) : Bool := 0 < config.rates.length

structure VatLine where
  rate : Decimal
  base : Decimal
  vat : Decimal

/-- The exceptions a validator can raise. -/
inductive Failure where
  /-- A trapped signal of decimal arithmetic. -/
  | decimal (signal : DecimalError)
  /-- `int()` of a text it does not read. -/
  | value (error : ValueError)
  /-- `hash()` of a signaling NaN. -/
  | unhashable
  deriving DecidableEq, Repr

def decimalText (value : Decimal) : Json := .string value.str

def within (actual expected tolerance : Decimal) : Except DecimalError Bool := do
  let difference ← actual.sub expected
  let size ← difference.abs
  size.le tolerance

def lineVat (line : VatLine) (rateUnit : Text) : Except DecimalError Decimal := do
  let product ← line.base.mul line.rate
  if rateUnit = text "fraction" then return product
  product.div Decimal.hundred

/-- The loop over the lines: the mismatches found and the sum of their VAT. -/
def vatLines (tolerance : Decimal) (rateUnit : Text) :
    Nat → Decimal → List VatLine → Except DecimalError (List Json × Decimal)
  | _, vatSum, [] => .ok ([], vatSum)
  | index, vatSum, line :: rest => do
    let expected ← lineVat line rateUnit
    let vatSum ← vatSum.add line.vat
    let fits ← within line.vat expected tolerance
    let (mismatches, total) ← vatLines tolerance rateUnit (index + 1) vatSum rest
    if fits then return (mismatches, total)
    return (.object [detail "index" (.int index), detail "rate" (decimalText line.rate),
      detail "base" (decimalText line.base), detail "vat" (decimalText line.vat),
      detail "expected_vat" (decimalText expected)] :: mismatches, total)

/-- `a < ZERO or b < ZERO or ...`. -/
def anyNegative : List Decimal → Except DecimalError Bool
  | [] => .ok false
  | value :: rest => do
    if ← value.lt .zero then return true
    anyNegative rest

/-- `vat_math` on totals that are decimals already. -/
def vatMath (netTotal vatTotal grossTotal : Option Decimal) (lines : List VatLine)
    (tolerance : Decimal) (rateUnit : Text) : Except DecimalError RuleResult :=
  let failed := failed "vat_math" "gross_total"
  match netTotal, vatTotal, grossTotal with
  | some net, some vat, some gross => do
    let totals := [detail "net" (decimalText net), detail "vat" (decimalText vat),
      detail "gross" (decimalText gross)]
    if ← anyNegative [net, vat, gross] then return failed "negative" totals
    let expected ← net.add vat
    if !(← within gross expected tolerance) then
      return failed "net_plus_vat" (totals ++ [detail "expected_gross" (decimalText expected),
        detail "tolerance" (decimalText tolerance)])
    let (mismatches, vatSum) ← vatLines tolerance rateUnit 0 .zero lines
    if !mismatches.isEmpty then
      return failed "line_vat" [detail "mismatches" (.array mismatches)]
    if !lines.isEmpty then
      if !(← within vatSum vat tolerance) then
        return failed "vat_sum" [detail "vat_total" (decimalText vat),
          detail "sum_of_lines" (decimalText vatSum), detail "tolerance" (decimalText tolerance)]
    return passed "vat_math" "gross_total" (totals ++ [detail "lines" (.int lines.length)])
  | _, _, _ => .ok (failed "missing_totals" [])

/-- The rates in force at the invoice date, or all of them without one. -/
def allowedRates (unicode : Unicode) (config : VatRatesConfig) : Option Date → List Decimal
  | none => config.rates.map VatRateEntry.rate
  | some invoice => (config.rates.filter fun entry =>
      (parseDate unicode (some entry.validFrom)).any fun started => decide (started ≤ invoice)).map
        VatRateEntry.rate

/-- `rate in allowed` for a set. -/
def contains (allowed : List Decimal) (rate : Decimal) : Bool := allowed.any rate.same

/-- `vat_rates`: it fails closed when no rates have been filled in. Building the
sets and looking a rate up in them hashes the rates. -/
def vatRates (unicode : Unicode) (lines : List VatLine) (config : VatRatesConfig)
    (invoiceDate : Option Text) : Except Failure RuleResult :=
  let failed := failed "vat_rates" "vat_breakdown"
  if !config.verified then
    .ok (failed "unverified_config" [detail "todo" (.string (text
      "TODO(verify): copy official rates from vero.fi into config/vat_rates.yaml"))])
  else
    let invoice := if orEmpty invoiceDate = [] then none else parseDate unicode invoiceDate
    let allowed := allowedRates unicode config invoice
    if !config.rates.all (fun entry => entry.rate.hashable) then .error .unhashable
    else
      match invoice, allowed with
      | some date, [] => .ok (failed "no_rate_in_force" [detail "invoice_date" (.string date.isoformat)])
      | _, _ =>
        if !lines.all (fun line => line.rate.hashable) then .error .unhashable
        else
          let unknown := lines.filter fun line => !contains allowed line.rate
          if unknown ≠ [] then
            .ok (failed "unknown_rate"
              [detail "rates" (.array (unknown.map fun line => decimalText line.rate))])
          else if lines = [] then .ok (failed "empty_breakdown" [])
          else .ok (passed "vat_rates" "vat_breakdown"
            [detail "accepted" (.array (lines.map fun line => decimalText line.rate))])

variable {unicode : Unicode}

theorem contains_allowedRates_iff : contains (allowedRates unicode config (some invoice)) rate = true ↔
    ∃ entry ∈ config.rates, rate.same entry.rate = true ∧
      ∃ started, parseDate unicode (some entry.validFrom) = some started ∧ started ≤ invoice := by
  unfold contains allowedRates
  simp only [List.any_eq_true, List.mem_map, List.mem_filter, Option.any_eq_true, decide_eq_true_eq]
  constructor
  · rintro ⟨_, ⟨entry, ⟨member, started, parsed, early⟩, rfl⟩, same⟩
    exact ⟨entry, member, same, started, parsed, early⟩
  · rintro ⟨entry, member, same, started, parsed, early⟩
    exact ⟨entry.rate, ⟨entry, ⟨member, started, parsed, early⟩, rfl⟩, same⟩

/-- What a passed result says of the rates; without a parsed date every configured
rate is allowed. -/
theorem vatRates_passed (returned : vatRates unicode lines config invoiceDate = .ok result)
    (accepted : result.passed = true) : config.rates ≠ [] ∧ lines ≠ [] ∧
      ∀ line ∈ lines, contains (allowedRates unicode config
        (if orEmpty invoiceDate = [] then none else parseDate unicode invoiceDate)) line.rate = true := by
  unfold vatRates at returned
  split at returned
  · cases returned
    cases accepted
  · rename_i verified
    simp only at returned
    generalize (if orEmpty invoiceDate = [] then none else parseDate unicode invoiceDate) = invoice at *
    split at returned
    · cases returned
    · split at returned
      · cases returned
        cases accepted
      · split at returned
        · cases returned
        · split at returned
          · cases returned
            cases accepted
          · rename_i known
            split at returned
            · cases returned
              cases accepted
            · rename_i filled
              refine ⟨?_, filled, ?_⟩
              · intro empty
                simp [VatRatesConfig.verified, empty] at verified
              · simpa using known

end N8nSystems.Validators
