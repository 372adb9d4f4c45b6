import N8nSystems.Lib.PyDate

/-! Invoice and due dates of an extraction (`validators/result.py` and
`validators/dates.py`). -/

namespace N8nSystems.Validators

open Lib Lib.Py

structure RuleResult where
  rule : Text
  field : Text
  passed : Bool
  details : List (Text × Json)

/-- A failed result that gives its reason. -/
def failed (rule field reason : String) (details : List (Text × Json)) : RuleResult :=
  ⟨text rule, text field, false, (text "reason", .string (text reason)) :: details⟩

def passed (rule field : String) (details : List (Text × Json)) : RuleResult :=
  ⟨text rule, text field, true, details⟩

/-- A field of `details`. -/
def detail (name : String) (value : Json) : Text × Json := (text name, value)

/-- `value or ""`. -/
def orEmpty (value : Option Text) : Text := value.getD []

section Parsing

variable (unicode : Unicode)

/-- The number of a group `\d{low,high}`; `\d` is a decimal digit of any script. -/
def digitGroup (low high : Nat) (group : Text) : Option Nat :=
  if low ≤ group.length ∧ group.length ≤ high then (group.mapM unicode.decimal).map spelled else none

/-- `FINNISH.fullmatch`: the day, month and year groups. No digit is a dot, so the
groups are the parts between the dots. -/
def finnish (raw : Text) : Option (Nat × Nat × Nat) :=
  match raw.splitOn 46 with
  | [day, month, year] => do
    let day ← digitGroup unicode 1 2 day
    let month ← digitGroup unicode 1 2 month
    let year ← digitGroup unicode 4 4 year
    return (day, month, year)
  | _ => none

/-- `ISO.fullmatch`: the year, month and day groups. -/
def iso (raw : Text) : Option (Nat × Nat × Nat) :=
  match raw.splitOn 45 with
  | [year, month, day] => do
    let year ← digitGroup unicode 4 4 year
    let month ← digitGroup unicode 2 2 month
    let day ← digitGroup unicode 2 2 day
    return (year, month, day)
  | _ => none

def parseDate (value : Option Text) : Option Date :=
  let raw := strip (orEmpty value)
  if raw = [] then none
  else
    match finnish unicode raw with
    | some (day, month, year) => Date.make year month day
    | none =>
      match iso unicode raw with
      | some (year, month, day) => Date.make year month day
      | none => none

def dates (invoiceDate dueDate : Option Text) (today : Date) : RuleResult :=
  let failed := failed "dates" "invoice_date"
  if strip (orEmpty invoiceDate) = [] then failed "missing_invoice_date" []
  else
    match parseDate unicode invoiceDate with
    | none => failed "unparsed_invoice_date" [detail "value" (.string (orEmpty invoiceDate))]
    | some invoice =>
      let shown := detail "invoice_date" (.string invoice.isoformat)
      if today < invoice then
        failed "invoice_in_future" [shown, detail "today" (.string today.isoformat)]
      else if strip (orEmpty dueDate) = [] then failed "missing_due_date" [shown]
      else
        match parseDate unicode dueDate with
        | none => failed "unparsed_due_date" [detail "value" (.string (orEmpty dueDate))]
        | some due =>
          if due < invoice then
            failed "due_before_invoice" [shown, detail "due_date" (.string due.isoformat)]
          else passed "dates" "invoice_date"
            [shown, detail "due_date" (.string due.isoformat),
              detail "today" (.string today.isoformat)]

end Parsing

variable {unicode : Unicode}

theorem dates_rule : (dates unicode invoiceDate dueDate today).rule = text "dates" := by
  unfold dates
  split
  · rfl
  · split
    · rfl
    · split
      · rfl
      · split
        · rfl
        · split
          · rfl
          · split
            · rfl
            · rfl

/-- What a passed result says: both dates parse, and they are in order. -/
theorem dates_passed (accepted : (dates unicode invoiceDate dueDate today).passed = true) :
    ∃ invoice due, parseDate unicode invoiceDate = some invoice ∧
      parseDate unicode dueDate = some due ∧ invoice ≤ today ∧ invoice ≤ due := by
  unfold dates at accepted
  split at accepted
  · cases accepted
  · split at accepted
    · cases accepted
    · rename_i invoice parsed
      split at accepted
      · cases accepted
      · rename_i present
        split at accepted
        · cases accepted
        · split at accepted
          · cases accepted
          · rename_i due later
            split at accepted
            · cases accepted
            · rename_i ordered
              exact ⟨invoice, due, parsed, later, Date.not_lt.mp present, Date.not_lt.mp ordered⟩

/-- A parsed text is not empty. -/
theorem parseDate_some (parsed : parseDate unicode value = some date) :
    ∃ given, value = some given ∧ given ≠ [] := by
  cases value with
  | none => cases parsed
  | some given =>
    refine ⟨given, rfl, ?_⟩
    intro empty
    rw [empty] at parsed
    cases parsed

end N8nSystems.Validators
