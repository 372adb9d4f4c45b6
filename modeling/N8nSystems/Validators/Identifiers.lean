import N8nSystems.Validators.Vat

/-! Checksums of the identifiers of an extraction (`validators/business_id.py`,
`validators/iban.py` and `validators/reference.py`). -/

namespace N8nSystems.Validators

open Lib Lib.Py

section

variable (letters : Letters)

/-- `int(c)` for one character. -/
def intOf (c : Nat) : Except Failure Nat :=
  (parseInt letters.toUnicode [c]).mapError .value

/-- `PATTERN.fullmatch`: seven digits, a hyphen and the check digit. -/
def businessIdMatch (raw : Text) : Option (Text × Nat) :=
  if raw.length = 9 ∧ raw[7]? = some 45 then
    let body := raw.take 7
    let check := raw.getD 8 0
    if (check :: body).all fun c => (letters.decimal c).isSome then some (body, check) else none
  else none

def businessIdWeights : List Nat := [7, 9, 10, 5, 8, 4, 2]

/-- The sum of the digits of the body with their weights. -/
def weightedSum : Text → List Nat → Except Failure Nat
  | digit :: digits, weight :: weights => do
    let value ← intOf letters digit
    let rest ← weightedSum digits weights
    return value * weight + rest
  | _, _ => .ok 0

def businessIdChecksum (value : Option Text) : Except Failure RuleResult :=
  let failed := failed "business_id_checksum" "supplier_business_id"
  let raw := strip (orEmpty value)
  if raw = [] then .ok (failed "empty" [])
  else
    match businessIdMatch letters raw with
    | none => .ok (failed "format" [detail "expected" (.string (text "NNNNNNN-N"))])
    | some (body, check) => do
      let total ← weightedSum letters body businessIdWeights
      let remainder := total % 11
      if remainder = 1 then
        return failed "remainder_1" [detail "remainder" (.int remainder), detail "sum" (.int total)]
      let expected := if remainder = 0 then 0 else 11 - remainder
      let actual ← intOf letters check
      if actual ≠ expected then
        return failed "checksum" [detail "expected_check_digit" (.int expected),
          detail "actual_check_digit" (.int actual), detail "remainder" (.int remainder)]
      return passed "business_id_checksum" "supplier_business_id"
        [detail "check_digit" (.int actual), detail "remainder" (.int remainder)]

/-- `"".join(value.split()).upper()`. -/
def compact (value : Text) : Text := letters.upper (value.filter fun c => !isSpace c)

def isCapital (c : Nat) : Bool := 65 ≤ c && c ≤ 90

/-- The digits `_mod97` collects, with two for a capital; nothing at its `return -1`. -/
def mod97Digits : Text → Option Text
  | [] => some []
  | c :: rest =>
    if letters.isDigit c then (mod97Digits rest).map (c :: ·)
    else if isCapital c then (mod97Digits rest).map (Decimal.digits (c - 55) ++ ·)
    else none

def mod97 (iban : Text) : Except Failure Int :=
  match mod97Digits letters (iban.drop 4 ++ iban.take 4) with
  | none => .ok (-1)
  | some digits => do
    let number ← (parseInt letters.toUnicode digits).mapError Failure.value
    return (number % 97 : Nat)

def ibanChecksum (value : Option Text) : Except Failure RuleResult :=
  let failed := failed "iban_checksum" "iban"
  let raw := strip (orEmpty value)
  if raw = [] then .ok (failed "empty" [])
  else
    let compact := compact letters raw
    let length := detail "length" (.int compact.length)
    if compact.length < 15 ∨ 34 < compact.length then .ok (failed "length" [length])
    else if !allOf letters.isAlpha (compact.take 2) ||
        !allOf letters.isDigit ((compact.drop 2).take 2) then .ok (failed "format" [])
    else if compact.take 2 = text "FI" ∧ compact.length ≠ 18 then
      .ok (failed "fi_length" [length, detail "expected" (.int 18)])
    else do
      let remainder ← mod97 letters compact
      if remainder < 0 then return failed "charset" []
      if remainder ≠ 1 then return failed "checksum" [detail "remainder" (.int remainder)]
      return passed "iban_checksum" "iban" [detail "country" (.string (compact.take 2)), length]

/-- The loop of `_finnish_check_digit` over the reversed body. -/
def finnishTotal : Nat → Text → Except Failure Nat
  | _, [] => .ok 0
  | index, c :: rest => do
    let value ← intOf letters c
    let total ← finnishTotal (index + 1) rest
    return value * [7, 3, 1].getD (index % 3) 0 + total

def finnishCheckDigit (body : Text) : Except Failure Nat := do
  let total ← finnishTotal letters 0 body.reverse
  return (10 - total % 10) % 10

def finnishReference (compact : Text) : Except Failure RuleResult :=
  let failed := fun reason details =>
    failed "reference_number" "reference_number" reason (detail "kind" (.string (text "finnish")) :: details)
  if !allOf letters.isDigit compact then .ok (failed "charset" [])
  else if compact.length < 4 ∨ 20 < compact.length then
    .ok (failed "length" [detail "length" (.int compact.length)])
  else do
    let actual ← intOf letters (compact.getLastD 0)
    let expected ← finnishCheckDigit letters compact.dropLast
    if actual ≠ expected then
      return failed "checksum" [detail "expected_check_digit" (.int expected),
        detail "actual_check_digit" (.int actual)]
    return passed "reference_number" "reference_number"
      [detail "kind" (.string (text "finnish")), detail "check_digit" (.int actual)]

def rfReference (compact : Text) : Except Failure RuleResult :=
  let failed := fun reason details =>
    failed "reference_number" "reference_number" reason (detail "kind" (.string (text "rf")) :: details)
  let length := detail "length" (.int compact.length)
  if compact.length < 5 ∨ 25 < compact.length then .ok (failed "length" [length])
  else if !allOf letters.isDigit ((compact.drop 2).take 2) then .ok (failed "format" [])
  else if !allOf letters.isAlnum (compact.drop 4) then .ok (failed "charset" [])
  else do
    let remainder ← mod97 letters compact
    if remainder < 0 then return failed "charset" []
    if remainder ≠ 1 then return failed "checksum" [detail "remainder" (.int remainder)]
    return passed "reference_number" "reference_number" [detail "kind" (.string (text "rf")), length]

def referenceNumber (value : Option Text) : Except Failure RuleResult :=
  let raw := strip (orEmpty value)
  if raw = [] then .ok (failed "reference_number" "reference_number" "empty" [])
  else
    let compact := compact letters raw
    if compact.take 2 = text "RF" then rfReference letters compact
    else finnishReference letters compact

end

end N8nSystems.Validators
