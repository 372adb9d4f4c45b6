import Mathlib.Data.List.Infix
import N8nSystems.Lib.Json
import N8nSystems.Lib.Search

/-! The error taxonomy: its tables, which the Python and the JavaScript file list
alike, and what both do with a parsed error. -/

namespace N8nSystems.Errors

open Lib
open Lib.Py (Text text)

inductive ErrorClass where
  | success
  | transient
  | rateLimited
  | invalidData
  | auth
  | permanent
  | unknown
  deriving DecidableEq, Repr

structure Result where
  cls : ErrorClass
  retry : Bool
  idempotentSuccess : Bool
  deriving DecidableEq, Repr

def transientStatus : List Int := [500, 502, 503, 504]
def rateLimitStatus : List Int := [429]
def invalidStatus : List Int := [400, 422]
def authStatus : List Int := [401, 403]
def permanentStatus : List Int := [404, 410, 501, 409]

def transientCodes : List Text := [text "etimedout", text "esockettimedout", text "econnreset",
  text "econnrefused", text "econnaborted", text "epipe", text "eai_again", text "enotfound",
  text "eai_noname", text "und_err_connect_timeout", text "und_err_headers_timeout",
  text "und_err_body_timeout", text "timeout", text "timeouterror"]

def transientMarkers : List Text := [text "timed out", text "timeout", text "deadline exceeded",
  text "connection reset", text "connection refused", text "socket hang up", text "econnreset",
  text "econnrefused", text "eai_again", text "enotfound",
  text "temporary failure in name resolution", text "getaddrinfo"]

def rateLimitMarkers : List Text := [text "rate_limit", text "ratelimit", text "too many requests",
  text "too_many_requests", text "throttl", text "resource_exhausted"]

def invalidMarkers : List Text := [text "schema validation", text "validation error",
  text "validation failed", text "json schema", text "schema_validation", text "validation_error",
  text "pydantic"]

def statusKeys : List Text :=
  [text "status", text "statusCode", text "httpCode", text "status_code", text "http_code"]

def codeKeys : List Text := [text "code", text "errno", text "errorCode", text "error_code"]

def messageKeys : List Text := [text "message", text "description"]

structure Parsed where
  status : Option Int
  code : Text
  blob : Text
  idempotentCreate : Bool

def hasMarker (blob : Text) (markers : List Text) : Bool :=
  markers.any fun marker => marker <:+: blob

/-- The body of `classify_error` after parsing; the languages differ in `isTransient`. -/
def classify (isTransient : Text → Text → Bool) (parsed : Parsed) : Result :=
  let isIn (table : List Int) := parsed.status.any (· ∈ table)
  if parsed.status = some 409 ∧ parsed.idempotentCreate then ⟨.success, false, true⟩
  else if isIn transientStatus then ⟨.transient, true, false⟩
  else if isIn rateLimitStatus then ⟨.rateLimited, true, false⟩
  else if isIn invalidStatus then ⟨.invalidData, false, false⟩
  else if isIn authStatus then ⟨.auth, false, false⟩
  else if isIn permanentStatus then ⟨.permanent, false, false⟩
  else if isTransient parsed.code parsed.blob then ⟨.transient, true, false⟩
  else if hasMarker parsed.blob rateLimitMarkers then ⟨.rateLimited, true, false⟩
  else if hasMarker parsed.blob invalidMarkers then ⟨.invalidData, false, false⟩
  else ⟨.unknown, false, false⟩

/-- What a status says by itself. -/
def statusClass (status : Option Int) (idempotentCreate : Bool) : Option ErrorClass :=
  let isIn (table : List Int) := status.any (· ∈ table)
  if status = some 409 ∧ idempotentCreate then some .success
  else if isIn transientStatus then some .transient
  else if isIn rateLimitStatus then some .rateLimited
  else if isIn invalidStatus then some .invalidData
  else if isIn authStatus then some .auth
  else if isIn permanentStatus then some .permanent
  else none

/-- What the texts say without a known status. -/
def textClass (isTransient : Text → Text → Bool) (code blob : Text) : ErrorClass :=
  if isTransient code blob then .transient
  else if hasMarker blob rateLimitMarkers then .rateLimited
  else if hasMarker blob invalidMarkers then .invalidData
  else .unknown

def ErrorClass.result (cls : ErrorClass) : Result where
  cls := cls
  retry := cls = .transient ∨ cls = .rateLimited
  idempotentSuccess := cls = .success

/-- A status that decides, or else what comes after it. -/
theorem getD_branch {known : Prop} [Decidable known] (cls : ErrorClass) (later : Option ErrorClass)
    (texts : ErrorClass) : ((if known then some cls else later).getD texts).result =
      if known then cls.result else (later.getD texts).result := by
  split <;> rfl

theorem classify_eq (isTransient : Text → Text → Bool) (parsed : Parsed) :
    classify isTransient parsed = ((statusClass parsed.status parsed.idempotentCreate).getD
      (textClass isTransient parsed.code parsed.blob)).result := by
  unfold statusClass textClass
  simp only [getD_branch, Option.getD_none, apply_ite ErrorClass.result]
  rfl

/-- The places where a status may stand, in the order of both loops. -/
def slots (src nested : Json) : List (Option Json) :=
  statusKeys.flatMap fun key => [src.get key, nested.get key]

/-- The first non-empty text under the keys. -/
def firstText (src nested : Json) (keys : List Text) : Text :=
  let values := keys.flatMap fun key => [src.get key, nested.get key]
  (values.findSome? fun
    | some (.string []) => none
    | some (.string value) => some value
    | _ => none).getD []

/-- `replace("-", "_")`. -/
def underscored (value : Text) : Text := value.map fun c => if c = 45 then 95 else c

/-- The error itself, when it is a text. -/
def errorText (lower : Text → Text) : Option Json → Text
  | some (.string value) => lower value
  | _ => []

/-- The text that the markers are searched in. -/
def blobOf (lower : Text → Text) (src nested : Json) (code : Text) : Text :=
  underscored (code ++ text " " ++ lower (firstText src nested messageKeys) ++ text " " ++
    errorText lower (src.get (text "error")))

def isTrue : Option Json → Bool
  | some (.bool true) => true
  | _ => false

/-- The value of `a or b or ... or ""`. -/
def firstTruthy (truthy : Option Json → Bool) (values : List (Option Json)) : Json :=
  ((values.find? truthy).bind fun value => value).getD (.string [])

def inRange (status : Int) : Option Int :=
  if 100 ≤ status ∧ status ≤ 599 then some status else none

/-- `status code (\d{3})`, without regard to case. -/
def statusInMessage (classes : CharClasses) (_ : Option Nat) (value : Text) : Option Text :=
  ((classes.literal (text "status code ") value).bind classes.threeDigits).map Prod.fst

/-- `\bHTTP[ /](\d{3})\b`, without regard to case. -/
def httpInMessage (classes : CharClasses) (before : Option Nat) (value : Text) : Option Text :=
  if classes.boundary before value.head? then
    match classes.literal (text "HTTP") value with
    | some (separator :: rest) =>
      if separator = 32 ∨ separator = 47 then
        match classes.threeDigits rest with
        | some (digits, rest) =>
          if classes.boundary digits.getLast? rest.head? then some digits else none
        | none => none
      else none
    | _ => none
  else none

/-- The digits that one of the two patterns finds, the first pattern first. -/
def messageDigits (classes : CharClasses) (message : Text) : Option Text :=
  search (statusInMessage classes) none message <|> search (httpInMessage classes) none message

/-- The status in a printed message; `read` is the language's `to_status` of a text. -/
def messageStatus (printed : Except ε Text) (classes : CharClasses)
    (read : Text → Except ε (Option Int)) : Except ε (Option Int) := do
  match messageDigits classes (← printed) with
  | some digits => read digits
  | none => return none

theorem messageDigits_digit {classes : CharClasses} {message digits : Text}
    (hit : messageDigits classes message = some digits) :
    digits.length = 3 ∧ ∀ c ∈ digits, classes.digit c = true := by
  unfold messageDigits at hit
  cases first : search (statusInMessage classes) none message with
  | some found =>
    rw [first] at hit
    obtain ⟨before, rest, pattern⟩ := search_found (first.trans hit)
    obtain ⟨⟨group, tail⟩, matched, rfl⟩ := Option.map_eq_some_iff.mp pattern
    obtain ⟨after, _, three⟩ := Option.bind_eq_some_iff.mp matched
    exact classes.threeDigits_digit three
  | none =>
    rw [first] at hit
    obtain ⟨before, rest, pattern⟩ := search_found hit
    unfold httpInMessage at pattern
    repeat' split at pattern
    all_goals cases pattern
    exact classes.threeDigits_digit ‹_›

end N8nSystems.Errors
