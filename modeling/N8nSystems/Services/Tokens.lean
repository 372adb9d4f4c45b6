import N8nSystems.Documents.Uploads
import N8nSystems.Leads.Score
import N8nSystems.Validators.Validate

/-! The internal token in front of the endpoints of the lead backend
(`p01_backend/main.py`) and of the document service (`p02_doc_service/main.py`). -/

namespace N8nSystems.Leads

open Lib.Py

universe u v

/-- `app.state`, with the code behind the endpoints: `normalize_lead`, which rests on
other packages and may raise, and `str.lower`. -/
structure Backend (NormalizeInput : Type u) (NormalizeResult : Type v) where
  internalApiToken : Text
  scoringConfig : ScoringConfig
  mxCheck : Bool
  normalizeLead : NormalizeInput → Bool → Option NormalizeResult
  lower : Text → Text

inductive Answer (NormalizeResult : Type v) where
  | error (statusCode : Nat) (detail : Text)
  | normalized (result : NormalizeResult)
  | scored (result : ScoreResult)

def Answer.unauthorized : Answer α := .error 401 (text "unauthorized")

/-- What the server makes of an exception that the application does not handle. -/
def Answer.serverError : Answer α := .error 500 (text "Internal Server Error")

section

variable {NormalizeInput : Type u} {NormalizeResult : Type v}

def Backend.requireInternalToken (backend : Backend NormalizeInput NormalizeResult)
    (internalApiToken : Option Text) : Except (Answer NormalizeResult) Unit :=
  let provided := internalApiToken.getD []
  match Documents.compareDigest provided backend.internalApiToken with
  | none => .error .serverError
  | some false => .error .unauthorized
  | some true => .ok ()

def Backend.postNormalize (backend : Backend NormalizeInput NormalizeResult)
    (internalApiToken : Option Text) (body : NormalizeInput) : Answer NormalizeResult :=
  match backend.requireInternalToken internalApiToken with
  | .error answer => answer
  | .ok () =>
    match backend.normalizeLead body backend.mxCheck with
    | none => .serverError
    | some result => .normalized result

def Backend.postScore (backend : Backend NormalizeInput NormalizeResult)
    (internalApiToken : Option Text) (body : ScoreInput) : Answer NormalizeResult :=
  match backend.requireInternalToken internalApiToken with
  | .error answer => answer
  | .ok () => .scored (scoreLead backend.lower body backend.scoringConfig)

end

end N8nSystems.Leads

namespace N8nSystems.Documents

open Lib.Py

/-- `POST /v1/extractions/validate`, with what `validate_extraction` makes of the body. -/
def Service.postValidate (service : Service) (internalApiToken : Option Text)
    (validated : Except Validators.Failure (List Validators.RuleResult)) :
    Except Answer (List Validators.RuleResult) :=
  match service.requireInternalToken internalApiToken with
  | .error answer => .error answer
  | .ok () => validated.mapError fun _ => .internalError

def Request.internalApiToken : Request → Option Text
  | .upload token _ => token
  | .getFile token _ => token

/-- The request is answered 401, and its only step leaves the stores as they are. -/
def Service.Denies (service : Service) (request : Request) : Prop :=
  ∀ (ι : Type) (requests : ι → Request) (uuid4 : ι → Uuid) (asked : ι) (delivered : Bool) (store : Store),
    requests asked = request →
      service.advance requests uuid4 asked delivered .received store =
        some (.answered .unauthorized, store)

end N8nSystems.Documents

namespace N8nSystems.Services

open Lib.Py

universe u v

def Ascii (value : Text) : Prop := ∀ c ∈ value, c < 128

/-- What the token is for: a request with any other header is denied, and one with
the token is let through. -/
structure Guards (token : Text) (header : Option Text) (denied letThrough : Prop) : Prop where
  wrong : header ≠ some token → denied
  right : header = some token → letThrough

theorem compareDigest_eq_none_iff :
    Documents.compareDigest left right = none ↔ ¬ (Ascii left ∧ Ascii right) := by
  simp [Documents.compareDigest, Ascii]

theorem compareDigest_eq_some_iff : Documents.compareDigest left right = some same ↔
    Ascii left ∧ Ascii right ∧ (same = true ↔ left = right) := by
  by_cases ascii : Ascii left ∧ Ascii right
  · have compared : Documents.compareDigest left right = some (left == right) := by
      simpa [Documents.compareDigest, Ascii] using ascii
    rw [compared, Option.some.injEq]
    simp only [ascii, true_and]
    cases same <;> simp
  · rw [compareDigest_eq_none_iff.mpr ascii]
    simp only [reduceCtorEq, false_iff]
    exact fun both => ascii ⟨both.1, both.2.1⟩

/-- The comparison does what the token is for on ASCII texts, and raises on others. -/
theorem guards_iff {token : Text} {header : Option Text} {denied letThrough : Prop} (configured : token ≠ [])
    (denies : Documents.compareDigest (header.getD []) token = some false ↔ denied)
    (accepts : Documents.compareDigest (header.getD []) token = some true ↔ letThrough) :
    Guards token header denied letThrough ↔ Ascii (header.getD []) ∧ Ascii token := by
  have given : header = some token ↔ header.getD [] = token := by
    cases header with
    | none => simp [Ne.symm configured]
    | some value => simp
  constructor
  · intro guards
    by_cases same : header = some token
    · obtain ⟨first, second, _⟩ := compareDigest_eq_some_iff.mp (accepts.mpr (guards.right same))
      exact ⟨first, second⟩
    · obtain ⟨first, second, _⟩ := compareDigest_eq_some_iff.mp (denies.mpr (guards.wrong same))
      exact ⟨first, second⟩
  · rintro ⟨first, second⟩
    constructor
    · intro other
      rw [Ne, given] at other
      exact denies.mp (compareDigest_eq_some_iff.mpr ⟨first, second, by simp [other]⟩)
    · intro same
      rw [given] at same
      exact accepts.mp (compareDigest_eq_some_iff.mpr ⟨first, second, by simp [same]⟩)

section

variable {NormalizeInput : Type u} {NormalizeResult : Type v}
variable {backend : Leads.Backend NormalizeInput NormalizeResult} {service : Documents.Service}

theorem backend_accepts_iff :
    Documents.compareDigest (header.getD []) backend.internalApiToken = some true ↔
      backend.requireInternalToken header = .ok () := by
  rcases compared : Documents.compareDigest (header.getD []) backend.internalApiToken with _ | _ | _ <;>
    simp [Leads.Backend.requireInternalToken, compared]

theorem service_accepts_iff :
    Documents.compareDigest (header.getD []) service.internalApiToken = some true ↔
      service.requireInternalToken header = .ok () := by
  rcases compared : Documents.compareDigest (header.getD []) service.internalApiToken with _ | _ | _ <;>
    simp [Documents.Service.requireInternalToken, compared]

theorem postScore_denies_iff (body : Leads.ScoreInput) :
    Documents.compareDigest (header.getD []) backend.internalApiToken = some false ↔
      backend.postScore header body = .unauthorized := by
  rcases compared : Documents.compareDigest (header.getD []) backend.internalApiToken with _ | _ | _ <;>
    simp [Leads.Backend.postScore, Leads.Backend.requireInternalToken, compared,
      Leads.Answer.unauthorized, Leads.Answer.serverError]

theorem postNormalize_denies_iff (body : NormalizeInput) :
    Documents.compareDigest (header.getD []) backend.internalApiToken = some false ↔
      backend.postNormalize header body = .unauthorized := by
  rcases compared : Documents.compareDigest (header.getD []) backend.internalApiToken with _ | _ | _
  · simp [Leads.Backend.postNormalize, Leads.Backend.requireInternalToken, compared,
      Leads.Answer.unauthorized, Leads.Answer.serverError]
  · simp [Leads.Backend.postNormalize, Leads.Backend.requireInternalToken, compared]
  · cases normalized : backend.normalizeLead body backend.mxCheck <;>
      simp [Leads.Backend.postNormalize, Leads.Backend.requireInternalToken, compared, normalized,
        Leads.Answer.unauthorized, Leads.Answer.serverError]

theorem postValidate_denies_iff (validated : Except Validators.Failure (List Validators.RuleResult)) :
    Documents.compareDigest (header.getD []) service.internalApiToken = some false ↔
      service.postValidate header validated = .error .unauthorized := by
  rcases compared : Documents.compareDigest (header.getD []) service.internalApiToken with _ | _ | _
  · simp [Documents.Service.postValidate, Documents.Service.requireInternalToken, compared,
      Documents.Answer.unauthorized, Documents.Answer.internalError]
  · simp [Documents.Service.postValidate, Documents.Service.requireInternalToken, compared]
  · cases validated <;>
      simp [Documents.Service.postValidate, Documents.Service.requireInternalToken, compared,
        Except.mapError, Documents.Answer.unauthorized, Documents.Answer.internalError]

/-- No check behind the token answers 401. -/
theorem admitUpload_unauthorized (allowed : service.requireInternalToken token = .ok ())
    (file : Option Documents.UploadFile) : service.admitUpload token file ≠ .error .unauthorized := by
  intro denied
  unfold Documents.Service.admitUpload at denied
  rw [allowed] at denied
  cases file with
  | none => cases denied
  | some file =>
    cases read : Documents.readLimited 0 [] file.chunks with
    | error answer =>
      simp only [read, bind, Except.bind] at denied
      cases Documents.readLimited_error read
      cases denied
    | ok payload =>
      simp only [read, bind, Except.bind] at denied
      split at denied
      · cases denied
      · split at denied
        · cases denied
        · split at denied <;> cases denied

theorem admitUpload_gated (closed : service.requireInternalToken token = .error answer)
    (file : Option Documents.UploadFile) : service.admitUpload token file = .error answer := by
  unfold Documents.Service.admitUpload
  rw [closed]
  rfl

/-- A request that the gate stops is answered by it. -/
theorem advance_gated {request : Documents.Request}
    (closed : service.requireInternalToken request.internalApiToken = .error answer) {ι : Type}
    {requests : ι → Documents.Request} {asked : ι} (same : requests asked = request) (uuid4 : ι → Uuid)
    (delivered : Bool) (store : Documents.Store) :
    service.advance requests uuid4 asked delivered .received store = some (.answered answer, store) := by
  cases request with
  | upload token file =>
    have refused := @admitUpload_gated service token answer closed file
    simp only [Documents.Service.advance, same, refused]
  | getFile token documentId =>
    have gate : service.requireInternalToken token = .error answer := closed
    simp only [Documents.Service.advance, same, gate]

/-- A request that the gate lets through is not answered 401. -/
theorem not_denies_of_allowed {request : Documents.Request}
    (allowed : service.requireInternalToken request.internalApiToken = .ok ()) :
    ¬ service.Denies request := by
  intro denied
  have step := denied Unit (fun _ => request) (fun _ => 0) () true (Documents.System.init Unit).shared rfl
  cases request with
  | upload token file =>
    have unlike := @admitUpload_unauthorized service token allowed file
    cases checked : service.admitUpload token file with
    | error answer =>
      simp only [Documents.Service.advance, checked] at step
      cases step
      exact unlike checked
    | ok upload =>
      simp only [Documents.Service.advance, checked] at step
      cases step
  | getFile token documentId =>
    have gate : service.requireInternalToken token = .ok () := allowed
    simp only [Documents.Service.advance, gate] at step
    cases step

theorem denies_iff (request : Documents.Request) :
    Documents.compareDigest (request.internalApiToken.getD []) service.internalApiToken = some false ↔
      service.Denies request := by
  rcases compared : Documents.compareDigest (request.internalApiToken.getD []) service.internalApiToken
    with _ | _ | _
  · have gate : service.requireInternalToken request.internalApiToken = .error .internalError := by
      simp [Documents.Service.requireInternalToken, compared]
    simp only [reduceCtorEq, false_iff]
    intro denied
    have step := denied Unit (fun _ => request) (fun _ => 0) () true (Documents.System.init Unit).shared rfl
    rw [advance_gated gate rfl] at step
    cases step
  · have gate : service.requireInternalToken request.internalApiToken = .error .unauthorized := by
      simp [Documents.Service.requireInternalToken, compared]
    simp only [true_iff]
    intro ι requests uuid4 asked delivered store same
    exact advance_gated gate same uuid4 delivered store
  · simp only [Option.some.injEq, Bool.true_eq_false, false_iff]
    exact not_denies_of_allowed (service_accepts_iff.mp compared)

end

/-- At every protected endpoint of both services, for every request and every header, the
token does what it is for exactly when the header and the configured token are ASCII. -/
theorem tokens_guard_iff {NormalizeInput : Type u} {NormalizeResult : Type v}
    (backend : Leads.Backend NormalizeInput NormalizeResult) (service : Documents.Service)
    (configured : backend.internalApiToken ≠ []) (configured' : service.internalApiToken ≠ [])
    (header : Option Text) :
    (∀ body, Guards backend.internalApiToken header (backend.postNormalize header body = .unauthorized)
        (backend.requireInternalToken header = .ok ()) ↔
      Ascii (header.getD []) ∧ Ascii backend.internalApiToken) ∧
    (∀ body, Guards backend.internalApiToken header (backend.postScore header body = .unauthorized)
        (backend.requireInternalToken header = .ok ()) ↔
      Ascii (header.getD []) ∧ Ascii backend.internalApiToken) ∧
    (∀ request, request.internalApiToken = header →
      (Guards service.internalApiToken header (service.Denies request)
        (service.requireInternalToken header = .ok ()) ↔
      Ascii (header.getD []) ∧ Ascii service.internalApiToken)) ∧
    ∀ letters vatConfig moneyTolerance today body,
      Guards service.internalApiToken header
        (service.postValidate header
          (Validators.validateExtraction letters vatConfig moneyTolerance today body) = .error .unauthorized)
        (service.requireInternalToken header = .ok ()) ↔
      Ascii (header.getD []) ∧ Ascii service.internalApiToken := by
  refine ⟨fun body => ?_, fun body => ?_, ?_, fun letters vatConfig moneyTolerance today body => ?_⟩
  · exact guards_iff configured (postNormalize_denies_iff body) backend_accepts_iff
  · exact guards_iff configured (postScore_denies_iff body) backend_accepts_iff
  · rintro request rfl
    exact guards_iff configured' (denies_iff request) service_accepts_iff
  · exact guards_iff configured' (postValidate_denies_iff _) service_accepts_iff

/-- A wrong token in ASCII, at the download. -/
theorem tokens_guard_iff_download : Documents.scanService.Denies (.getFile (some (text "nope")) 1) := by
  obtain ⟨_, _, documents, _⟩ := tokens_guard_iff
    (⟨text "test-internal-token-p01", Leads.shippedConfig, false, fun _ _ => some (), id⟩ : Leads.Backend Unit Unit)
    Documents.scanService (by decide +kernel) (by decide +kernel) (some (text "nope"))
  have guards := (documents (.getFile (some (text "nope")) 1) rfl).mpr
    ⟨by unfold Ascii; decide +kernel, by unfold Ascii; decide +kernel⟩
  exact guards.wrong (by decide +kernel)

/-- With one letter beyond ASCII the upload is answered 500. -/
theorem accented_token_raises : ¬ Guards Documents.scanService.internalApiToken (some (text "é"))
    (Documents.scanService.Denies (.upload (some (text "é")) none))
    (Documents.scanService.requireInternalToken (some (text "é")) = .ok ()) := by
  intro guards
  have raises : Documents.compareDigest (text "é") Documents.scanService.internalApiToken = none := by
    decide +kernel
  have denied := (denies_iff _).mpr (guards.wrong (by decide +kernel))
  cases raises.symm.trans denied

end N8nSystems.Services
