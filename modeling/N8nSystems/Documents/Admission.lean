import N8nSystems.Lib.PyText

/-! The checks of the document service that touch no store: the token, the bounded
read of the upload, and the type detection by magic bytes. -/

namespace N8nSystems.Documents

open Lib.Py

inductive Mime where
  | pdf | png | jpeg
  deriving DecidableEq, Repr

def Mime.value : Mime → Text
  | .pdf => text "application/pdf"
  | .png => text "image/png"
  | .jpeg => text "image/jpeg"

def pdfMagic : Bytes := [0x25, 0x50, 0x44, 0x46]
def pngMagic : Bytes := [0x89, 0x50, 0x4E, 0x47, 0x0D, 0x0A, 0x1A, 0x0A]
def jpegMagic : Bytes := [0xFF, 0xD8, 0xFF]

def detectMime (data : Bytes) : Option Mime :=
  if pdfMagic.isPrefixOf data then some .pdf
  else if pngMagic.isPrefixOf data then some .png
  else if jpegMagic.isPrefixOf data then some .jpeg
  else none

def suffixToMime (ext : Text) : Option Mime :=
  if ext = text ".pdf" then some .pdf
  else if ext = text ".png" then some .png
  else if ext = text ".jpg" then some .jpeg
  else if ext = text ".jpeg" then some .jpeg
  else none

/-- The JSON content of an upload's answer. -/
structure DocumentOut where
  documentId : Text
  sha256 : Text
  deduplicated : Bool
  mimeType : Mime
  sizeBytes : Nat
  deriving DecidableEq, Repr

inductive Answer where
  | error (statusCode : Nat) (detail : Text)
  | document (statusCode : Nat) (content : DocumentOut)
  | file (content : Bytes) (mediaType : Mime)
  deriving DecidableEq, Repr

def Answer.unauthorized : Answer := .error 401 (text "unauthorized")
def Answer.fileRequired : Answer := .error 400 (text "file_required")
def Answer.fileTooLarge : Answer := .error 413 (text "file_too_large")
def Answer.emptyFile : Answer := .error 400 (text "empty_file")
def Answer.unsupportedType : Answer := .error 415 (text "unsupported_type")
def Answer.magicMismatch : Answer := .error 415 (text "magic_mismatch")
def Answer.notFound : Answer := .error 404 (text "not_found")
def Answer.fileMissing : Answer := .error 404 (text "file_missing")
def Answer.internalError : Answer := .error 500 (text "internal_error")

def maxUploadBytes : Nat := 10 * 1024 * 1024

/-- An uploaded file: what its successive reads return, until the empty one. -/
structure UploadFile where
  filename : Option Text
  chunks : List Bytes

/-- A request of either endpoint, with its `INTERNAL_API_TOKEN` header. -/
inductive Request where
  | upload (token : Option Text) (file : Option UploadFile)
  | getFile (token : Option Text) (documentId : Uuid)

/-- The configured token, and the two library functions the checks rest on:
`str.lower` and `hashlib.sha256(data).hexdigest()`. -/
structure Service where
  internalApiToken : Text
  lower : Text → Text
  sha256 : Bytes → Text

/-- `hmac.compare_digest` on two strings; `none` is its `TypeError`. -/
def compareDigest (left right : Text) : Option Bool :=
  if left.all (· < 128) ∧ right.all (· < 128) then some (left == right) else none

def Service.requireInternalToken (service : Service) (header : Option Text) :
    Except Answer Unit :=
  match compareDigest (header.getD []) service.internalApiToken with
  | none => .error .internalError
  | some false => .error .unauthorized
  | some true => .ok ()

/-- `_read_limited`, with the bytes counted and the chunks kept so far. -/
def readLimited (total : Nat) (kept : List Bytes) : List Bytes → Except Answer Bytes
  | [] => .ok kept.flatten
  | chunk :: rest =>
    if chunk = [] then .ok kept.flatten
    else if total + chunk.length > maxUploadBytes then .error .fileTooLarge
    else readLimited (total + chunk.length) (kept ++ [chunk]) rest

def Service.filenameMatchesMime (service : Service) (filename : Text) (mime : Mime) : Bool :=
  let suffix := service.lower (pathName filename)
  match suffixToMime (pathSuffix suffix) with
  | none => true
  | some expected => expected == mime

/-- `file.filename or "upload"`. -/
def UploadFile.givenName (file : UploadFile) : Text :=
  match file.filename with
  | none => text "upload"
  | some [] => text "upload"
  | some name => name

/-- An upload that passed the checks. -/
structure Admitted where
  payload : Bytes
  filename : Text
  mime : Mime
  deriving DecidableEq, Repr

/-- `upload_document` up to the first store call. -/
def Service.admitUpload (service : Service) (token : Option Text) (file : Option UploadFile) :
    Except Answer Admitted := do
  service.requireInternalToken token
  match file with
  | none => .error .fileRequired
  | some file =>
    let payload ← readLimited 0 [] file.chunks
    if payload = [] then .error .emptyFile
    else
      let filename := pathName file.givenName
      match detectMime payload with
      | none => .error .unsupportedType
      | some mime =>
        if service.filenameMatchesMime filename mime then .ok ⟨payload, filename, mime⟩
        else .error .magicMismatch

theorem admitUpload_mime {service : Service} {upload : Admitted}
    (admitted : service.admitUpload token file = .ok upload) :
    detectMime upload.payload = some upload.mime := by
  unfold Service.admitUpload at admitted
  cases allowed : service.requireInternalToken token with
  | error answer =>
    rw [allowed] at admitted
    cases admitted
  | ok =>
    rw [allowed] at admitted
    cases file with
    | none => cases admitted
    | some file =>
      cases read : readLimited 0 [] file.chunks with
      | error answer =>
        simp only [read, bind, Except.bind] at admitted
        cases admitted
      | ok payload =>
        simp only [read, bind, Except.bind] at admitted
        split at admitted
        · cases admitted
        · split at admitted
          · cases admitted
          · rename_i mime detected
            split at admitted
            · obtain rfl := Except.ok.inj admitted
              exact detected
            · cases admitted

end N8nSystems.Documents
