import N8nSystems.Lib.Pool
import N8nSystems.Documents.Admission

/-! The upload and download endpoints over the in-memory storage and repository,
as a pool of requests whose store calls interleave. -/

namespace N8nSystems.Documents

open Lib Lib.Py

universe u

inductive DocumentSource where
  | upload | email
  deriving DecidableEq, Repr

inductive DocumentStatus where
  | received | processing | extracted | needsReview | approved | exported | rejected | failed
  | needsManual
  deriving DecidableEq, Repr

structure NewDocument where
  sha256 : Text
  originalFilename : Text
  mimeType : Mime
  sizeBytes : Nat
  storagePath : Text
  source : DocumentSource := .upload
  deriving DecidableEq, Repr

structure StoredDocument where
  id : Uuid
  sha256 : Text
  originalFilename : Text
  mimeType : Mime
  sizeBytes : Nat
  storagePath : Text
  source : DocumentSource
  status : DocumentStatus
  deduplicated : Bool
  deriving DecidableEq, Repr

structure MemoryDocuments where
  byId : Uuid → Option StoredDocument
  byHash : Text → Option Uuid

def MemoryDocuments.empty : MemoryDocuments := ⟨fun _ => none, fun _ => none⟩

/-- The row a new document becomes. -/
def NewDocument.toStored (document : NewDocument) (uuid : Uuid) : StoredDocument where
  id := uuid
  sha256 := document.sha256
  originalFilename := document.originalFilename
  mimeType := document.mimeType
  sizeBytes := document.sizeBytes
  storagePath := document.storagePath
  source := document.source
  status := .received
  deduplicated := false

/-- `MemoryDocuments.put` with the id that `uuid4` would draw; `none` is the
`KeyError` of a hash whose id has no row. -/
def MemoryDocuments.put (documents : MemoryDocuments) (document : NewDocument) (uuid : Uuid) :
    Option (StoredDocument × MemoryDocuments) :=
  match documents.byHash document.sha256 with
  | some existingId =>
    (documents.byId existingId).map fun current =>
      ({ current with deduplicated := true }, documents)
  | none =>
    let stored := document.toStored uuid
    some (stored, ⟨Function.update documents.byId stored.id (some stored),
      Function.update documents.byHash stored.sha256 (some stored.id)⟩)

abbrev MemoryStorage := Text → Option Bytes

/-- `MemoryStorage.put`: `setdefault`, and the path is the digest. -/
def MemoryStorage.put (files : MemoryStorage) (digest : Text) (data : Bytes) :
    Text × MemoryStorage :=
  (digest, if (files digest).isSome then files else Function.update files digest (some data))

/-- One call of the intake notifier, and whether the webhook took it. -/
structure Notice where
  documentId : Text
  sha256 : Text
  delivered : Bool
  deriving DecidableEq, Repr

structure Store where
  files : MemoryStorage
  documents : MemoryDocuments
  notices : List Notice

def Admitted.newDocument (service : Service) (upload : Admitted) (path : Text) : NewDocument where
  sha256 := service.sha256 upload.payload
  originalFilename := upload.filename
  mimeType := upload.mime
  sizeBytes := upload.payload.length
  storagePath := path

def uploadAnswer (stored : StoredDocument) : Answer :=
  .document (if stored.deduplicated then 200 else 201)
    { documentId := stored.id.str
      sha256 := stored.sha256
      deduplicated := stored.deduplicated
      mimeType := stored.mimeType
      sizeBytes := stored.sizeBytes }

/-- Where a request stands between its store calls. -/
inductive Phase where
  | received
  | admitted (upload : Admitted)
  | stored (upload : Admitted) (path : Text)
  | documented (document : StoredDocument)
  | finishing (document : StoredDocument)
  | finding (documentId : Uuid)
  | located (document : StoredDocument)
  | answered (answer : Answer)
  | stopped

/-- What the environment does to a step: it works, the notifier call in it fails
(the failure is caught and logged), or the request is stopped before it. -/
inductive Outcome where
  | works | fails | stops
  deriving DecidableEq, Repr

/-- A step that the environment does not stop. -/
def Service.advance (service : Service) {ι : Type u} (requests : ι → Request) (uuid4 : ι → Uuid)
    (request : ι) (delivered : Bool) (phase : Phase) (store : Store) : Option (Phase × Store) :=
  match phase with
  | .received =>
    match requests request with
    | .upload token file =>
      match service.admitUpload token file with
      | .error answer => some (.answered answer, store)
      | .ok upload => some (.admitted upload, store)
    | .getFile token documentId =>
      match service.requireInternalToken token with
      | .error answer => some (.answered answer, store)
      | .ok () => some (.finding documentId, store)
  | .admitted upload =>
    let (path, files) := store.files.put (service.sha256 upload.payload) upload.payload
    some (.stored upload path, { store with files := files })
  | .stored upload path =>
    match store.documents.put (upload.newDocument service path) (uuid4 request) with
    | none => some (.answered .internalError, store)
    | some (document, documents) => some (.documented document, { store with documents := documents })
  | .documented document =>
    if document.deduplicated then some (.finishing document, store)
    else some (.finishing document, { store with
      notices := store.notices ++ [⟨document.id.str, document.sha256, delivered⟩] })
  | .finishing document => some (.answered (uploadAnswer document), store)
  | .finding documentId =>
    match store.documents.byId documentId with
    | none => some (.answered .notFound, store)
    | some document => some (.located document, store)
  | .located document =>
    match store.files document.storagePath with
    | none => some (.answered .fileMissing, store)
    | some data => some (.answered (.file data document.mimeType), store)
  | .answered _ => none
  | .stopped => none

def Service.act (service : Service) {ι : Type u} (requests : ι → Request) (uuid4 : ι → Uuid)
    (request : ι) (outcome : Outcome) (phase : Phase) (store : Store) : Option (Phase × Store) :=
  match outcome with
  | .works => service.advance requests uuid4 request true phase store
  | .fails => service.advance requests uuid4 request false phase store
  | .stops =>
    match phase with
    | .answered _ => none
    | .stopped => none
    | _ => some (.stopped, store)

abbrev System (ι : Type u) := Pool ι Phase Store

def System.init (ι : Type u) : System ι :=
  ⟨⟨fun _ => none, .empty, []⟩, fun _ => .received⟩

/-- The request is an upload that passes the checks. -/
def Admits (service : Service) (request : Request) (upload : Admitted) : Prop :=
  ∃ token file, request = .upload token file ∧ service.admitUpload token file = .ok upload

theorem Admits.unique {service : Service} {request : Request} {upload other : Admitted}
    (first : Admits service request upload) (second : Admits service request other) :
    upload = other := by
  obtain ⟨token, file, rfl, admitted⟩ := first
  obtain ⟨_, _, same, also⟩ := second
  cases same
  exact Except.ok.inj (admitted.symm.trans also)

theorem not_admits_getFile {service : Service} {upload : Admitted} :
    ¬ Admits service (.getFile token documentId) upload := by
  rintro ⟨_, _, same, _⟩
  cases same

variable {ι : Type u}

/-- The steps that leave every store as it is. -/
inductive LocalStep (service : Service) (requests : ι → Request) (store : Store) (request : ι) :
    Phase → Phase → Prop
  | stopped (running : ∀ answer, phase ≠ .answered answer) :
      LocalStep service requests store request phase .stopped
  | refused (code : Nat) (detail : Text)
      (never : ∀ upload, ¬ Admits service (requests request) upload)
      (denied : ∀ token documentId, requests request = .getFile token documentId →
        service.requireInternalToken token ≠ .ok ()) :
      LocalStep service requests store request .received (.answered (.error code detail))
  | admitted (upload : Admitted) (admits : Admits service (requests request) upload) :
      LocalStep service requests store request .received (.admitted upload)
  | finding (token : Option Text) (documentId : Uuid)
      (asked : requests request = .getFile token documentId)
      (allowed : service.requireInternalToken token = .ok ()) :
      LocalStep service requests store request .received (.finding documentId)
  | crashed (upload : Admitted) (path : Text) (existingId : Uuid)
      (known : store.documents.byHash (service.sha256 upload.payload) = some existingId)
      (missing : store.documents.byId existingId = none) :
      LocalStep service requests store request (.stored upload path) (.answered .internalError)
  | known (upload : Admitted) (path : Text) (existingId : Uuid) (current : StoredDocument)
      (known : store.documents.byHash (service.sha256 upload.payload) = some existingId)
      (found : store.documents.byId existingId = some current) :
      LocalStep service requests store request (.stored upload path)
        (.documented { current with deduplicated := true })
  | silent (document : StoredDocument) (known : document.deduplicated = true) :
      LocalStep service requests store request (.documented document) (.finishing document)
  | answered (document : StoredDocument) :
      LocalStep service requests store request (.finishing document)
        (.answered (uploadAnswer document))
  | notFound (documentId : Uuid) (absent : store.documents.byId documentId = none) :
      LocalStep service requests store request (.finding documentId) (.answered .notFound)
  | located (documentId : Uuid) (document : StoredDocument)
      (found : store.documents.byId documentId = some document) :
      LocalStep service requests store request (.finding documentId) (.located document)
  | fileMissing (document : StoredDocument) (absent : store.files document.storagePath = none) :
      LocalStep service requests store request (.located document) (.answered .fileMissing)
  | read (document : StoredDocument) (data : Bytes)
      (found : store.files document.storagePath = some data) :
      LocalStep service requests store request (.located document)
        (.answered (.file data document.mimeType))

theorem readLimited_error (failed : readLimited total kept chunks = .error answer) :
    answer = .fileTooLarge := by
  induction chunks generalizing total kept with
  | nil => cases failed
  | cons chunk rest ih =>
    unfold readLimited at failed
    split at failed
    · cases failed
    · split at failed
      · exact (Except.error.inj failed).symm
      · exact ih failed

theorem requireInternalToken_error {service : Service}
    (failed : service.requireInternalToken header = .error answer) :
    ∃ code detail, answer = .error code detail := by
  unfold Service.requireInternalToken at failed
  split at failed
  · exact ⟨_, _, (Except.error.inj failed).symm⟩
  · exact ⟨_, _, (Except.error.inj failed).symm⟩
  · cases failed

/-- A refused upload is answered with an error. -/
theorem admitUpload_error {service : Service}
    (refused : service.admitUpload token file = .error answer) :
    ∃ code detail, answer = .error code detail := by
  unfold Service.admitUpload at refused
  cases allowed : service.requireInternalToken token with
  | error other =>
    rw [allowed] at refused
    cases refused
    exact requireInternalToken_error allowed
  | ok =>
    rw [allowed] at refused
    cases file with
    | none =>
      cases refused
      exact ⟨_, _, rfl⟩
    | some file =>
      cases read : readLimited 0 [] file.chunks with
      | error other =>
        simp only [read, bind, Except.bind] at refused
        cases refused
        exact ⟨_, _, readLimited_error read⟩
      | ok payload =>
        simp only [read, bind, Except.bind] at refused
        split at refused
        · cases refused
          exact ⟨_, _, rfl⟩
        · split at refused
          · cases refused
            exact ⟨_, _, rfl⟩
          · split at refused
            · cases refused
            · cases refused
              exact ⟨_, _, rfl⟩

/-- The row that an upload becomes when its bytes are new. -/
def Admitted.document (service : Service) (upload : Admitted) (path : Text) (uuid : Uuid) :
    StoredDocument :=
  (upload.newDocument service path).toStored uuid

/-- Everything a step can do: leave the stores alone, store the bytes, file the
document, or call the notifier. -/
inductive Move (service : Service) (requests : ι → Request) (uuid4 : ι → Uuid) (request : ι)
    (delivered : Bool) (store : Store) : Phase → Phase → Store → Prop
  | quiet (taken : LocalStep service requests store request phase next) :
      Move service requests uuid4 request delivered store phase next store
  | put (upload : Admitted) :
      Move service requests uuid4 request delivered store (.admitted upload)
        (.stored upload (service.sha256 upload.payload))
        { store with
          files := (store.files.put (service.sha256 upload.payload) upload.payload).2 }
  | file (upload : Admitted) (path : Text)
      (fresh : store.documents.byHash (service.sha256 upload.payload) = none) :
      Move service requests uuid4 request delivered store (.stored upload path)
        (.documented (upload.document service path (uuid4 request)))
        { store with documents :=
          ⟨Function.update store.documents.byId (uuid4 request)
              (some (upload.document service path (uuid4 request))),
            Function.update store.documents.byHash (service.sha256 upload.payload)
              (some (uuid4 request))⟩ }
  | notify (document : StoredDocument) (fresh : document.deduplicated = false) :
      Move service requests uuid4 request delivered store (.documented document)
        (.finishing document)
        { store with
          notices := store.notices ++ [⟨document.id.str, document.sha256, delivered⟩] }

theorem Service.advance_move {service : Service} {requests : ι → Request} {uuid4 : ι → Uuid}
    {request : ι} {delivered : Bool} {phase next : Phase} {store final : Store}
    (taken : service.advance requests uuid4 request delivered phase store = some (next, final)) :
    Move service requests uuid4 request delivered store phase next final := by
  cases phase with
  | received =>
    simp only [Service.advance] at taken
    split at taken
    · rename_i token file asked
      split at taken
      · rename_i answer refused
        cases taken
        obtain ⟨code, detail, rfl⟩ := admitUpload_error refused
        refine .quiet (.refused code detail ?_ ?_)
        · rintro upload ⟨_, _, same, admitted⟩
          cases asked.symm.trans same
          cases refused.symm.trans admitted
        · intro token documentId same
          cases asked.symm.trans same
      · rename_i upload admitted
        cases taken
        exact .quiet (.admitted upload ⟨token, file, asked, admitted⟩)
    · rename_i token documentId asked
      split at taken
      · rename_i answer refused
        cases taken
        obtain ⟨code, detail, rfl⟩ := requireInternalToken_error refused
        refine .quiet (.refused code detail (fun upload => asked ▸ not_admits_getFile) ?_)
        intro _ _ same allowed
        cases asked.symm.trans same
        cases refused.symm.trans allowed
      · rename_i allowed
        cases taken
        exact .quiet (.finding token documentId asked allowed)
  | admitted upload =>
    cases taken
    exact .put upload
  | stored upload path =>
    simp only [Service.advance, MemoryDocuments.put] at taken
    cases known : store.documents.byHash (service.sha256 upload.payload) with
    | none =>
      simp only [Admitted.newDocument, known] at taken
      cases taken
      exact .file upload path known
    | some existingId =>
      cases found : store.documents.byId existingId with
      | none =>
        simp only [Admitted.newDocument, known, found, Option.map_none] at taken
        cases taken
        exact .quiet (.crashed upload path existingId known found)
      | some current =>
        simp only [Admitted.newDocument, known, found, Option.map_some] at taken
        cases taken
        exact .quiet (.known upload path existingId current known found)
  | documented document =>
    simp only [Service.advance] at taken
    split at taken
    · rename_i known
      cases taken
      exact .quiet (.silent document known)
    · rename_i fresh
      cases taken
      exact .notify document (by simpa using fresh)
  | finishing document =>
    cases taken
    exact .quiet (.answered document)
  | finding documentId =>
    simp only [Service.advance] at taken
    split at taken
    · rename_i absent
      cases taken
      exact .quiet (.notFound documentId absent)
    · rename_i document found
      cases taken
      exact .quiet (.located documentId document found)
  | located document =>
    simp only [Service.advance] at taken
    split at taken
    · rename_i absent
      cases taken
      exact .quiet (.fileMissing document absent)
    · rename_i data found
      cases taken
      exact .quiet (.read document data found)
  | answered answer => cases taken
  | stopped => cases taken

variable [DecidableEq ι]

def Service.step (service : Service) (requests : ι → Request) (uuid4 : ι → Uuid)
    (system : System ι) (label : ι × Outcome) : Option (System ι) :=
  Pool.step (service.act requests uuid4) system label

/-- Everything one step does; the notifier call of a step that works is delivered. -/
theorem Service.step_move {service : Service} {requests : ι → Request} {uuid4 : ι → Uuid}
    {before after : System ι} {label : ι × Outcome}
    (taken : service.step requests uuid4 before label = some after) :
    ∃ delivered, (label.2 = .works → delivered = true) ∧
      Move service requests uuid4 label.1 delivered before.shared (before.phase label.1)
        (after.phase label.1) after.shared := by
  have own := Pool.step_own _ taken
  cases outcome : label.2 with
  | works =>
    simp only [Service.act, outcome] at own
    exact ⟨true, fun _ => rfl, Service.advance_move own⟩
  | fails =>
    simp only [Service.act, outcome] at own
    exact ⟨false, by simp, Service.advance_move own⟩
  | stops =>
    simp only [Service.act, outcome] at own
    refine ⟨false, by simp, ?_⟩
    split at own
    · cases own
    · cases own
    · rename_i running _
      obtain ⟨next, store⟩ := Prod.mk.inj (Option.some.inj own)
      rw [← next, ← store]
      exact .quiet (.stopped running)

end N8nSystems.Documents
