import N8nSystems.Lib.Ledger
import N8nSystems.Documents.Service

/-! The document service as an outbox over content: the first upload of some bytes
files them, and only that upload announces them. Every reachable state of storage,
repository and notifier is the image of such an outbox. -/

namespace N8nSystems.Documents

open Lib Lib.Py

universe u

/-- The upload that filed its bytes, and the request that made it. -/
structure Filing (ι : Type u) where
  request : ι
  upload : Admitted

section Filing

variable {ι : Type u} (service : Service) (uuid4 : ι → Uuid)

def Filing.digest (filing : Filing ι) : Text := service.sha256 filing.upload.payload

def Filing.document (filing : Filing ι) : StoredDocument :=
  filing.upload.document service (filing.digest service) (uuid4 filing.request)

def Filing.notice (filing : Filing ι) (delivered : Bool) : Notice :=
  ⟨(uuid4 filing.request).str, filing.digest service, delivered⟩

end Filing

variable {ι : Type u} {service : Service} {requests : ι → Request} {uuid4 : ι → Uuid}

/-- No two admitted uploads have different bytes and one digest. -/
def CollisionFree (service : Service) (requests : ι → Request) : Prop :=
  ∀ first second upload other, Admits service (requests first) upload →
    Admits service (requests second) other →
    service.sha256 upload.payload = service.sha256 other.payload → upload.payload = other.payload

abbrev Cabinet (ι : Type u) (service : Service) := Outbox fun filing : Filing ι => filing.digest service

/-- The request has filed nothing. -/
def NotFiled (cabinet : Cabinet ι service) (request : ι) : Prop :=
  ∀ filing ∈ cabinet.claims.entries, filing.request ≠ request

/-- A document the repository returned to an upload: the filing of the same bytes,
by this request and with the given duty when it is not marked as deduplicated. -/
def Returned (requests : ι → Request) (uuid4 : ι → Uuid) (cabinet : Cabinet ι service)
    (Duty : Filing ι → Prop) (request : ι) (document : StoredDocument) : Prop :=
  ∃ upload, Admits service (requests request) upload ∧
    ∃ filing ∈ cabinet.claims.entries, filing.upload.payload = upload.payload ∧
      document = { filing.document service uuid4 with deduplicated := document.deduplicated } ∧
      (document.deduplicated = false → filing.request = request ∧ Duty filing) ∧
      (document.deduplicated = true → NotFiled cabinet request)

def Sent (cabinet : Cabinet ι service) (filing : Filing ι) : Prop :=
  ∃ delivered, (filing, delivered) ∈ cabinet.sent.entries

/-- What the cabinet and the files say about a request at a phase. -/
def Accounts (requests : ι → Request) (uuid4 : ι → Uuid) (cabinet : Cabinet ι service)
    (files : MemoryStorage) (request : ι) : Phase → Prop
  | .received => NotFiled cabinet request
  | .admitted upload => Admits service (requests request) upload ∧ NotFiled cabinet request
  | .stored upload path => Admits service (requests request) upload ∧ NotFiled cabinet request ∧
      path = service.sha256 upload.payload ∧ files path = some upload.payload
  | .documented document => Returned requests uuid4 cabinet cabinet.Unsent request document
  | .finishing document => Returned requests uuid4 cabinet (Sent cabinet) request document
  | .finding documentId => ∃ token, requests request = .getFile token documentId
  | .located document => ∃ token, requests request = .getFile token document.id ∧
      ∃ filing ∈ cabinet.claims.entries, document = filing.document service uuid4
  | .answered answer =>
      (∃ document, Returned requests uuid4 cabinet (Sent cabinet) request document ∧
        answer = uploadAnswer document) ∨
      (∃ token filing, filing ∈ cabinet.claims.entries ∧
        requests request = .getFile token (uuid4 filing.request) ∧
        answer = .file filing.upload.payload filing.upload.mime) ∨
      (∃ code detail, answer = .error code detail ∧
        ∀ upload, ¬ Admits service (requests request) upload)
  | .stopped => True

/-- A later cabinet and later files that took nothing from the request. -/
structure Later (cabinet next : Cabinet ι service) (files nextFiles : MemoryStorage)
    (request : ι) : Prop where
  claims : ∀ filing ∈ cabinet.claims.entries, filing ∈ next.claims.entries
  others : ∀ filing ∈ next.claims.entries, filing ∈ cabinet.claims.entries ∨
    filing.request ≠ request
  unsent : ∀ filing, filing.request = request → cabinet.Unsent filing → next.Unsent filing
  sent : ∀ note ∈ cabinet.sent.entries, note ∈ next.sent.entries
  files : ∀ path data, files path = some data → nextFiles path = some data

theorem Later.notFiled {cabinet next : Cabinet ι service} {files nextFiles : MemoryStorage}
    (later : Later cabinet next files nextFiles request) (absent : NotFiled cabinet request) :
    NotFiled next request := by
  intro filing member
  rcases later.others filing member with old | other
  · exact absent filing old
  · exact other

theorem Later.returned {cabinet next : Cabinet ι service} {files nextFiles : MemoryStorage}
    {Duty NextDuty : Filing ι → Prop} (later : Later cabinet next files nextFiles request)
    (kept : ∀ filing, filing.request = request → Duty filing → NextDuty filing)
    (returned : Returned requests uuid4 cabinet Duty request document) :
    Returned requests uuid4 next NextDuty request document := by
  obtain ⟨upload, admits, filing, member, same, shape, own, known⟩ := returned
  refine ⟨upload, admits, filing, later.claims filing member, same, shape, ?_, ?_⟩
  · intro fresh
    obtain ⟨mine, duty⟩ := own fresh
    exact ⟨mine, kept filing mine duty⟩
  · intro duplicate
    exact later.notFiled (known duplicate)

theorem Later.isSent {cabinet next : Cabinet ι service} {files nextFiles : MemoryStorage}
    (later : Later cabinet next files nextFiles request) (filing : Filing ι)
    (sent : Sent cabinet filing) : Sent next filing := by
  obtain ⟨delivered, note⟩ := sent
  exact ⟨delivered, later.sent _ note⟩

theorem Later.accounts {cabinet next : Cabinet ι service} {files nextFiles : MemoryStorage}
    (later : Later cabinet next files nextFiles request)
    (accounts : Accounts requests uuid4 cabinet files request phase) :
    Accounts requests uuid4 next nextFiles request phase := by
  cases phase with
  | received => exact later.notFiled accounts
  | admitted upload => exact ⟨accounts.1, later.notFiled accounts.2⟩
  | stored upload path =>
    obtain ⟨admits, absent, shape, present⟩ := accounts
    exact ⟨admits, later.notFiled absent, shape, later.files _ _ present⟩
  | documented document => exact later.returned later.unsent accounts
  | finishing document => exact later.returned (fun filing _ => later.isSent filing) accounts
  | finding documentId => exact accounts
  | located document =>
    obtain ⟨token, asked, filing, member, shape⟩ := accounts
    exact ⟨token, asked, filing, later.claims filing member, shape⟩
  | answered answer =>
    rcases accounts with ⟨document, returned, shape⟩ | ⟨token, filing, member, rest⟩ | refused
    · exact .inl ⟨document, later.returned (fun filing _ => later.isSent filing) returned, shape⟩
    · exact .inr (.inl ⟨token, filing, later.claims filing member, rest⟩)
    · exact .inr (.inr refused)
  | stopped => trivial

theorem Later.refl (cabinet : Cabinet ι service) (files : MemoryStorage) (request : ι) :
    Later cabinet cabinet files files request :=
  ⟨fun _ => id, fun _ => .inl, fun _ _ => id, fun _ => id, fun _ _ => id⟩

/-- Storage, repository and notifier as images of the cabinet. -/
structure Represents (requests : ι → Request) (uuid4 : ι → Uuid) (cabinet : Cabinet ι service)
    (system : System ι) : Prop where
  byHash : ∀ hash, system.shared.documents.byHash hash =
    (cabinet.claims.lookup hash).map fun filing => uuid4 filing.request
  byId : ∀ id document, system.shared.documents.byId id = some document ↔
    ∃ filing ∈ cabinet.claims.entries, uuid4 filing.request = id ∧
      document = filing.document service uuid4
  files : ∀ path data, system.shared.files path = some data → path = service.sha256 data ∧
    ∃ request upload, Admits service (requests request) upload ∧ upload.payload = data
  kept : ∀ filing ∈ cabinet.claims.entries,
    system.shared.files (filing.digest service) = some filing.upload.payload
  notices : system.shared.notices =
    cabinet.sent.entries.map fun note => note.1.notice service uuid4 note.2
  admits : ∀ filing ∈ cabinet.claims.entries,
    Admits service (requests filing.request) filing.upload
  phase : ∀ request, Accounts requests uuid4 cabinet system.shared.files request
    (system.phase request)

theorem Represents.init :
    Represents requests uuid4 (Outbox.empty : Cabinet ι service) (System.init ι) where
  byHash _ := rfl
  byId _ _ := by simp [System.init, MemoryDocuments.empty, Outbox.empty, Ledger.empty]
  files _ _ found := by cases found
  kept := by simp [Outbox.empty, Ledger.empty]
  notices := rfl
  admits := by simp [Outbox.empty, Ledger.empty]
  phase _ := by simp [System.init, Accounts, NotFiled, Outbox.empty, Ledger.empty]

/-- A row the repository finds by hash is the filing of the same bytes. -/
theorem Represents.filing_of_hash {cabinet : Cabinet ι service} {system : System ι}
    {upload : Admitted} {id : Uuid} (valid : Represents requests uuid4 cabinet system)
    (collisionFree : CollisionFree service requests)
    (admits : Admits service (requests request) upload)
    (known : system.shared.documents.byHash (service.sha256 upload.payload) = some id) :
    ∃ filing ∈ cabinet.claims.entries, filing.upload.payload = upload.payload ∧
      system.shared.documents.byId id = some (filing.document service uuid4) := by
  rw [valid.byHash, Option.map_eq_some_iff] at known
  obtain ⟨filing, found, same⟩ := known
  obtain ⟨member, digest⟩ := Ledger.lookup_eq_some.mp found
  exact ⟨filing, member, collisionFree _ _ _ _ (valid.admits filing member) admits digest,
    (valid.byId _ _).mpr ⟨filing, member, same, rfl⟩⟩

theorem LocalStep.accounts {cabinet : Cabinet ι service} {system : System ι}
    (taken : LocalStep service requests system.shared request phase next)
    (valid : Represents requests uuid4 cabinet system)
    (collisionFree : CollisionFree service requests)
    (accounts : Accounts requests uuid4 cabinet system.shared.files request phase) :
    Accounts requests uuid4 cabinet system.shared.files request next := by
  cases taken with
  | stopped => trivial
  | refused code detail never _ => exact .inr (.inr ⟨code, detail, rfl, never⟩)
  | admitted upload admits => exact ⟨admits, accounts⟩
  | finding token documentId asked _ => exact ⟨token, asked⟩
  | crashed upload path existingId known missing =>
    obtain ⟨filing, _, _, found⟩ := valid.filing_of_hash collisionFree accounts.1 known
    rw [missing] at found
    cases found
  | known upload path existingId current known found =>
    obtain ⟨admits, absent, _, _⟩ := accounts
    obtain ⟨filing, member, same, filed⟩ := valid.filing_of_hash collisionFree admits known
    obtain rfl := Option.some.inj (found.symm.trans filed)
    refine ⟨upload, admits, filing, member, same, rfl, ?_, fun _ => absent⟩
    intro fresh
    cases fresh
  | silent document known =>
    obtain ⟨upload, admits, filing, member, same, shape, _, absent⟩ := accounts
    refine ⟨upload, admits, filing, member, same, shape, ?_, absent⟩
    intro fresh
    rw [known] at fresh
    cases fresh
  | answered document => exact .inl ⟨document, accounts, rfl⟩
  | notFound documentId absent =>
    obtain ⟨token, asked⟩ := accounts
    exact .inr (.inr ⟨_, _, rfl, fun upload => asked ▸ not_admits_getFile⟩)
  | located documentId document found =>
    obtain ⟨token, asked⟩ := accounts
    obtain ⟨filing, member, same, rfl⟩ := (valid.byId _ _).mp found
    subst same
    exact ⟨token, asked, filing, member, rfl⟩
  | fileMissing document absent =>
    obtain ⟨token, asked, filing, member, rfl⟩ := accounts
    have present := valid.kept filing member
    cases absent.symm.trans present
  | read document data found =>
    obtain ⟨token, asked, filing, member, rfl⟩ := accounts
    have present := valid.kept filing member
    obtain rfl := Option.some.inj (found.symm.trans present)
    exact .inr (.inl ⟨token, filing, member, asked, rfl⟩)

theorem MemoryStorage.put_self {files : MemoryStorage} {digest : Text} {data : Bytes}
    (addressed : ∀ old, files digest = some old → old = data) :
    (files.put digest data).2 digest = some data := by
  unfold MemoryStorage.put
  split
  · rename_i present
    obtain ⟨old, found⟩ := Option.isSome_iff_exists.mp present
    obtain rfl := addressed old found
    exact found
  · simp

theorem MemoryStorage.put_kept {files : MemoryStorage} (present : files path = some data)
    (digest : Text) (other : Bytes) : (files.put digest other).2 path = some data := by
  unfold MemoryStorage.put
  split
  · exact present
  · rename_i absent
    have different : path ≠ digest := by
      rintro rfl
      simp [present] at absent
    simpa [different] using present

theorem MemoryStorage.put_cases {files : MemoryStorage}
    (found : (files.put digest data).2 path = some other) :
    files path = some other ∨ path = digest ∧ other = data := by
  unfold MemoryStorage.put at found
  split at found
  · exact .inl found
  · by_cases same : path = digest
    · subst same
      simp only [Function.update_self, Option.some.injEq] at found
      exact .inr ⟨rfl, found.symm⟩
    · simp only [Function.update_of_ne same] at found
      exact .inl found

/-- A filing adds its hash to the image. -/
theorem Represents.byHash_claim {cabinet : Cabinet ι service} {system : System ι}
    {filing : Filing ι} (valid : Represents requests uuid4 cabinet system)
    (unfiled : cabinet.claims.Fresh (filing.digest service)) (hash : Text) :
    Function.update system.shared.documents.byHash (filing.digest service)
        (some (uuid4 filing.request)) hash =
      ((cabinet.claim filing unfiled).claims.lookup hash).map fun filing => uuid4 filing.request := by
  by_cases same : filing.digest service = hash
  · subst same
    have found : (cabinet.claim filing unfiled).claims.lookup (filing.digest service) =
        some filing := Ledger.lookup_append_self unfiled
    rw [found]
    exact Function.update_self _ _ _
  · have kept : (cabinet.claim filing unfiled).claims.lookup hash =
        cabinet.claims.lookup hash := Ledger.lookup_append_other unfiled same
    rw [kept, ← valid.byHash hash]
    exact Function.update_of_ne (Ne.symm same) _ _

/-- A filing adds its document to the image, under an id that no other one has. -/
theorem Represents.byId_claim {cabinet : Cabinet ι service} {system : System ι}
    {filing : Filing ι} (valid : Represents requests uuid4 cabinet system)
    (unique : Function.Injective uuid4) (absent : NotFiled cabinet filing.request)
    (unfiled : cabinet.claims.Fresh (filing.digest service)) (id : Uuid)
    (document : StoredDocument) :
    Function.update system.shared.documents.byId (uuid4 filing.request)
        (some (filing.document service uuid4)) id = some document ↔
      ∃ other ∈ (cabinet.claim filing unfiled).claims.entries, uuid4 other.request = id ∧
        document = other.document service uuid4 := by
  by_cases same : id = uuid4 filing.request
  · subst same
    simp only [Function.update_self, Option.some.injEq]
    constructor
    · intro equal
      exact ⟨filing, (Outbox.mem_claim unfiled).mpr (.inr rfl), rfl, equal.symm⟩
    · rintro ⟨other, member, equal, rfl⟩
      rcases (Outbox.mem_claim unfiled).mp member with old | rfl
      · exact absurd (unique equal) (absent other old)
      · rfl
  · simp only [Function.update_of_ne same, valid.byId]
    constructor
    · rintro ⟨other, member, equal, shape⟩
      exact ⟨other, (Outbox.mem_claim unfiled).mpr (.inl member), equal, shape⟩
    · rintro ⟨other, member, equal, shape⟩
      rcases (Outbox.mem_claim unfiled).mp member with old | rfl
      · exact ⟨other, old, equal, shape⟩
      · exact absurd equal.symm same

section Move

variable {cabinet : Cabinet ι service} {before after : System ι} {mover : ι}
  (valid : Represents requests uuid4 cabinet before)
  (others : ∀ request, request ≠ mover → after.phase request = before.phase request)
include valid others

/-- The accounts after a move: the mover's own, and the old ones for a later cabinet
and later files. -/
theorem Represents.accounts_after {next : Cabinet ι service} {nextFiles : MemoryStorage}
    (moved : Accounts requests uuid4 next nextFiles mover (after.phase mover))
    (later : ∀ request, request ≠ mover →
      Later cabinet next before.shared.files nextFiles request) (request : ι) :
    Accounts requests uuid4 next nextFiles request (after.phase request) := by
  by_cases same : request = mover
  · exact same ▸ moved
  · rw [others request same]
    exact (later request same).accounts (valid.phase request)

theorem Represents.quiet (collisionFree : CollisionFree service requests)
    (taken : LocalStep service requests before.shared mover (before.phase mover) (after.phase mover))
    (stored : after.shared = before.shared) : Represents requests uuid4 cabinet after := by
  have own := taken.accounts valid collisionFree (valid.phase mover)
  refine ⟨?_, ?_, ?_, ?_, ?_, valid.admits, ?_⟩ <;> rw [stored]
  · exact valid.byHash
  · exact valid.byId
  · exact valid.files
  · exact valid.kept
  · exact valid.notices
  · exact valid.accounts_after others own fun _ _ => .refl _ _ _

theorem Represents.put (collisionFree : CollisionFree service requests)
    (own : Accounts requests uuid4 cabinet before.shared.files mover (.admitted upload))
    (moved : after.phase mover = .stored upload (service.sha256 upload.payload))
    (stored : after.shared = { before.shared with
      files := (before.shared.files.put (service.sha256 upload.payload) upload.payload).2 }) :
    Represents requests uuid4 cabinet after := by
  have grown (path : Text) (data : Bytes) (found : before.shared.files path = some data) :
      (before.shared.files.put (service.sha256 upload.payload) upload.payload).2 path =
        some data := MemoryStorage.put_kept found _ _
  refine ⟨?_, ?_, ?_, ?_, ?_, valid.admits, ?_⟩ <;> rw [stored]
  · exact valid.byHash
  · exact valid.byId
  · intro path data found
    rcases MemoryStorage.put_cases found with old | ⟨rfl, rfl⟩
    · exact valid.files path data old
    · exact ⟨rfl, mover, upload, own.1, rfl⟩
  · exact fun filing member => grown _ _ (valid.kept filing member)
  · exact valid.notices
  · refine valid.accounts_after others ?_ fun request _ => ⟨fun _ => id, fun _ => .inl,
      fun _ _ => id, fun _ => id, grown⟩
    rw [moved]
    refine ⟨own.1, own.2, rfl, MemoryStorage.put_self ?_⟩
    intro old found
    obtain ⟨same, _, _, admits, rfl⟩ := valid.files _ _ found
    exact (collisionFree _ _ _ _ own.1 admits same).symm

theorem Represents.file (unique : Function.Injective uuid4)
    (own : Accounts requests uuid4 cabinet before.shared.files mover (.stored upload path))
    (moved : after.phase mover = .documented (upload.document service path (uuid4 mover)))
    (stored : after.shared = { before.shared with documents :=
      ⟨Function.update before.shared.documents.byId (uuid4 mover)
          (some (upload.document service path (uuid4 mover))),
        Function.update before.shared.documents.byHash (service.sha256 upload.payload)
          (some (uuid4 mover))⟩ })
    (unfiled : cabinet.claims.Fresh (Filing.digest service ⟨mover, upload⟩)) :
    Represents requests uuid4 (cabinet.claim ⟨mover, upload⟩ unfiled) after := by
  obtain ⟨admits, absent, rfl, present⟩ := own
  have either (filing : Filing ι)
      (member : filing ∈ (cabinet.claim ⟨mover, upload⟩ unfiled).claims.entries) :
      filing ∈ cabinet.claims.entries ∨ filing = ⟨mover, upload⟩ :=
    (Outbox.mem_claim unfiled).mp member
  refine ⟨?_, ?_, ?_, ?_, ?_, ?_, ?_⟩ <;> try rw [stored]
  · exact valid.byHash_claim unfiled
  · exact valid.byId_claim unique absent unfiled
  · exact valid.files
  · intro filing member
    rcases either filing member with old | rfl
    · exact valid.kept filing old
    · exact present
  · exact valid.notices
  · intro filing member
    rcases either filing member with old | rfl
    · exact valid.admits filing old
    · exact admits
  · refine valid.accounts_after others ?_ fun request other =>
      ⟨fun filing member => (Outbox.mem_claim unfiled).mpr (.inl member), ?_,
        fun filing _ waiting => Outbox.unsent_claim unfiled waiting, fun _ => id, fun _ _ => id⟩
    · rw [moved]
      refine ⟨upload, admits, ⟨mover, upload⟩, (Outbox.mem_claim unfiled).mpr (.inr rfl), rfl, rfl,
        fun _ => ⟨rfl, Outbox.unsent_claim_self unfiled⟩, ?_⟩
      intro duplicate
      cases duplicate
    · intro filing member
      rcases either filing member with old | rfl
      · exact .inl old
      · exact .inr other.symm

theorem Represents.notify {document : StoredDocument}
    (own : Returned requests uuid4 cabinet cabinet.Unsent mover document)
    (moved : after.phase mover = .finishing document)
    (stored : after.shared = { before.shared with
      notices := before.shared.notices ++ [⟨document.id.str, document.sha256, delivered⟩] })
    (fresh : document.deduplicated = false) :
    ∃ filing waiting, Represents requests uuid4 (cabinet.send filing delivered waiting) after := by
  obtain ⟨upload, admits, filing, member, same, shape, duty, known⟩ := own
  obtain ⟨mine, waiting⟩ := duty fresh
  refine ⟨filing, waiting, ?_, ?_, ?_, ?_, ?_, valid.admits, ?_⟩ <;> rw [stored]
  · exact valid.byHash
  · exact valid.byId
  · exact valid.files
  · exact valid.kept
  · rw [valid.notices, shape]
    simp [Outbox.send, Ledger.append, Filing.notice, Filing.document, Admitted.document,
      NewDocument.toStored, Admitted.newDocument, Filing.digest]
  · refine valid.accounts_after others ?_
      fun request other => ⟨fun _ => id, fun _ => .inl, ?_, ?_, fun _ _ => id⟩
    · rw [moved]
      refine ⟨upload, admits, filing, member, same, shape, ?_, known⟩
      exact fun _ => ⟨mine, delivered, (Outbox.mem_send waiting).mpr (.inr rfl)⟩
    · intro old own unsent
      apply Outbox.unsent_send waiting unsent
      rintro rfl
      exact other (own.symm.trans mine)
    · exact fun note present => (Outbox.mem_send waiting).mpr (.inl present)

end Move

variable [DecidableEq ι]

/-- Every step is a step of the cabinet: nothing, a filing or an announcement.
Filings stay. -/
theorem Represents.step {cabinet : Cabinet ι service} {before after : System ι}
    {label : ι × Outcome} (valid : Represents requests uuid4 cabinet before)
    (collisionFree : CollisionFree service requests) (unique : Function.Injective uuid4)
    (taken : service.step requests uuid4 before label = some after) :
    ∃ next : Cabinet ι service, Represents requests uuid4 next after ∧
      ∀ filing ∈ cabinet.claims.entries, filing ∈ next.claims.entries := by
  have others : ∀ request, request ≠ label.1 → after.phase request = before.phase request :=
    fun request other => Pool.step_other _ taken other
  obtain ⟨delivered, _, move⟩ := Service.step_move taken
  have own := valid.phase label.1
  generalize started : before.phase label.1 = phase at move own
  generalize moved : after.phase label.1 = next at move
  generalize stored : after.shared = store at move
  cases move with
  | quiet local_ =>
    subst started moved
    exact ⟨cabinet, valid.quiet others collisionFree local_ stored, fun _ => id⟩
  | put upload => exact ⟨cabinet, valid.put others collisionFree own moved stored, fun _ => id⟩
  | file upload path fresh =>
    have unfiled : cabinet.claims.Fresh (Filing.digest service ⟨label.1, upload⟩) := by
      apply Ledger.lookup_eq_none.mp
      have image := valid.byHash (service.sha256 upload.payload)
      rw [fresh] at image
      exact Option.map_eq_none_iff.mp image.symm
    exact ⟨_, valid.file others unique own moved stored unfiled,
      fun filing member => (Outbox.mem_claim unfiled).mpr (.inl member)⟩
  | notify document fresh =>
    obtain ⟨filing, waiting, sent⟩ := valid.notify others own moved stored fresh
    exact ⟨_, sent, fun _ => id⟩

/-- What holds of the cabinet's images and a filing, and is kept by every step,
holds after every continuation. -/
theorem Represents.run_filing {cabinet : Cabinet ι service} {system later : System ι}
    {filing : Filing ι} {more : List (ι × Outcome)} (Holds : System ι → Prop)
    (valid : Represents requests uuid4 cabinet system)
    (collisionFree : CollisionFree service requests) (unique : Function.Injective uuid4)
    (member : filing ∈ cabinet.claims.entries) (initially : Holds system)
    (kept : ∀ (cabinet : Cabinet ι service) before label after,
      Represents requests uuid4 cabinet before → filing ∈ cabinet.claims.entries →
      service.step requests uuid4 before label = some after → Holds before → Holds after)
    (continued : run (service.step requests uuid4) system more = some later) :
    Holds later ∧ ∃ next : Cabinet ι service, Represents requests uuid4 next later ∧
      filing ∈ next.claims.entries := by
  refine run_invariant (fun pool : System ι => Holds pool ∧ ∃ cabinet : Cabinet ι service,
    Represents requests uuid4 cabinet pool ∧ filing ∈ cabinet.claims.entries)
    ⟨initially, cabinet, valid, member⟩ ?_ continued
  rintro before label after ⟨holds, cabinet, represents, filed⟩ taken
  obtain ⟨next, represented, grown⟩ := represents.step collisionFree unique taken
  exact ⟨kept cabinet before label after represents filed taken holds, next, represented,
    grown filing filed⟩

/-- Every reachable state is the image of a cabinet. -/
theorem Represents.of_run {labels : List (ι × Outcome)} {system : System ι}
    (collisionFree : CollisionFree service requests) (unique : Function.Injective uuid4)
    (reached : run (service.step requests uuid4) (System.init ι) labels = some system) :
    ∃ cabinet : Cabinet ι service, Represents requests uuid4 cabinet system := by
  refine run_invariant (fun system => ∃ cabinet : Cabinet ι service,
    Represents requests uuid4 cabinet system) ⟨_, .init⟩ ?_ reached
  rintro before label after ⟨cabinet, valid⟩ taken
  obtain ⟨next, kept, _⟩ := valid.step collisionFree unique taken
  exact ⟨next, kept⟩

end N8nSystems.Documents
