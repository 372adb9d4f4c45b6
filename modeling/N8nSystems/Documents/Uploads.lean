import N8nSystems.Documents.FilingCabinet

namespace N8nSystems.Documents

open Lib Lib.Py

universe u

variable {ι : Type u} {service : Service} {requests : ι → Request} {uuid4 : ι → Uuid}

/-- What a 2xx answer to an upload says, in terms of the cabinet. -/
structure Served (requests : ι → Request) (uuid4 : ι → Uuid) (cabinet : Cabinet ι service)
    (request : ι) (status : Nat) (content : DocumentOut) (filing : Filing ι) : Prop where
  member : filing ∈ cabinet.claims.entries
  admits : ∃ upload, Admits service (requests request) upload ∧
    filing.upload.payload = upload.payload
  documentId : content.documentId = (uuid4 filing.request).str
  status_eq : status = if content.deduplicated then 200 else 201
  own : content.deduplicated = false → filing.request = request ∧ Sent cabinet filing
  known : content.deduplicated = true → NotFiled cabinet request

theorem Returned.served {cabinet : Cabinet ι service}
    (returned : Returned requests uuid4 cabinet (Sent cabinet) request document)
    (shape : Answer.document status content = uploadAnswer document) :
    ∃ filing, Served requests uuid4 cabinet request status content filing := by
  obtain ⟨upload, admits, filing, member, same, filed, own, known⟩ := returned
  cases shape
  exact ⟨filing, member, ⟨upload, admits, same⟩, congrArg (fun d => d.id.str) filed, rfl, own,
    known⟩

theorem Represents.served {cabinet : Cabinet ι service} {system : System ι}
    (valid : Represents requests uuid4 cabinet system)
    (phase : system.phase request = .answered (.document status content)) :
    ∃ filing, Served requests uuid4 cabinet request status content filing := by
  have accounts := valid.phase request
  rw [phase] at accounts
  rcases accounts with ⟨document, returned, shape⟩ | ⟨_, _, _, _, shape⟩ | ⟨_, _, shape, _⟩
  · exact returned.served shape
  · cases shape
  · cases shape

/-- An admitted upload that is answered is answered with a document. -/
theorem Represents.served_of_admits {cabinet : Cabinet ι service} {system : System ι}
    (valid : Represents requests uuid4 cabinet system)
    (admits : Admits service (requests request) upload)
    (phase : system.phase request = .answered answer) :
    ∃ status content filing, answer = .document status content ∧
      Served requests uuid4 cabinet request status content filing := by
  have accounts := valid.phase request
  rw [phase] at accounts
  rcases accounts with ⟨document, returned, shape⟩ | ⟨token, filing, _, asked, _⟩ |
    ⟨_, _, _, never⟩
  · obtain ⟨filing, served⟩ := returned.served rfl
    exact ⟨_, _, filing, shape, served⟩
  · rw [asked] at admits
    exact absurd admits not_admits_getFile
  · exact absurd admits (never upload)

theorem Served.payload {cabinet : Cabinet ι service} {filing : Filing ι}
    (served : Served requests uuid4 cabinet request status content filing)
    (admits : Admits service (requests request) upload) :
    filing.upload.payload = upload.payload := by
  obtain ⟨own, mine, same⟩ := served.admits
  rw [same, mine.unique admits]

/-- Bytes are filed once. -/
theorem Cabinet.filing_eq {cabinet : Cabinet ι service} {filing other : Filing ι}
    (member : filing ∈ cabinet.claims.entries) (also : other ∈ cabinet.claims.entries)
    (same : filing.upload.payload = other.upload.payload) : filing = other :=
  Ledger.eq_of_key member also (congrArg service.sha256 same)

/-- Two answers name one document exactly when one filing is behind them. -/
theorem Represents.documentId_eq_iff {cabinet : Cabinet ι service} {system : System ι}
    {filing other : Filing ι} (valid : Represents requests uuid4 cabinet system)
    (unique : Function.Injective uuid4)
    (served : Served requests uuid4 cabinet first status content filing)
    (served' : Served requests uuid4 cabinet second status' content' other) :
    content.documentId = content'.documentId ↔ filing = other := by
  rw [served.documentId, served'.documentId]
  constructor
  · intro equal
    have uploads := valid.admits filing served.member
    rw [unique (Uuid.str_injective equal)] at uploads
    apply Cabinet.filing_eq served.member served'.member
    rw [uploads.unique (valid.admits other served'.member)]
  · intro equal
    rw [equal]

/-- The notices of a filing that has been sent are one. -/
theorem Represents.noted_once {cabinet : Cabinet ι service} {system : System ι}
    {filing : Filing ι} (valid : Represents requests uuid4 cabinet system)
    (sent : Sent cabinet filing) :
    (system.shared.notices.filter (·.sha256 = filing.digest service)).length = 1 := by
  obtain ⟨delivered, sent⟩ := sent
  have noted := cabinet.sent.filter_rows
    (fun note => note.1.notice service uuid4 note.2) Notice.sha256 Function.injective_id
    (fun _ => rfl) (filing.digest service)
  have found : cabinet.sent.lookup (filing.digest service) = some (filing, delivered) :=
    Ledger.lookup_eq_some.mpr ⟨sent, rfl⟩
  rw [found, ← valid.notices] at noted
  exact congrArg List.length noted

/-- Once every request is answered, the upload that filed some bytes has been
answered 201 and has called the notifier. -/
theorem Represents.winner {cabinet : Cabinet ι service} {system : System ι} {filing : Filing ι}
    (valid : Represents requests uuid4 cabinet system)
    (finished : ∀ request, ∃ answer, system.phase request = .answered answer)
    (member : filing ∈ cabinet.claims.entries) :
    Sent cabinet filing ∧ ∃ content, content.deduplicated = false ∧
      system.phase filing.request = .answered (.document 201 content) := by
  obtain ⟨answer, phase⟩ := finished filing.request
  obtain ⟨status, content, other, rfl, served⟩ :=
    valid.served_of_admits (valid.admits filing member) phase
  cases duplicate : content.deduplicated with
  | true => exact absurd rfl (served.known duplicate filing member)
  | false =>
    obtain ⟨own, sent⟩ := served.own duplicate
    have equal : other = filing :=
      Cabinet.filing_eq served.member member (served.payload (valid.admits filing member))
    have created : status = 201 := by simpa [duplicate] using served.status_eq
    exact ⟨equal ▸ sent, content, duplicate, created ▸ phase⟩

/-- The rows by id and the ids by hash are inverse to each other. -/
def MemoryDocuments.Inverse (documents : MemoryDocuments) : Prop :=
  (∀ hash id, documents.byHash hash = some id →
    ∃ document, documents.byId id = some document ∧ document.sha256 = hash) ∧
  (∀ id document, documents.byId id = some document →
    document.id = id ∧ documents.byHash document.sha256 = some id)

theorem Represents.inverse {cabinet : Cabinet ι service} {system : System ι}
    (valid : Represents requests uuid4 cabinet system) : system.shared.documents.Inverse := by
  constructor
  · intro hash id known
    rw [valid.byHash, Option.map_eq_some_iff] at known
    obtain ⟨filing, found, same⟩ := known
    obtain ⟨member, digest⟩ := Ledger.lookup_eq_some.mp found
    exact ⟨_, (valid.byId _ _).mpr ⟨filing, member, same, rfl⟩, digest⟩
  · intro id document found
    obtain ⟨filing, member, rfl, rfl⟩ := (valid.byId _ _).mp found
    refine ⟨rfl, ?_⟩
    have known : cabinet.claims.lookup (filing.digest service) = some filing :=
      Ledger.lookup_eq_some.mpr ⟨member, rfl⟩
    rw [valid.byHash]
    exact (congrArg _ known).trans rfl

/-- The phases of a download of a filed document. -/
def Reading (service : Service) (uuid4 : ι → Uuid) (filing : Filing ι) : Phase → Prop
  | .received => True
  | .finding documentId => documentId = uuid4 filing.request
  | .located document => document = filing.document service uuid4
  | .answered answer => answer = .file filing.upload.payload filing.upload.mime
  | .stopped => True
  | _ => False

theorem LocalStep.reading {cabinet : Cabinet ι service} {system : System ι} {filing : Filing ι}
    (taken : LocalStep service requests system.shared reader phase next)
    (valid : Represents requests uuid4 cabinet system)
    (member : filing ∈ cabinet.claims.entries)
    (asked : requests reader = .getFile token (uuid4 filing.request))
    (allowed : service.requireInternalToken token = .ok ())
    (reading : Reading service uuid4 filing phase) : Reading service uuid4 filing next := by
  have filed := (valid.byId _ _).mpr ⟨filing, member, rfl, rfl⟩
  have present := valid.kept filing member
  cases taken with
  | stopped => trivial
  | refused code detail _ denied => exact absurd allowed (denied _ _ asked)
  | admitted upload admits =>
    rw [asked] at admits
    exact absurd admits not_admits_getFile
  | finding other documentId also _ =>
    cases asked.symm.trans also
    rfl
  | crashed => exact reading.elim
  | known => exact reading.elim
  | silent => exact reading.elim
  | answered => exact reading.elim
  | notFound documentId absent =>
    obtain rfl : documentId = uuid4 filing.request := reading
    cases absent.symm.trans filed
  | located documentId document found =>
    obtain rfl : documentId = uuid4 filing.request := reading
    exact Option.some.inj (found.symm.trans filed)
  | fileMissing document absent =>
    obtain rfl : document = filing.document service uuid4 := reading
    cases absent.symm.trans present
  | read document data found =>
    obtain rfl : document = filing.document service uuid4 := reading
    obtain rfl := Option.some.inj (found.symm.trans present)
    rfl

section Run

variable [DecidableEq ι]

/-- A download of a filed document that runs now returns its bytes. -/
theorem Represents.read_now {cabinet : Cabinet ι service} {system : System ι} {filing : Filing ι}
    (valid : Represents requests uuid4 cabinet system)
    (member : filing ∈ cabinet.claims.entries)
    (asked : requests reader = .getFile token (uuid4 filing.request))
    (allowed : service.requireInternalToken token = .ok ())
    (idle : system.phase reader = .received) :
    ∃ later, run (service.step requests uuid4) system
        [(reader, .works), (reader, .works), (reader, .works)] = some later ∧
      later.phase reader = .answered (.file filing.upload.payload filing.upload.mime) := by
  have filed := (valid.byId _ _).mpr ⟨filing, member, rfl, rfl⟩
  have present := valid.kept filing member
  simp [run, Service.step, Pool.step, Service.act, Service.advance, idle, asked, allowed, filed,
    present, Filing.document, Admitted.document, NewDocument.toStored, Admitted.newDocument]

/-- A download of a filed document that starts now can only end with its bytes. -/
theorem Represents.read_run {cabinet : Cabinet ι service} {system later : System ι}
    {filing : Filing ι} {more : List (ι × Outcome)}
    (valid : Represents requests uuid4 cabinet system)
    (collisionFree : CollisionFree service requests) (unique : Function.Injective uuid4)
    (member : filing ∈ cabinet.claims.entries)
    (asked : requests reader = .getFile token (uuid4 filing.request))
    (allowed : service.requireInternalToken token = .ok ())
    (idle : system.phase reader = .received)
    (continued : run (service.step requests uuid4) system more = some later) :
    Reading service uuid4 filing (later.phase reader) := by
  have initially : Reading service uuid4 filing (system.phase reader) := by
    rw [idle]
    trivial
  refine (valid.run_filing (fun pool => Reading service uuid4 filing (pool.phase reader))
    collisionFree unique member initially ?_ continued).1
  intro cabinet before label after holds filed taken reading
  by_cases moved : reader = label.1
  · subst moved
    obtain ⟨delivered, _, move⟩ := Service.step_move taken
    generalize before.phase label.1 = phase at move reading
    generalize after.phase label.1 = final at move ⊢
    generalize after.shared = store at move
    cases move with
    | quiet local_ => exact local_.reading holds filed asked allowed reading
    | put => exact reading.elim
    | file => exact reading.elim
    | notify => exact reading.elim
  · rw [Pool.step_other _ taken moved]
    exact reading

/-- After every interleaving of uploads and downloads, for a digest without
collisions and unique ids: the repository's maps are inverse to each other; two answered
uploads carry the same id exactly when their bytes are equal, and at most one of
them says `deduplicated=false` (201), exactly one once all requests are answered; a
download of a returned id that starts afterwards can only be answered with the
uploaded bytes and their detected type; and once all requests are answered the
notifier has been called exactly once for each accepted payload. -/
theorem uploads_content_addressed (service : Service) (requests : ι → Request) (uuid4 : ι → Uuid)
    (collisionFree : CollisionFree service requests) (unique : Function.Injective uuid4)
    (labels : List (ι × Outcome)) (system : System ι)
    (reached : run (service.step requests uuid4) (System.init ι) labels = some system) :
    system.shared.documents.Inverse ∧
    (∀ first second upload other status status' content content',
      Admits service (requests first) upload → Admits service (requests second) other →
      system.phase first = .answered (.document status content) →
      system.phase second = .answered (.document status' content') →
      (upload.payload = other.payload ↔ content.documentId = content'.documentId) ∧
      (upload.payload = other.payload → content.deduplicated = false →
        content'.deduplicated = false → first = second)) ∧
    (∀ request status content, system.phase request = .answered (.document status content) →
      status = if content.deduplicated then 200 else 201) ∧
    (∀ request upload status content reader token documentId,
      Admits service (requests request) upload →
      system.phase request = .answered (.document status content) →
      requests reader = .getFile token documentId → content.documentId = documentId.str →
      service.requireInternalToken token = .ok () → system.phase reader = .received →
      ∃ mime, detectMime upload.payload = some mime ∧
        (∃ later, run (service.step requests uuid4) system
            [(reader, .works), (reader, .works), (reader, .works)] = some later ∧
          later.phase reader = .answered (.file upload.payload mime)) ∧
        ∀ more later answer, run (service.step requests uuid4) system more = some later →
          later.phase reader = .answered answer → answer = .file upload.payload mime) ∧
    ((∀ request, ∃ answer, system.phase request = .answered answer) →
      (∀ request upload, Admits service (requests request) upload →
        (∃! winner, (∃ other, Admits service (requests winner) other ∧
            other.payload = upload.payload) ∧
          ∃ content, content.deduplicated = false ∧
            system.phase winner = .answered (.document 201 content)) ∧
        (system.shared.notices.filter (·.sha256 = service.sha256 upload.payload)).length = 1) ∧
      (∀ notice ∈ system.shared.notices, ∃ request upload,
        Admits service (requests request) upload ∧
          notice.sha256 = service.sha256 upload.payload)) := by
  obtain ⟨cabinet, valid⟩ := Represents.of_run collisionFree unique reached
  refine ⟨valid.inverse, ?_, ?_, ?_, ?_⟩
  · intro first second upload other status status' content content' admits also phase phase'
    obtain ⟨filing, served⟩ := valid.served phase
    obtain ⟨filing', served'⟩ := valid.served phase'
    have filings : upload.payload = other.payload ↔ filing = filing' := by
      rw [← served.payload admits, ← served'.payload also]
      constructor
      · exact Cabinet.filing_eq served.member served'.member
      · intro equal
        rw [equal]
    refine ⟨?_, ?_⟩
    · rw [filings, valid.documentId_eq_iff unique served served']
    · intro equal fresh fresh'
      rw [← (served.own fresh).1, ← (served'.own fresh').1, filings.mp equal]
  · intro request status content phase
    obtain ⟨filing, served⟩ := valid.served phase
    exact served.status_eq
  · intro request upload status content reader token documentId admits phase asked named allowed
      idle
    obtain ⟨filing, served⟩ := valid.served phase
    obtain rfl := Uuid.str_injective (served.documentId.symm.trans named)
    obtain ⟨_, _, _, detected⟩ := valid.admits filing served.member
    rw [← served.payload admits]
    refine ⟨filing.upload.mime, admitUpload_mime detected,
      valid.read_now served.member asked allowed idle, ?_⟩
    intro more later answer continued done
    have reading := valid.read_run collisionFree unique served.member asked allowed idle continued
    rw [done] at reading
    exact reading
  · intro finished
    refine ⟨?_, ?_⟩
    · intro request upload admits
      obtain ⟨answer, phase⟩ := finished request
      obtain ⟨status, content, filing, rfl, served⟩ := valid.served_of_admits admits phase
      have same := served.payload admits
      obtain ⟨sent, created⟩ := valid.winner finished served.member
      refine ⟨⟨filing.request, ⟨⟨_, valid.admits filing served.member, same⟩, created⟩, ?_⟩, ?_⟩
      · rintro winner ⟨⟨other, theirs, equal⟩, content', fresh, phase'⟩
        obtain ⟨filing', served'⟩ := valid.served phase'
        have filings : filing' = filing :=
          Cabinet.filing_eq served'.member served.member
            ((served'.payload theirs).trans (equal.trans same.symm))
        rw [← (served'.own fresh).1, filings]
      · rw [← same]
        exact valid.noted_once sent
    · intro notice listed
      rw [valid.notices] at listed
      obtain ⟨note, member, rfl⟩ := List.mem_map.mp listed
      have filed := cabinet.claimed note member
      exact ⟨note.1.request, note.1.upload, valid.admits note.1 filed, rfl⟩

end Run

/-- Four bytes that count as a PDF; the digest is the one SHA-256 gives them. -/
def scanBytes : Bytes := pdfMagic

def scanService : Service where
  internalApiToken := text "test-token"
  lower := fun name => name.map fun c => if 65 ≤ c ∧ c ≤ 90 then c + 32 else c
  sha256 := fun data =>
    if data = scanBytes then
      text "315d429b7714cedb6ad04ac31240145257692630457f3c88253c5beceac76027"
    else 0 :: data.map UInt8.toNat

theorem scanService_injective : Function.Injective scanService.sha256 := by
  intro first second same
  have bytes : Function.Injective fun data : Bytes => data.map UInt8.toNat :=
    List.map_injective_iff.mpr fun _ _ => UInt8.toNat_inj.mp
  simp only [scanService] at same
  split at same <;> split at same
  · simp_all
  · cases same
  · cases same
  · exact bytes (List.cons.inj same).2

theorem scanService_collisionFree (requests : ι → Request) : CollisionFree scanService requests :=
  fun _ _ _ _ _ _ same => scanService_injective same

/-- The same scan twice under different names, and a download of the second id. -/
def scanRequest : Fin 3 → Request
  | 0 => .upload (some (text "test-token")) (some ⟨some (text "scan.PDF"), [scanBytes]⟩)
  | 1 => .upload (some (text "test-token"))
      (some ⟨some (text "in/scan.pdf"), [[0x25, 0x50], [0x44, 0x46]]⟩)
  | 2 => .getFile (some (text "test-token")) 1

def scanUuid (request : Fin 3) : Uuid := request.val

/-- The first upload of the scan. -/
def firstScan : Fin 3 := 0

theorem scanUuid_unique : Function.Injective scanUuid := by
  unfold Function.Injective
  decide

/-- Both store the bytes before upload 1 files them. -/
def scanLabels : List (Fin 3 × Outcome) :=
  [(0, .works), (1, .works), (0, .works), (1, .works), (1, .works), (0, .works), (0, .works),
    (1, .works), (0, .works), (1, .works)]

theorem uploads_content_addressed_scan :
    ∃ system, run (scanService.step scanRequest scanUuid) (System.init (Fin 3)) scanLabels =
          some system ∧
      system.shared.documents.Inverse ∧
      ∃ later, run (scanService.step scanRequest scanUuid) system
          [(2, .works), (2, .works), (2, .works)] = some later ∧
        later.phase 2 = .answered (.file scanBytes .pdf) := by
  let content : DocumentOut :=
    ⟨Uuid.str 1, scanService.sha256 scanBytes, false, .pdf, 4⟩
  have answers : (run (scanService.step scanRequest scanUuid) (System.init (Fin 3))
      scanLabels).map (fun system => (system.phase 1, system.phase 2)) =
        some (.answered (.document 201 content), .received) := rfl
  obtain ⟨system, reached, phases⟩ := Option.map_eq_some_iff.mp answers
  obtain ⟨stored, idle⟩ := Prod.mk.inj phases
  have facts := uploads_content_addressed scanService scanRequest scanUuid
    (scanService_collisionFree _) scanUuid_unique scanLabels system reached
  have admits : Admits scanService (scanRequest 1) ⟨scanBytes, text "scan.pdf", .pdf⟩ :=
    ⟨_, _, rfl, rfl⟩
  obtain ⟨mime, detected, ⟨later, continued, done⟩, _⟩ :=
    facts.2.2.2.1 1 _ 201 content 2 _ 1 admits stored rfl rfl rfl idle
  obtain rfl : Mime.pdf = mime := Option.some.inj detected
  exact ⟨system, reached, facts.1, later, continued, done⟩

end N8nSystems.Documents
