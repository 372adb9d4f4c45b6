import N8nSystems.Documents.Uploads

/-! Which uploads the service takes in, and the constraints that the table
`p02.documents` puts on what it makes of them (`20260911140000_p02_schema.sql`). -/

namespace N8nSystems.Documents

open Lib Lib.Py

universe u

def Mime.magic : Mime → Bytes
  | .pdf => pdfMagic
  | .png => pngMagic
  | .jpeg => jpegMagic

/-- The last extension of a name, in lower case. -/
def Service.extension (service : Service) (name : Text) : Text := pathSuffix (service.lower name)

/-- A file of that type that the service takes in. -/
structure Admissible (service : Service) (file : UploadFile) (mime : Mime) : Prop where
  size : 1 ≤ file.chunks.flatten.length ∧ file.chunks.flatten.length ≤ 10485760
  magic : mime.magic <+: file.chunks.flatten
  extension : ∀ expected, suffixToMime (service.extension (pathName file.givenName)) = some expected →
    expected = mime

def DocumentSource.value : DocumentSource → Text
  | .upload => text "upload"
  | .email => text "email"

/-- The row that `PostgresDocuments.put` inserts, in the columns with a constraint on them. -/
structure InsertedRow where
  mimeType : Text
  sizeBytes : Nat
  source : Text
  status : Text

def NewDocument.insertedRow (document : NewDocument) : InsertedRow where
  mimeType := document.mimeType.value
  sizeBytes := document.sizeBytes
  source := document.source.value
  status := text "received"

/-- The CHECK constraints on these columns. -/
structure InsertedRow.Checked (row : InsertedRow) : Prop where
  mimeType : row.mimeType ∈ [text "application/pdf", text "image/png", text "image/jpeg"]
  sizeBytes : 0 < row.sizeBytes ∧ row.sizeBytes ≤ 10485760
  source : row.source ∈ [text "upload", text "email"]
  status : row.status ∈ [text "received", text "processing", text "extracted", text "needs_review",
    text "approved", text "exported", text "rejected", text "failed", text "needs_manual"]

/-- The magic prefixes begin with different bytes. -/
theorem magic_apart {first second : Mime} (here : first.magic <+: data) (there : second.magic <+: data) :
    first = second := by
  obtain ⟨rest, rfl⟩ := here
  obtain ⟨rest', same⟩ := there
  have heads := congrArg List.head? same
  cases first <;> cases second <;> simp [Mime.magic, pdfMagic, pngMagic, jpegMagic] at heads ⊢

theorem magic_of_detectMime (detected : detectMime data = some mime) : mime.magic <+: data := by
  unfold detectMime at detected
  simp only [List.isPrefixOf_iff_prefix] at detected
  split at detected
  · cases detected
    assumption
  · split at detected
    · cases detected
      assumption
    · split at detected
      · cases detected
        assumption
      · cases detected

theorem detectMime_of_magic {mime : Mime} (here : mime.magic <+: data) :
    ∃ other, detectMime data = some other := by
  unfold detectMime
  split
  · exact ⟨_, rfl⟩
  · split
    · exact ⟨_, rfl⟩
    · split
      · exact ⟨_, rfl⟩
      · rename_i noPdf noPng noJpeg
        rw [List.isPrefixOf_iff_prefix] at noPdf noPng noJpeg
        cases mime with
        | pdf => exact absurd here noPdf
        | png => exact absurd here noPng
        | jpeg => exact absurd here noJpeg

theorem detectMime_eq_some_iff : detectMime data = some mime ↔ mime.magic <+: data := by
  constructor
  · exact magic_of_detectMime
  · intro here
    obtain ⟨other, detected⟩ := detectMime_of_magic here
    rw [detected, magic_apart (magic_of_detectMime detected) here]

/-- The bounded read returns all the bytes, or fails when there are too many. -/
theorem readLimited_eq {chunks : List Bytes} (nonempty : ∀ chunk ∈ chunks, chunk ≠ []) {total : Nat}
    (fits : total ≤ maxUploadBytes) (kept : List Bytes) : readLimited total kept chunks =
      if total + chunks.flatten.length ≤ maxUploadBytes then .ok (kept ++ chunks).flatten
      else .error .fileTooLarge := by
  induction chunks generalizing total kept with
  | nil => simp [readLimited, fits]
  | cons chunk rest ih =>
    have later := fun other member => nonempty other (List.mem_cons_of_mem chunk member)
    rw [readLimited, if_neg (nonempty chunk List.mem_cons_self), List.flatten_cons, List.length_append,
      ← Nat.add_assoc]
    by_cases beyond : total + chunk.length > maxUploadBytes
    · rw [if_pos beyond, if_neg (by omega)]
    · rw [if_neg beyond, ih later (by omega), List.append_assoc, List.singleton_append]

theorem not_mem_of_mem_splitOn {path : Text} (member : part ∈ path.splitOn separator) : separator ∉ part := by
  induction path generalizing part with
  | nil =>
    rw [List.splitOn_nil, List.mem_singleton] at member
    rw [member]
    exact List.not_mem_nil
  | cons c rest ih =>
    rw [List.splitOn_cons_eq_if_modifyHead] at member
    split at member
    · rcases List.mem_cons.mp member with rfl | later
      · exact List.not_mem_nil
      · exact ih later
    · rename_i other
      cases parts : rest.splitOn separator with
      | nil => exact absurd parts (List.splitOn_ne_nil separator rest)
      | cons first others =>
        rw [parts] at member ih
        rcases List.mem_cons.mp member with rfl | later
        · have here := ih List.mem_cons_self
          simp only [beq_iff_eq] at other
          simp [here, Ne.symm other]
        · exact ih (List.mem_cons_of_mem _ later)

theorem pathName_idem (path : Text) : pathName (pathName path) = pathName path := by
  unfold pathName
  cases last : ((path.splitOn 47).filter fun part => part ≠ [] ∧ part ≠ [46]).getLast? with
  | none => rfl
  | some part =>
    obtain ⟨member, kept⟩ := List.mem_filter.mp (List.mem_of_getLast? last)
    rw [Option.getD_some, List.splitOn_eq_singleton (not_mem_of_mem_splitOn member), List.filter_singleton,
      kept]
    rfl

theorem filenameMatchesMime_iff {service : Service} {name : Text} (plain : pathName name = name) :
    service.filenameMatchesMime name mime = true ↔
      ∀ expected, suffixToMime (service.extension name) = some expected → expected = mime := by
  simp only [Service.filenameMatchesMime, plain, Service.extension]
  cases suffixToMime (pathSuffix (service.lower name)) with
  | none => simp
  | some expected => simp

section Admission

variable {service : Service} (authenticated : service.requireInternalToken token = .ok ())
include authenticated

/-- `upload_document` on a file, with the bounded read done. -/
theorem admitUpload_some {file : UploadFile} (chunked : ∀ chunk ∈ file.chunks, chunk ≠ []) :
    service.admitUpload token (some file) =
      if maxUploadBytes < file.chunks.flatten.length then .error .fileTooLarge
      else if file.chunks.flatten = [] then .error .emptyFile
      else
        match detectMime file.chunks.flatten with
        | none => .error .unsupportedType
        | some mime =>
          if service.filenameMatchesMime (pathName file.givenName) mime then
            .ok ⟨file.chunks.flatten, pathName file.givenName, mime⟩
          else .error .magicMismatch := by
  have read := readLimited_eq chunked (Nat.zero_le maxUploadBytes) []
  rw [Nat.zero_add, List.nil_append] at read
  unfold Service.admitUpload
  simp only [authenticated, read, bind, Except.bind]
  by_cases fits : file.chunks.flatten.length ≤ maxUploadBytes
  · rw [if_pos fits]
    exact (if_neg (Nat.not_lt.mpr fits)).symm
  · rw [if_neg fits, if_pos (Nat.lt_of_not_le fits)]

theorem admitUpload_ok_iff {file : UploadFile} (chunked : ∀ chunk ∈ file.chunks, chunk ≠ []) :
    service.admitUpload token (some file) = .ok upload ↔ Admissible service file upload.mime ∧
      upload = ⟨file.chunks.flatten, pathName file.givenName, upload.mime⟩ := by
  rw [admitUpload_some authenticated chunked]
  have matching := fun mime => @filenameMatchesMime_iff mime service _ (pathName_idem file.givenName)
  constructor
  · intro admitted
    split at admitted
    · cases admitted
    · rename_i fits
      split at admitted
      · cases admitted
      · rename_i filled
        split at admitted
        · cases admitted
        · rename_i mime detected
          split at admitted
          · rename_i named
            cases admitted
            refine ⟨⟨⟨?_, Nat.le_of_not_lt fits⟩, detectMime_eq_some_iff.mp detected, (matching mime).mp named⟩, rfl⟩
            exact List.length_pos_iff.mpr filled
          · cases admitted
  · rintro ⟨admissible, same⟩
    have filled := List.length_pos_iff.mp admissible.size.1
    have fits : ¬ maxUploadBytes < file.chunks.flatten.length := Nat.not_lt.mpr admissible.size.2
    rw [if_neg fits, if_neg filled,
      detectMime_eq_some_iff.mpr admissible.magic]
    simp only [(matching _).mpr admissible.extension, if_true]
    rw [same]

/-- The answers to an upload with a right token that is not taken in. -/
theorem admitUpload_refused {file : Option UploadFile}
    (chunked : ∀ given, file = some given → ∀ chunk ∈ given.chunks, chunk ≠ [])
    (refused : service.admitUpload token file = .error answer) :
    ∃ code ∈ [400, 413, 415], ∃ detail, answer = .error code detail := by
  cases file with
  | none =>
    simp only [Service.admitUpload, authenticated, bind, Except.bind] at refused
    cases refused
    exact ⟨400, by simp, _, rfl⟩
  | some file =>
    rw [admitUpload_some authenticated (chunked file rfl)] at refused
    split at refused
    · cases refused
      exact ⟨413, by simp, _, rfl⟩
    · split at refused
      · cases refused
        exact ⟨400, by simp, _, rfl⟩
      · split at refused
        · cases refused
          exact ⟨415, by simp, _, rfl⟩
        · split at refused
          · cases refused
          · cases refused
            exact ⟨415, by simp, _, rfl⟩

end Admission

section Run

variable {ι : Type u} [DecidableEq ι] {service : Service} {requests : ι → Request} {uuid4 : ι → Uuid}

/-- The request is at its call of `documents.put`, with this document. -/
def Puts (service : Service) (system : System ι) (request : ι) (document : NewDocument) : Prop :=
  ∃ upload path, system.phase request = .stored upload path ∧ document = upload.newDocument service path

/-- The request has stored nothing, and its answer is a refusal. -/
def Refused : Phase → Prop
  | .received => True
  | .stopped => True
  | .answered answer => ∃ code ∈ [400, 413, 415], ∃ detail, answer = .error code detail
  | _ => False

/-- What a request carries between the checks and `documents.put`. -/
def Carries (phase : Phase) (upload : Admitted) : Prop :=
  phase = .admitted upload ∨ ∃ path, phase = .stored upload path

theorem carries_step {before after : System ι} {label : ι × Outcome} {request : ι}
    (carried : ∀ upload, Carries (before.phase request) upload → Admits service (requests request) upload)
    (taken : service.step requests uuid4 before label = some after) (upload : Admitted)
    (carries : Carries (after.phase request) upload) : Admits service (requests request) upload := by
  by_cases own : request = label.1
  · subst own
    obtain ⟨delivered, _, move⟩ := Service.step_move taken
    generalize before.phase label.1 = phase at carried move
    generalize after.phase label.1 = next at carries move
    generalize after.shared = final at move
    cases move with
    | quiet local_ =>
      cases local_ with
      | admitted upload' admits =>
        rcases carries with same | ⟨path, same⟩
        · cases same
          exact admits
        · cases same
      | _ => rcases carries with same | ⟨path, same⟩ <;> cases same
    | put upload' =>
      rcases carries with same | ⟨path, same⟩
      · cases same
      · cases same
        exact carried upload (.inl rfl)
    | file => rcases carries with same | ⟨path, same⟩ <;> cases same
    | notify => rcases carries with same | ⟨path, same⟩ <;> cases same
  · rw [Pool.step_other _ taken own] at carries
    exact carried upload carries

/-- In every run, what a request carries is the upload it was admitted with. -/
theorem carries_admits {labels : List (ι × Outcome)} {system : System ι} {request : ι}
    (reached : run (service.step requests uuid4) (System.init ι) labels = some system)
    (carries : Carries (system.phase request) upload) : Admits service (requests request) upload := by
  refine run_invariant (fun system => ∀ upload, Carries (system.phase request) upload →
    Admits service (requests request) upload) ?_ ?_ reached upload carries
  · intro upload carries
    rcases carries with same | ⟨path, same⟩ <;> cases same
  · intro before label after carried taken
    exact carries_step carried taken

/-- A step of a request that is not admitted. -/
theorem refused_step {before after : System ι} {label : ι × Outcome} {request : ι} {token : Option Text}
    {file : Option UploadFile} (asked : requests request = .upload token file)
    (authenticated : service.requireInternalToken token = .ok ())
    (chunked : ∀ given, file = some given → ∀ chunk ∈ given.chunks, chunk ≠ [])
    (refused : service.admitUpload token file = .error answer)
    (taken : service.step requests uuid4 before label = some after) (own : label.1 = request)
    (earlier : Refused (before.phase request)) :
    Refused (after.phase request) ∧ after.shared = before.shared := by
  subst own
  have moved := Pool.step_own _ taken
  have answered := admitUpload_refused authenticated chunked refused
  generalize before.phase label.1 = phase at earlier moved
  generalize after.phase label.1 = next at moved ⊢
  generalize after.shared = store at moved ⊢
  cases phase with
  | received =>
    cases outcome : label.2 with
    | stops =>
      rw [outcome] at moved
      cases moved
      exact ⟨trivial, rfl⟩
    | works =>
      simp only [Service.act, Service.advance, outcome, asked, refused] at moved
      cases moved
      exact ⟨answered, rfl⟩
    | fails =>
      simp only [Service.act, Service.advance, outcome, asked, refused] at moved
      cases moved
      exact ⟨answered, rfl⟩
  | answered earlierAnswer => cases outcome : label.2 <;> rw [outcome] at moved <;> cases moved
  | stopped => cases outcome : label.2 <;> rw [outcome] at moved <;> cases moved
  | _ => cases earlier

/-- In every run, a request that is not admitted never changes a store. -/
theorem refused_run {labels : List (ι × Outcome)} {system : System ι} {request : ι} {token : Option Text}
    {file : Option UploadFile} (asked : requests request = .upload token file)
    (authenticated : service.requireInternalToken token = .ok ())
    (chunked : ∀ given, file = some given → ∀ chunk ∈ given.chunks, chunk ≠ [])
    (refused : service.admitUpload token file = .error answer)
    (reached : run (service.step requests uuid4) (System.init ι) labels = some system) :
    Refused (system.phase request) ∧
      ¬ Pool.Touched (service.act requests uuid4) (System.init ι) request labels := by
  refine run_history (fun past system => Refused (system.phase request) ∧
    ¬ Pool.Touched (service.act requests uuid4) (System.init ι) request past)
    ?_ ?_ reached
  · exact ⟨trivial, Pool.not_touched_nil _ _⟩
  intro past before label after earlier holds taken
  by_cases own : label.1 = request
  · obtain ⟨phase, same⟩ := refused_step asked authenticated chunked refused taken own holds.1
    refine ⟨phase, fun touched => ?_⟩
    rcases touched.concat earlier taken with old | ⟨_, changed⟩
    · exact holds.2 old
    · exact changed same
  · refine ⟨?_, fun touched => ?_⟩
    · rw [Pool.step_other _ taken (Ne.symm own)]
      exact holds.1
    · rcases touched.concat earlier taken with old | ⟨same, _⟩
      · exact holds.2 old
      · exact own same

/-- A request that is not admitted has its answer after one step. -/
theorem refused_answer {system : System ι} {request : ι} {token : Option Text} {file : Option UploadFile}
    (asked : requests request = .upload token file)
    (refused : service.admitUpload token file = .error answer) (waiting : system.phase request = .received) :
    ∃ after, service.step requests uuid4 system (request, .works) = some after ∧
      after.phase request = .answered answer := by
  have answered : service.step requests uuid4 system (request, .works) =
      some ⟨system.shared, Function.update system.phase request (.answered answer)⟩ := by
    simp [Service.step, Pool.step, Service.act, Service.advance, waiting, asked, refused]
  exact ⟨_, answered, Function.update_self ..⟩

/-- An admitted upload reaches `documents.put`. -/
theorem admitted_puts {request : ι} {token : Option Text} {file : Option UploadFile}
    (asked : requests request = .upload token file) (admitted : service.admitUpload token file = .ok upload) :
    ∃ labels system document, run (service.step requests uuid4) (System.init ι) labels = some system ∧
      Puts service system request document := by
  have checked : service.step requests uuid4 (System.init ι) (request, .works) =
      some ⟨(System.init ι).shared, Function.update (System.init ι).phase request (.admitted upload)⟩ := by
    simp [Service.step, Pool.step, Service.act, Service.advance, System.init, asked, admitted]
  have stored : service.step requests uuid4
      ⟨(System.init ι).shared, Function.update (System.init ι).phase request (.admitted upload)⟩
      (request, .works) = some ⟨{ (System.init ι).shared with
        files := ((System.init ι).shared.files.put (service.sha256 upload.payload) upload.payload).2 },
        Function.update (System.init ι).phase request (.stored upload (service.sha256 upload.payload))⟩ := by
    simp [Service.step, Pool.step, Service.act, Service.advance]
    rfl
  have reached := (run_cons_iff _).mpr ⟨_, checked, (run_cons_iff _).mpr ⟨_, stored, run_nil _ _⟩⟩
  exact ⟨_, _, _, reached, upload, _, Function.update_self .., rfl⟩

theorem Admissible.checked {file : UploadFile} {path : Text} {upload : Admitted}
    (admissible : Admissible service file upload.mime)
    (same : upload = ⟨file.chunks.flatten, pathName file.givenName, upload.mime⟩) :
    (upload.newDocument service path).insertedRow.Checked := by
  refine ⟨?_, ?_, ?_, ?_⟩
  · change upload.mime.value ∈ _
    cases upload.mime <;> simp [Mime.value]
  · have size := admissible.size
    rw [same]
    exact size
  · simp [NewDocument.insertedRow, Admitted.newDocument, DocumentSource.value]
  · simp [NewDocument.insertedRow]

end Run

/-- The life of an upload with a right token, in any chunks and among any other requests.
It reaches `documents.put` exactly when the file is admissible, with the bytes put
together and a row that the table accepts; any other upload is refused with 400, 413
or 415 and changes no store. -/
theorem upload_admission {ι : Type u} [DecidableEq ι] (service : Service) (requests : ι → Request)
    (uuid4 : ι → Uuid) (request : ι) {token : Option Text} {file : Option UploadFile}
    (asked : requests request = .upload token file)
    (authenticated : service.requireInternalToken token = .ok ())
    (chunked : ∀ given, file = some given → ∀ chunk ∈ given.chunks, chunk ≠ []) :
    ((∃ labels system document, run (service.step requests uuid4) (System.init ι) labels = some system ∧
        Puts service system request document) ↔
      ∃ given mime, file = some given ∧ Admissible service given mime) ∧
    ∀ labels system, run (service.step requests uuid4) (System.init ι) labels = some system →
      (∀ given, file = some given →
        (∀ upload, Carries (system.phase request) upload → upload.payload = given.chunks.flatten) ∧
        ∀ document, Puts service system request document →
          document.sha256 = service.sha256 given.chunks.flatten ∧
          Admissible service given document.mimeType ∧ document.insertedRow.Checked) ∧
      ((¬ ∃ given mime, file = some given ∧ Admissible service given mime) →
        Refused (system.phase request) ∧
        ¬ Pool.Touched (service.act requests uuid4) (System.init ι) request labels ∧
        (system.phase request = .received →
          ∃ after code detail, service.step requests uuid4 system (request, .works) = some after ∧
            code ∈ [400, 413, 415] ∧ after.phase request = .answered (.error code detail))) := by
  -- A request that carries an upload was admitted with it, so the file is admissible.
  have carried {labels system upload} {given : UploadFile} (same : file = some given)
      (reached : run (service.step requests uuid4) (System.init ι) labels = some system)
      (carries : Carries (system.phase request) upload) : Admissible service given upload.mime ∧
        upload = ⟨given.chunks.flatten, pathName given.givenName, upload.mime⟩ := by
    obtain ⟨_, _, asked', admitted⟩ := carries_admits reached carries
    cases asked.symm.trans asked'
    subst same
    exact (admitUpload_ok_iff authenticated (chunked given rfl)).mp admitted
  constructor
  · constructor
    · rintro ⟨labels, system, document, reached, upload, path, stored, _⟩
      cases present : file with
      | none =>
        obtain ⟨_, _, asked', admitted⟩ := carries_admits reached (.inr ⟨path, stored⟩)
        cases asked.symm.trans asked'
        simp only [present, Service.admitUpload, authenticated, bind, Except.bind] at admitted
        cases admitted
      | some given => exact ⟨given, upload.mime, rfl, (carried present reached (.inr ⟨path, stored⟩)).1⟩
    · rintro ⟨given, mime, rfl, admissible⟩
      have admitted : service.admitUpload token (some given) =
          .ok ⟨given.chunks.flatten, pathName given.givenName, mime⟩ :=
        (admitUpload_ok_iff authenticated (chunked given rfl)).mpr ⟨admissible, rfl⟩
      exact admitted_puts asked admitted
  · intro labels system reached
    constructor
    · intro given same
      constructor
      · intro upload carries
        rw [(carried same reached carries).2]
      · rintro document ⟨upload, path, stored, rfl⟩
        obtain ⟨admissible, whole⟩ := carried same reached (.inr ⟨path, stored⟩)
        refine ⟨?_, admissible, admissible.checked whole⟩
        rw [whole]
        rfl
    · intro inadmissible
      cases outcome : service.admitUpload token file with
      | error answer =>
        obtain ⟨phase, untouched⟩ := refused_run asked authenticated chunked outcome reached
        refine ⟨phase, untouched, fun waiting => ?_⟩
        obtain ⟨code, listed, detail, rfl⟩ := admitUpload_refused authenticated chunked outcome
        obtain ⟨after, taken, answered⟩ := refused_answer asked outcome waiting
        exact ⟨after, code, detail, taken, listed, answered⟩
      | ok upload =>
        refine absurd ?_ inadmissible
        cases file with
        | none =>
          simp only [Service.admitUpload, authenticated, bind, Except.bind] at outcome
          cases outcome
        | some given =>
          exact ⟨given, upload.mime, rfl, ((admitUpload_ok_iff authenticated (chunked given rfl)).mp outcome).1⟩

/-- The second upload of the scan comes in two chunks. -/
theorem upload_admission_scan : ∃ labels system document,
    run (scanService.step scanRequest scanUuid) (System.init (Fin 3)) labels = some system ∧
      Puts scanService system 1 document := by
  refine (upload_admission scanService scanRequest scanUuid 1 rfl rfl ?_).1.mpr ⟨_, .pdf, rfl, ?_, ?_, ?_⟩
  · intro given same
    cases same
    simp
  · exact ⟨by decide, by decide⟩
  · exact ⟨[], rfl⟩
  · intro expected known
    have extension : suffixToMime (scanService.extension (text "scan.pdf")) = some .pdf := by decide +kernel
    exact (Option.some.inj (extension.symm.trans known)).symm

end N8nSystems.Documents
