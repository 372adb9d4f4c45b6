import N8nSystems.Documents.Uploads

/-! A document is announced to the intake webhook only by the upload that filed it.
An announcement that fails, or that a stopped request never makes, is not made up
for by uploading the same bytes again. -/

namespace N8nSystems.Documents

open Lib Lib.Py

universe u

variable {ι : Type u} {service : Service} {requests : ι → Request} {uuid4 : ι → Uuid}

/-- The notifier calls for some content. -/
def noticesFor (system : System ι) (digest : Text) : List Notice :=
  system.shared.notices.filter (·.sha256 = digest)

/-- The request has left the steps in which it could still call the notifier. -/
def Past : Phase → Prop
  | .finishing _ => True
  | .answered _ => True
  | .stopped => True
  | _ => False

theorem Represents.noticesFor_eq {cabinet : Cabinet ι service} {system : System ι}
    (valid : Represents requests uuid4 cabinet system) (digest : Text) :
    noticesFor system digest =
      (cabinet.sent.lookup digest).toList.map fun note => note.1.notice service uuid4 note.2 := by
  rw [noticesFor, valid.notices]
  exact cabinet.sent.filter_rows (fun note => note.1.notice service uuid4 note.2) Notice.sha256
    Function.injective_id (fun _ => rfl) digest

/-- The filing that a returned document belongs to, when the request filed it. -/
theorem Returned.own {cabinet : Cabinet ι service} {filing : Filing ι} {Duty : Filing ι → Prop}
    (returned : Returned requests uuid4 cabinet Duty filing.request document)
    (member : filing ∈ cabinet.claims.entries)
    (admits : Admits service (requests filing.request) filing.upload) :
    Duty filing ∧ document = filing.document service uuid4 := by
  obtain ⟨upload, mine, other, listed, same, shape, own, known⟩ := returned
  cases duplicate : document.deduplicated with
  | true => exact absurd rfl (known duplicate filing member)
  | false =>
    obtain ⟨_, duty⟩ := own duplicate
    have payload : other.upload.payload = filing.upload.payload := by
      rw [same, mine.unique admits]
    obtain rfl : other = filing :=
      Cabinet.filing_eq listed member payload
    exact ⟨duty, by rw [shape, duplicate]; rfl⟩

/-- Where the request stands that filed a document: before its notifier call,
past it, or stopped. -/
theorem Represents.owner {cabinet : Cabinet ι service} {system : System ι} {filing : Filing ι}
    (valid : Represents requests uuid4 cabinet system)
    (member : filing ∈ cabinet.claims.entries) :
    (system.phase filing.request = .documented (filing.document service uuid4) ∧
        cabinet.Unsent filing) ∨
      (Past (system.phase filing.request) ∧
        (Sent cabinet filing ∨ system.phase filing.request = .stopped)) := by
  have accounts := valid.phase filing.request
  have admits := valid.admits filing member
  generalize system.phase filing.request = phase at accounts ⊢
  cases phase with
  | received => exact absurd rfl (accounts filing member)
  | admitted upload => exact absurd rfl (accounts.2 filing member)
  | stored upload path => exact absurd rfl (accounts.2.1 filing member)
  | documented document =>
    obtain ⟨waiting, rfl⟩ := accounts.own member admits
    exact .inl ⟨rfl, waiting⟩
  | finishing document =>
    obtain ⟨sent, _⟩ := accounts.own member admits
    exact .inr ⟨trivial, .inl sent⟩
  | finding documentId =>
    obtain ⟨token, asked⟩ := accounts
    rw [asked] at admits
    exact absurd admits not_admits_getFile
  | located document =>
    obtain ⟨token, asked, _⟩ := accounts
    rw [asked] at admits
    exact absurd admits not_admits_getFile
  | answered answer =>
    rcases accounts with ⟨document, returned, _⟩ | ⟨token, _, _, asked, _⟩ | ⟨_, _, _, never⟩
    · obtain ⟨sent, _⟩ := returned.own member admits
      exact .inr ⟨trivial, .inl sent⟩
    · rw [asked] at admits
      exact absurd admits not_admits_getFile
    · exact absurd admits (never filing.upload)
  | stopped => exact .inr ⟨trivial, .inr rfl⟩

theorem LocalStep.past (taken : LocalStep service requests store request phase next)
    (past : Past phase) : Past next := by
  cases taken with
  | stopped => trivial
  | answered => trivial
  | refused => trivial
  | crashed => trivial
  | silent => trivial
  | notFound => trivial
  | fileMissing => trivial
  | read => trivial
  | admitted => exact past.elim
  | finding => exact past.elim
  | known => exact past.elim
  | located => exact past.elim

/-- Another upload of filed bytes can only be answered with the known id. -/
theorem Represents.reupload_answer {cabinet : Cabinet ι service} {system : System ι}
    {filing : Filing ι} {again : ι} {upload : Admitted}
    (valid : Represents requests uuid4 cabinet system)
    (member : filing ∈ cabinet.claims.entries) (admits : Admits service (requests again) upload)
    (same : upload.payload = filing.upload.payload) (other : again ≠ filing.request)
    (phase : system.phase again = .answered answer) :
    answer = uploadAnswer { filing.document service uuid4 with deduplicated := true } := by
  have accounts := valid.phase again
  rw [phase] at accounts
  rcases accounts with ⟨document, returned, shape⟩ | ⟨token, _, _, asked, _⟩ | ⟨_, _, _, never⟩
  · obtain ⟨mine, own, first, listed, equal, filed, duty, _⟩ := returned
    have payload : first.upload.payload = filing.upload.payload := by
      rw [equal, own.unique admits, same]
    obtain rfl : first = filing :=
      Cabinet.filing_eq listed member payload
    cases duplicate : document.deduplicated with
    | true => rw [shape, filed, duplicate]
    | false => exact absurd (duty duplicate).1.symm other
  · rw [asked] at admits
    exact absurd admits not_admits_getFile
  · exact absurd admits (never upload)

section Run

variable [DecidableEq ι]

/-- Once the filing request is past its call, a step changes neither that nor the
calls for the document. -/
theorem Represents.past_step {cabinet : Cabinet ι service} {before after : System ι}
    {label : ι × Outcome} {filing : Filing ι} (valid : Represents requests uuid4 cabinet before)
    (member : filing ∈ cabinet.claims.entries)
    (taken : service.step requests uuid4 before label = some after)
    (past : Past (before.phase filing.request)) :
    Past (after.phase filing.request) ∧
      noticesFor after (filing.digest service) = noticesFor before (filing.digest service) := by
  obtain ⟨delivered, _, move⟩ := Service.step_move taken
  have accounts := valid.phase label.1
  have still : filing.request ≠ label.1 → Past (after.phase filing.request) := by
    intro other
    rw [Pool.step_other _ taken other]
    exact past
  have own : filing.request = label.1 → Past (before.phase label.1) := fun same => same ▸ past
  have moved : (filing.request = label.1 → Past (after.phase label.1)) →
      Past (after.phase filing.request) := by
    intro mine
    by_cases same : filing.request = label.1
    · exact same ▸ mine same
    · exact still same
  unfold noticesFor
  generalize before.phase label.1 = phase at move accounts own
  generalize after.phase label.1 = next at move moved
  generalize after.shared = store at move ⊢
  cases move with
  | quiet local_ => exact ⟨moved fun same => local_.past (own same), rfl⟩
  | put upload => exact ⟨moved fun same => (own same).elim, rfl⟩
  | file upload path fresh => exact ⟨moved fun same => (own same).elim, rfl⟩
  | notify document fresh =>
    refine ⟨moved fun same => (own same).elim, ?_⟩
    obtain ⟨upload, _, other, listed, _, shape, duty, _⟩ := accounts
    obtain ⟨mine, _⟩ := duty fresh
    have different : other.digest service ≠ filing.digest service := by
      intro equal
      have same : other = filing := Ledger.eq_of_key listed member equal
      exact own (same ▸ mine)
    have digest : document.sha256 = other.digest service := congrArg StoredDocument.sha256 shape
    simp [List.filter_append, digest, different]

/-- After the filing request is past its call, no run adds a call for the document. -/
theorem Represents.past_run {cabinet : Cabinet ι service} {system later : System ι}
    {filing : Filing ι} {more : List (ι × Outcome)}
    (valid : Represents requests uuid4 cabinet system)
    (collisionFree : CollisionFree service requests) (unique : Function.Injective uuid4)
    (member : filing ∈ cabinet.claims.entries) (past : Past (system.phase filing.request))
    (continued : run (service.step requests uuid4) system more = some later) :
    noticesFor later (filing.digest service) = noticesFor system (filing.digest service) := by
  refine (valid.run_filing (fun pool => Past (pool.phase filing.request) ∧
    noticesFor pool (filing.digest service) = noticesFor system (filing.digest service))
    collisionFree unique member ⟨past, rfl⟩ ?_ continued).1.2
  rintro cabinet before label after holds filed taken ⟨past, same⟩
  obtain ⟨still, kept⟩ := holds.past_step filed taken past
  exact ⟨still, kept.trans same⟩

/-- Another upload of filed bytes, run on its own: answered with the known id and
without a notifier call. -/
theorem Represents.reupload_now {cabinet : Cabinet ι service} {system : System ι}
    {filing : Filing ι} {again : ι} {upload : Admitted}
    (valid : Represents requests uuid4 cabinet system)
    (member : filing ∈ cabinet.claims.entries) (admits : Admits service (requests again) upload)
    (same : upload.payload = filing.upload.payload) (idle : system.phase again = .received) :
    ∃ later, run (service.step requests uuid4) system (List.replicate 5 (again, .works)) =
        some later ∧
      later.phase again = .answered
        (uploadAnswer { filing.document service uuid4 with deduplicated := true }) ∧
      later.shared.notices = system.shared.notices := by
  obtain ⟨token, file, asked, admitted⟩ := admits
  have known : system.shared.documents.byHash (service.sha256 upload.payload) =
      some (uuid4 filing.request) := by
    have found : cabinet.claims.lookup (filing.digest service) = some filing :=
      Ledger.lookup_eq_some.mpr ⟨member, rfl⟩
    rw [valid.byHash, same]
    exact (congrArg _ found).trans rfl
  have filed := (valid.byId _ _).mpr ⟨filing, member, rfl, rfl⟩
  simp [run, List.replicate, Service.step, Pool.step, Service.act, Service.advance, idle, asked,
    admitted, MemoryStorage.put, MemoryDocuments.put, Admitted.newDocument, known, filed]

/-- For every run and every stored document that was never announced with success:
the upload that filed it is before its notifier call, or was stopped before it, or
made the one call, which failed. In the last two cases no later run calls the
notifier for the document; and another upload of the same bytes is answered with
the known id, as deduplicated and without a call. -/
theorem announced_by_filer (service : Service) (requests : ι → Request) (uuid4 : ι → Uuid)
    (collisionFree : CollisionFree service requests) (unique : Function.Injective uuid4)
    (labels : List (ι × Outcome)) (system : System ι)
    (reached : run (service.step requests uuid4) (System.init ι) labels = some system)
    (documentId : Uuid) (document : StoredDocument)
    (stored : system.shared.documents.byId documentId = some document)
    (silent : ∀ notice ∈ noticesFor system document.sha256, notice.delivered = false) :
    ∃ filer upload, uuid4 filer = documentId ∧ Admits service (requests filer) upload ∧
      service.sha256 upload.payload = document.sha256 ∧
      (system.phase filer = .documented document ∨
        (system.phase filer = .stopped ∧ noticesFor system document.sha256 = [] ∨
          noticesFor system document.sha256 =
            [⟨documentId.str, document.sha256, false⟩]) ∧
        ∀ more later, run (service.step requests uuid4) system more = some later →
          noticesFor later document.sha256 = noticesFor system document.sha256) ∧
      (∀ again other, again ≠ filer → Admits service (requests again) other →
        other.payload = upload.payload → system.phase again = .received →
        (∃ later, run (service.step requests uuid4) system (List.replicate 5 (again, .works)) =
            some later ∧
          later.phase again = .answered (uploadAnswer { document with deduplicated := true }) ∧
          later.shared.notices = system.shared.notices) ∧
        ∀ more later answer, run (service.step requests uuid4) system more = some later →
          later.phase again = .answered answer →
          answer = uploadAnswer { document with deduplicated := true }) := by
  obtain ⟨cabinet, valid⟩ := Represents.of_run collisionFree unique reached
  obtain ⟨filing, member, rfl, rfl⟩ := (valid.byId _ _).mp stored
  have calls := valid.noticesFor_eq (filing.digest service)
  have owner := valid.owner member
  refine ⟨filing.request, filing.upload, rfl, valid.admits filing member, rfl, ?_, ?_⟩
  · cases known : cabinet.sent.lookup (filing.digest service) with
    | none =>
      rw [known] at calls
      rcases owner with ⟨before, _⟩ | ⟨past, ⟨delivered, sent⟩ | stopped⟩
      · exact .inl before
      · exact absurd rfl (Ledger.lookup_eq_none.mp known _ sent)
      · exact .inr ⟨.inl ⟨stopped, calls⟩,
          fun more later => valid.past_run collisionFree unique member past⟩
    | some note =>
      obtain ⟨sent, digest⟩ := Ledger.lookup_eq_some.mp known
      obtain rfl : note.1 = filing :=
        Ledger.eq_of_key (cabinet.claimed note sent) member digest
      rw [known] at calls
      have made : noticesFor system (note.1.digest service) =
          [note.1.notice service uuid4 note.2] := calls
      have failed : note.2 = false := by
        apply silent (note.1.notice service uuid4 note.2)
        exact made ▸ List.mem_singleton_self _
      rcases owner with ⟨_, waiting⟩ | ⟨past, _⟩
      · exact absurd rfl (waiting.unsent note sent)
      · refine .inr ⟨.inr ?_, fun more later => valid.past_run collisionFree unique member past⟩
        exact made.trans (by rw [failed]; rfl)
  · intro again other different admits same idle
    refine ⟨valid.reupload_now member admits same idle, ?_⟩
    intro more later answer continued done
    obtain ⟨_, next, represents, filed⟩ := valid.run_filing (fun _ => True) collisionFree unique
      member trivial (fun _ _ _ _ _ _ _ => id) continued
    exact represents.reupload_answer filed admits same different done

end Run

/-- Upload 0 files the scan and its notifier call fails; then upload 1 of the same
bytes runs while the webhook works, and the document stays unannounced. -/
def lostLabels : List (Fin 3 × Outcome) :=
  [(firstScan, .works), (firstScan, .works), (firstScan, .works), (firstScan, .fails), (firstScan, .works)]

theorem undelivered {system : System ι} {digest : Text}
    (calls : system.shared.notices.map Notice.delivered = [false]) :
    ∀ notice ∈ noticesFor system digest, notice.delivered = false := by
  intro notice made
  have listed : notice.delivered ∈ system.shared.notices.map Notice.delivered :=
    List.mem_map.mpr ⟨notice, List.mem_of_mem_filter made, rfl⟩
  rw [calls] at listed
  exact List.mem_singleton.mp listed

theorem lost_announcement :
    ∃ system later document,
      run (scanService.step scanRequest scanUuid) (System.init (Fin 3)) lostLabels = some system ∧
      system.shared.documents.byId 0 = some document ∧
      (∀ notice ∈ noticesFor system document.sha256, notice.delivered = false) ∧
      Admits scanService (scanRequest 1) ⟨scanBytes, text "scan.pdf", .pdf⟩ ∧
      document.sha256 = scanService.sha256 scanBytes ∧ system.phase 1 = .received ∧
      run (scanService.step scanRequest scanUuid) system (List.replicate 5 (1, .works)) =
        some later ∧
      (∃ answer, later.phase 1 = .answered answer) ∧
      (∀ notice ∈ noticesFor later document.sha256, notice.delivered = false) := by
  let document := Admitted.document scanService ⟨scanBytes, text "scan.PDF", .pdf⟩
    (scanService.sha256 scanBytes) 0
  have first : (run (scanService.step scanRequest scanUuid) (System.init (Fin 3))
      lostLabels).map (fun system => (system.phase 1, system.shared.documents.byId 0,
        system.shared.notices.map Notice.delivered)) =
        some (.received, some document, [false]) := rfl
  obtain ⟨system, reached, facts⟩ := Option.map_eq_some_iff.mp first
  obtain ⟨idle, rest⟩ := Prod.mk.inj facts
  obtain ⟨stored, calls⟩ := Prod.mk.inj rest
  have second : ((run (scanService.step scanRequest scanUuid) (System.init (Fin 3))
      lostLabels).bind fun system => run (scanService.step scanRequest scanUuid) system
        (List.replicate 5 (1, .works))).map (fun later => (later.phase 1,
          later.shared.notices.map Notice.delivered)) =
        some (.answered (uploadAnswer { document with deduplicated := true }), [false]) := rfl
  rw [reached] at second
  obtain ⟨later, continued, answers⟩ := Option.map_eq_some_iff.mp second
  obtain ⟨done, same⟩ := Prod.mk.inj answers
  exact ⟨system, later, document, reached, stored, undelivered calls, ⟨_, _, rfl, rfl⟩, rfl,
    idle, continued, ⟨_, done⟩, undelivered same⟩

theorem announced_by_filer_lost :
    ∃ system document,
      run (scanService.step scanRequest scanUuid) (System.init (Fin 3)) lostLabels = some system ∧
      system.shared.documents.byId 0 = some document ∧
      ∀ more later, run (scanService.step scanRequest scanUuid) system more = some later →
        noticesFor later document.sha256 = noticesFor system document.sha256 := by
  let document := Admitted.document scanService ⟨scanBytes, text "scan.PDF", .pdf⟩
    (scanService.sha256 scanBytes) 0
  have first : (run (scanService.step scanRequest scanUuid) (System.init (Fin 3))
      lostLabels).map (fun system => (system.phase 0, system.shared.documents.byId 0,
        system.shared.notices.map Notice.delivered)) =
        some (.answered (uploadAnswer document), some document, [false]) := rfl
  obtain ⟨system, reached, facts⟩ := Option.map_eq_some_iff.mp first
  obtain ⟨done, rest⟩ := Prod.mk.inj facts
  obtain ⟨stored, calls⟩ := Prod.mk.inj rest
  obtain ⟨filer, upload, same, _, _, position, _⟩ := announced_by_filer scanService scanRequest
    scanUuid (scanService_collisionFree _) scanUuid_unique lostLabels system reached 0 document stored
    (undelivered calls)
  obtain rfl : filer = 0 := scanUuid_unique same
  rcases position with before | ⟨_, fixed⟩
  · cases done.symm.trans before
  · exact ⟨system, document, reached, stored, fixed⟩

end N8nSystems.Documents
