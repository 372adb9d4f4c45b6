import N8nSystems.Documents.UploadRules
import N8nSystems.Lib.Linearized

/-! The repository over the table `p02.documents`: transactions whose statements interleave,
with the waits of the unique indexes, and that its callers cannot tell it from the in-memory
repository. -/

namespace N8nSystems.Documents.PostgresDocuments

open Lib Lib.Py

universe u

/-- A row of `p02.documents`, in the columns that the repository reads. -/
structure Row where
  id : Uuid
  sha256 : Text
  originalFilename : Text
  mimeType : Mime
  sizeBytes : Nat
  storagePath : Text
  source : DocumentSource
  status : DocumentStatus
  deriving DecidableEq, Repr

/-- The row that the INSERT makes, with the id that `gen_random_uuid` draws. -/
def rowOf (document : NewDocument) (uuid : Uuid) : Row where
  id := uuid
  sha256 := document.sha256
  originalFilename := document.originalFilename
  mimeType := document.mimeType
  sizeBytes := document.sizeBytes
  storagePath := document.storagePath
  source := document.source
  status := .received

/-- `_from_row`. -/
def Row.toStored (row : Row) (deduplicated : Bool) : StoredDocument where
  id := row.id
  sha256 := row.sha256
  originalFilename := row.originalFilename
  mimeType := row.mimeType
  sizeBytes := row.sizeBytes
  storagePath := row.storagePath
  source := row.source
  status := row.status
  deduplicated := deduplicated

instance (row : InsertedRow) : Decidable row.Checked :=
  decidable_of_iff
    (row.mimeType ∈ [text "application/pdf", text "image/png", text "image/jpeg"] ∧
      (0 < row.sizeBytes ∧ row.sizeBytes ≤ 10485760) ∧ row.source ∈ [text "upload", text "email"] ∧
      row.status ∈ [text "received", text "processing", text "extracted", text "needs_review",
        text "approved", text "exported", text "rejected", text "failed", text "needs_manual"])
    ⟨fun checked => ⟨checked.1, checked.2.1, checked.2.2.1, checked.2.2.2⟩,
      fun checked => ⟨checked.mimeType, checked.sizeBytes, checked.source, checked.status⟩⟩

/-- The committed rows, and the rows that open transactions have inserted. -/
structure Database (ι : Type u) where
  rows : List Row
  written : List (ι × Row)

/-- Why a call raises. -/
inductive Failure where
  | connection
  | checkViolation
  | uniqueViolation
  | runtimeError (message : Text)
  deriving DecidableEq, Repr

inductive Inserted where
  | returning (row : Row)
  | conflict
  | waits
  | refused (failure : Failure)
  deriving DecidableEq, Repr

/-- The INSERT of `put`. A row of the same `sha256` is a conflict once it is committed, and is
waited for while its transaction is open; the other unique column, the primary key, has no
`ON CONFLICT`. -/
def Database.insert (db : Database ι) (document : NewDocument) (uuid : Uuid) : Inserted :=
  let row := rowOf document uuid
  if ¬ document.insertedRow.Checked then .refused .checkViolation
  else if db.rows.any (·.sha256 = row.sha256) then .conflict
  else if db.written.any (·.2.sha256 = row.sha256) then .waits
  else if db.rows.any (·.id = row.id) then .refused .uniqueViolation
  else if db.written.any (·.2.id = row.id) then .waits
  else .returning row

inductive Call where
  | put (document : NewDocument)
  | get (documentId : Uuid)
  deriving DecidableEq, Repr

inductive Result where
  | stored (document : StoredDocument)
  | found (document : Option StoredDocument)
  deriving DecidableEq, Repr

/-- Where a call stands between its statements. After `unanswered` the COMMIT took effect, but
its answer never came. -/
inductive Phase where
  | started
  | conflicted (document : NewDocument)
  | inserted (row : Row)
  | selected (row : Row)
  | returned (result : Result)
  | unanswered (result : Result)
  | failed (failure : Failure)
  deriving DecidableEq, Repr

/-- The answer of a call that took effect. -/
def Phase.settled : Phase → Option Result
  | .returned result => some result
  | .unanswered result => some result
  | _ => none

/-- The connection carries the statement and its answer, breaks before the statement, or
breaks before the answer. -/
inductive Connection where
  | works | breaks | silent
  deriving DecidableEq, Repr

def noRow : Failure := .runtimeError (text "document insert conflicted but no row for sha256")

variable {ι : Type u} [DecidableEq ι]

def Database.rollback (db : Database ι) (request : ι) : Database ι :=
  { db with written := db.written.filter (·.1 ≠ request) }

/-- The transaction's row becomes one of the table. -/
def Database.commit (db : Database ι) (request : ι) (row : Row) : Database ι where
  rows := db.rows ++ [row]
  written := db.written.filter (·.1 ≠ request)

/-- The next statement of a call: of `put`, the INSERT, then the SELECT where it conflicted,
then the COMMIT; of `get`, its one SELECT. A transaction whose connection breaks is rolled back. -/
def act (requests : ι → Call) (uuid4 : ι → Uuid) (request : ι) (connection : Connection)
    (phase : Phase) (db : Database ι) : Option (Phase × Database ι) :=
  match phase, connection with
  | .started, .works =>
    match requests request with
    | .get documentId =>
      some (.returned (.found ((db.rows.find? (·.id = documentId)).map (·.toStored false))), db)
    | .put document =>
      match db.insert document (uuid4 request) with
      | .returning row => some (.inserted row, { db with written := db.written ++ [(request, row)] })
      | .conflict => some (.conflicted document, db)
      | .waits => none
      | .refused failure => some (.failed failure, db)
  | .conflicted document, .works =>
    match db.rows.find? (·.sha256 = document.sha256) with
    | none => some (.failed noRow, db)
    | some row => some (.selected row, db)
  | .inserted row, .works => some (.returned (.stored (row.toStored false)), db.commit request row)
  | .inserted row, .silent => some (.unanswered (.stored (row.toStored false)), db.commit request row)
  | .selected row, .works => some (.returned (.stored (row.toStored true)), db)
  | .returned _, _ => none
  | .unanswered _, _ => none
  | .failed _, _ => none
  | _, _ => some (.failed .connection, db.rollback request)

abbrev System (ι : Type u) := Pool ι Phase (Database ι)

def System.init (ι : Type u) : System ι := ⟨⟨[], []⟩, fun _ => .started⟩

def step (requests : ι → Call) (uuid4 : ι → Uuid) (system : System ι) (label : ι × Connection) :
    Option (System ι) :=
  Pool.step (act requests uuid4) system label

/-- Everything one statement can do. -/
inductive Move (requests : ι → Call) (uuid4 : ι → Uuid) (request : ι) (db : Database ι) :
    Phase → Phase → Database ι → Prop
  | found (documentId : Uuid) (asked : requests request = .get documentId) :
      Move requests uuid4 request db .started
        (.returned (.found ((db.rows.find? (·.id = documentId)).map (·.toStored false)))) db
  | refused (failure : Failure) (known : failure ≠ noRow) :
      Move requests uuid4 request db .started (.failed failure) db
  | conflicted (document : NewDocument) (asked : requests request = .put document)
      (present : ∃ row ∈ db.rows, row.sha256 = document.sha256) :
      Move requests uuid4 request db .started (.conflicted document) db
  | inserted (document : NewDocument) (asked : requests request = .put document)
      (digest : ∀ row ∈ db.rows ++ db.written.map Prod.snd, row.sha256 ≠ document.sha256)
      (identifier : ∀ row ∈ db.rows ++ db.written.map Prod.snd, row.id ≠ uuid4 request) :
      Move requests uuid4 request db .started (.inserted (rowOf document (uuid4 request)))
        { db with written := db.written ++ [(request, rowOf document (uuid4 request))] }
  | missing (document : NewDocument) (absent : db.rows.find? (·.sha256 = document.sha256) = none) :
      Move requests uuid4 request db (.conflicted document) (.failed noRow) db
  | selected (document : NewDocument) (row : Row)
      (found : db.rows.find? (·.sha256 = document.sha256) = some row) :
      Move requests uuid4 request db (.conflicted document) (.selected row) db
  | committed (row : Row) (next : Phase)
      (answer : next = .returned (.stored (row.toStored false)) ∨ next = .unanswered (.stored (row.toStored false))) :
      Move requests uuid4 request db (.inserted row) next (db.commit request row)
  | known (row : Row) : Move requests uuid4 request db (.selected row)
      (.returned (.stored (row.toStored true))) db
  | broken (phase : Phase) (running : phase.settled = none) :
      Move requests uuid4 request db phase (.failed .connection) (db.rollback request)

omit [DecidableEq ι] in
/-- What the INSERT can do: a row that it returns is new in both unique columns, also among
the rows of open transactions, and it waits for one of these only. -/
theorem Database.insert_cases (db : Database ι) (document : NewDocument) (uuid : Uuid) :
    (∃ failure, db.insert document uuid = .refused failure ∧ failure ≠ noRow) ∨
      (db.insert document uuid = .conflict ∧ ∃ row ∈ db.rows, row.sha256 = document.sha256) ∨
      (db.insert document uuid = .waits ∧
        ∃ entry ∈ db.written, entry.2.sha256 = document.sha256 ∨ entry.2.id = uuid) ∨
      (db.insert document uuid = .returning (rowOf document uuid) ∧
        (∀ row ∈ db.rows ++ db.written.map Prod.snd, row.sha256 ≠ document.sha256) ∧
        ∀ row ∈ db.rows ++ db.written.map Prod.snd, row.id ≠ uuid) := by
  have digest : (rowOf document uuid).sha256 = document.sha256 := rfl
  have identifier : (rowOf document uuid).id = uuid := rfl
  simp only [Database.insert, List.any_eq_true, decide_eq_true_eq, digest, identifier]
  split
  · exact .inl ⟨.checkViolation, rfl, by decide⟩
  split
  · exact .inr (.inl ⟨rfl, ‹_›⟩)
  split
  · rename_i waits
    obtain ⟨entry, member, same⟩ := waits
    exact .inr (.inr (.inl ⟨rfl, entry, member, .inl same⟩))
  split
  · exact .inl ⟨.uniqueViolation, rfl, by decide⟩
  split
  · rename_i waits
    obtain ⟨entry, member, same⟩ := waits
    exact .inr (.inr (.inl ⟨rfl, entry, member, .inr same⟩))
  · rename_i committed open_ used drawn
    simp only [not_exists, not_and] at committed open_ used drawn
    refine .inr (.inr (.inr ⟨rfl, ?_⟩))
    simp only [List.forall_mem_append, List.forall_mem_map]
    exact ⟨⟨committed, open_⟩, used, drawn⟩

theorem act_move {requests : ι → Call} {uuid4 : ι → Uuid} {request : ι} {connection : Connection}
    {phase next : Phase} {db after : Database ι}
    (taken : act requests uuid4 request connection phase db = some (next, after)) :
    Move requests uuid4 request db phase next after := by
  cases phase with
  | returned | unanswered | failed => cases connection <;> cases taken
  | started =>
    cases connection with
    | breaks | silent =>
      cases taken
      exact .broken .started rfl
    | works =>
      cases asked : requests request with
      | get documentId =>
        simp only [act, asked, Option.some.injEq, Prod.mk.injEq] at taken
        obtain ⟨rfl, rfl⟩ := taken
        exact .found documentId asked
      | put document =>
        simp only [act, asked] at taken
        rcases db.insert_cases document (uuid4 request) with ⟨failure, inserted, known⟩ |
          ⟨inserted, present⟩ | ⟨inserted, -⟩ | ⟨inserted, digest, identifier⟩
        all_goals
          rw [inserted] at taken
          cases taken
        · exact .refused failure known
        · exact .conflicted document asked present
        · exact .inserted document asked digest identifier
  | conflicted document =>
    cases connection with
    | breaks | silent =>
      cases taken
      exact .broken (.conflicted document) rfl
    | works =>
      simp only [act] at taken
      split at taken
      · cases taken
        exact .missing document ‹_›
      · cases taken
        exact .selected document _ ‹_›
  | inserted row =>
    cases connection with
    | breaks =>
      cases taken
      exact .broken (.inserted row) rfl
    | works =>
      cases taken
      exact .committed row _ (.inl rfl)
    | silent =>
      cases taken
      exact .committed row _ (.inr rfl)
  | selected row =>
    cases connection with
    | breaks | silent =>
      cases taken
      exact .broken (.selected row) rfl
    | works =>
      cases taken
      exact .known row

theorem step_move {requests : ι → Call} {uuid4 : ι → Uuid} {before after : System ι}
    {label : ι × Connection} (taken : step requests uuid4 before label = some after) :
    Move requests uuid4 label.1 before.shared (before.phase label.1) (after.phase label.1) after.shared :=
  act_move (Pool.step_own _ taken)

/-- What the table says about a call at a phase. -/
def Accounts (requests : ι → Call) (uuid4 : ι → Uuid) (db : Database ι) (request : ι) : Phase → Prop
  | .inserted row => (request, row) ∈ db.written ∧
      ∃ document, requests request = .put document ∧ row = rowOf document (uuid4 request)
  | .conflicted document => requests request = .put document ∧
      ∃ row ∈ db.rows, row.sha256 = document.sha256
  | .selected row => row ∈ db.rows ∧
      ∃ document, requests request = .put document ∧ row.sha256 = document.sha256
  | .failed failure => failure ≠ noRow
  | _ => True

/-- A unique column: over the committed rows, between these and the open rows, and between
the open rows of two transactions. -/
structure Unique {Key : Type*} (key : Row → Key) (db : Database ι) : Prop where
  rows : (db.rows.map key).Nodup
  written : ∀ entry ∈ db.written, ∀ row ∈ db.rows, key row ≠ key entry.2
  apart : ∀ entry ∈ db.written, ∀ other ∈ db.written, key entry.2 = key other.2 → entry.1 = other.1

structure Valid (requests : ι → Call) (uuid4 : ι → Uuid) (system : System ι) : Prop where
  digests : Unique Row.sha256 system.shared
  identifiers : Unique Row.id system.shared
  written : ∀ entry ∈ system.shared.written, system.phase entry.1 = .inserted entry.2
  phase : ∀ request, Accounts requests uuid4 system.shared request (system.phase request)

omit [DecidableEq ι] in
theorem Valid.init (requests : ι → Call) (uuid4 : ι → Uuid) : Valid requests uuid4 (System.init ι) where
  digests := ⟨List.nodup_nil, by simp [System.init], by simp [System.init]⟩
  identifiers := ⟨List.nodup_nil, by simp [System.init], by simp [System.init]⟩
  written := by simp [System.init]
  phase _ := trivial

omit [DecidableEq ι] in
/-- The steps of the others take nothing from a call: rows stay, and so does its own row. -/
theorem Accounts.later {requests : ι → Call} {uuid4 : ι → Uuid} {db next : Database ι} {request : ι}
    {phase : Phase} (accounts : Accounts requests uuid4 db request phase)
    (rows : ∀ row ∈ db.rows, row ∈ next.rows)
    (written : ∀ row, (request, row) ∈ db.written → (request, row) ∈ next.written) :
    Accounts requests uuid4 next request phase := by
  cases phase with
  | inserted row => exact ⟨written row accounts.1, accounts.2⟩
  | conflicted document =>
    obtain ⟨asked, row, member, same⟩ := accounts
    exact ⟨asked, row, rows row member, same⟩
  | selected row => exact ⟨rows row accounts.1, accounts.2⟩
  | failed failure => exact accounts
  | _ => trivial

section Unique

variable {Key : Type*} {key : Row → Key} {db : Database ι} {request : ι}

/-- The row of a transaction that ends leaves the open rows. -/
theorem mem_ended {entry : ι × Row} :
    entry ∈ db.written.filter (·.1 ≠ request) ↔ entry ∈ db.written ∧ entry.1 ≠ request := by
  simp

theorem Unique.rollback (unique : Unique key db) : Unique key (db.rollback request) where
  rows := unique.rows
  written entry member := unique.written entry (mem_ended.mp member).1
  apart entry member other also := unique.apart entry (mem_ended.mp member).1 other (mem_ended.mp also).1

theorem Unique.commit {row : Row} (unique : Unique key db) (own : (request, row) ∈ db.written) :
    Unique key (db.commit request row) where
  rows := by
    rw [Database.commit, List.map_append, List.map_singleton]
    refine List.Nodup.append unique.rows (List.nodup_singleton _) (List.disjoint_singleton.mpr ?_)
    intro taken
    obtain ⟨other, member, same⟩ := List.mem_map.mp taken
    exact unique.written _ own other member same
  written := by
    intro entry member other listed
    obtain ⟨open_, foreign⟩ := mem_ended.mp member
    rcases List.mem_append.mp listed with committed | new
    · exact unique.written entry open_ other committed
    · obtain rfl := List.mem_singleton.mp new
      exact fun same => foreign (unique.apart entry open_ _ own same.symm)
  apart entry member other also := unique.apart entry (mem_ended.mp member).1 other (mem_ended.mp also).1

omit [DecidableEq ι] in
theorem Unique.write {row : Row} (unique : Unique key db)
    (fresh : ∀ other ∈ db.rows ++ db.written.map Prod.snd, key other ≠ key row) :
    Unique key { db with written := db.written ++ [(request, row)] } where
  rows := unique.rows
  written := by
    intro entry member other committed
    rcases List.mem_append.mp member with old | new
    · exact unique.written entry old other committed
    · obtain rfl := List.mem_singleton.mp new
      exact fresh other (List.mem_append_left _ committed)
  apart := by
    have foreign {entry : ι × Row} (old : entry ∈ db.written) : key entry.2 ≠ key row :=
      fresh entry.2 (List.mem_append_right _ (List.mem_map_of_mem old))
    intro entry member other also same
    rcases List.mem_append.mp member with old | new <;> rcases List.mem_append.mp also with old' | new'
    · exact unique.apart entry old other old' same
    · obtain rfl := List.mem_singleton.mp new'
      exact absurd same (foreign old)
    · obtain rfl := List.mem_singleton.mp new
      exact absurd same.symm (foreign old')
    · rw [List.mem_singleton.mp new, List.mem_singleton.mp new']

end Unique

/-- What a step must show of the call that takes it; the others see rows added only. -/
theorem Valid.moved {requests : ι → Call} {uuid4 : ι → Uuid} {before after : System ι}
    {label : ι × Connection} (valid : Valid requests uuid4 before)
    (taken : step requests uuid4 before label = some after)
    (digests : Unique Row.sha256 after.shared) (identifiers : Unique Row.id after.shared)
    (rows : ∀ row ∈ before.shared.rows, row ∈ after.shared.rows)
    (others : ∀ entry, entry.1 ≠ label.1 → (entry ∈ after.shared.written ↔ entry ∈ before.shared.written))
    (mine : ∀ row, (label.1, row) ∈ after.shared.written → after.phase label.1 = .inserted row)
    (own : Accounts requests uuid4 after.shared label.1 (after.phase label.1)) :
    Valid requests uuid4 after where
  digests := digests
  identifiers := identifiers
  written := by
    rintro ⟨request, row⟩ member
    by_cases moved : request = label.1
    · subst moved
      exact mine row member
    · rw [Pool.step_other _ taken moved]
      exact valid.written _ ((others (request, row) moved).mp member)
  phase := by
    intro request
    by_cases moved : request = label.1
    · subst moved
      exact own
    · rw [Pool.step_other _ taken moved]
      exact (valid.phase request).later rows fun row => (others (request, row) moved).mpr

omit [DecidableEq ι] in
/-- A call that has inserted no row has none among the open ones. -/
theorem Valid.unwritten {requests : ι → Call} {uuid4 : ι → Uuid} {system : System ι} {request : ι}
    (valid : Valid requests uuid4 system) (never : ∀ row, system.phase request ≠ .inserted row) (row : Row) :
    (request, row) ∉ system.shared.written :=
  fun member => never row (valid.written _ member)

theorem Valid.step {requests : ι → Call} {uuid4 : ι → Uuid} {before after : System ι}
    {label : ι × Connection} (valid : Valid requests uuid4 before)
    (taken : PostgresDocuments.step requests uuid4 before label = some after) :
    Valid requests uuid4 after := by
  obtain ⟨request, connection⟩ := label
  have move := step_move taken
  have accounts := valid.phase request
  have unwritten (never : ∀ row, before.phase request ≠ .inserted row) := valid.unwritten never
  simp only at move
  generalize same : after.shared = db at move
  generalize now : before.phase request = phase at move accounts unwritten
  generalize next : after.phase request = phase' at move
  -- The cases in which the table stays as it is.
  have still (table : db = before.shared) (never : ∀ row, phase ≠ .inserted row)
      (own : Accounts requests uuid4 before.shared request phase') : Valid requests uuid4 after := by
    subst table
    refine valid.moved taken (same ▸ valid.digests) (same ▸ valid.identifiers) (fun row => same ▸ id)
      (fun entry _ => by rw [same]) ?_ (by rw [same, next]; exact own)
    intro row member
    exact absurd (same ▸ member) (unwritten never row)
  cases move with
  | found | known => exact still rfl (by simp) trivial
  | refused failure known => exact still rfl (by simp) known
  | conflicted document asked present => exact still rfl (by simp) ⟨asked, present⟩
  | missing document absent =>
    obtain ⟨-, row, member, digest⟩ := accounts
    exact absurd (decide_eq_true digest) (List.find?_eq_none.mp absent row member)
  | selected document row found =>
    refine still rfl (by simp) ⟨List.mem_of_find?_eq_some found, document, accounts.1, ?_⟩
    simpa using List.find?_some found
  | inserted document asked digest identifier =>
    refine valid.moved taken ?_ ?_ ?_ ?_ ?_ ?_
    · exact same ▸ valid.digests.write digest
    · exact same ▸ valid.identifiers.write identifier
    · exact fun row member => same ▸ member
    · intro entry other
      simp only [same, List.mem_append, List.mem_singleton, or_iff_left_iff_imp]
      exact fun own => absurd (congrArg Prod.fst own) other
    · intro row member
      rw [same] at member
      rcases List.mem_append.mp member with old | new
      · exact absurd old (unwritten (by simp) row)
      · rw [next, (Prod.mk.inj (List.mem_singleton.mp new)).2]
    · rw [same, next]
      exact ⟨List.mem_append_right _ (List.mem_singleton.mpr rfl), document, asked, rfl⟩
  | committed row next answer =>
    refine valid.moved taken ?_ ?_ ?_ ?_ ?_ ?_
    · exact same ▸ valid.digests.commit accounts.1
    · exact same ▸ valid.identifiers.commit accounts.1
    · exact fun other member => same ▸ List.mem_append_left _ member
    · intro entry other
      rw [same, Database.commit, mem_ended, and_iff_left other]
    · intro other member
      rw [same] at member
      exact absurd rfl (mem_ended.mp member).2
    · rw [same, ‹after.phase request = _›]
      rcases answer with rfl | rfl <;> trivial
  | broken phase running =>
    refine valid.moved taken ?_ ?_ ?_ ?_ ?_ ?_
    · exact same ▸ valid.digests.rollback
    · exact same ▸ valid.identifiers.rollback
    · exact fun row member => same ▸ member
    · intro entry other
      rw [same, Database.rollback, mem_ended, and_iff_left other]
    · intro other member
      rw [same] at member
      exact absurd rfl (mem_ended.mp member).2
    · rw [same, next]
      exact (by decide : Failure.connection ≠ noRow)

theorem Valid.of_run {requests : ι → Call} {uuid4 : ι → Uuid} {labels : List (ι × Connection)}
    {system : System ι} (reached : run (PostgresDocuments.step requests uuid4) (System.init ι) labels = some system) :
    Valid requests uuid4 system :=
  run_invariant (Valid requests uuid4) (.init requests uuid4)
    (fun _ _ _ valid taken => Valid.step valid taken) reached

/-- The in-memory repository that holds the committed rows. -/
def Database.memory (db : Database ι) : MemoryDocuments where
  byId id := (db.rows.find? (·.id = id)).map (·.toStored false)
  byHash hash := (db.rows.find? (·.sha256 = hash)).map Row.id

/-- A call on the in-memory repository, if this is what it answers. -/
def perform (requests : ι → Call) (uuid4 : ι → Uuid) (memory : MemoryDocuments) (event : ι × Result) :
    Option MemoryDocuments :=
  match requests event.1 with
  | .get documentId => if event.2 = .found (memory.byId documentId) then some memory else none
  | .put document =>
    (memory.put document (uuid4 event.1)).bind fun (stored, next) =>
      if event.2 = .stored stored then some next else none

/-- The call took effect, and this is its answer, whether or not the answer came. -/
def Settled (system : System ι) (event : ι × Result) : Prop :=
  (system.phase event.1).settled = some event.2

omit [DecidableEq ι] in
theorem find_unique {Key : Type*} [DecidableEq Key] {key : Row → Key} {db : Database ι} {row : Row}
    (unique : Unique key db) (member : row ∈ db.rows) :
    db.rows.find? (fun other => decide (key other = key row)) = some row := by
  cases found : db.rows.find? (fun other => decide (key other = key row)) with
  | none => exact absurd (decide_eq_true rfl) (List.find?_eq_none.mp found row member)
  | some other =>
    have same : key other = key row := by simpa using List.find?_some found
    rw [List.inj_on_of_nodup_map unique.rows (List.mem_of_find?_eq_some found) member same]

/-- Looking up a unique column after a new row, as an update of the lookup before. -/
theorem find_concat {Key Value : Type*} [DecidableEq Key] {key : Row → Key} {rows : List Row} (row : Row)
    (fresh : ∀ other ∈ rows, key other ≠ key row) (value : Row → Value) :
    (fun k => ((rows ++ [row]).find? fun other => decide (key other = k)).map value) =
      Function.update (fun k => (rows.find? fun other => decide (key other = k)).map value) (key row)
        (some (value row)) := by
  funext k
  by_cases same : k = key row
  · subst same
    have absent : rows.find? (fun other => decide (key other = key row)) = none :=
      List.find?_eq_none.mpr fun other member => by simpa using fresh other member
    simp [List.find?_append, absent]
  · have other : ¬ key row = k := fun equal => same equal.symm
    simp [List.find?_append, same, other]

/-- Committing a new row is the `put` of a new document. -/
theorem put_commit {db : Database ι} {document : NewDocument} {uuid : Uuid} (request : ι)
    (digest : ∀ row ∈ db.rows, row.sha256 ≠ document.sha256) (identifier : ∀ row ∈ db.rows, row.id ≠ uuid) :
    db.memory.put document uuid =
      some ((rowOf document uuid).toStored false, (db.commit request (rowOf document uuid)).memory) := by
  have unknown : db.memory.byHash document.sha256 = none := by
    have absent : db.rows.find? (·.sha256 = document.sha256) = none :=
      List.find?_eq_none.mpr fun row member => by simpa using digest row member
    simp only [Database.memory, absent, Option.map_none]
  have byId : (db.commit request (rowOf document uuid)).memory.byId =
      Function.update db.memory.byId uuid (some ((rowOf document uuid).toStored false)) :=
    find_concat (rowOf document uuid) identifier (·.toStored false)
  have byHash : (db.commit request (rowOf document uuid)).memory.byHash =
      Function.update db.memory.byHash document.sha256 (some uuid) :=
    find_concat (rowOf document uuid) digest Row.id
  rw [MemoryDocuments.put, unknown]
  exact congrArg (fun memory => some ((rowOf document uuid).toStored false, memory))
    (congrArg₂ MemoryDocuments.mk byId byHash).symm

omit [DecidableEq ι] in
/-- The `put` of a document whose bytes are filed returns their row. -/
theorem put_known {db : Database ι} {document : NewDocument} {uuid : Uuid} {row : Row}
    (digests : Unique Row.sha256 db) (identifiers : Unique Row.id db) (member : row ∈ db.rows)
    (same : row.sha256 = document.sha256) :
    db.memory.put document uuid = some (row.toStored true, db.memory) := by
  have known : db.memory.byHash document.sha256 = some row.id := by
    simp only [Database.memory, ← same, find_unique digests member, Option.map_some]
  have current : db.memory.byId row.id = some (row.toStored false) := by
    simp only [Database.memory, find_unique identifiers member, Option.map_some]
  rw [MemoryDocuments.put, known]
  simp only [current, Option.map_some]
  rfl

/-- Where the moving call was open before a step, the step settles what its new phase says. -/
theorem settled_step {requests : ι → Call} {uuid4 : ι → Uuid} {before after : System ι}
    {label : ι × Connection} (taken : step requests uuid4 before label = some after)
    (running : (before.phase label.1).settled = none) (event : ι × Result) :
    Settled after event ↔ Settled before event ∨
      event.1 = label.1 ∧ (after.phase label.1).settled = some event.2 := by
  by_cases moved : event.1 = label.1
  · simp [Settled, moved, running]
  · simp [Settled, Pool.step_other _ taken moved, moved]

/-- The repository over the table is the in-memory one, one call at a time. -/
theorem linearizes (requests : ι → Call) (uuid4 : ι → Uuid) :
    Linearizes (step requests uuid4) (perform requests uuid4) (Valid requests uuid4)
      (fun system : System ι => system.shared.memory) Settled where
  valid _ _ _ valid taken := Valid.step valid taken
  settles := by
    rintro before ⟨request, connection⟩ after valid taken
    have move := step_move taken
    have accounts := valid.phase request
    have settled := settled_step taken
    simp only at move settled
    generalize same : after.shared = db at move
    generalize now : before.phase request = phase at move accounts settled
    generalize next : after.phase request = phase' at move settled
    -- The steps that settle nothing, and those that settle the call with an answer.
    have quiet (memory : db.memory = before.shared.memory) (running : phase.settled = none)
        (open_ : phase'.settled = none) : db.memory = before.shared.memory ∧
          ∀ event, Settled after event ↔ Settled before event := by
      refine ⟨memory, fun event => ?_⟩
      rw [settled running, open_]
      simp
    have settles (result : Result) (running : phase.settled = none) (answer : phase'.settled = some result)
        (performed : perform requests uuid4 before.shared.memory (request, result) = some db.memory) :
        ∃ event, perform requests uuid4 before.shared.memory event = some db.memory ∧
          ¬ Settled before event ∧ ∀ other, Settled after other ↔ Settled before other ∨ other = event := by
      refine ⟨(request, result), performed, ?_, ?_⟩
      · simp [Settled, now, running]
      · intro other
        rw [settled running, answer, Option.some.injEq, eq_comm (a := result), Prod.ext_iff]
    cases move with
    | found documentId asked =>
      exact .inr (settles _ rfl rfl (by simp only [perform, asked]; exact if_pos rfl))
    | refused | conflicted | inserted | missing | selected => exact .inl (quiet rfl rfl rfl)
    | broken phase running => exact .inl (quiet rfl running rfl)
    | known row =>
      obtain ⟨member, document, asked, digest⟩ := accounts
      refine .inr (settles _ rfl rfl ?_)
      simp only [perform, asked, put_known valid.digests valid.identifiers member digest]
      exact if_pos rfl
    | committed row next answer =>
      obtain ⟨own, document, asked, rfl⟩ := accounts
      refine .inr (settles (.stored ((rowOf document (uuid4 request)).toStored false)) rfl ?_ ?_)
      · rcases answer with rfl | rfl <;> rfl
      · have performed : before.shared.memory.put document (uuid4 request) = some _ :=
          put_commit request (valid.digests.written _ own) (valid.identifiers.written _ own)
        simp only [perform, asked, performed]
        exact if_pos rfl

/-- In every run, whatever the interleaving of the statements and the breaks of connections,
the calls that settle in a stretch of it answer what the in-memory repository answers when it
performs them one after the other. -/
theorem calls_linearized (requests : ι → Call) (uuid4 : ι → Uuid) (labels more : List (ι × Connection))
    (system later : System ι) (reached : run (step requests uuid4) (System.init ι) labels = some system)
    (continued : run (step requests uuid4) system more = some later) :
    ∃ events, run (perform requests uuid4) system.shared.memory events = some later.shared.memory ∧
      events.Nodup ∧ (∀ event ∈ events, ¬ Settled system event) ∧
      ∀ event, Settled later event ↔ Settled system event ∨ event ∈ events :=
  (linearizes requests uuid4).run (Valid.of_run reached) continued

/-- Two uploads of the same bytes. -/
def raceDocument : NewDocument where
  sha256 := text "e3b0"
  originalFilename := text "invoice.pdf"
  mimeType := .pdf
  sizeBytes := 20
  storagePath := text "e3/e3b0.bin"

def raceCalls : Bool → Call := fun _ => .put raceDocument

def raceIds (second : Bool) : Uuid := BitVec.ofNat 128 second.toNat

/-- The answer to the first COMMIT is lost, and the second INSERT conflicts. -/
def raceLabels : List (Bool × Connection) :=
  [(false, .works), (false, .silent), (true, .works), (true, .works), (true, .works)]

theorem calls_linearized_race :
    ∃ later, run (step raceCalls raceIds) (System.init Bool) raceLabels = some later ∧
      ∃ events, run (perform raceCalls raceIds) (System.init Bool).shared.memory events =
          some later.shared.memory ∧
        (false, .stored ((rowOf raceDocument 0).toStored false)) ∈ events ∧
        (true, .stored ((rowOf raceDocument 0).toStored true)) ∈ events := by
  have answers : (run (step raceCalls raceIds) (System.init Bool) raceLabels).map
      (fun system => (system.phase false, system.phase true)) =
        some (.unanswered (.stored ((rowOf raceDocument 0).toStored false)),
          .returned (.stored ((rowOf raceDocument 0).toStored true))) := rfl
  obtain ⟨later, reached, phases⟩ := Option.map_eq_some_iff.mp answers
  obtain ⟨first, second⟩ := Prod.mk.inj phases
  obtain ⟨events, performed, -, -, settled⟩ :=
    calls_linearized raceCalls raceIds [] raceLabels (System.init Bool) later rfl reached
  have fresh (event : Bool × Result) : ¬ Settled (System.init Bool) event := by
    simp [Settled, System.init, Phase.settled]
  refine ⟨later, reached, events, performed, ?_, ?_⟩
  · exact ((settled (false, _)).mp (congrArg Phase.settled first)).resolve_left (fresh _)
  · exact ((settled (true, _)).mp (congrArg Phase.settled second)).resolve_left (fresh _)

theorem step_works {requests : ι → Call} {uuid4 : ι → Uuid} {system : System ι} {request : ι}
    {phase : Phase} {db : Database ι}
    (moves : act requests uuid4 request .works (system.phase request) system.shared = some (phase, db)) :
    ∃ after, step requests uuid4 system (request, .works) = some after ∧ after.shared = db :=
  ⟨_, (Pool.step_iff _).mpr ⟨phase, db, moves, rfl⟩, rfl⟩

/-- The call has more statements to make. -/
def Unfinished (system : System ι) (request : ι) : Prop :=
  system.phase request = .started ∨ (∃ document, system.phase request = .conflicted document) ∨
    (∃ row, system.phase request = .inserted row) ∨ ∃ row, system.phase request = .selected row

/-- In every run no call ends in the `RuntimeError` of `put`, and a call that has statements
to make can make its next one, unless its INSERT waits for a transaction that can commit. -/
theorem calls_progress (requests : ι → Call) (uuid4 : ι → Uuid) (labels : List (ι × Connection))
    (system : System ι) (reached : run (step requests uuid4) (System.init ι) labels = some system)
    (request : ι) :
    system.phase request ≠ .failed noRow ∧
    (Unfinished system request →
      (∃ after, step requests uuid4 system (request, .works) = some after) ∨
      ∃ document other row after, requests request = .put document ∧ system.phase other = .inserted row ∧
        (row.sha256 = document.sha256 ∨ row.id = uuid4 request) ∧
        step requests uuid4 system (other, .works) = some after ∧ row ∈ after.shared.rows) := by
  have valid := Valid.of_run reached
  have accounts := valid.phase request
  have enabled {phase : Phase} {db : Database ι}
      (moves : act requests uuid4 request .works (system.phase request) system.shared = some (phase, db)) :
      ∃ after, step requests uuid4 system (request, .works) = some after := by
    obtain ⟨after, taken, -⟩ := step_works moves
    exact ⟨after, taken⟩
  constructor
  · intro failed
    rw [failed] at accounts
    exact accounts rfl
  rintro (phase | ⟨document, phase⟩ | ⟨row, phase⟩ | ⟨row, phase⟩)
  · cases asked : requests request with
    | get documentId => exact .inl (enabled (by simp only [phase, act, asked]; rfl))
    | put document =>
      rcases system.shared.insert_cases document (uuid4 request) with ⟨failure, inserted, -⟩ |
        ⟨inserted, -⟩ | ⟨-, ⟨other, row⟩, member, same⟩ | ⟨inserted, -⟩
      · exact .inl (enabled (by simp only [phase, act, asked, inserted]; rfl))
      · exact .inl (enabled (by simp only [phase, act, asked, inserted]; rfl))
      · have holder := valid.written _ member
        have commits : act requests uuid4 other .works (system.phase other) system.shared = some _ :=
          congrArg (act requests uuid4 other .works · system.shared) holder
        obtain ⟨after, taken, table⟩ := step_works commits
        refine .inr ⟨document, other, row, after, rfl, holder, same, taken, ?_⟩
        rw [table]
        exact List.mem_append_right _ (List.mem_singleton.mpr rfl)
      · exact .inl (enabled (by simp only [phase, act, asked, inserted]; rfl))
  · rw [phase] at accounts
    obtain ⟨-, row, member, same⟩ := accounts
    cases found : system.shared.rows.find? (·.sha256 = document.sha256) with
    | none => exact absurd (decide_eq_true same) (List.find?_eq_none.mp found row member)
    | some row => exact .inl (enabled (by simp only [phase, act, found]; rfl))
  · exact .inl (enabled (by rw [phase]; rfl))
  · exact .inl (enabled (by rw [phase]; rfl))

/-- The second INSERT waits for the first transaction, which can commit. -/
theorem calls_progress_race :
    ∃ system, run (step raceCalls raceIds) (System.init Bool) [(false, .works)] = some system ∧
      step raceCalls raceIds system (true, .works) = none ∧
      ∃ row after, system.phase false = .inserted row ∧
        step raceCalls raceIds system (false, .works) = some after ∧ row ∈ after.shared.rows := by
  have answers : (run (step raceCalls raceIds) (System.init Bool) [(false, .works)]).map
      (fun system => (system.phase true, (step raceCalls raceIds system (true, .works)).isSome)) =
        some (.started, false) := rfl
  obtain ⟨system, reached, facts⟩ := Option.map_eq_some_iff.mp answers
  obtain ⟨started, stuck⟩ := Prod.mk.inj facts
  have waits : step raceCalls raceIds system (true, .works) = none := by
    simpa only [Option.isSome_eq_false_iff, Option.isNone_iff_eq_none] using stuck
  refine ⟨system, reached, waits, ?_⟩
  rcases (calls_progress raceCalls raceIds [(false, .works)] system reached true).2 (.inl started) with
    ⟨after, taken⟩ | ⟨_, other, row, after, -, holder, -, taken, committed⟩
  · cases waits.symm.trans taken
  · cases other with
    | false => exact ⟨row, after, holder, taken, committed⟩
    | true => cases started.symm.trans holder

end N8nSystems.Documents.PostgresDocuments
