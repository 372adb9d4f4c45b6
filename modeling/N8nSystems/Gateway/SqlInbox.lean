import N8nSystems.Gateway.InboxInvariant

/-! The SQL inbox of the ingress (`ingress/store.go`) over any database that
implements its insert, and that a server cannot tell it from the in-memory one. -/

namespace N8nSystems.Gateway

open Lib Lib.Go

def insertInboxSQL : String := "
INSERT INTO p03.inbox_events (
    source,
    external_event_id,
    event_type,
    source_ts,
    headers,
    payload,
    status
) VALUES ($1, $2, $3, $4, $5::jsonb, $6::jsonb, 'pending')
ON CONFLICT (source, external_event_id) DO NOTHING
"

/-- The dynamic types of the statement's arguments: `string` and `*time.Time`. -/
inductive Arg where
  | text (value : Bytes)
  | time (value : Option Time)
  deriving DecidableEq

/-- The type assertion `arg.(string)`. -/
def Arg.string? : Arg → Option Bytes
  | .text value => some value
  | .time _ => none

/-- `Execer.Exec`: the rows affected, `none` for an error, and the database after. -/
abbrev Exec (DB : Type u) := DB → String → List Arg → Option Int × DB

/-- The key and type columns of an inbox row, as strings. -/
structure InboxRow where
  source : Bytes
  externalEventID : Bytes
  eventType : Bytes
  deriving DecidableEq

def InboxEvent.row (ev : InboxEvent) : InboxRow := ⟨ev.source.name, ev.externalEventID, ev.eventType⟩

def MemoryStore.inboxRows (store : MemoryStore) : List InboxRow := store.events.map InboxEvent.row

/-- The payload argument: an empty payload is sent as an empty object. -/
def payloadText (payload : Bytes) : Bytes :=
  if payload.isEmpty then lit "\x7b\x7d" else payload

section SQLStore

variable {DB : Type u} (marshal : List (Bytes × Bytes) → Option Bytes) (exec : Exec DB)

/-- The positional arguments of the insert. -/
def insertArgs (ev : InboxEvent) (headers : Bytes) : List Arg :=
  [.text ev.source.name, .text ev.externalEventID, .text ev.eventType, .time ev.sourceTS,
    .text headers, .text (payloadText ev.payload)]

/-- `SQLStore.Insert`. `marshal` is `json.Marshal` of the header map. -/
def sqlInsert (db : DB) (ev : InboxEvent) : Option Bool × DB :=
  match marshal ev.headers with
  | none => (none, db)
  | some headers =>
    let (n, next) := exec db insertInboxSQL (insertArgs ev headers)
    (n.map fun count => decide (0 < count), next)

end SQLStore

/-- The row holds the unique key of the statement's conflict target. -/
def InboxRow.Conflicts (row : InboxRow) (ev : InboxEvent) : Prop :=
  row.source = ev.source.name ∧ row.externalEventID = ev.externalEventID

/-- A database whose execution of the inbox insert is `ON CONFLICT (source,
external_event_id) DO NOTHING`: a conflicting row leaves the table as it is and
counts zero, any other insert adds its row and counts one. -/
structure DoNothing {DB : Type u} (exec : Exec DB) where
  rows : DB → List InboxRow
  /-- The states the statements of the store lead through. -/
  Valid : DB → Prop
  conflict : ∀ db ev headers, Valid db → (∃ row ∈ rows db, row.Conflicts ev) →
    ∃ next, exec db insertInboxSQL (insertArgs ev headers) = (some 0, next) ∧ Valid next ∧
      ∀ row, row ∈ rows next ↔ row ∈ rows db
  fresh : ∀ db ev headers, Valid db → (¬ ∃ row ∈ rows db, row.Conflicts ev) →
    ∃ next, exec db insertInboxSQL (insertArgs ev headers) = (some 1, next) ∧ Valid next ∧
      ∀ row, row ∈ rows next ↔ row ∈ rows db ∨ row = ev.row

/-- The in-memory store and the database hold the same rows. -/
structure SameInbox {DB : Type u} {exec : Exec DB} (table : DoNothing exec) (store : MemoryStore)
    (db : DB) : Prop where
  valid : table.Valid db
  same : ∀ row, row ∈ store.inboxRows ↔ row ∈ table.rows db

theorem MemoryStore.conflicts_iff (store : MemoryStore) (ev : InboxEvent) :
    (∃ row ∈ store.inboxRows, row.Conflicts ev) ↔ ∃ stored ∈ store.events, stored.key = ev.key := by
  constructor
  · intro found
    obtain ⟨row, member, source, id⟩ := found
    obtain ⟨stored, present, rfl⟩ := List.mem_map.mp member
    exact ⟨stored, present, Prod.ext (Source.name_injective source) id⟩
  · intro found
    obtain ⟨stored, present, same⟩ := found
    refine ⟨stored.row, List.mem_map_of_mem present, ?_, ?_⟩
    · exact congrArg (fun key => Source.name key.1) same
    · exact congrArg Prod.snd same

section Simulation

variable {DB : Type u} {exec : Exec DB} {marshal : List (Bytes × Bytes) → Option Bytes}

/-- `Store.Insert` of the in-memory store, which reports no error. -/
def memoryInsert (store : MemoryStore) (ev : InboxEvent) : Option Bool × MemoryStore :=
  (some (store.insert ev).1, (store.insert ev).2)

/-- One insert into both stores reports the same and keeps the rows the same. -/
theorem SameInbox.insert {table : DoNothing exec} (marshals : ∀ headers, (marshal headers).isSome)
    (agree : SameInbox table store db) (ev : InboxEvent) :
    (memoryInsert store ev).1 = (sqlInsert marshal exec db ev).1 ∧
      SameInbox table (memoryInsert store ev).2 (sqlInsert marshal exec db ev).2 := by
  obtain ⟨headers, marshalled⟩ := Option.isSome_iff_exists.mp (marshals ev.headers)
  have conflicts : (∃ row ∈ table.rows db, row.Conflicts ev) ↔
      ∃ stored ∈ store.events, stored.key = ev.key := by
    rw [← store.conflicts_iff ev]
    simp only [agree.same]
  rcases store.insert_cases ev with ⟨kept, known⟩ | ⟨inserted, grown, unknown⟩
  · obtain ⟨next, executed, valid, rows⟩ :=
      table.conflict db ev headers agree.valid (conflicts.mpr known)
    simp only [memoryInsert, kept, sqlInsert, marshalled, executed]
    exact ⟨rfl, valid, fun row => (agree.same row).trans (rows row).symm⟩
  · have free : ¬ ∃ row ∈ table.rows db, row.Conflicts ev := by
      intro found
      obtain ⟨stored, member, same⟩ := conflicts.mp found
      exact unknown stored member same
    obtain ⟨next, executed, valid, rows⟩ := table.fresh db ev headers agree.valid free
    simp only [memoryInsert, inserted, sqlInsert, marshalled, executed]
    refine ⟨rfl, valid, ?_⟩
    intro row
    rw [rows row, ← agree.same row]
    simp [MemoryStore.inboxRows, grown]

theorem SameInbox.handleHook {table : DoNothing exec} (server : Server)
    (marshals : ∀ headers, (marshal headers).isSome) (agree : SameInbox table store db)
    (request : Request) :
    (server.handleHook memoryInsert request store).1 =
        (server.handleHook (sqlInsert marshal exec) request db).1 ∧
      SameInbox table (server.handleHook memoryInsert request store).2
        (server.handleHook (sqlInsert marshal exec) request db).2 := by
  unfold Server.handleHook
  cases server.prepare request with
  | error answer => exact ⟨rfl, agree⟩
  | ok ev =>
    have both := agree.insert marshals ev
    exact ⟨congrArg answerInsert both.1, both.2⟩

end Simulation

/-- `FakeSQLStore`: the rows of its map, the last statement and an injected error. -/
structure FakeSQLStore where
  rows : List (Bytes × InboxRow)
  lastSQL : String
  failWith : Bool

def FakeSQLStore.new : FakeSQLStore := ⟨[], "", false⟩

/-- `FakeSQLStore.Exec`. The source indexes the first two arguments unchecked;
the store passes six. -/
def FakeSQLStore.exec : Exec FakeSQLStore := fun f sql args =>
  let f := { f with lastSQL := sql }
  if f.failWith then (none, f)
  else
    match args with
    | first :: second :: rest =>
      let source := first.string?.getD []
      let id := second.string?.getD []
      let key := inboxKey source id
      if key ∈ f.rows.map Prod.fst then (some 0, f)
      else
        let eventType := (rest.head?.bind Arg.string?).getD []
        (some 1, { f with rows := f.rows ++ [(key, ⟨source, id, eventType⟩)] })
    | _ => (none, f)

/-- No injected error, and every row is stored under its own key, with a source
name that ends where the key's separator stands. -/
structure FakeSQLStore.Valid (f : FakeSQLStore) : Prop where
  works : f.failWith = false
  keyed : ∀ row ∈ f.rows, row.1 = inboxKey row.2.source row.2.externalEventID
  separated : ∀ row ∈ f.rows, (0 : UInt8) ∉ row.2.source

theorem FakeSQLStore.Valid.known_iff {f : FakeSQLStore} (valid : f.Valid) (ev : InboxEvent) :
    inboxKey ev.source.name ev.externalEventID ∈ f.rows.map Prod.fst ↔
      ∃ row ∈ f.rows.map Prod.snd, row.Conflicts ev := by
  constructor
  · intro known
    obtain ⟨entry, member, same⟩ := List.mem_map.mp known
    rw [valid.keyed entry member] at same
    obtain ⟨source, id⟩ :=
      frame_injective (valid.separated entry member) ev.source.nul_not_mem same
    exact ⟨entry.2, List.mem_map_of_mem member, source, id⟩
  · intro found
    obtain ⟨row, member, source, id⟩ := found
    obtain ⟨entry, present, rfl⟩ := List.mem_map.mp member
    refine List.mem_map.mpr ⟨entry, present, ?_⟩
    rw [valid.keyed entry present, source, id]

/-- The test double executes the insert as `ON CONFLICT DO NOTHING`. -/
def FakeSQLStore.doNothing : DoNothing FakeSQLStore.exec where
  rows := fun f => f.rows.map Prod.snd
  Valid := FakeSQLStore.Valid
  conflict := by
    intro f ev headers valid found
    have known := (valid.known_iff ev).mpr found
    refine ⟨{ f with lastSQL := insertInboxSQL }, ?_, ⟨valid.works, valid.keyed, valid.separated⟩,
      fun row => Iff.rfl⟩
    simp only [exec, insertArgs, valid.works, Arg.string?, Option.getD_some, known, ↓reduceIte,
      Bool.false_eq_true]
  fresh := by
    intro f ev headers valid free
    have unknown : ¬ inboxKey ev.source.name ev.externalEventID ∈ f.rows.map Prod.fst :=
      fun known => free ((valid.known_iff ev).mp known)
    let entry : Bytes × InboxRow := (inboxKey ev.source.name ev.externalEventID, ev.row)
    refine ⟨{ f with rows := f.rows ++ [entry], lastSQL := insertInboxSQL }, ?_,
      ⟨valid.works, ?_, ?_⟩, ?_⟩
    · simp only [exec, insertArgs, valid.works, Arg.string?, Option.getD_some, unknown, ↓reduceIte,
        Bool.false_eq_true, List.head?_cons, Option.bind_some]
      rfl
    · intro row member
      rcases List.mem_append.mp member with old | new
      · exact valid.keyed row old
      · rw [List.mem_singleton.mp new]
        rfl
    · intro row member
      rcases List.mem_append.mp member with old | new
      · exact valid.separated row old
      · rw [List.mem_singleton.mp new]
        exact ev.source.nul_not_mem
    · intro row
      simp [entry]

/-- A P03 server answering requests one after the other. -/
def Server.serve {Store : Type u} (server : Server)
    (insert : Store → InboxEvent → Option Bool × Store) (store : Store) (requests : List Request) :
    List (Answer × Store) :=
  trace (fun store request => server.handleHook insert request store) store requests

/-- The two servers gave the same status and JSON, and hold the same rows. -/
def SameAnswer {DB : Type u} {exec : Exec DB} (table : DoNothing exec)
    (memory : Answer × MemoryStore) (sql : Answer × DB) : Prop :=
  memory.1.status = sql.1.status ∧ memory.1.json = sql.1.json ∧
    ∀ row, row ∈ memory.2.inboxRows ↔ row ∈ table.rows sql.2

theorem SameInbox.serve {DB : Type u} {exec : Exec DB} {table : DoNothing exec}
    {marshal : List (Bytes × Bytes) → Option Bytes} (server : Server)
    (marshals : ∀ headers, (marshal headers).isSome) {db : DB} (agree : SameInbox table store db)
    (requests : List Request) :
    List.Forall₂ (SameAnswer table) (server.serve memoryInsert store requests)
      (server.serve (sqlInsert marshal exec) db requests) := by
  refine (trace_simulates (SameInbox table) ?_ agree requests).imp ?_
  · intro store db request both
    exact both.handleHook server marshals request
  · intro memory sql both
    exact ⟨congrArg Answer.status both.1, congrArg Answer.json both.1, both.2.same⟩

/-- Over every list of requests, a server over the in-memory inbox and one over
the SQL inbox give the same answers and hold the same rows after each request:
on any database that executes the insert with `ON CONFLICT DO NOTHING` and
starts with the same rows, and on the test double started empty. -/
theorem inboxes_agree (server : Server) (marshal : List (Bytes × Bytes) → Option Bytes)
    (marshals : ∀ headers, (marshal headers).isSome) (requests : List Request) :
    (∀ {DB : Type u} {exec : Exec DB} (table : DoNothing exec) (store : MemoryStore) (db : DB),
      table.Valid db → (∀ row, row ∈ store.inboxRows ↔ row ∈ table.rows db) →
      List.Forall₂ (SameAnswer table) (server.serve memoryInsert store requests)
        (server.serve (sqlInsert marshal exec) db requests)) ∧
    List.Forall₂ (SameAnswer FakeSQLStore.doNothing)
      (server.serve memoryInsert MemoryStore.empty requests)
      (server.serve (sqlInsert marshal FakeSQLStore.exec) FakeSQLStore.new requests) := by
  constructor
  · intro DB exec table store db valid same
    exact SameInbox.serve server marshals ⟨valid, same⟩ requests
  · have started : SameInbox FakeSQLStore.doNothing MemoryStore.empty FakeSQLStore.new :=
      ⟨⟨rfl, by simp [FakeSQLStore.new], by simp [FakeSQLStore.new]⟩, fun row => Iff.rfl⟩
    exact started.serve server marshals requests

/-- `json.Marshal` of headers without characters that JSON escapes. -/
def marshalPlain (headers : List (Bytes × Bytes)) : Option Bytes :=
  let quoted := fun text : Bytes => 34 :: text ++ [34]
  let fields := headers.map fun field => quoted field.1 ++ 58 :: quoted field.2
  some (123 :: [44].intercalate fields ++ [125])

theorem inboxes_agree_storm :
    List.Forall₂ (SameAnswer FakeSQLStore.doNothing)
      (stormServer.serve memoryInsert MemoryStore.empty [stormRequest, stormRequest])
      (stormServer.serve (sqlInsert marshalPlain FakeSQLStore.exec) FakeSQLStore.new
        [stormRequest, stormRequest]) ∧
    (stormServer.serve (sqlInsert marshalPlain FakeSQLStore.exec) FakeSQLStore.new
      [stormRequest, stormRequest]).map Prod.fst = [.new, .duplicate] := by
  refine ⟨(inboxes_agree.{0} stormServer marshalPlain (fun _ => rfl) [stormRequest, stormRequest]).2, ?_⟩
  simp only [Server.serve, trace, Server.handleHook, storm_prepared]
  rfl

end N8nSystems.Gateway
