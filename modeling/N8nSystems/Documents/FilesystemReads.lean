import N8nSystems.Documents.FilesystemInvariant

namespace N8nSystems.Documents.Filesystem

open Lib Lib.Py

universe u

variable {ι : Type u} {storage : Storage} {calls : ι → Call}

/-- What `hexdigest` returns for SHA-256. -/
structure HexDigest (digest : Text) : Prop where
  length : digest.length = 64
  hex : ∀ c ∈ digest, (48 ≤ c ∧ c ≤ 57) ∨ (97 ≤ c ∧ c ≤ 102)

/-- A path component that `resolve` keeps as it is. -/
structure PlainPart (part : Text) : Prop where
  nonempty : part ≠ []
  plain : ∀ c ∈ part, c ≠ 46 ∧ c ≠ 47

theorem resolvePart_plain {part : Text} (plain : PlainPart part) (path : Path) :
    resolvePart path part = path ++ [part] := by
  have notDot : part ≠ text "." := by
    rintro rfl
    exact (plain.plain 46 (by decide)).1 rfl
  have notDots : part ≠ text ".." := by
    rintro rfl
    exact (plain.plain 46 (by decide)).1 rfl
  simp [resolvePart, plain.nonempty, notDot, notDots]

theorem foldl_resolvePart {parts : Path} (plain : ∀ part ∈ parts, PlainPart part) (start : Path) :
    parts.foldl resolvePart start = start ++ parts := by
  induction parts generalizing start with
  | nil => simp
  | cons part rest ih =>
    rw [List.foldl_cons, resolvePart_plain (plain part List.mem_cons_self),
      ih fun other member => plain other (List.mem_cons_of_mem part member)]
    simp

theorem HexDigest.plain {digest : Text} (hex : HexDigest digest) :
    ∀ part ∈ relativePath digest, PlainPart part := by
  have long := hex.length
  have chars (c : Nat) (member : c ∈ digest) : c ≠ 46 ∧ c ≠ 47 := by
    have := hex.hex c member
    omega
  intro part member
  simp only [relativePath, List.mem_cons, List.not_mem_nil, or_false] at member
  rcases member with rfl | rfl | rfl
  · refine ⟨?_, fun c inside => chars c (List.mem_of_mem_take inside)⟩
    simp only [ne_eq, List.take_eq_nil_iff]
    rintro (absurd | rfl)
    · cases absurd
    · cases long
  · refine ⟨?_, fun c inside => chars c (List.mem_of_mem_drop (List.mem_of_mem_take inside))⟩
    simp only [ne_eq, List.take_eq_nil_iff, List.drop_eq_nil_iff]
    omega
  · refine ⟨?_, chars⟩
    rintro rfl
    cases long

/-- The path a put returns leads a get to the same file. -/
theorem Storage.locate_relativePath {digest : Text} (hex : HexDigest digest) :
    storage.locate (asPosix (relativePath digest)) = some (storage.abs digest) := by
  have plain := hex.plain
  have parts : (asPosix (relativePath digest)).splitOn 47 = relativePath digest := by
    apply List.splitOn_intercalate
    · intro part member inside
      exact ((plain part member).plain 47 inside).2 rfl
    · simp [relativePath]
  have relative : (asPosix (relativePath digest)).head? ≠ some 47 := by
    intro slash
    have first : (asPosix (relativePath digest)).head? = digest.head? := by
      cases digest with
      | nil => cases hex.length
      | cons c rest => rfl
    rw [first] at slash
    have member := List.mem_of_mem_head? slash
    have := hex.hex 47 member
    omega
  simp only [Storage.locate, if_neg relative, parts, foldl_resolvePart plain]
  rw [if_pos (by simp)]
  rfl

/-- The phases of a get of a whole file. -/
def Fetching (path : Path) (data : Bytes) : Phase → Prop
  | .called => True
  | .reading source content => source = path ∧ content <+: data
  | .finished content => content = some data
  | .failed => True
  | _ => False

theorem Move.fetching {files : Files} {path : Path} {data : Bytes} {request : ι}
    (move : Move storage calls request files choice phase next final)
    (asked : calls request = .get storagePath)
    (located : storage.locate storagePath = some path) (content : files path = some data)
    (fetching : Fetching path data phase) : Fetching path data next := by
  cases move with
  | cut => trivial
  | found own => cases asked.symm.trans own
  | absent own => cases asked.symm.trans own
  | opened own => cases asked.symm.trans own
  | wrote own => cases asked.symm.trans own
  | closed own => cases asked.symm.trans own
  | missing own nowhere =>
    cases asked.symm.trans own
    cases content.symm.trans (nowhere path located)
  | began own source also =>
    cases asked.symm.trans own
    cases located.symm.trans also
    exact ⟨rfl, List.nil_prefix⟩
  | read own source got chunk piece =>
    obtain ⟨rfl, rest, rfl⟩ := fetching
    refine ⟨rfl, ?_⟩
    rw [content, Option.getD_some, List.drop_left] at piece
    rw [piece, List.prefix_append_right_inj]
    exact List.take_prefix _ _
  | ended own source got complete =>
    obtain ⟨rfl, reads⟩ := fetching
    rw [content, Option.getD_some] at complete
    exact congrArg some (reads.eq_of_length_le complete)

section Run

variable [DecidableEq ι]

/-- A put returns the relative path of its digest. -/
theorem returned_path {labels : List (ι × Choice)} {system : System ι} {request : ι} {data : Bytes}
    (reached : run (storage.step calls) (System.init ι) labels = some system)
    (own : calls request = .put data) (phase : system.phase request = .returned storagePath) :
    storagePath = asPosix (relativePath (storage.sha256 data)) := by
  refine run_invariant (fun pool : System ι => ∀ path, pool.phase request = .returned path →
    path = asPosix (relativePath (storage.sha256 data))) ?_ ?_ reached storagePath phase
  · intro path absurd
    cases absurd
  · intro before label after holds taken path returned
    by_cases moved : request = label.1
    · subst moved
      have move := Storage.step_move taken
      rw [returned] at move
      generalize before.phase label.1 = current at move
      generalize label.2 = choice at move
      generalize after.shared = files at move
      cases move with
      | found also =>
        cases own.symm.trans also
        rfl
      | closed also =>
        cases own.symm.trans also
        rfl
    · rw [Pool.step_other _ taken moved] at returned
      exact holds path returned

/-- A get of a whole file that runs now returns its bytes. -/
theorem fetch_now {system : System ι} {reader : ι} {path : Path} {data : Bytes}
    (asked : calls reader = .get storagePath)
    (located : storage.locate storagePath = some path) (content : system.shared path = some data)
    (idle : system.phase reader = .called) :
    ∃ more later, run (storage.step calls) system more = some later ∧
      later.phase reader = .finished (some data) := by
  by_cases empty : data = []
  · subst empty
    refine ⟨[(reader, .piece 0), (reader, .piece 0)], ?_⟩
    simp [run, Storage.step, Pool.step, Storage.act, asked, idle, located, content]
  · refine ⟨[(reader, .piece 0), (reader, .piece data.length), (reader, .piece 0)], ?_⟩
    have whole : data.take (data.length + 1) = data := List.take_of_length_le (by omega)
    simp [run, Storage.step, Pool.step, Storage.act, asked, idle, located, content, whole, empty]

/-- In every run in which a put looks for its file only while no other put of the
same bytes is unfinished, and no put is cut off inside its write: once a put has
returned its path, a get of this path returns the bytes that were put, and nothing
else, whatever steps follow. -/
theorem stored_bytes_whole (storage : Storage) (calls : ι → Call)
    (hexdigest : ∀ data, HexDigest (storage.sha256 data))
    (collisionFree : CollisionFree storage calls) (labels : List (ι × Choice))
    (system : System ι)
    (careful : Along (storage.step calls) (Careful calls) (System.init ι) labels)
    (reached : run (storage.step calls) (System.init ι) labels = some system)
    (request reader : ι) (data : Bytes) (storagePath : Text) (own : calls request = .put data)
    (phase : system.phase request = .returned storagePath)
    (asked : calls reader = .get storagePath) (idle : system.phase reader = .called) :
    (∃ more later, run (storage.step calls) system more = some later ∧
      later.phase reader = .finished (some data)) ∧
    ∀ more later content, run (storage.step calls) system more = some later →
      later.phase reader = .finished content → content = some data := by
  obtain rfl := returned_path reached own phase
  have located := storage.locate_relativePath (hexdigest data)
  have whole := whole_of_returned collisionFree careful reached own phase
  refine ⟨fetch_now asked located whole.content idle, ?_⟩
  intro more later content continued done
  have both := run_invariant (fun pool : System ι => Whole storage calls data pool ∧
      Fetching (storage.abs (storage.sha256 data)) data (pool.phase reader))
    ⟨whole, idle ▸ trivial⟩ ?_ continued
  · have fetching := both.2
    rw [done] at fetching
    exact fetching
  rintro before label after ⟨kept, fetching⟩ taken
  refine ⟨kept.step collisionFree own taken, ?_⟩
  by_cases moved : reader = label.1
  · subst moved
    exact (Storage.step_move taken).fetching asked located kept.content fetching
  · rw [Pool.step_other _ taken moved]
    exact fetching

end Run

/-- Four bytes with their SHA-256 digest, put twice and then read. -/
def scanDigest : Text := text "315d429b7714cedb6ad04ac31240145257692630457f3c88253c5beceac76027"

theorem scanDigest_hex : HexDigest scanDigest := ⟨by decide, by decide⟩

def scanStorage : Storage where
  root := [text "data", text "documents"]
  sha256 := fun _ => scanDigest

def scanData : Bytes := [0x25, 0x50, 0x44, 0x46]

def scanPath : Text := asPosix (relativePath scanDigest)

def scanCalls : Fin 3 → Call
  | 0 => .put scanData
  | 1 => .put scanData
  | 2 => .get scanPath

theorem scanCalls_put {request : Fin 3} (own : scanCalls request = .put data) :
    data = scanData := by
  match request with
  | 0 =>
    cases own
    rfl
  | 1 =>
    cases own
    rfl
  | 2 => cases own

/-- Put 0 is cut off after one byte; put 1 then finds the file and returns its path,
and the get reads the one byte. -/
theorem torn_file :
    ∃ system later, run (scanStorage.step scanCalls) (System.init (Fin 3))
        [(0, .piece 0), (0, .piece 0), (0, .piece 0), (0, .cut), (1, .piece 0)] = some system ∧
      system.phase 1 = .returned scanPath ∧ system.phase 2 = .called ∧
      run (scanStorage.step scanCalls) system
        [(2, .piece 7), (2, .piece 7), (2, .piece 7)] = some later ∧
      later.phase 2 = .finished (some [0x25]) := by
  have first : (run (scanStorage.step scanCalls) (System.init (Fin 3))
      [(0, .piece 0), (0, .piece 0), (0, .piece 0), (0, .cut), (1, .piece 0)]).map
        (fun system => (system.phase 1, system.phase 2)) =
        some (.returned scanPath, .called) := rfl
  obtain ⟨system, reached, facts⟩ := Option.map_eq_some_iff.mp first
  obtain ⟨returned, idle⟩ := Prod.mk.inj facts
  have second : ((run (scanStorage.step scanCalls) (System.init (Fin 3))
      [(0, .piece 0), (0, .piece 0), (0, .piece 0), (0, .cut), (1, .piece 0)]).bind
        fun system => run (scanStorage.step scanCalls) system
          [(2, .piece 7), (2, .piece 7), (2, .piece 7)]).map (fun later => later.phase 2) =
        some (.finished (some [0x25])) := rfl
  rw [reached] at second
  obtain ⟨later, continued, done⟩ := Option.map_eq_some_iff.mp second
  exact ⟨system, later, reached, returned, idle, continued, done⟩

/-- Put 0 writes its file in two pieces before put 1 looks for it. -/
theorem stored_bytes_whole_scan :
    ∃ system, run (scanStorage.step scanCalls) (System.init (Fin 3))
        [(0, .piece 0), (0, .piece 0), (0, .piece 0), (0, .piece 7), (1, .piece 0)] =
          some system ∧
      system.phase 1 = .returned scanPath ∧
      ∀ more later content, run (scanStorage.step scanCalls) system more = some later →
        later.phase 2 = .finished content → content = some scanData := by
  have collisionFree : CollisionFree scanStorage scanCalls :=
    fun _ _ _ _ own also _ => (scanCalls_put own).trans (scanCalls_put also).symm
  have careful : Along (scanStorage.step scanCalls) (Careful scanCalls) (System.init (Fin 3))
      [(0, .piece 0), (0, .piece 0), (0, .piece 0), (0, .piece 7), (1, .piece 0)] := by
    refine .cons ?_ rfl (.cons trivial rfl (.cons trivial rfl (.cons trivial rfl
      (.cons ?_ rfl trivial))))
    · intro other own
      exact id
    · intro other own
      match other with
      | 0 => exact Nat.lt_irrefl 4
      | 1 => exact id
      | 2 => cases own
  have facts : (run (scanStorage.step scanCalls) (System.init (Fin 3))
      [(0, .piece 0), (0, .piece 0), (0, .piece 0), (0, .piece 7), (1, .piece 0)]).map
        (fun system => (system.phase 1, system.phase 2)) =
        some (.returned scanPath, .called) := rfl
  obtain ⟨system, reached, phases⟩ := Option.map_eq_some_iff.mp facts
  obtain ⟨returned, idle⟩ := Prod.mk.inj phases
  exact ⟨system, reached, returned, (stored_bytes_whole scanStorage scanCalls
    (fun _ => scanDigest_hex) collisionFree _ system careful reached 1 2 scanData scanPath rfl returned rfl idle).2⟩

end N8nSystems.Documents.Filesystem
