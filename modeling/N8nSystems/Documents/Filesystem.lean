import N8nSystems.Lib.Pool
import N8nSystems.Lib.PyText

/-! `FilesystemStorage`: a put checks for the file, opens it and writes it piece by
piece; a get reads piece by piece. Calls of any number of requests interleave, and a
call may be cut off at any point. -/

namespace N8nSystems.Documents.Filesystem

open Lib Lib.Py

universe u

/-- An absolute path, by components. -/
abbrev Path := List Text

/-- The storage root, resolved, and `hashlib.sha256(data).hexdigest()`. -/
structure Storage where
  root : Path
  sha256 : Bytes → Text

/-- `digest[:2] / digest[2:4] / digest`, relative to the root. -/
def relativePath (digest : Text) : Path := [digest.take 2, (digest.drop 2).take 2, digest]

def Storage.abs (storage : Storage) (digest : Text) : Path := storage.root ++ relativePath digest

def asPosix (path : Path) : Text := [47].intercalate path

/-- One component of `Path.resolve`, without symbolic links. -/
def resolvePart (path : Path) (part : Text) : Path :=
  if part = [] ∨ part = text "." then path
  else if part = text ".." then path.dropLast
  else path ++ [part]

/-- The file that `get` reads; `none` when the path leaves the root. -/
def Storage.locate (storage : Storage) (storagePath : Text) : Option Path :=
  let start := if storagePath.head? = some 47 then [] else storage.root
  let path := (storagePath.splitOn 47).foldl resolvePart start
  if storage.root.isPrefixOf path then some path else none

inductive Call where
  | put (data : Bytes)
  | get (storagePath : Text)
  deriving DecidableEq, Repr

/-- Where a call stands. A put that found no file is `opening`; `writing` counts
the bytes written; a get collects what it has read. -/
inductive Phase where
  | called
  | opening
  | writing (offset : Nat)
  | returned (storagePath : Text)
  | reading (path : Path) (content : Bytes)
  | finished (content : Option Bytes)
  | failed
  deriving DecidableEq, Repr

/-- The environment's choice: how many bytes the next piece has at most, less one,
or that the call is cut off. -/
inductive Choice where
  | piece (more : Nat)
  | cut
  deriving DecidableEq, Repr

abbrev Files := Path → Option Bytes

/-- Write a chunk at an offset of a file, over what is there. -/
def overwrite (content : Bytes) (offset : Nat) (chunk : Bytes) : Bytes :=
  content.take offset ++ List.replicate (offset - content.length) 0 ++ chunk ++
    content.drop (offset + chunk.length)

/-- `write_bytes` after the file is open: one piece, or the close at the end. -/
def writePiece (data : Bytes) (offset more : Nat) (content : Bytes) : Option (Nat × Bytes) :=
  let chunk := (data.drop offset).take (more + 1)
  if chunk = [] then none else some (offset + chunk.length, overwrite content offset chunk)

def Storage.act (storage : Storage) {ι : Type u} (calls : ι → Call) (request : ι)
    (choice : Choice) (phase : Phase) (files : Files) : Option (Phase × Files) :=
  match calls request, phase, choice with
  | _, .returned _, _ => none
  | _, .finished _, _ => none
  | _, .failed, _ => none
  | _, _, .cut => some (.failed, files)
  | .put data, .called, .piece _ =>
    let digest := storage.sha256 data
    if (files (storage.abs digest)).isSome then
      some (.returned (asPosix (relativePath digest)), files)
    else some (.opening, files)
  | .put data, .opening, .piece _ =>
    some (.writing 0, Function.update files (storage.abs (storage.sha256 data)) (some []))
  | .put data, .writing offset, .piece more =>
    let digest := storage.sha256 data
    match writePiece data offset more ((files (storage.abs digest)).getD []) with
    | none => some (.returned (asPosix (relativePath digest)), files)
    | some (offset, content) =>
      some (.writing offset, Function.update files (storage.abs digest) (some content))
  | .get storagePath, .called, .piece _ =>
    match storage.locate storagePath with
    | none => some (.finished none, files)
    | some path =>
      if (files path).isSome then some (.reading path [], files)
      else some (.finished none, files)
  | .get _, .reading path content, .piece more =>
    let chunk := (((files path).getD []).drop content.length).take (more + 1)
    if chunk = [] then some (.finished (some content), files)
    else some (.reading path (content ++ chunk), files)
  | _, _, _ => none

abbrev System (ι : Type u) := Pool ι Phase Files

def System.init (ι : Type u) : System ι := ⟨fun _ => none, fun _ => .called⟩

variable {ι : Type u}

/-- Everything a call can do in one step. -/
inductive Move (storage : Storage) (calls : ι → Call) (request : ι) (files : Files) :
    Choice → Phase → Phase → Files → Prop
  | cut : Move storage calls request files .cut phase .failed files
  | found (own : calls request = .put data)
      (present : (files (storage.abs (storage.sha256 data))).isSome) :
      Move storage calls request files (.piece more) .called
        (.returned (asPosix (relativePath (storage.sha256 data)))) files
  | absent (own : calls request = .put data)
      (missing : files (storage.abs (storage.sha256 data)) = none) :
      Move storage calls request files (.piece more) .called .opening files
  | opened (own : calls request = .put data) :
      Move storage calls request files (.piece more) .opening (.writing 0)
        (Function.update files (storage.abs (storage.sha256 data)) (some []))
  | wrote (own : calls request = .put data) (short : offset < data.length)
      (chunk : Bytes) (next : chunk = (data.drop offset).take (more + 1)) :
      Move storage calls request files (.piece more) (.writing offset)
        (.writing (offset + chunk.length))
        (Function.update files (storage.abs (storage.sha256 data))
          (some (overwrite ((files (storage.abs (storage.sha256 data))).getD []) offset chunk)))
  | closed (own : calls request = .put data) (complete : data.length ≤ offset) :
      Move storage calls request files (.piece more) (.writing offset)
        (.returned (asPosix (relativePath (storage.sha256 data)))) files
  | missing (own : calls request = .get storagePath)
      (nowhere : ∀ path, storage.locate storagePath = some path → files path = none) :
      Move storage calls request files (.piece more) .called (.finished none) files
  | began (own : calls request = .get storagePath) (path : Path)
      (located : storage.locate storagePath = some path) :
      Move storage calls request files (.piece more) .called (.reading path []) files
  | read (own : calls request = .get storagePath) (path : Path) (content chunk : Bytes)
      (next : chunk = (((files path).getD []).drop content.length).take (more + 1)) :
      Move storage calls request files (.piece more) (.reading path content)
        (.reading path (content ++ chunk)) files
  | ended (own : calls request = .get storagePath) (path : Path) (content : Bytes)
      (complete : ((files path).getD []).length ≤ content.length) :
      Move storage calls request files (.piece more) (.reading path content)
        (.finished (some content)) files

theorem take_drop_eq_nil {data : Bytes} {offset more : Nat} :
    (data.drop offset).take (more + 1) = [] ↔ data.length ≤ offset := by
  rw [List.take_eq_nil_iff, List.drop_eq_nil_iff]
  omega

theorem Storage.act_move {storage : Storage} {calls : ι → Call} {request : ι} {choice : Choice}
    {phase next : Phase} {files final : Files}
    (taken : storage.act calls request choice phase files = some (next, final)) :
    Move storage calls request files choice phase next final := by
  unfold Storage.act at taken
  split at taken
  · cases taken
  · cases taken
  · cases taken
  · cases taken
    exact .cut
  · rename_i data _ own
    dsimp only at taken
    split at taken
    · rename_i present
      cases taken
      exact .found own present
    · rename_i missing
      cases taken
      exact .absent own (by simpa using missing)
  · rename_i data _ own
    cases taken
    exact .opened own
  · rename_i data offset more own
    simp only [writePiece] at taken
    by_cases complete : data.length ≤ offset
    · simp only [take_drop_eq_nil.mpr complete, if_pos] at taken
      cases taken
      exact .closed own complete
    · rw [if_neg (fun empty => complete (take_drop_eq_nil.mp empty))] at taken
      cases taken
      exact .wrote own (by omega) _ rfl
  · rename_i storagePath _ own
    split at taken
    · rename_i outside
      cases taken
      exact .missing own (by simp [outside])
    · rename_i path located
      split at taken
      · cases taken
        exact .began own path located
      · rename_i absent
        cases taken
        refine .missing own fun other also => ?_
        cases located.symm.trans also
        simpa using absent
  · rename_i storagePath path content more own
    dsimp only at taken
    split at taken
    · rename_i empty
      cases taken
      exact .ended own path content (take_drop_eq_nil.mp empty)
    · cases taken
      exact .read own path content _ rfl
  · cases taken

section Step

variable [DecidableEq ι]

def Storage.step (storage : Storage) (calls : ι → Call) (system : System ι)
    (label : ι × Choice) : Option (System ι) :=
  Pool.step (storage.act calls) system label

theorem Storage.step_move {storage : Storage} {calls : ι → Call} {before after : System ι}
    {label : ι × Choice} (taken : storage.step calls before label = some after) :
    Move storage calls label.1 before.shared label.2 (before.phase label.1)
      (after.phase label.1) after.shared :=
  Storage.act_move (Pool.step_own _ taken)

end Step

end N8nSystems.Documents.Filesystem
