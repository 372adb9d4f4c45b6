import Mathlib.Data.List.Lex
import N8nSystems.Lib.Directory
import N8nSystems.Workflows.SyncFile

/-! `scripts/export_workflows.sh`: the exported files that carry the name of the project are
copied into its workflow directory, which is then sanitised and linted. -/

namespace N8nSystems.Workflows

open Lib Lib.Py

/-- The `*.json` files under a directory, by the parts of their paths. -/
abbrev WorkflowDir := Directory (List Text) ByteArray

/-- `name_prefix`; `upper` is `^^`. -/
def namePrefix (upper : Text → Text) (p : Text) : Text :=
  if p ∈ [text "platform", text "plt", text "PLT"] then text "[PLT]"
  else if p ∈ [text "p01", text "P01"] then text "[P01]"
  else if p ∈ [text "p02", text "P02"] then text "[P02]"
  else if p ∈ [text "p03", text "P03"] then text "[P03]"
  else if p ∈ [text "p04", text "P04"] then text "[P04]"
  else if p ∈ [text "p05", text "P05"] then text "[P05]"
  else text "[" ++ upper p ++ text "]"

/-- What the scripts take from the machine they run on. -/
structure Machine where
  unicode : Unicode
  floats : FloatText
  reprFloat : Rat → Text
  upper : Text → Text
  snippets : SnippetsDir
  /-- Whether `json.loads` raises `JSONDecodeError` on the text, and not the `ValueError` of an
  integer with too many digits. -/
  decodeError : Text → Bool
  stdin : Text
  /-- `default_workflow_files` of the linter, with their paths. -/
  defaults : List (Text × ByteArray)

/-- `str` of a path under the directory. -/
def pathText (directory : Text) (parts : List Text) : Text :=
  parts.foldl (fun path part => path ++ text "/" ++ part) directory

namespace Machine

variable (machine : Machine)

/-- The check of the name in an exported file exits with zero. -/
def named (start : Text) (content : ByteArray) : Bool :=
  match (decodeUtf8 content).bind fun value => loads machine.floats (universalNewlines value) with
  | none => false
  | some (.object fields) =>
    match (Json.lookup (text "name") fields).getD (.string []) with
    | .string name => start.isPrefixOf name
    | _ => false
  | some _ => start.isPrefixOf []

/-- The loop over `*.json`, which does not match in a directory below nor a hidden file,
copies the file. -/
def copies (start : Text) (file : List Text × ByteArray) : Bool :=
  match file.1 with
  | [name] => name.head? ≠ some 46 && machine.named start file.2
  | _ => false

/-- The exceptions that `main` of the sanitiser reports before it goes on. -/
def reports (content : ByteArray) : FileFailure → Bool
  | .process (.sanitize _) => true
  | .process .decode =>
    ((decodeUtf8 content).map fun value => machine.decodeError (universalNewlines value)).getD false
  | .decode => false
  | .encode => false

/-- The loop of the sanitiser over its targets: the exit status, and the files after it. -/
def sanitizeFiles : List (List Text × ByteArray) → Nat × List (List Text × ByteArray)
  | [] => (0, [])
  | (name, content) :: rest =>
    let processed := processFile machine.unicode machine.floats content
    match processed.1 with
    | .ok _ =>
      let after := sanitizeFiles rest
      (after.1, (name, processed.2) :: after.2)
    | .error failure =>
      if machine.reports content failure then (1, (name, processed.2) :: (sanitizeFiles rest).2)
      else (1, (name, processed.2) :: rest)

variable {machine} in
theorem sanitizeFiles_names (files : List (List Text × ByteArray)) :
    (machine.sanitizeFiles files).2.map Prod.fst = files.map Prod.fst := by
  induction files with
  | nil => rfl
  | cons file rest ih =>
    simp only [sanitizeFiles]
    split
    · exact congrArg (file.1 :: ·) ih
    · split
      · exact congrArg (file.1 :: ·) ih
      · rfl

variable {machine} in
theorem sanitizeFiles_sorted {files : List (List Text × ByteArray)}
    (sorted : files.Pairwise fun first second => first.1 < second.1) :
    (machine.sanitizeFiles files).2.Pairwise fun first second => first.1 < second.1 := by
  rw [← List.pairwise_map (f := Prod.fst), sanitizeFiles_names]
  exact List.pairwise_map.mpr sorted

/-- `sanitize_workflows.py --in-place`, which reads the standard input where there are no files. -/
def sanitizeDir (dir : WorkflowDir) : Nat × WorkflowDir :=
  if dir.files.isEmpty then
    match processJson machine.unicode machine.floats machine.stdin with
    | .ok out => (if (encodeUtf8 out).isSome then 0 else 1, dir)
    | .error .decode => (if machine.decodeError machine.stdin then 2 else 1, dir)
    | .error (.sanitize _) => (1, dir)
  else ((machine.sanitizeFiles dir.files).1, ⟨(machine.sanitizeFiles dir.files).2, sanitizeFiles_sorted dir.sorted⟩)

/-- The linter says nothing of the file. -/
def lintsClean (file : Text × ByteArray) : Bool :=
  match lintFile machine.unicode machine.floats machine.reprFloat machine.snippets file.1 file.2 with
  | some (.ok issues) => issues.isEmpty
  | _ => false

/-- `lint_workflows.py --dir`. A file that it cannot read, an issue and an exception all come
to an exit with one. -/
def lintDir (directory : Text) (dir : WorkflowDir) : Nat :=
  let given := dir.files.map fun file => (pathText directory file.1, file.2)
  let targets := if given.isEmpty then machine.defaults else given
  if targets.isEmpty then 2
  else if targets.all machine.lintsClean then 0 else 1

/-- The script after `compose cp`: the exit status, and the workflow directory after it. -/
def exportWorkflows (p directory : Text) (exported dir : WorkflowDir) : Nat × WorkflowDir :=
  let copied := Directory.copy (machine.copies (namePrefix machine.upper p)) exported dir
  let sanitized := machine.sanitizeDir copied
  if sanitized.1 ≠ 0 then sanitized else (machine.lintDir directory sanitized.2, sanitized.2)

end Machine

section
variable {machine : Machine}

/-- What the sanitiser makes of a file. -/
def Machine.rewrite (machine : Machine) (content : ByteArray) : ByteArray :=
  (processFile machine.unicode machine.floats content).2

/-- The sanitiser finishes with the file. -/
def Machine.Passes (machine : Machine) (content : ByteArray) : Prop :=
  ∃ changed, processFile machine.unicode machine.floats content = (.ok changed, machine.rewrite content)

theorem sanitizeFiles_ok_iff {files after : List (List Text × ByteArray)} :
    machine.sanitizeFiles files = (0, after) ↔ (∀ file ∈ files, machine.Passes file.2) ∧
      after = files.map fun file => (file.1, machine.rewrite file.2) := by
  induction files generalizing after with
  | nil => simp [Machine.sanitizeFiles, eq_comm]
  | cons file rest ih =>
    rw [Machine.sanitizeFiles]
    cases outcome : (processFile machine.unicode machine.floats file.2).1 with
    | error failure =>
      have stuck : ¬machine.Passes file.2 := by
        rintro ⟨changed, passed⟩
        cases outcome.symm.trans (congrArg Prod.fst passed)
      refine iff_of_false ?_ fun both => stuck (both.1 file List.mem_cons_self)
      dsimp only
      split <;> simp
    | ok changed =>
      have passes : machine.Passes file.2 := ⟨changed, Prod.ext outcome rfl⟩
      have inner := @ih (machine.sanitizeFiles rest).2
      simp only [List.forall_mem_cons, passes, true_and, List.map_cons, Prod.mk.injEq]
      constructor
      · rintro ⟨zero, rfl⟩
        obtain ⟨each, same⟩ := inner.mp (Prod.ext zero rfl)
        exact ⟨each, by rw [same]; rfl⟩
      · rintro ⟨each, rfl⟩
        have run := ih.mpr ⟨each, rfl⟩
        exact ⟨congrArg Prod.fst run, congrArg _ (congrArg Prod.snd run)⟩

theorem sanitizeDir_ok {dir after : WorkflowDir} (done : machine.sanitizeDir dir = (0, after)) :
    (∀ file ∈ dir.files, machine.Passes file.2) ∧ after = dir.map machine.rewrite := by
  unfold Machine.sanitizeDir at done
  split at done
  · rename_i empty
    have none : dir.files = [] := List.isEmpty_iff.mp empty
    have same : dir = after := by
      split at done <;> exact congrArg Prod.snd done
    refine ⟨by simp [none], ?_⟩
    subst same
    exact Directory.ext_mem fun file => by simp [Directory.map, none]
  · obtain ⟨zero, rfl⟩ := Prod.mk.inj done
    obtain ⟨each, same⟩ := sanitizeFiles_ok_iff.mp (Prod.ext zero rfl)
    exact ⟨each, Directory.ext_mem fun file => iff_of_eq (congrArg (file ∈ ·) same)⟩

/-- The sanitiser finishes with every file of a directory that is not empty. -/
theorem sanitizeDir_passes {dir : WorkflowDir} (some : dir.files ≠ [])
    (each : ∀ file ∈ dir.files, machine.Passes file.2) :
    machine.sanitizeDir dir = (0, dir.map machine.rewrite) := by
  obtain ⟨zero, same⟩ := Prod.ext_iff.mp (sanitizeFiles_ok_iff.mpr ⟨each, rfl⟩)
  rw [Machine.sanitizeDir, if_neg (List.isEmpty_iff.not.mpr some), zero]
  exact congrArg (Prod.mk 0) (Directory.ext_mem fun file => iff_of_eq (congrArg (file ∈ ·) same))

theorem exportWorkflows_ok_iff {p directory : Text} {exported dir after : WorkflowDir} :
    machine.exportWorkflows p directory exported dir = (0, after) ↔
      machine.sanitizeDir (Directory.copy (machine.copies (namePrefix machine.upper p)) exported dir) = (0, after) ∧
        machine.lintDir directory after = 0 := by
  simp only [Machine.exportWorkflows]
  generalize machine.sanitizeDir _ = sanitized
  obtain ⟨status, files⟩ := sanitized
  split
  · rename_i failed
    have nonzero : status ≠ 0 := failed
    simp [nonzero]
  · rename_i fine
    obtain rfl : status = 0 := not_not.mp fine
    constructor
    · intro done
      obtain ⟨zero, rfl⟩ := Prod.mk.inj done
      exact ⟨rfl, zero⟩
    · rintro ⟨same, zero⟩
      cases same
      rw [zero]

theorem lintDir_zero_iff {directory : Text} {dir : WorkflowDir} (some : dir.files ≠ []) :
    machine.lintDir directory dir = 0 ↔
      ∀ file ∈ dir.files, machine.lintsClean (pathText directory file.1, file.2) = true := by
  have given : (dir.files.map fun file => (pathText directory file.1, file.2)).isEmpty = false := by
    simpa using some
  simp only [Machine.lintDir, given, Bool.false_eq_true, if_false, ite_eq_left_iff, Nat.one_ne_zero, imp_false,
    not_not, List.all_eq_true, List.forall_mem_map]

theorem lintsClean_iff {file : Text × ByteArray} : machine.lintsClean file = true ↔
    lintFile machine.unicode machine.floats machine.reprFloat machine.snippets file.1 file.2 = some (.ok []) := by
  unfold Machine.lintsClean
  split
  · rename_i issues linted
    simp [linted]
  · rename_i other
    exact iff_of_false (by decide) (other [])

/-- The sanitiser leaves alone what it has written. -/
theorem Machine.Passes.again (lawful : machine.floats.Lawful) {content : ByteArray}
    (passes : machine.Passes content) :
    processFile machine.unicode machine.floats (machine.rewrite content) = (.ok false, machine.rewrite content) := by
  obtain ⟨changed, processed⟩ := passes
  obtain ⟨_, _, -, -, clean, holds⟩ := processFile_holds lawful processed
  exact clean.processFile_idle lawful holds

theorem settled_of_passes (lawful : machine.floats.Lawful) {dir : WorkflowDir}
    (each : ∀ file ∈ dir.files, machine.Passes file.2) :
    ∀ file ∈ (dir.map machine.rewrite).files,
      processFile machine.unicode machine.floats file.2 = (.ok false, file.2) := by
  intro file member
  obtain ⟨original, known, rfl⟩ := List.mem_map.mp member
  exact (each original known).again lawful

/-- Copying the same files into the sanitised directory and sanitising it leaves it as it is. -/
theorem sanitizeDir_again (lawful : machine.floats.Lawful) {keep : List Text × ByteArray → Bool}
    {exported dir after : WorkflowDir} (done : machine.sanitizeDir (Directory.copy keep exported dir) = (0, after)) :
    machine.sanitizeDir (Directory.copy keep exported after) = (0, after) := by
  obtain ⟨each, rfl⟩ := sanitizeDir_ok done
  have settled := settled_of_passes lawful each
  have same := Directory.copy_map_again fun file member => congrArg Prod.snd (settled file member)
  have empty := congrArg (fun dir : WorkflowDir => dir.files = []) same
  simp only [Directory.map_empty, eq_iff_iff] at empty
  by_cases some : (Directory.copy keep exported dir).files = []
  · have both : Directory.copy keep exported ((Directory.copy keep exported dir).map machine.rewrite) =
        Directory.copy keep exported dir :=
      Directory.ext_mem fun file => iff_of_eq (congrArg (file ∈ ·) ((empty.mpr some).trans some.symm))
    rw [both]
    exact done
  · rw [sanitizeDir_passes (empty.not.mpr some), same]
    intro file member
    rcases Directory.mem_copy.mp member with source | ⟨kept, -⟩
    · exact each file (Directory.mem_copy.mpr (.inl source))
    · have idle := settled file kept
      exact ⟨false, idle.trans (congrArg _ (congrArg Prod.snd idle).symm)⟩

/-- When the script ends with zero, a reader of every file of the directory gets a document
without secrets and with nothing to strip, of which the linter says nothing; an exported file
that was copied is there stripped and with sorted keys; and the same export again ends with
zero and leaves the directory as it is. -/
theorem export_settled (lawful : machine.floats.Lawful) {p directory : Text} {exported dir after : WorkflowDir}
    (done : machine.exportWorkflows p directory exported dir = (0, after)) :
    (∀ file ∈ after.files, ∃ value document, decodeUtf8 file.2 = some value ∧
      loads machine.floats value = some document ∧ findSecretMatches machine.unicode document = [] ∧
      strip [] document = document ∧
      lintFile machine.unicode machine.floats machine.reprFloat machine.snippets (pathText directory file.1)
        file.2 = some (.ok [])) ∧
    (∀ file ∈ exported.files, machine.copies (namePrefix machine.upper p) file = true →
      ∃ value document content written, decodeUtf8 file.2 = some value ∧
        loads machine.floats value = some document ∧ (file.1, content) ∈ after.files ∧
        decodeUtf8 content = some written ∧
        loads machine.floats written = some (sortKeys (strip [] document))) ∧
    machine.exportWorkflows p directory exported after = (0, after) := by
  obtain ⟨sanitized, linted⟩ := exportWorkflows_ok_iff.mp done
  refine ⟨?_, ?_, exportWorkflows_ok_iff.mpr ⟨sanitizeDir_again lawful sanitized, linted⟩⟩
  · obtain ⟨each, rfl⟩ := sanitizeDir_ok sanitized
    intro file member
    obtain ⟨original, known, rfl⟩ := List.mem_map.mp member
    obtain ⟨changed, processed⟩ := each original known
    obtain ⟨_, document, -, -, clean, holds⟩ := processFile_holds lawful processed
    obtain ⟨value, decoded, read⟩ := holds.loads lawful clean.loaded
    exact ⟨value, _, decoded, read, clean.sortKeys.quiet, clean.sortKeys.still,
      lintsClean_iff.mp ((lintDir_zero_iff (List.ne_nil_of_mem member)).mp linted _ member)⟩
  · obtain ⟨each, rfl⟩ := sanitizeDir_ok sanitized
    intro file member kept
    have copied : file ∈ (Directory.copy (machine.copies (namePrefix machine.upper p)) exported dir).files :=
      Directory.mem_copy.mpr (.inl ⟨member, kept⟩)
    obtain ⟨changed, processed⟩ := each file copied
    obtain ⟨value, document, decoded, read, clean, holds⟩ := processFile_holds lawful processed
    obtain ⟨written, reread, parsed⟩ := holds.loads lawful clean.loaded
    exact ⟨value, document, machine.rewrite file.2, written, decoded, read,
      List.mem_map.mpr ⟨file, copied, rfl⟩, reread, parsed⟩

end

def handlerMachine : Machine where
  unicode := asciiUnicode
  floats := noFloats
  reprFloat _ := []
  upper := id
  snippets := oneSnippet []
  decodeError _ := true
  stdin := []
  defaults := []

/-- The file of an error handler, exported and rewritten. -/
def handlerFile : String := "\x7b\"name\":\"[P01] Error Handler\",\"pinData\":null\x7d"

def handlerRewritten : String := "\x7b\n  \"name\": \"[P01] Error Handler\"\n\x7d\n"

def handlerExported : Json :=
  .object [(text "name", .string (text "[P01] Error Handler")), (text "pinData", .null)]

def handlerDocument : Json := .object [(text "name", .string (text "[P01] Error Handler"))]

def handlerDir (file : String) : WorkflowDir where
  files := [([text "a.json"], file.toByteArray)]
  sorted := List.pairwise_singleton _ _

def emptyDir : WorkflowDir where
  files := []
  sorted := .nil

theorem handlerDocument_sorted : sortKeys handlerDocument = handlerDocument :=
  sortKeys_of_sorted (List.pairwise_singleton _ _)

theorem loads_handlerFile : loads noFloats (text handlerFile) = some handlerExported := rfl

theorem handlerFile_rewritten : processFile asciiUnicode noFloats handlerFile.toByteArray =
    (.ok true, handlerRewritten.toByteArray) := by
  have quiet : findSecretMatches asciiUnicode handlerExported = [] := by decide +kernel
  have stripped : strip [] handlerExported = handlerDocument := rfl
  have printed : dumpsStable (dumpsAt noFloats 0) (strip [] handlerExported) = text handlerRewritten := by
    rw [stripped, dumpsStable, handlerDocument_sorted]
    decide +kernel
  have differs : text handlerRewritten ≠ universalNewlines (text handlerFile) := by decide +kernel
  simp only [processFile, decodeUtf8_toByteArray, processJson_universalNewlines,
    processJson_ok_iff.mpr ⟨_, loads_handlerFile, quiet, printed⟩, ne_eq, differs, not_false_eq_true, if_true,
    encodeUtf8_text]

theorem handlerFile_copied : handlerMachine.copies (namePrefix id (text "p01"))
    ([text "a.json"], handlerFile.toByteArray) = true := by
  have named : handlerMachine.named (text "[P01]") handlerFile.toByteArray = true := by
    have read : loads handlerMachine.floats (text handlerFile) = some handlerExported := loads_handlerFile
    simp only [Machine.named, decodeUtf8_toByteArray, Option.bind_some, loads_universalNewlines, read]
    decide
  have start : namePrefix id (text "p01") = text "[P01]" := by decide
  rw [start]
  simp only [Machine.copies, named, Bool.and_true]
  decide

theorem handler_linted : handlerMachine.lintsClean (pathText (text "w") [text "a.json"],
    handlerRewritten.toByteArray) = true := by
  have read : loads noFloats (text handlerRewritten) = some handlerDocument := rfl
  rw [lintsClean_iff]
  simp only [lintFile, decodeUtf8_toByteArray, Option.bind_some, loads_universalNewlines]
  show (loads noFloats (text handlerRewritten)).map _ = _
  rw [read]
  decide +kernel

theorem handler_exported : handlerMachine.exportWorkflows (text "p01") (text "w") (handlerDir handlerFile) emptyDir =
    (0, handlerDir handlerRewritten) := by
  have copied : Directory.copy (handlerMachine.copies (namePrefix id (text "p01"))) (handlerDir handlerFile) emptyDir =
      handlerDir handlerFile := by
    refine Directory.ext_mem fun file => Directory.mem_copy.trans ?_
    simp only [emptyDir, List.not_mem_nil, false_and, or_false, and_iff_left_iff_imp]
    intro member
    rw [List.mem_singleton.mp member]
    exact handlerFile_copied
  have rewritten : handlerMachine.rewrite handlerFile.toByteArray = handlerRewritten.toByteArray :=
    congrArg Prod.snd handlerFile_rewritten
  have passes : handlerMachine.Passes handlerFile.toByteArray :=
    ⟨true, handlerFile_rewritten.trans (congrArg _ rewritten.symm)⟩
  refine exportWorkflows_ok_iff.mpr ⟨?_, ?_⟩
  · show handlerMachine.sanitizeDir (Directory.copy (handlerMachine.copies (namePrefix id (text "p01"))) _ _) = _
    have each : ∀ file ∈ (handlerDir handlerFile).files, handlerMachine.Passes file.2 :=
      List.forall_mem_singleton.mpr passes
    rw [copied, sanitizeDir_passes (List.cons_ne_nil _ _) each]
    refine congrArg (Prod.mk 0) (Directory.ext_mem fun file => ?_)
    simp only [Directory.map, handlerDir, List.map_cons, List.map_nil, rewritten]
  · exact (lintDir_zero_iff (List.cons_ne_nil _ _)).mpr (List.forall_mem_singleton.mpr handler_linted)

theorem handler_settled :
    handlerMachine.exportWorkflows (text "p01") (text "w") (handlerDir handlerFile) (handlerDir handlerRewritten) =
      (0, handlerDir handlerRewritten) :=
  (export_settled noFloats_lawful handler_exported).2.2

end N8nSystems.Workflows
