import Mathlib.Data.List.Sort
import Mathlib.Order.Defs.LinearOrder

/-! A directory as its files in the order of their names; copying into it and rewriting all
of it. -/

namespace N8nSystems.Lib

universe u v

structure Directory (Name : Type u) (Content : Type v) [LinearOrder Name] where
  files : List (Name × Content)
  sorted : files.Pairwise fun first second => first.1 < second.1

namespace Directory

variable {Name : Type u} {Content : Type v} [LinearOrder Name]

/-- A directory is known by its files. -/
theorem ext_mem {first second : Directory Name Content}
    (same : ∀ file, file ∈ first.files ↔ file ∈ second.files) : first = second := by
  have irreflexive : Std.Irrefl fun first second : Name × Content => first.1 < second.1 :=
    ⟨fun file => lt_irrefl file.1⟩
  have antisymmetric : Std.Antisymm fun first second : Name × Content => first.1 < second.1 :=
    ⟨fun _ _ here there => absurd there here.asymm⟩
  obtain ⟨files, sorted⟩ := first
  obtain ⟨others, ordered⟩ := second
  obtain rfl : files = others := sorted.eq_of_mem_iff ordered same
  rfl

theorem put_sorted {files : List (Name × Content)} (sorted : files.Pairwise fun first second => first.1 < second.1)
    (name : Name) (content : Content) :
    ((files.filter (·.1 ≠ name)).orderedInsert (fun first second => first.1 ≤ second.1) (name, content)).Pairwise
      fun first second => first.1 < second.1 := by
  have others : ∀ file ∈ files.filter (·.1 ≠ name), file.1 ≠ name := by
    simp
  have ordered := sorted.filter (·.1 ≠ name)
  generalize files.filter (·.1 ≠ name) = rest at others ordered
  induction rest with
  | nil => exact List.pairwise_singleton _ _
  | cons file rest ih =>
    obtain ⟨other, later⟩ := List.forall_mem_cons.mp others
    obtain ⟨before, ordered⟩ := List.pairwise_cons.mp ordered
    rw [List.orderedInsert_cons]
    split
    · rename_i first
      have first : name < file.1 := lt_of_le_of_ne first other.symm
      refine List.pairwise_cons.mpr ⟨?_, List.pairwise_cons.mpr ⟨before, ordered⟩⟩
      exact List.forall_mem_cons.mpr ⟨first, fun next member => first.trans (before next member)⟩
    · rename_i behind
      refine List.pairwise_cons.mpr ⟨?_, ih later ordered⟩
      intro next member
      rcases (List.mem_orderedInsert _).mp member with rfl | listed
      · exact not_le.mp behind
      · exact before next listed

/-- Write a file, in place of one of its name. -/
def put (dir : Directory Name Content) (name : Name) (content : Content) : Directory Name Content where
  files := (dir.files.filter (·.1 ≠ name)).orderedInsert (fun first second => first.1 ≤ second.1) (name, content)
  sorted := put_sorted dir.sorted name content

theorem mem_put {dir : Directory Name Content} {name : Name} {content : Content} {file : Name × Content} :
    file ∈ (dir.put name content).files ↔ file = (name, content) ∨ file ∈ dir.files ∧ file.1 ≠ name := by
  simp [put]

/-- Copy the files of the source that the test keeps. -/
def copy (keep : Name × Content → Bool) (source dir : Directory Name Content) : Directory Name Content :=
  source.files.foldl (fun dir file => if keep file then dir.put file.1 file.2 else dir) dir

theorem mem_copy {keep : Name × Content → Bool} {source dir : Directory Name Content} {file : Name × Content} :
    file ∈ (copy keep source dir).files ↔ (file ∈ source.files ∧ keep file = true) ∨
      file ∈ dir.files ∧ ∀ other ∈ source.files, keep other = true → other.1 ≠ file.1 := by
  obtain ⟨files, sorted⟩ := source
  simp only [copy]
  induction files generalizing dir with
  | nil => simp
  | cons head rest ih =>
    obtain ⟨before, ordered⟩ := List.pairwise_cons.mp sorted
    have apart : ∀ other ∈ rest, other.1 ≠ head.1 := fun other member => (ne_of_lt (before other member)).symm
    rw [List.foldl_cons, ih ordered]
    cases kept : keep head with
    | false =>
      have skipped : file ∈ head :: rest ∧ keep file = true ↔ file ∈ rest ∧ keep file = true := by
        refine and_congr_left fun held => List.mem_cons.trans (or_iff_right ?_)
        rintro rfl
        cases kept.symm.trans held
      rw [skipped]
      simp [kept]
    | true =>
      simp only [if_true, mem_put, List.mem_cons, forall_eq_or_imp, kept, true_implies]
      constructor
      · rintro (⟨member, held⟩ | ⟨rfl | ⟨member, other⟩, free⟩)
        · exact .inl ⟨.inr member, held⟩
        · exact .inl ⟨.inl rfl, kept⟩
        · exact .inr ⟨member, other.symm, free⟩
      · rintro (⟨rfl | member, held⟩ | ⟨member, other, free⟩)
        · exact .inr ⟨.inl rfl, fun other listed _ => apart other listed⟩
        · exact .inl ⟨member, held⟩
        · exact .inr ⟨.inr ⟨member, other.symm⟩, free⟩

theorem map_sorted {files : List (Name × Content)} (sorted : files.Pairwise fun first second => first.1 < second.1)
    (rewrite : Content → Content) :
    (files.map fun file => (file.1, rewrite file.2)).Pairwise fun first second => first.1 < second.1 :=
  List.pairwise_map.mpr sorted

/-- Rewrite every file. -/
def map (rewrite : Content → Content) (dir : Directory Name Content) : Directory Name Content where
  files := dir.files.map fun file => (file.1, rewrite file.2)
  sorted := map_sorted dir.sorted rewrite

theorem map_empty {dir : Directory Name Content} {rewrite : Content → Content} :
    (dir.map rewrite).files = [] ↔ dir.files = [] := List.map_eq_nil_iff

/-- Copying again over the rewritten files and rewriting again comes to the same, where
rewriting leaves alone what it has written. -/
theorem copy_map_again {keep : Name × Content → Bool} {source dir : Directory Name Content}
    {rewrite : Content → Content}
    (settled : ∀ file ∈ ((copy keep source dir).map rewrite).files, rewrite file.2 = file.2) :
    (copy keep source ((copy keep source dir).map rewrite)).map rewrite = (copy keep source dir).map rewrite := by
  refine ext_mem fun file => ?_
  rw [map]
  simp only [List.mem_map]
  constructor
  · rintro ⟨old, member, rfl⟩
    rcases mem_copy.mp member with source | ⟨again, -⟩
    · exact List.mem_map.mpr ⟨old, mem_copy.mpr (.inl source), rfl⟩
    · rw [settled old again]
      exact again
  · intro member
    obtain ⟨old, listed, rfl⟩ := List.mem_map.mp member
    rcases mem_copy.mp listed with source | ⟨-, free⟩
    · exact ⟨old, mem_copy.mpr (.inl source), rfl⟩
    · exact ⟨_, mem_copy.mpr (.inr ⟨member, free⟩), by rw [settled _ member]⟩

end Directory

end N8nSystems.Lib
