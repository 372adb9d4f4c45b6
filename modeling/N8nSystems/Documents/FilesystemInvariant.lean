import N8nSystems.Documents.Filesystem

/-! When stored bytes are whole. A put leaves a torn file when it is cut off in the
middle of its write, or when another put of the same bytes looks for the file while
it is being written. In runs without these steps every returned path holds the
bytes, for good. -/

namespace N8nSystems.Documents.Filesystem

open Lib Lib.Py

universe u

variable {ι : Type u} {storage : Storage} {calls : ι → Call}

/-- The put has found no file and has not written all of it. -/
def Unfinished (data : Bytes) : Phase → Prop
  | .opening => True
  | .writing offset => offset < data.length
  | _ => False

/-- The steps that keep files whole: a put looks for its file only while no other put
of the same bytes is unfinished, and no put is cut off inside its write. -/
def Careful (calls : ι → Call) (system : System ι) (label : ι × Choice) : Prop :=
  match calls label.1, system.phase label.1, label.2 with
  | .put data, .called, .piece _ =>
    ∀ other, calls other = .put data → ¬ Unfinished data (system.phase other)
  | .put data, .writing offset, .cut => data.length ≤ offset
  | _, _, _ => True

/-- No two puts of the run have different bytes and one digest. -/
def CollisionFree (storage : Storage) (calls : ι → Call) : Prop :=
  ∀ first second data other, calls first = .put data → calls second = .put other →
    storage.sha256 data = storage.sha256 other → data = other

theorem Storage.abs_injective {digest other : Text} (same : storage.abs digest = storage.abs other) :
    digest = other := by
  have parts := List.append_cancel_left same
  simp only [relativePath, List.cons.injEq] at parts
  exact parts.2.2.1

/-- The file holds the bytes and no put of them is unfinished. -/
structure Whole (storage : Storage) (calls : ι → Call) (data : Bytes) (system : System ι) :
    Prop where
  content : system.shared (storage.abs (storage.sha256 data)) = some data
  settled : ∀ request, calls request = .put data → ¬ Unfinished data (system.phase request)

/-- The life of a file in a careful run: absent, being written by one put, whole. -/
inductive Stage (storage : Storage) (calls : ι → Call) (data : Bytes) (system : System ι) : Prop
  | absent (opener : Option ι) (missing : system.shared (storage.abs (storage.sha256 data)) = none)
      (idle : ∀ request, calls request = .put data → system.phase request = .called ∨
        system.phase request = .failed ∨ system.phase request = .opening ∧ opener = some request)
  | started (writer : ι) (offset : Nat) (own : calls writer = .put data)
      (phase : system.phase writer = .writing offset) (short : offset < data.length)
      (content : system.shared (storage.abs (storage.sha256 data)) = some (data.take offset))
      (others : ∀ request, calls request = .put data → request ≠ writer →
        system.phase request = .called ∨ system.phase request = .failed)
  | whole (whole : Whole storage calls data system)

theorem Stage.init (data : Bytes) : Stage storage calls data (System.init ι) :=
  .absent none rfl fun _ _ => .inl rfl

theorem Whole.of_eq {before after : System ι} {data : Bytes}
    (same : after.shared (storage.abs (storage.sha256 data)) =
      before.shared (storage.abs (storage.sha256 data)))
    (phases : ∀ request, calls request = .put data → after.phase request = before.phase request)
    (whole : Whole storage calls data before) : Whole storage calls data after := by
  refine ⟨same.trans whole.content, ?_⟩
  intro request own
  rw [phases request own]
  exact whole.settled request own

/-- Steps of other calls keep the stage. -/
theorem Stage.of_eq {before after : System ι} {data : Bytes}
    (same : after.shared (storage.abs (storage.sha256 data)) =
      before.shared (storage.abs (storage.sha256 data)))
    (phases : ∀ request, calls request = .put data → after.phase request = before.phase request)
    (stage : Stage storage calls data before) : Stage storage calls data after := by
  cases stage with
  | absent opener missing idle =>
    refine .absent opener (same.trans missing) ?_
    intro request own
    rw [phases request own]
    exact idle request own
  | started writer offset own phase short content others =>
    refine .started writer offset own ((phases writer own).trans phase) short
      (same.trans content) ?_
    intro request also different
    rw [phases request also]
    exact others request also different
  | whole whole => exact .whole (whole.of_eq same phases)

/-- Writing the next piece over the bytes written so far. -/
theorem overwrite_take {data : Bytes} {offset : Nat} (short : offset ≤ data.length) (more : Nat) :
    overwrite (data.take offset) offset ((data.drop offset).take (more + 1)) =
      data.take (offset + ((data.drop offset).take (more + 1)).length) := by
  have length : (data.take offset).length = offset := List.length_take_of_le short
  have beyond : (data.take offset).drop (offset + ((data.drop offset).take (more + 1)).length) =
      [] := by
    apply List.drop_eq_nil_of_le
    omega
  rw [overwrite, beyond, length, Nat.sub_self, List.take_of_length_le (Nat.le_of_eq length)]
  simp only [List.replicate_zero, List.append_nil, List.length_take, List.length_drop]
  rw [List.take_add (i := offset)]
  congr 1
  rw [List.take_eq_take_iff, List.length_drop]
  omega

theorem Careful.look {system : System ι} {label : ι × Choice} {data : Bytes}
    (careful : Careful calls system label) (own : calls label.1 = .put data)
    (phase : system.phase label.1 = .called) (choice : label.2 = .piece more) :
    ∀ other, calls other = .put data → ¬ Unfinished data (system.phase other) := by
  simpa only [Careful, own, phase, choice] using careful

theorem Careful.whole {system : System ι} {label : ι × Choice} {data : Bytes}
    (careful : Careful calls system label) (own : calls label.1 = .put data)
    (phase : system.phase label.1 = .writing offset) (choice : label.2 = .cut) :
    data.length ≤ offset := by
  simpa only [Careful, own, phase, choice] using careful

section Step

variable [DecidableEq ι]

/-- A step of a call that is no put of the data changes neither its file nor its puts. -/
theorem step_frame {before after : System ι} {label : ι × Choice} {data : Bytes} {holder : ι}
    (collisionFree : CollisionFree storage calls) (held : calls holder = .put data)
    (taken : storage.step calls before label = some after) (other : calls label.1 ≠ .put data) :
    after.shared (storage.abs (storage.sha256 data)) =
        before.shared (storage.abs (storage.sha256 data)) ∧
      ∀ request, calls request = .put data → after.phase request = before.phase request := by
  have move := Storage.step_move taken
  have apart {written : Bytes} (own : calls label.1 = .put written) :
      storage.abs (storage.sha256 data) ≠ storage.abs (storage.sha256 written) := by
    intro same
    have equal := collisionFree holder label.1 _ _ held own (Storage.abs_injective same)
    exact other (equal ▸ own)
  refine ⟨?_, ?_⟩
  · generalize before.phase label.1 = phase at move
    generalize after.phase label.1 = next at move
    generalize label.2 = choice at move
    generalize after.shared = files at move ⊢
    cases move with
    | opened own => exact Function.update_of_ne (apart own) _ _
    | wrote own => exact Function.update_of_ne (apart own) _ _
    | cut => rfl
    | found => rfl
    | absent => rfl
    | closed => rfl
    | missing => rfl
    | began => rfl
    | read => rfl
    | ended => rfl
  · intro request own
    apply Pool.step_other _ taken
    rintro rfl
    exact other own

/-- Whole files stay whole, whatever the step. -/
theorem Whole.step {before after : System ι} {label : ι × Choice} {data : Bytes} {holder : ι}
    (whole : Whole storage calls data before) (collisionFree : CollisionFree storage calls)
    (held : calls holder = .put data) (taken : storage.step calls before label = some after) :
    Whole storage calls data after := by
  by_cases mine : calls label.1 = .put data
  · have settled := whole.settled label.1 mine
    have move := Storage.step_move taken
    have others (request : ι) (own : calls request = .put data)
        (moved : ¬ Unfinished data (after.phase label.1)) :
        ¬ Unfinished data (after.phase request) := by
      by_cases same : request = label.1
      · exact same ▸ moved
      · rw [Pool.step_other _ taken same]
        exact whole.settled request own
    have content := whole.content
    generalize before.phase label.1 = phase at move settled
    generalize after.phase label.1 = next at move others
    generalize label.2 = choice at move
    generalize stored : after.shared = files at move
    cases move with
    | cut => exact ⟨stored ▸ content, fun request own => others request own id⟩
    | found => exact ⟨stored ▸ content, fun request own => others request own id⟩
    | absent own missing =>
      cases mine.symm.trans own
      cases missing.symm.trans content
    | opened => exact absurd trivial settled
    | wrote own short =>
      cases mine.symm.trans own
      exact absurd short settled
    | closed => exact ⟨stored ▸ content, fun request own => others request own id⟩
    | missing own => cases mine.symm.trans own
    | began own => cases mine.symm.trans own
    | read own => cases mine.symm.trans own
    | ended own => cases mine.symm.trans own
  · obtain ⟨same, phases⟩ := step_frame collisionFree held taken mine
    exact whole.of_eq same phases

/-- A single writer that has written all bytes up to its offset. -/
theorem Stage.of_writing {system : System ι} {data : Bytes} {writer : ι} {offset : Nat}
    (own : calls writer = .put data) (writing : system.phase writer = .writing offset)
    (content : system.shared (storage.abs (storage.sha256 data)) = some (data.take offset))
    (rest : ∀ request, calls request = .put data → request ≠ writer →
      system.phase request = .called ∨ system.phase request = .failed) :
    Stage storage calls data system := by
  by_cases short : offset < data.length
  · exact .started writer offset own writing short content rest
  · refine .whole ⟨?_, ?_⟩
    · rw [content, List.take_of_length_le (Nat.not_lt.mp short)]
    · intro request also
      by_cases same : request = writer
      · subst same
        rw [writing]
        exact short
      · rcases rest request also same with called | failed
        · exact called ▸ id
        · exact failed ▸ id

/-- A careful step of a put whose file is absent. -/
theorem Stage.absent_step {before after : System ι} {label : ι × Choice} {data : Bytes}
    {opener : Option ι} (missing : before.shared (storage.abs (storage.sha256 data)) = none)
    (idle : ∀ request, calls request = .put data → before.phase request = .called ∨
      before.phase request = .failed ∨ before.phase request = .opening ∧ opener = some request)
    (mine : calls label.1 = .put data) (careful : Careful calls before label)
    (taken : storage.step calls before label = some after) : Stage storage calls data after := by
  have move := Storage.step_move taken
  have others : ∀ request, request ≠ label.1 → after.phase request = before.phase request :=
    fun request other => Pool.step_other _ taken other
  generalize phase : before.phase label.1 = current at move
  generalize next : after.phase label.1 = moved at move
  generalize choice : label.2 = chosen at move
  generalize stored : after.shared = files at move
  cases move with
  | cut =>
    refine .absent opener (stored ▸ missing) ?_
    intro request own
    by_cases same : request = label.1
    · exact same ▸ .inr (.inl next)
    · rw [others request same]
      exact idle request own
  | found own present =>
    cases mine.symm.trans own
    simp [missing] at present
  | absent own _ =>
    refine .absent (some label.1) (stored ▸ missing) ?_
    intro request also
    by_cases same : request = label.1
    · subst same
      exact .inr (.inr ⟨next, rfl⟩)
    · rw [others request same]
      rcases idle request also with called | failed | ⟨opening, _⟩
      · exact .inl called
      · exact .inr (.inl failed)
      · exact absurd (opening ▸ trivial) (careful.look mine phase choice request also)
  | opened own =>
    cases mine.symm.trans own
    have rest (request : ι) (also : calls request = .put data) (other : request ≠ label.1) :
        after.phase request = .called ∨ after.phase request = .failed := by
      rw [others request other]
      rcases idle request also with called | failed | ⟨_, opens⟩
      · exact .inl called
      · exact .inr failed
      · rcases idle label.1 mine with called | failed | ⟨_, opensToo⟩
        · cases phase.symm.trans called
        · cases phase.symm.trans failed
        · exact absurd (Option.some.inj (opens.symm.trans opensToo)) other
    have empty : after.shared (storage.abs (storage.sha256 data)) = some [] := by
      rw [stored]
      exact Function.update_self _ _ _
    exact .of_writing mine next (by simpa using empty) rest
  | wrote =>
    rcases idle label.1 mine with called | failed | ⟨opening, _⟩
    · cases phase.symm.trans called
    · cases phase.symm.trans failed
    · cases phase.symm.trans opening
  | closed =>
    rcases idle label.1 mine with called | failed | ⟨opening, _⟩
    · cases phase.symm.trans called
    · cases phase.symm.trans failed
    · cases phase.symm.trans opening
  | missing own => cases mine.symm.trans own
  | began own => cases mine.symm.trans own
  | read own => cases mine.symm.trans own
  | ended own => cases mine.symm.trans own

/-- A careful step of a put while its file is being written. -/
theorem Stage.started_step {before after : System ι} {label : ι × Choice} {data : Bytes}
    {writer : ι} {offset : Nat} (own : calls writer = .put data)
    (writing : before.phase writer = .writing offset) (short : offset < data.length)
    (content : before.shared (storage.abs (storage.sha256 data)) = some (data.take offset))
    (rest : ∀ request, calls request = .put data → request ≠ writer →
      before.phase request = .called ∨ before.phase request = .failed)
    (mine : calls label.1 = .put data) (careful : Careful calls before label)
    (taken : storage.step calls before label = some after) : Stage storage calls data after := by
  have move := Storage.step_move taken
  have others : ∀ request, request ≠ label.1 → after.phase request = before.phase request :=
    fun request other => Pool.step_other _ taken other
  generalize phase : before.phase label.1 = current at move
  generalize next : after.phase label.1 = moved at move
  generalize choice : label.2 = chosen at move
  generalize stored : after.shared = files at move
  by_cases same : label.1 = writer
  · subst same
    obtain rfl : current = .writing offset := phase.symm.trans writing
    cases move with
    | cut => exact absurd short (Nat.not_lt.mpr (careful.whole mine phase choice))
    | wrote also _ chunk piece =>
      cases mine.symm.trans also
      have written : after.shared (storage.abs (storage.sha256 data)) =
          some (data.take (offset + chunk.length)) := by
        rw [stored, Function.update_self, content, Option.getD_some, piece,
          overwrite_take (Nat.le_of_lt short)]
      have idle (request : ι) (also : calls request = .put data) (other : request ≠ label.1) :
          after.phase request = .called ∨ after.phase request = .failed := by
        rw [others request other]
        exact rest request also other
      exact .of_writing mine next written idle
    | closed also complete =>
      cases mine.symm.trans also
      omega
  · have unfinished : Unfinished data (before.phase writer) := writing ▸ short
    have idle := rest label.1 mine same
    rw [phase] at idle
    cases move with
    | cut =>
      refine .started writer offset own ((others writer (Ne.symm same)).trans writing) short
        (stored ▸ content) ?_
      intro request also other
      by_cases equal : request = label.1
      · exact equal ▸ .inr next
      · rw [others request equal]
        exact rest request also other
    | found => exact absurd unfinished (careful.look mine phase choice writer own)
    | absent => exact absurd unfinished (careful.look mine phase choice writer own)
    | opened => simp at idle
    | wrote => simp at idle
    | closed => simp at idle
    | missing also => cases mine.symm.trans also
    | began also => cases mine.symm.trans also
    | read also => cases mine.symm.trans also
    | ended also => cases mine.symm.trans also

/-- Every careful step keeps the stage of every file. -/
theorem Stage.step {before after : System ι} {label : ι × Choice} {data : Bytes} {holder : ι}
    (stage : Stage storage calls data before) (collisionFree : CollisionFree storage calls)
    (held : calls holder = .put data) (careful : Careful calls before label)
    (taken : storage.step calls before label = some after) : Stage storage calls data after := by
  by_cases mine : calls label.1 = .put data
  · cases stage with
    | absent opener missing idle => exact Stage.absent_step missing idle mine careful taken
    | started writer offset own phase short content others =>
      exact Stage.started_step own phase short content others mine careful taken
    | whole whole => exact .whole (whole.step collisionFree held taken)
  · obtain ⟨same, phases⟩ := step_frame collisionFree held taken mine
    exact stage.of_eq same phases

/-- A put that has returned leaves its file whole, in every careful run. -/
theorem whole_of_returned {labels : List (ι × Choice)} {system : System ι} {request : ι}
    {data : Bytes} (collisionFree : CollisionFree storage calls)
    (careful : Along (storage.step calls) (Careful calls) (System.init ι) labels)
    (reached : run (storage.step calls) (System.init ι) labels = some system)
    (own : calls request = .put data) (phase : system.phase request = .returned storagePath) :
    Whole storage calls data system := by
  have stage := run_invariant_along (Stage storage calls data) (.init data)
    (fun _ _ _ allowed stage taken => stage.step collisionFree own allowed taken) careful reached
  cases stage with
  | absent opener _ idle =>
    rcases idle request own with called | failed | ⟨opening, _⟩
    · cases phase.symm.trans called
    · cases phase.symm.trans failed
    · cases phase.symm.trans opening
  | started writer offset also writing _ _ others =>
    by_cases same : request = writer
    · subst same
      cases phase.symm.trans writing
    · rcases others request own same with called | failed
      · cases phase.symm.trans called
      · cases phase.symm.trans failed
  | whole whole => exact whole

end Step

end N8nSystems.Documents.Filesystem
