import Mathlib.Logic.Relation
import N8nSystems.Lib.PyDate
import N8nSystems.Lib.PyDumps
import N8nSystems.Lib.Run

/-! What `json.loads` returns: objects with distinct keys, and numbers that print. -/

namespace N8nSystems.Lib.Py

namespace Loads

variable {floats : FloatText}

def unsigned (chars : Text) : Text := if chars.head? = some 45 then chars.tail else chars

/-- What has been read of an integer is digits, after the sign. -/
structure Integral (chars : Text) : Prop where
  begun : chars ≠ []
  digits : ∀ d ∈ unsigned chars, isAsciiDigit d = true

def Numeral.IsIntegral : Numeral → Prop
  | .minus | .zero | .whole => True
  | _ => False

def Frame.Sound (floats : FloatText) : Frame → Prop
  | .array items => ∀ item ∈ items, Loaded floats item
  | .object fields _ => (fields.map Prod.fst).Nodup ∧ ∀ field ∈ fields, Loaded floats field.2

def Mode.Sound (floats : FloatText) : Mode → Prop
  | .finished result => Loaded floats result
  | .numeral chars place => place.IsIntegral → Integral chars
  | _ => True

/-- Everything read so far is such that `json.loads` can return it. -/
structure State.Sound (floats : FloatText) (state : State) : Prop where
  mode : state.mode.Sound floats
  stack : ∀ frame ∈ state.stack, frame.Sound floats

theorem sound_putField {key : Text} {value : Json} {fields : List (Text × Json)}
    (distinct : (fields.map Prod.fst).Nodup) (each : ∀ field ∈ fields, Loaded floats field.2)
    (loaded : Loaded floats value) :
    ((putField key value fields).map Prod.fst).Nodup ∧
      ∀ field ∈ putField key value fields, Loaded floats field.2 := by
  unfold putField
  split
  · have keys : (Json.setField key value fields).map Prod.fst = fields.map Prod.fst := by
      rw [Json.setField, List.map_map]
      apply List.map_congr_left
      intro field _
      by_cases here : field.1 = key <;> simp [here]
    refine ⟨keys ▸ distinct, ?_⟩
    intro field member
    obtain ⟨old, present, rfl⟩ := List.mem_map.mp member
    split
    · exact loaded
    · exact each old present
  · rename_i absent
    have fresh : key ∉ fields.map Prod.fst := by
      intro member
      obtain ⟨field, present, same⟩ := List.mem_map.mp member
      exact absent (List.any_eq_true.mpr ⟨field, present, decide_eq_true same⟩)
    constructor
    · rw [List.map_append]
      refine List.nodup_append.mpr ⟨distinct, List.pairwise_singleton _ _, ?_⟩
      rintro other present _ last rfl
      rw [List.mem_singleton.mp last] at present
      exact fresh present
    · intro field member
      rcases List.mem_append.mp member with old | new
      · exact each field old
      · rw [List.mem_singleton.mp new]
        exact loaded

theorem sound_complete {value : Json} {stack : List Frame} (loaded : Loaded floats value)
    (sound : ∀ frame ∈ stack, frame.Sound floats) : (complete value stack).Sound floats := by
  cases stack with
  | nil => exact ⟨loaded, sound⟩
  | cons frame rest =>
    have others : ∀ other ∈ rest, other.Sound floats :=
      fun other member => sound other (List.mem_cons_of_mem frame member)
    have here := sound frame List.mem_cons_self
    cases frame with
    | array items =>
      refine ⟨trivial, List.forall_mem_cons.mpr ⟨?_, others⟩⟩
      intro item member
      rcases List.mem_append.mp member with old | new
      · exact here item old
      · rw [List.mem_singleton.mp new]
        exact loaded
    | object fields key =>
      exact ⟨trivial, List.forall_mem_cons.mpr ⟨sound_putField here.1 here.2 loaded, others⟩⟩

theorem sound_afterValue {state next : State} {c : Nat} (sound : state.Sound floats)
    (taken : afterValue state c = some next) : next.Sound floats := by
  unfold afterValue at taken
  split at taken
  · cases taken
    exact sound
  split at taken
  · rename_i items rest _ stack
    have frames := stack ▸ sound.stack
    have others : ∀ frame ∈ rest, frame.Sound floats :=
      fun frame member => frames frame (List.mem_cons_of_mem _ member)
    split at taken
    · cases taken
      exact ⟨trivial, frames⟩
    split at taken
    · cases taken
      exact sound_complete (.array (frames _ List.mem_cons_self)) others
    · cases taken
  · rename_i fields key rest _ stack
    have frames := stack ▸ sound.stack
    have others : ∀ frame ∈ rest, frame.Sound floats :=
      fun frame member => frames frame (List.mem_cons_of_mem _ member)
    have here : Frame.Sound floats (.object fields key) := frames _ List.mem_cons_self
    split at taken
    · cases taken
      exact ⟨trivial, frames⟩
    split at taken
    · cases taken
      exact sound_complete (.object here.1 here.2) others
    · cases taken
  · cases taken

theorem integral_start {c : Nat} (start : c = 45 ∨ isAsciiDigit c = true) : Integral [c] := by
  refine ⟨List.cons_ne_nil c [], ?_⟩
  rcases start with rfl | digit
  · simp [unsigned]
  · intro d member
    unfold unsigned at member
    split at member
    · cases member
    · rwa [List.mem_singleton.mp member]

theorem of_ite {P test : Prop} [Decidable test] {first other : Option State} {next : State}
    (here : test → first = some next → P) (there : other = some next → P)
    (taken : (if test then first else other) = some next) : P := by
  by_cases held : test
  · rw [if_pos held] at taken
    exact here held taken
  · rw [if_neg held] at taken
    exact there taken

theorem sound_startValue {stack : List Frame} {c : Nat} {next : State}
    (sound : ∀ frame ∈ stack, frame.Sound floats) (taken : startValue stack c = some next) :
    next.Sound floats := by
  have kept {mode : Mode} (same : some ⟨mode, stack⟩ = some next) (begun : mode.Sound floats) :
      next.Sound floats := by
    cases same
    exact ⟨begun, sound⟩
  have pushed {mode : Mode} {frame : Frame} (same : some ⟨mode, frame :: stack⟩ = some next)
      (begun : mode.Sound floats) (empty : frame.Sound floats) : next.Sound floats := by
    cases same
    exact ⟨begun, List.forall_mem_cons.mpr ⟨empty, sound⟩⟩
  have word {word : Word} (same : some ⟨.word word 1, stack⟩ = some next) : next.Sound floats :=
    kept same trivial
  refine of_ite ?_ (of_ite ?_ (of_ite ?_ (of_ite ?_ (of_ite ?_ (of_ite ?_
    (of_ite (fun _ => word) (of_ite (fun _ => word) (of_ite (fun _ => word)
      (of_ite (fun _ => word) (of_ite (fun _ => word) ?_)))))))))) taken
  · exact fun _ same => kept same trivial
  · exact fun _ same => pushed same trivial ⟨List.nodup_nil, by simp⟩
  · exact fun _ same => pushed same trivial (by simp [Frame.Sound])
  · exact fun minus same => kept same fun _ => integral_start (.inl minus)
  · rintro rfl same
    exact kept same fun _ => integral_start (.inr rfl)
  · intro digit same
    refine kept same fun _ => integral_start (.inr ?_)
    simp only [isAsciiDigit, Bool.and_eq_true, decide_eq_true_eq]
    omega
  · intro none
    cases none

theorem unsigned_concat {chars : Text} (begun : chars ≠ []) (c : Nat) :
    unsigned (chars ++ [c]) = unsigned chars ++ [c] := by
  cases chars with
  | nil => exact absurd rfl begun
  | cons first rest =>
    by_cases minus : first = 45 <;> simp [unsigned, minus]

theorem integral_next {chars : Text} {place next : Numeral} {c : Nat} (integral : Integral chars)
    (read : place.next c = some next) (still : next.IsIntegral) : Integral (chars ++ [c]) := by
  have digit : isAsciiDigit c = true := by
    unfold Numeral.next at read
    cases next with
    | minus | zero | whole => cases place <;> grind [isAsciiDigit]
    | _ => exact still.elim
  refine ⟨by simp, ?_⟩
  rw [unsigned_concat integral.begun]
  intro d member
  rcases List.mem_append.mp member with earlier | last
  · exact integral.digits d earlier
  · rwa [List.mem_singleton.mp last]

theorem integral_before {place next : Numeral} {c : Nat} (read : place.next c = some next)
    (still : next.IsIntegral) : place.IsIntegral := by
  unfold Numeral.next at read
  cases next with
  | minus | zero | whole => cases place <;> grind [Numeral.IsIntegral]
  | _ => exact still.elim

theorem loaded_readInt {chars : Text} {value : Json} (integral : Integral chars)
    (read : readInt chars = some value) : Loaded floats value := by
  have bound : ∀ digit ∈ (unsigned chars).map (· - 48), digit < 10 := by
    intro digit member
    obtain ⟨d, present, rfl⟩ := List.mem_map.mp member
    have decimal := integral.digits d present
    simp only [isAsciiDigit, Bool.and_eq_true, decide_eq_true_eq] at decimal
    omega
  have small := spelled_lt bound
  rw [List.length_map] at small
  have shape : readInt chars = if (unsigned chars).length ≤ intMaxStrDigits then
      some (.int (if chars.head? = some 45 then -(spelled ((unsigned chars).map (· - 48)) : Int)
        else spelled ((unsigned chars).map (· - 48)))) else none := rfl
  rw [shape] at read
  by_cases short : (unsigned chars).length ≤ intMaxStrDigits
  · rw [if_pos short] at read
    cases read
    have wide : (Nat.toDigits 10 (spelled ((unsigned chars).map (· - 48)))).length ≤ intMaxStrDigits :=
      (Nat.length_toDigits_le_iff (by decide) (by decide)).mpr
        (small.trans_le (Nat.pow_le_pow_right (by decide) short))
    refine .int ?_
    split
    · rwa [Int.natAbs_neg, Int.natAbs_natCast]
    · rwa [Int.natAbs_natCast]
  · rw [if_neg short] at read
    cases read

theorem loaded_readNumeral (lawful : floats.Lawful) {chars : Text} {place : Numeral} {value : Json}
    (integral : place.IsIntegral → Integral chars) (read : readNumeral floats chars place = some value) :
    Loaded floats value := by
  cases place with
  | zero | whole => exact loaded_readInt (integral trivial) read
  | fraction | power =>
    cases read
    exact .float (lawful.isFloat chars) rfl
  | _ => cases read

theorem loaded_meaning (lawful : floats.Lawful) (word : Word) : Loaded floats (word.meaning floats) := by
  cases word with
  | null => exact .null
  | true | false => exact .bool
  | _ => exact .float (lawful.isFloat _) rfl

theorem sound_closed {chars : Text} {isKey : Bool} {stack : List Frame} {escape : Escape} {c : Nat}
    {next : State} (sound : ∀ frame ∈ stack, frame.Sound floats) (closed : closes escape c = true)
    (taken : step floats ⟨.string isKey chars escape, stack⟩ c = some next) : next.Sound floats := by
  simp only [step, closed] at taken
  cases isKey with
  | false =>
    cases taken
    exact sound_complete .string sound
  | true =>
    cases stack with
    | nil => cases taken
    | cons frame rest =>
      obtain ⟨here, others⟩ := List.forall_mem_cons.mp sound
      cases frame with
      | array items => cases taken
      | object fields key =>
        cases taken
        exact ⟨trivial, List.forall_mem_cons.mpr ⟨here, others⟩⟩

theorem sound_step (lawful : floats.Lawful) {state next : State} {c : Nat} (sound : state.Sound floats)
    (taken : step floats state c = some next) : next.Sound floats := by
  obtain ⟨mode, stack⟩ := state
  obtain ⟨begun, frames⟩ := sound
  have tail : ∀ frame ∈ stack.tail, frame.Sound floats :=
    fun frame member => frames frame (List.mem_of_mem_tail member)
  have kept (mode : Mode) (begun : mode.Sound floats) (same : some ⟨mode, stack⟩ = some next) :
      next.Sound floats := by
    cases same
    exact ⟨begun, frames⟩
  have started (same : startValue stack c = some next) : next.Sound floats :=
    sound_startValue frames same
  have stuck (same : none = some next) : next.Sound floats := by cases same
  cases mode with
  | value => exact of_ite (fun _ => kept .value trivial) started taken
  | firstItem =>
    refine of_ite (fun _ => kept .firstItem trivial) (of_ite (fun _ same => ?_) started) taken
    cases same
    exact sound_complete (.array (by simp)) tail
  | firstKey =>
    refine of_ite (fun _ => kept .firstKey trivial)
      (of_ite (fun _ => kept (.string true [] (.plain false)) trivial)
        (of_ite (fun _ same => ?_) stuck)) taken
    cases same
    exact sound_complete (.object List.nodup_nil (by simp)) tail
  | key =>
    exact of_ite (fun _ => kept .key trivial)
      (of_ite (fun _ => kept (.string true [] (.plain false)) trivial) stuck) taken
  | colon =>
    exact of_ite (fun _ => kept .colon trivial) (of_ite (fun _ => kept .value trivial) stuck) taken
  | done | finished => exact sound_afterValue ⟨begun, frames⟩ taken
  | string isKey chars escape =>
    by_cases closed : closes escape c = true
    · exact sound_closed frames closed taken
    · obtain ⟨read, _, rfl⟩ := Option.map_eq_some_iff.mp ((if_neg closed).symm.trans taken)
      exact ⟨trivial, frames⟩
  | numeral chars place =>
    cases read : place.next c with
    | some after =>
      simp only [step, read] at taken
      refine kept (.numeral (chars ++ [c]) after) (fun still => ?_) taken
      exact integral_next (begun (integral_before read still)) read still
    | none =>
      have ended (same : ((readNumeral floats chars place).bind fun value =>
          afterValue (complete value stack) c) = some next) : next.Sound floats := by
        obtain ⟨value, number, after⟩ := Option.bind_eq_some_iff.mp same
        exact sound_afterValue (sound_complete (loaded_readNumeral lawful begun number) frames) after
      cases place with
      | minus =>
        simp only [step, read] at taken
        exact of_ite (fun _ => kept (.word .minusInfinity 2) trivial) stuck taken
      | _ =>
        simp only [step, read] at taken
        exact ended taken
  | word word count =>
    refine of_ite (fun _ => of_ite (fun _ same => ?_)
      (kept (.word word (count + 1)) trivial)) stuck taken
    cases same
    exact sound_complete (loaded_meaning lawful word) frames

end Loads

/-- What `json.loads` returns can be printed and read again. -/
theorem loads_loaded {floats : FloatText} (lawful : floats.Lawful) {value : Text} {document : Json}
    (read : loads floats value = some document) : Loaded floats document := by
  obtain ⟨state, reached, finished⟩ := Option.bind_eq_some_iff.mp read
  have start : Loads.State.Sound floats ⟨.value, []⟩ := ⟨trivial, by simp⟩
  have sound : state.Sound floats :=
    run_invariant (Loads.State.Sound floats) start
      (fun before c after sound taken => Loads.sound_step lawful sound taken)
      ((run_eq_foldlM _ _ value).trans reached)
  obtain ⟨mode, stack⟩ := state
  cases mode with
  | finished result =>
    cases finished
    exact sound.mode
  | numeral chars place =>
    cases stack with
    | nil => exact Loads.loaded_readNumeral lawful sound.mode finished
    | cons frame rest => cases finished
  | _ => cases finished

theorem lookup_eq_some_iff {fields : List (Text × Json)} (distinct : (fields.map Prod.fst).Nodup)
    {key : Text} {value : Json} : Json.lookup key fields = some value ↔ (key, value) ∈ fields := by
  constructor
  · exact Json.mem_of_lookup
  · intro member
    induction fields with
    | nil => cases member
    | cons field rest ih =>
      obtain ⟨fresh, others⟩ := List.nodup_cons.mp distinct
      rcases List.mem_cons.mp member with rfl | later
      · simp [Json.lookup]
      · have other : field.1 ≠ key := by
          rintro rfl
          exact fresh (List.mem_map.mpr ⟨_, later, rfl⟩)
        have found := ih others later
        simp only [Json.lookup, List.find?_cons, other, decide_false] at found ⊢
        exact found

theorem Loaded.ofLookup {floats : FloatText} {fields : List (Text × Json)} {key : Text} {value : Json}
    (loaded : Loaded floats (.object fields)) (found : Json.lookup key fields = some value) :
    Loaded floats value := by
  cases loaded with
  | float isFloat => exact isFloat.elim
  | object distinct each => exact each _ (Json.mem_of_lookup found)

theorem Loaded.distinct {floats : FloatText} {fields : List (Text × Json)}
    (loaded : Loaded floats (.object fields)) : (fields.map Prod.fst).Nodup := by
  cases loaded with
  | float isFloat => exact isFloat.elim
  | object distinct each => exact distinct

theorem Loaded.item {floats : FloatText} {items : List Json} (loaded : Loaded floats (.array items))
    {item : Json} (member : item ∈ items) : Loaded floats item := by
  cases loaded with
  | float isFloat => exact isFloat.elim
  | array each => exact each item member

/-- One text somewhere in the value is replaced by a new one. -/
inductive Retexted (New : Text → Prop) : Json → Json → Prop
  | text (new : New value) : Retexted New (.string old) (.string value)
  | item (inner : Retexted New item other) :
      Retexted New (.array (before ++ item :: after)) (.array (before ++ other :: after))
  | field (inner : Retexted New value other) :
      Retexted New (.object (before ++ (key, value) :: after)) (.object (before ++ (key, other) :: after))

theorem Retexted.loaded {floats : FloatText} {New : Text → Prop} {value other : Json}
    (retexted : Retexted New value other) (loaded : Loaded floats value) : Loaded floats other := by
  induction retexted with
  | text => exact .string
  | @item item other before after inner ih =>
    refine .array ?_
    have each := List.forall_mem_append.mp fun _ => loaded.item
    obtain ⟨here, later⟩ := List.forall_mem_cons.mp each.2
    exact List.forall_mem_append.mpr ⟨each.1, List.forall_mem_cons.mpr ⟨ih here, later⟩⟩
  | @field value other before key after inner ih =>
    have keys : (before ++ (key, other) :: after).map Prod.fst = (before ++ (key, value) :: after).map Prod.fst := by
      simp
    cases loaded with
    | float isFloat => exact isFloat.elim
    | object distinct each =>
      refine .object (keys ▸ distinct) ?_
      obtain ⟨earlier, here, later⟩ := (List.forall_mem_append.trans
        (and_congr_right fun _ => List.forall_mem_cons)).mp each
      exact List.forall_mem_append.mpr ⟨earlier, List.forall_mem_cons.mpr ⟨ih here, later⟩⟩

open Relation (ReflTransGen)

/-- Texts in the items, one after the other. -/
theorem retexted_items {New : Text → Prop} {items others : List Json}
    (each : List.Forall₂ (ReflTransGen (Retexted New)) items others) :
    ReflTransGen (Retexted New) (.array items) (.array others) := by
  suffices placed : ∀ before, ReflTransGen (Retexted New) (.array (before ++ items)) (.array (before ++ others)) from
    placed []
  induction each with
  | nil => exact fun _ => .refl
  | @cons item other items others here later ih =>
    intro before
    have first : ReflTransGen (Retexted New) (.array (before ++ item :: items))
        (.array (before ++ other :: items)) :=
      here.lift (fun value => Json.array (before ++ value :: items)) fun _ _ => .item
    refine first.trans ?_
    have rest := ih (before ++ [other])
    simpa only [List.append_assoc, List.singleton_append] using rest

theorem setField_split {key : Text} {value : Json} {fields : List (Text × Json)}
    (distinct : (fields.map Prod.fst).Nodup) (found : Json.lookup key fields = some value) :
    ∃ before after, fields = before ++ (key, value) :: after ∧
      ∀ other, Json.setField key other fields = before ++ (key, other) :: after := by
  obtain ⟨before, after, rfl⟩ := List.append_of_mem (Json.mem_of_lookup found)
  refine ⟨before, after, rfl, ?_⟩
  intro other
  have front := (List.perm_middle.map Prod.fst).nodup_iff.mp distinct
  rw [List.map_cons, List.nodup_cons, List.map_append, List.mem_append, not_or] at front
  have kept {part : List (Text × Json)} (absent : key ∉ part.map Prod.fst) :
      Json.setField key other part = part := by
    refine (List.map_congr_left ?_).trans (List.map_id part)
    intro field member
    refine if_neg ?_
    rintro rfl
    exact absent (List.mem_map_of_mem member)
  have parts : Json.setField key other (before ++ (key, value) :: after) =
      Json.setField key other before ++ (key, other) :: Json.setField key other after := by
    simp [Json.setField]
  rw [parts, kept front.1.1, kept front.1.2]

/-- Texts in the value of a field. -/
theorem retexted_setField {New : Text → Prop} {key : Text} {value other : Json}
    {fields : List (Text × Json)} (distinct : (fields.map Prod.fst).Nodup)
    (found : Json.lookup key fields = some value) (inner : ReflTransGen (Retexted New) value other) :
    ReflTransGen (Retexted New) (.object fields) (.object (Json.setField key other fields)) := by
  obtain ⟨before, after, same, replaced⟩ := setField_split distinct found
  rw [replaced other]
  nth_rewrite 1 [same]
  exact inner.lift (fun value => Json.object (before ++ (key, value) :: after)) fun _ _ => .field

end N8nSystems.Lib.Py
