import N8nSystems.Lib.PyFloat

/-! `str.lower`: what a text keeps when it is put in lower case. -/

namespace N8nSystems.Lib.Py

/-- Each character of a text replaced by a piece. -/
inductive Replaced (Lowers : Nat → Text → Prop) : Text → Text → Prop
  | nil : Replaced Lowers [] []
  | cons (first : Lowers c piece) (later : Replaced Lowers value lowered) :
    Replaced Lowers (c :: value) (piece ++ lowered)

/-- Lower case, with what the standard fixes about it. A character has one lower case, or
two in the case of the capital sigma. Beyond ASCII no character has an ASCII lower case but
the capital I with a dot and the Kelvin sign. -/
structure Lowering where
  lower : Text → Text
  Lowers : Nat → Text → Prop
  lower_replaced : ∀ value, Replaced Lowers value (lower value)
  ascii : ∀ c piece, c < 128 → Lowers c piece → piece = [asciiLower c]
  beyond : ∀ c piece, 128 ≤ c → Lowers c piece →
    piece ≠ [] ∧ ∀ d ∈ piece, 128 ≤ d ∨ d = 105 ∨ d = 107
  space : ∀ c piece, Lowers c piece → ∀ d ∈ piece, isSpace d = isSpace c
  stable : ∀ c piece, Lowers c piece → ∀ d ∈ piece, ∀ again, Lowers d again → again = [d]

namespace Lowering

variable (table : Lowering) {c : Nat} {piece value lowered : Text}

/-- The lowered text and the text it comes from. -/
abbrev Lowered (value lowered : Text) : Prop := Replaced table.Lowers value lowered

variable {table}

theorem piece_ne_nil (lowers : table.Lowers c piece) : piece ≠ [] := by
  by_cases ascii : c < 128
  · rw [table.ascii c piece ascii lowers]
    exact List.cons_ne_nil _ _
  · exact (table.beyond c piece (not_lt.mp ascii) lowers).1

/-- A character that is no letter stands for itself only. -/
theorem mark_mem_piece {mark : Nat} (below : mark < 65) (lowers : table.Lowers c piece) :
    mark ∈ piece ↔ mark = c := by
  by_cases ascii : c < 128
  · rw [table.ascii c piece ascii lowers, List.mem_singleton, asciiLower]
    split <;> omega
  · constructor
    · intro member
      have far := (table.beyond c piece (not_lt.mp ascii) lowers).2 mark member
      omega
    · omega

theorem Lowered.mark_mem {mark : Nat} (below : mark < 65) (origin : table.Lowered value lowered) :
    mark ∈ lowered ↔ mark ∈ value := by
  induction origin with
  | nil => rfl
  | cons first later ih => rw [List.mem_append, List.mem_cons, mark_mem_piece below first, ih]

theorem Lowered.spaces (origin : table.Lowered value lowered) :
    (∀ d ∈ lowered, isSpace d = false) ↔ ∀ c ∈ value, isSpace c = false := by
  induction origin with
  | nil => simp
  | cons first later ih =>
    rename_i c piece value lowered
    obtain ⟨d, member⟩ := List.exists_mem_of_ne_nil piece (piece_ne_nil first)
    simp only [List.mem_append, or_imp, forall_and, List.mem_cons, forall_eq, ih]
    refine and_congr_left' ⟨fun clean => ?_, fun clean d among => ?_⟩
    · rw [← table.space c piece first d member]
      exact clean d member
    · rw [table.space c piece first d among]
      exact clean

theorem Lowered.takeWhile {mark : Nat} (below : mark < 65) (origin : table.Lowered value lowered) :
    table.Lowered (value.takeWhile (· ≠ mark)) (lowered.takeWhile (· ≠ mark)) := by
  induction origin with
  | nil => exact .nil
  | cons first later ih =>
    rename_i c piece value lowered
    by_cases same : mark = c
    · subst same
      have stop : asciiLower mark = mark := by
        rw [asciiLower, if_neg (by omega)]
      rw [table.ascii mark piece (by omega) first, stop, List.singleton_append,
        List.takeWhile_cons_of_neg (by simp), List.takeWhile_cons_of_neg (by simp)]
      exact .nil
    · have apart : ∀ d ∈ piece, decide (d ≠ mark) = true := by
        intro d member
        apply decide_eq_true
        rintro rfl
        exact same ((mark_mem_piece below first).mp member)
      rw [List.takeWhile_append_of_pos apart, List.takeWhile_cons_of_pos (by simpa using Ne.symm same)]
      exact .cons first ih

/-- A start in ASCII letters that no other character has as its lower case. -/
theorem Lowered.drop {start : Text} (plain : ∀ a ∈ start, a < 128 ∧ a ≠ 105 ∧ a ≠ 107)
    (origin : table.Lowered value lowered) :
    (start <+: lowered ↔ start <+: value.map asciiLower) ∧
      (start <+: lowered → table.Lowered (value.drop start.length) (lowered.drop start.length)) := by
  induction start generalizing value lowered with
  | nil => exact ⟨by simp, fun _ => origin⟩
  | cons a start ih =>
    cases origin with
    | nil => simp
    | cons first later =>
      rename_i c piece value lowered
      by_cases ascii : c < 128
      · rw [table.ascii c piece ascii first, List.singleton_append, List.map_cons,
          List.cons_prefix_cons, List.cons_prefix_cons]
        obtain ⟨here, there⟩ := ih (fun b member => plain b (List.mem_cons_of_mem a member)) later
        exact ⟨and_congr_right fun _ => here, fun started => there started.2⟩
      · -- neither the character nor a part of its lower case is the first letter
        obtain ⟨nonempty, far⟩ := table.beyond c piece (not_lt.mp ascii) first
        obtain ⟨low, notI, notK⟩ := plain a List.mem_cons_self
        obtain ⟨d, rest, rfl⟩ := List.exists_cons_of_ne_nil nonempty
        have other : a ≠ d := by
          have := far d List.mem_cons_self
          omega
        have kept : a ≠ asciiLower c := by
          rw [asciiLower, if_neg (by omega)]
          omega
        simp [List.cons_prefix_cons, other, kept]

theorem Lowered.stable (origin : table.Lowered value lowered) :
    ∀ d ∈ lowered, ∀ again, table.Lowers d again → again = [d] := by
  induction origin with
  | nil => simp
  | cons first later ih =>
    intro d member
    rcases List.mem_append.mp member with here | there
    · exact table.stable _ _ first d here
    · exact ih d there

/-- Characters of a lowered text stay as they are. -/
theorem lower_of_stable (stable : ∀ d ∈ value, ∀ again, table.Lowers d again → again = [d]) :
    table.lower value = value := by
  have replaced := table.lower_replaced value
  generalize table.lower value = lowered at replaced ⊢
  induction replaced with
  | nil => rfl
  | cons first later ih =>
    rw [stable _ List.mem_cons_self _ first, ih fun d member => stable d (List.mem_cons_of_mem _ member)]
    rfl

end Lowering

def AsciiLowers (c : Nat) (piece : Text) : Prop := piece = [asciiLower c]

theorem map_asciiLower_replaced (value : Text) : Replaced AsciiLowers value (value.map asciiLower) := by
  induction value with
  | nil => exact .nil
  | cons c value ih => exact .cons rfl ih

theorem asciiLowers_eq (c : Nat) (piece : Text) (_ : c < 128) (lowers : AsciiLowers c piece) :
    piece = [asciiLower c] := lowers

theorem asciiLowers_beyond (c : Nat) (piece : Text) (far : 128 ≤ c) (lowers : AsciiLowers c piece) :
    piece ≠ [] ∧ ∀ d ∈ piece, 128 ≤ d ∨ d = 105 ∨ d = 107 := by
  have kept : asciiLower c = c := by
    rw [asciiLower, if_neg (by omega)]
  rw [lowers, kept]
  simp [far]

theorem asciiLowers_space (c : Nat) (piece : Text) (lowers : AsciiLowers c piece) :
    ∀ d ∈ piece, isSpace d = isSpace c := by
  rw [lowers]
  intro d member
  rw [List.mem_singleton.mp member, asciiLower]
  split
  · apply Bool.eq_iff_iff.mpr
    simp only [isSpace, Bool.or_eq_true, Bool.and_eq_true, decide_eq_true_eq, beq_iff_eq]
    omega
  · rfl

theorem asciiLowers_stable (c : Nat) (piece : Text) (lowers : AsciiLowers c piece) :
    ∀ d ∈ piece, ∀ again, AsciiLowers d again → again = [d] := by
  rw [lowers]
  intro d member again lowersAgain
  rw [lowersAgain, List.mem_singleton.mp member, asciiLower, asciiLower]
  split
  · rw [if_neg (by omega)]
  · rfl

/-- Lower case as far as ASCII goes. -/
def asciiLowering : Lowering where
  lower value := value.map asciiLower
  Lowers := AsciiLowers
  lower_replaced := map_asciiLower_replaced
  ascii := asciiLowers_eq
  beyond := asciiLowers_beyond
  space := asciiLowers_space
  stable := asciiLowers_stable

end N8nSystems.Lib.Py
