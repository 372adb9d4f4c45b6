import N8nSystems.Lib.PyValue

/-! The part of Python's `re` that only asks whether a pattern matches. A pattern is
run over every way to match it, so greedy and lazy repeats do not differ. -/

namespace N8nSystems.Lib.Py

/-- The letter that a code point stands for under `re.I`: beside the ASCII capitals
four others match an ASCII letter. -/
def foldCase (c : Nat) : Nat :=
  if 65 ≤ c ∧ c ≤ 90 then c + 32
  else if c = 0x17F then 115
  else if c = 0x212A then 107
  else if c = 0x130 ∨ c = 0x131 then 105
  else c

inductive Regex where
  /-- One character of a class. -/
  | one (accepts : Nat → Bool)
  /-- `accepts{low,high}`. -/
  | many (low : Nat) (high : Option Nat) (accepts : Nat → Bool)
  /-- `\b`, over what counts as `\w`. -/
  | boundary (word : Nat → Bool)
  | seq (parts : List Regex)
  | oneOf (choices : List Regex)

namespace Regex

def inRange (first last : Char) (c : Nat) : Bool := first.toNat ≤ c && c ≤ last.toNat

def upper : Nat → Bool := inRange 'A' 'Z'

def lower : Nat → Bool := inRange 'a' 'z'

def literal (letters : String) : Regex := .seq ((text letters).map fun letter => .one (· == letter))

/-- A literal under `re.I`. -/
def anyCase (letters : String) : Regex :=
  .seq ((text letters).map fun letter => .one fun c => foldCase c == foldCase letter)

def anyOf (letters : String) (c : Nat) : Bool := c ∈ text letters

/-- The character before a place in a text, and the text from there. -/
abbrev Place := Option Nat × Text

def repeats (accepts : Nat → Bool) : Nat → Option Nat → Option Nat → Text → List Place
  | low, _, before, [] => if low = 0 then [(before, [])] else []
  | low, high, before, c :: rest =>
    (if low = 0 then [(before, c :: rest)] else []) ++
      (if accepts c ∧ high ≠ some 0 then
        repeats accepts (low - 1) (high.map (· - 1)) (some c) rest
      else [])

mutual

/-- The places where a match that starts at this one may end. -/
def ends : Regex → Place → List Place
  | .one accepts, (_, c :: rest) => if accepts c then [(some c, rest)] else []
  | .one _, (_, []) => []
  | .many low high accepts, (before, value) => repeats accepts low high before value
  | .boundary word, (before, value) =>
    if before.any word != value.head?.any word then [(before, value)] else []
  | .seq parts, place => seqEnds parts place
  | .oneOf choices, place => choiceEnds choices place
  termination_by structural regex => regex

def seqEnds : List Regex → Place → List Place
  | [], place => [place]
  | part :: parts, place => (ends part place).flatMap (seqEnds parts)
  termination_by structural parts => parts

def choiceEnds : List Regex → Place → List Place
  | [], _ => []
  | choice :: choices, place => ends choice place ++ choiceEnds choices place
  termination_by structural choices => choices

end

/-- `pattern.search(value)`, from this place on. -/
def searchFrom (regex : Regex) : Option Nat → Text → Bool
  | before, [] => !(regex.ends (before, [])).isEmpty
  | before, c :: rest => !(regex.ends (before, c :: rest)).isEmpty || searchFrom regex (some c) rest

def search (regex : Regex) (value : Text) : Bool := regex.searchFrom none value

def fullmatch (regex : Regex) (value : Text) : Bool :=
  (regex.ends (none, value)).any fun place => place.2.isEmpty

/-- The pieces of text that a pattern without boundaries matches: they do not depend on
the text around them. -/
def Matches (regex : Regex) (Piece : Text → Prop) : Prop :=
  ∀ before value rest, (∃ last, (last, rest) ∈ regex.ends (before, value)) ↔
    ∃ piece, Piece piece ∧ value = piece ++ rest

variable {regex part : Regex} {parts : List Regex} {Piece First Rest : Text → Prop}

theorem matches_one (accepts : Nat → Bool) :
    Matches (.one accepts) fun piece => ∃ c, accepts c = true ∧ piece = [c] := by
  intro before value rest
  constructor
  · rintro ⟨last, member⟩
    cases value with
    | nil => cases member
    | cons c value =>
      obtain ⟨accepted, member⟩ := List.mem_ite_nil_right.mp member
      cases List.mem_singleton.mp member
      exact ⟨[c], ⟨c, accepted, rfl⟩, rfl⟩
  · rintro ⟨piece, ⟨c, accepted, rfl⟩, rfl⟩
    exact ⟨some c, List.mem_ite_nil_right.mpr ⟨accepted, List.mem_singleton.mpr rfl⟩⟩

theorem repeats_none (accepts : Nat → Bool) (before : Option Nat) (value : Text) :
    repeats accepts 0 (some 0) before value = [(before, value)] := by
  cases value <;> simp [repeats]

theorem matches_optional (accepts : Nat → Bool) :
    Matches (.many 0 (some 1) accepts) fun piece => piece = [] ∨ ∃ c, accepts c = true ∧ piece = [c] := by
  intro before value rest
  cases value with
  | nil =>
    constructor
    · rintro ⟨last, member⟩
      cases List.mem_singleton.mp member
      exact ⟨[], Or.inl rfl, rfl⟩
    · rintro ⟨piece, empty | ⟨c, accepted, rfl⟩, same⟩
      · subst empty
        cases same
        exact ⟨before, List.mem_singleton.mpr rfl⟩
      · cases same
  | cons c value =>
    have found : ∀ place, place ∈ ends (.many 0 (some 1) accepts) (before, c :: value) ↔
        place = (before, c :: value) ∨ accepts c = true ∧ place = (some c, value) := by
      intro place
      cases accepted : accepts c <;> simp [ends, repeats, accepted, repeats_none]
    simp only [found]
    constructor
    · rintro ⟨last, same | ⟨accepted, same⟩⟩
      · cases same
        exact ⟨[], Or.inl rfl, rfl⟩
      · cases same
        exact ⟨[c], Or.inr ⟨c, accepted, rfl⟩, rfl⟩
    · rintro ⟨piece, rfl | ⟨d, accepted, rfl⟩, same⟩
      · exact ⟨before, Or.inl (by rw [same]; rfl)⟩
      · cases same
        exact ⟨some c, Or.inr ⟨accepted, rfl⟩⟩

theorem matches_seq_nil : Matches (.seq []) fun piece => piece = [] := by
  intro before value rest
  simp [ends, seqEnds, eq_comm]

theorem Matches.cons (first : part.Matches First) (later : Matches (.seq parts) Rest) :
    Matches (.seq (part :: parts)) fun piece => ∃ front back, First front ∧ Rest back ∧ piece = front ++ back := by
  intro before value rest
  simp only [ends, seqEnds, List.mem_flatMap]
  constructor
  · rintro ⟨last, ⟨between, middle⟩, here, there⟩
    obtain ⟨front, reads, rfl⟩ := (first before value middle).mp ⟨between, here⟩
    obtain ⟨back, continues, rfl⟩ := (later between middle rest).mp ⟨last, there⟩
    exact ⟨front ++ back, ⟨front, back, reads, continues, rfl⟩, by simp⟩
  · rintro ⟨piece, ⟨front, back, reads, continues, rfl⟩, rfl⟩
    obtain ⟨between, here⟩ := (first before (front ++ back ++ rest) (back ++ rest)).mpr
      ⟨front, reads, by simp⟩
    obtain ⟨last, there⟩ := (later between (back ++ rest) rest).mpr ⟨back, continues, rfl⟩
    exact ⟨last, (between, back ++ rest), here, there⟩

/-- Letters that are told apart by `f`. -/
theorem matches_letters (f : Nat → Nat) (letters : Text) :
    Matches (.seq (letters.map fun letter => .one fun c => f c == f letter))
      fun piece => piece.map f = letters.map f := by
  induction letters with
  | nil => simpa using matches_seq_nil
  | cons letter letters ih =>
    intro before value rest
    rw [List.map_cons, (matches_one _).cons ih]
    refine exists_congr fun piece => and_congr_left' ?_
    simp only [beq_iff_eq, List.map_cons, List.map_eq_cons_iff]
    constructor
    · rintro ⟨front, back, ⟨c, same, rfl⟩, letters, rfl⟩
      exact ⟨c, back, rfl, same, letters⟩
    · rintro ⟨c, back, rfl, same, letters⟩
      exact ⟨[c], back, ⟨c, same, rfl⟩, letters, rfl⟩

/-- A search finds a piece that the pattern matches. -/
theorem Matches.search (spec : regex.Matches Piece) {value : Text} :
    regex.search value = true ↔ ∃ piece, Piece piece ∧ piece <:+: value := by
  have starts : ∀ before rest, (regex.ends (before, rest)).isEmpty = false ↔
      ∃ piece, Piece piece ∧ piece <+: rest := by
    intro before rest
    rw [List.isEmpty_eq_false_iff_exists_mem]
    constructor
    · rintro ⟨⟨last, tail⟩, member⟩
      obtain ⟨piece, reads, rfl⟩ := (spec before rest tail).mp ⟨last, member⟩
      exact ⟨piece, reads, List.prefix_append piece tail⟩
    · rintro ⟨piece, reads, tail, rfl⟩
      obtain ⟨last, member⟩ := (spec before (piece ++ tail) tail).mpr ⟨piece, reads, rfl⟩
      exact ⟨(last, tail), member⟩
  suffices everywhere : ∀ before, regex.searchFrom before value = true ↔
      ∃ piece, Piece piece ∧ piece <:+: value from everywhere none
  induction value with
  | nil =>
    intro before
    simp [searchFrom, starts]
  | cons c rest ih =>
    intro before
    simp only [searchFrom, Bool.or_eq_true, Bool.not_eq_true', starts, ih, List.infix_cons_iff,
      and_or_left, exists_or]

end Regex

end N8nSystems.Lib.Py
