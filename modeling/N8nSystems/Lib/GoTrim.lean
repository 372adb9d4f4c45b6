import N8nSystems.Lib.GoText

/-! What `strings.TrimSpace` and `strings.SplitN` return on a text put together
from padding and a core, and the round trip of decimal text. -/

namespace N8nSystems.Lib.Go

/-- No affix starts the text. -/
def Stops (affixes : List Bytes) (text : Bytes) : Prop := ∀ affix ∈ affixes, ¬ affix <+: text

/-- An affix that starts another one is that one, and none is empty. -/
structure PrefixFree (affixes : List Bytes) : Prop where
  nonempty : [] ∉ affixes
  unique : ∀ first ∈ affixes, ∀ second ∈ affixes, first <+: second → first = second

/-- A run of white space: encodings of space runes one after the other. -/
def Blank (text : Bytes) : Prop := ∃ runes : List Bytes, (∀ rune ∈ runes, rune ∈ spaceRunes) ∧ text = runes.flatten

/-- A byte that occurs in no encoding of a space rune. -/
def Plain (b : UInt8) : Prop := ∀ rune ∈ spaceRunes, b ∉ rune

instance (b : UInt8) : Decidable (Plain b) :=
  inferInstanceAs (Decidable (∀ rune ∈ spaceRunes, b ∉ rune))

instance (affixes : List Bytes) (text : Bytes) : Decidable (Stops affixes text) :=
  inferInstanceAs (Decidable (∀ affix ∈ affixes, ¬ affix <+: text))

theorem spaceRunes_prefixFree : PrefixFree spaceRunes := ⟨by decide, by decide⟩

theorem spaceRunes_reverse_prefixFree : PrefixFree (spaceRunes.map List.reverse) :=
  ⟨by decide, by decide⟩

section Affixes

variable {affixes : List Bytes}

theorem dropAffixes_stops (stops : Stops affixes text) (fuel : Nat) :
    dropAffixes affixes fuel text = text := by
  cases fuel with
  | zero => rfl
  | succ fuel =>
    have missing : affixes.find? (·.isPrefixOf text) = none := by
      rw [List.find?_eq_none]
      intro affix member
      rw [List.isPrefixOf_iff_prefix]
      exact stops affix member
    rw [dropAffixes, missing]

theorem PrefixFree.find?_append (free : PrefixFree affixes) (member : affix ∈ affixes)
    (rest : Bytes) : affixes.find? (·.isPrefixOf (affix ++ rest)) = some affix := by
  have here : (affixes.find? (·.isPrefixOf (affix ++ rest))).isSome := by
    rw [List.find?_isSome]
    exact ⟨affix, member, by simp⟩
  obtain ⟨found, same⟩ := Option.isSome_iff_exists.mp here
  have starts : found <+: affix ++ rest := by simpa using List.find?_some same
  have listed := List.mem_of_find?_eq_some same
  -- both start the same text, so one of them starts the other
  rcases List.prefix_or_prefix_of_prefix starts (List.prefix_append affix rest) with short | long
  · rw [same, free.unique found listed affix member short]
  · rw [same, free.unique affix member found listed long]

theorem PrefixFree.dropAffixes_flatten (free : PrefixFree affixes) {runes : List Bytes}
    (members : ∀ rune ∈ runes, rune ∈ affixes) (stops : Stops affixes rest)
    (enough : runes.length ≤ fuel) : dropAffixes affixes fuel (runes.flatten ++ rest) = rest := by
  induction runes generalizing fuel with
  | nil => exact dropAffixes_stops stops fuel
  | cons first others ih =>
    cases fuel with
    | zero => simp at enough
    | succ fuel =>
      have listed := members first (by simp)
      rw [List.flatten_cons, List.append_assoc, dropAffixes, free.find?_append listed]
      simp only [List.drop_left]
      exact ih (fun rune later => members rune (by simp [later])) (by simpa using enough)

theorem PrefixFree.length_flatten (free : PrefixFree affixes) {runes : List Bytes}
    (members : ∀ rune ∈ runes, rune ∈ affixes) : runes.length ≤ runes.flatten.length := by
  induction runes with
  | nil => simp
  | cons first others ih =>
    have rest := ih fun rune later => members rune (by simp [later])
    have bytes : first ≠ [] := by
      intro empty
      exact free.nonempty (empty ▸ members first (by simp))
    have size := List.length_pos_iff.mpr bytes
    simp only [List.length_cons, List.flatten_cons, List.length_append]
    omega

/-- A byte of no affix ends every affix that starts before it. -/
theorem prefix_before (absent : b ∉ affix) (starts : affix <+: head ++ b :: tail) :
    affix <+: head := by
  induction affix generalizing head with
  | nil => exact List.nil_prefix
  | cons first rest ih =>
    simp only [List.mem_cons, not_or] at absent
    cases head with
    | nil =>
      rw [List.nil_append, List.cons_prefix_cons] at starts
      exact absurd starts.1.symm absent.1
    | cons other others =>
      rw [List.cons_append, List.cons_prefix_cons] at starts
      rw [List.cons_prefix_cons]
      exact ⟨starts.1, ih absent.2 starts.2⟩

/-- Dropping affixes does not pass a byte that occurs in none of them. -/
theorem dropAffixes_before (absent : ∀ affix ∈ affixes, b ∉ affix) (fuel : Nat)
    (head tail : Bytes) : ∃ kept, dropAffixes affixes fuel (head ++ b :: tail) = kept ++ b :: tail := by
  induction fuel generalizing head with
  | zero => exact ⟨head, rfl⟩
  | succ fuel ih =>
    rw [dropAffixes]
    cases found : affixes.find? (·.isPrefixOf (head ++ b :: tail)) with
    | none => exact ⟨head, rfl⟩
    | some affix =>
      have starts : affix <+: head ++ b :: tail := by simpa using List.find?_some found
      have size := (prefix_before (absent affix (List.mem_of_find?_eq_some found)) starts).length_le
      simp only [List.drop_append_of_le_length size]
      exact ih (head.drop affix.length)

end Affixes

theorem stops_before (absent : ∀ affix ∈ affixes, b ∉ affix) (stops : Stops affixes head)
    (tail : Bytes) : Stops affixes (head ++ b :: tail) :=
  fun affix member starts => stops affix member (prefix_before (absent affix member) starts)

theorem spaceRunes_stops_nil : Stops spaceRunes [] := by
  decide

theorem Plain.reverse (byte : Plain b) : ∀ rune ∈ spaceRunes.map List.reverse, b ∉ rune := by
  intro rune member
  obtain ⟨source, listed, rfl⟩ := List.mem_map.mp member
  simpa using byte source listed

theorem Blank.dropAffixes (blank : Blank left) (stops : Stops spaceRunes text) :
    dropAffixes spaceRunes (left ++ text).length (left ++ text) = text := by
  obtain ⟨runes, members, rfl⟩ := blank
  apply spaceRunes_prefixFree.dropAffixes_flatten members stops
  have size := spaceRunes_prefixFree.length_flatten members
  rw [List.length_append]
  omega

theorem Blank.reverse (blank : Blank right) :
    ∃ runes : List Bytes, (∀ rune ∈ runes, rune ∈ spaceRunes.map List.reverse) ∧
      right.reverse = runes.flatten := by
  obtain ⟨runes, members, rfl⟩ := blank
  refine ⟨(runes.map List.reverse).reverse, ?_, List.reverse_flatten⟩
  intro rune member
  obtain ⟨source, listed, rfl⟩ := List.mem_map.mp (List.mem_reverse.mp member)
  exact List.mem_map_of_mem (members source listed)

/-- Padding is trimmed off on the left, and on the right at most up to a plain byte. -/
theorem trimSpace_before (blank : Blank left) (byte : Plain b) (stops : Stops spaceRunes head)
    (tail : Bytes) : ∃ kept, trimSpace (left ++ (head ++ b :: tail)) = head ++ b :: kept := by
  have text := blank.dropAffixes (stops_before byte stops tail)
  have backwards : (head ++ b :: tail).reverse = tail.reverse ++ b :: head.reverse := by simp
  obtain ⟨kept, dropped⟩ := dropAffixes_before byte.reverse (head ++ b :: tail).length
    tail.reverse head.reverse
  refine ⟨kept.reverse, ?_⟩
  simp only [trimSpace, text]
  rw [backwards, dropped]
  simp

/-- A core of plain bytes is what trimming leaves of its padded text. -/
theorem trimSpace_padded (left_blank : Blank left) (right_blank : Blank right)
    (plain : ∀ b ∈ core, Plain b) (present : core ≠ []) :
    trimSpace (left ++ (core ++ right)) = core := by
  obtain ⟨first, rest, rfl⟩ := List.exists_cons_of_ne_nil present
  have forwards := left_blank.dropAffixes
    (stops_before (plain first (by simp)) spaceRunes_stops_nil (rest ++ right))
  rw [List.nil_append, ← List.cons_append] at forwards
  obtain ⟨runes, members, same⟩ := right_blank.reverse
  have backwards : Stops (spaceRunes.map List.reverse) (first :: rest).reverse := by
    have shape := List.dropLast_concat_getLast present
    have empty : Stops (spaceRunes.map List.reverse) [] := by decide
    rw [← shape, List.reverse_append]
    exact stops_before (plain _ (List.getLast_mem present)).reverse empty _
  simp only [trimSpace, forwards]
  rw [List.reverse_append, same, spaceRunes_reverse_prefixFree.dropAffixes_flatten members backwards,
    List.reverse_reverse]
  have size := spaceRunes_reverse_prefixFree.length_flatten members
  rw [← same, List.length_reverse] at size
  rw [List.length_append]
  omega

theorem blank_nil : Blank [] := ⟨[], by simp, rfl⟩

theorem trimSpace_plain (plain : ∀ b ∈ core, Plain b) : trimSpace core = core := by
  by_cases present : core = []
  · rw [present]
    rfl
  · simpa using trimSpace_padded blank_nil blank_nil plain present

/-- Trimming takes no plain byte away. -/
theorem mem_trimSpace (byte : Plain b) (member : b ∈ text) : b ∈ trimSpace text := by
  obtain ⟨head, tail, rfl⟩ := List.append_of_mem member
  obtain ⟨before, forwards⟩ := dropAffixes_before byte (head ++ b :: tail).length head tail
  have reversed : (before ++ b :: tail).reverse = tail.reverse ++ b :: before.reverse := by simp
  obtain ⟨after, backwards⟩ := dropAffixes_before byte.reverse (before ++ b :: tail).length
    tail.reverse before.reverse
  simp only [trimSpace, forwards]
  rw [reversed, backwards]
  simp

theorem Blank.not_mem (blank : Blank text) (byte : Plain b) : b ∉ text := by
  obtain ⟨runes, members, rfl⟩ := blank
  intro member
  obtain ⟨rune, listed, inside⟩ := List.mem_flatten.mp member
  exact byte rune (members rune listed) inside

theorem cut_append {head tail : Bytes} (absent : separator ∉ head) :
    cut (head ++ separator :: tail) separator = some (head, tail) := by
  have differs : ∀ b ∈ head, (b != separator) = true := by
    intro b member
    exact bne_iff_ne.mpr fun same => absent (same ▸ member)
  rw [cut, List.dropWhile_append_of_pos differs, List.takeWhile_append_of_pos differs]
  simp

/-- The byte of an ASCII letter or digit, or one of `+ - / =`. -/
def WordByte (b : UInt8) : Prop :=
  48 ≤ b ∧ b ≤ 57 ∨ 65 ≤ b ∧ b ≤ 90 ∨ 97 ≤ b ∧ b ≤ 122 ∨ b = 43 ∨ b = 45 ∨ b = 47 ∨ b = 61

instance (b : UInt8) : Decidable (WordByte b) :=
  inferInstanceAs (Decidable
    (48 ≤ b ∧ b ≤ 57 ∨ 65 ≤ b ∧ b ≤ 90 ∨ 97 ≤ b ∧ b ≤ 122 ∨ b = 43 ∨ b = 45 ∨ b = 47 ∨ b = 61))

/-- A text of word bytes, by evaluation. -/
theorem wordBytes_of_all {part : Bytes} (all : part.all (fun b => decide (WordByte b)) = true) :
    ∀ b ∈ part, WordByte b := by
  simpa only [List.all_eq_true, decide_eq_true_eq] using all

theorem WordByte.plain (byte : WordByte b) : Plain b := by
  have spaces : ∀ space ∈ spaceRunes.flatten, ¬ WordByte space := by
    have none : spaceRunes.flatten.all (fun b => ! decide (WordByte b)) = true := rfl
    simpa only [List.all_eq_true, Bool.not_eq_true', decide_eq_false_iff_not] using none
  intro rune listed inside
  exact spaces b (List.mem_flatten.mpr ⟨rune, listed, inside⟩) byte

theorem WordByte.ne_comma (byte : WordByte b) : b ≠ 44 := by
  intro comma
  rw [comma] at byte
  exact absurd byte (by decide)

theorem IntByte.word (byte : IntByte b) : WordByte b := by
  rcases byte with minus | plus | digit
  · exact .inr (.inr (.inr (.inr (.inl minus))))
  · exact .inr (.inr (.inr (.inl plus)))
  · exact .inl digit

/-- `strconv.ParseInt` reads back what `%d` prints of an int64. -/
theorem parseInt_formatInt (lower : -(2 ^ 63) ≤ n) (upper : n < 2 ^ 63) :
    parseInt (formatInt n) = some n := by
  rw [parseInt, parseSign_formatInt]
  by_cases negative : n < 0
  · have fits : n.natAbs ≤ 2 ^ 63 := by omega
    simp only [negative, decide_true, parseDigits_toDigits, Option.bind_some, fits, ↓reduceIte,
      Option.some.injEq]
    omega
  · have fits : n.natAbs < 2 ^ 63 := by omega
    simp only [negative, decide_false, parseDigits_toDigits, Option.bind_some, fits, ↓reduceIte,
      Option.some.injEq]
    omega

end N8nSystems.Lib.Go
