import N8nSystems.Validators.Vat

/-! The two ways to write a date that `parse_date` reads. -/

namespace N8nSystems.Validators

open Lib Lib.Py

/-- `d.m.yyyy`, with a leading zero of the day and of the month or without, or
`yyyy-mm-dd`. -/
inductive Rendering where
  | finnish (zeroDay zeroMonth : Bool)
  | iso
  deriving DecidableEq, Repr

/-- A day or a month. -/
def shortField (zero : Bool) (n : Nat) : Text := Date.padded (if zero then 2 else 1) n

def render (date : Date) : Rendering → Text
  | .finnish zeroDay zeroMonth =>
    shortField zeroDay date.day ++ [46] ++ shortField zeroMonth date.month ++ [46] ++
      Date.padded 4 date.year
  | .iso => date.isoformat

/-- A rendering of the date with whitespace around it. -/
def Renders (date : Date) (value : Text) : Prop :=
  ∃ rendering left right, value = left ++ render date rendering ++ right ∧
    (∀ c ∈ left, isSpace c = true) ∧ ∀ c ∈ right, isSpace c = true

theorem mapM_decimal_digits (unicode : Unicode) {value : Text}
    (digits : ∀ c ∈ value, isAsciiDigit c = true) :
    value.mapM unicode.decimal = some (value.map (· - 48)) := by
  rw [mapM_eq_some_iff, List.map_map]
  apply List.map_congr_left
  intro c member
  have range := isAsciiDigit_iff.mp (digits c member)
  rw [unicode.decimal_ascii c (by omega), asciiDecimal, if_pos (digits c member)]
  rfl

/-- A group reads every number it has room for. -/
theorem digitGroup_padded (unicode : Unicode) (short : low ≤ (Date.padded width n).length)
    (long : (Date.padded width n).length ≤ high) :
    digitGroup unicode low high (Date.padded width n) = some n := by
  rw [digitGroup, if_pos ⟨short, long⟩, mapM_decimal_digits unicode (Date.padded_digits width n),
    Option.map_some, Date.spelled_padded]

theorem digitGroup_shortField (unicode : Unicode) (zero : Bool) (small : n < 100) :
    digitGroup unicode 1 2 (shortField zero n) = some n := by
  have two : (Nat.toDigits 10 n).length ≤ 2 :=
    (Nat.length_toDigits_le_iff (by decide) (by decide)).mpr small
  have one := @Nat.length_toDigits_pos 10 n
  apply digitGroup_padded
  · simp only [Date.padded, List.length_append, List.length_replicate, List.length_map]
    omega
  · simp only [Date.padded, List.length_append, List.length_replicate, List.length_map]
    split <;> omega

/-- A text of ASCII digits is the number it spells, padded to its length. -/
theorem padded_of_digits {value : Text} (nonempty : 0 < value.length)
    (digits : ∀ c ∈ value, isAsciiDigit c = true) :
    value = Date.padded value.length (spelled (value.map (· - 48))) := by
  have small {other : Text} (decimal : ∀ c ∈ other, isAsciiDigit c = true) :
      ∀ digit ∈ other.map (· - 48), digit < 10 := by
    intro digit member
    obtain ⟨c, inside, rfl⟩ := List.mem_map.mp member
    have range := isAsciiDigit_iff.mp (decimal c inside)
    omega
  have restored {other : Text} (decimal : ∀ c ∈ other, isAsciiDigit c = true) :
      (other.map (· - 48)).map (48 + ·) = other := by
    rw [List.map_map]
    conv_rhs => rw [← List.map_id other]
    apply List.map_congr_left
    intro c member
    have range := isAsciiDigit_iff.mp (decimal c member)
    simp only [Function.comp, id]
    omega
  have padded := Date.padded_digits value.length (spelled (value.map (· - 48)))
  have bound := spelled_lt (small digits)
  rw [List.length_map] at bound
  have same : value.map (· - 48) = (Date.padded value.length (spelled (value.map (· - 48)))).map (· - 48) := by
    apply spelled_injective _ (small digits) (small padded) (Date.spelled_padded ..).symm
    rw [List.length_map, List.length_map, Date.length_padded nonempty bound]
  rw [← restored padded, ← same, restored digits]

/-- What an ASCII text is that a group reads. -/
theorem digitGroup_ascii {unicode : Unicode} {group : Text} (read : digitGroup unicode low high group = some n)
    (ascii : ∀ c ∈ group, c < 128) (positive : 0 < low) :
    group = Date.padded group.length n ∧ low ≤ group.length ∧ group.length ≤ high := by
  unfold digitGroup at read
  split at read
  · rename_i length
    obtain ⟨values, whole, rfl⟩ := Option.map_eq_some_iff.mp read
    have digits : ∀ c ∈ group, isAsciiDigit c = true := by
      intro c member
      by_contra other
      have unread : unicode.decimal c = none := by
        rw [unicode.decimal_ascii c (ascii c member), asciiDecimal, if_neg other]
      rw [mapM_eq_none_iff.mpr ⟨c, member, unread⟩] at whole
      cases whole
    rw [mapM_decimal_digits unicode digits] at whole
    cases whole
    exact ⟨padded_of_digits (by omega) digits, length⟩
  · cases read

theorem shortField_of_length {group : Text} (shown : group = Date.padded group.length n)
    (short : 1 ≤ group.length) (long : group.length ≤ 2) : ∃ zero, group = shortField zero n := by
  refine ⟨decide (group.length = 2), ?_⟩
  unfold shortField
  by_cases two : group.length = 2
  · rw [if_pos (decide_eq_true two), ← two]
    exact shown
  · have one : group.length = 1 := by omega
    rw [decide_eq_false two, if_neg Bool.false_ne_true, ← one]
    exact shown

theorem separator_not_mem_padded (separator : isAsciiDigit c = false) (width n : Nat) :
    c ∉ Date.padded width n := by
  intro member
  rw [Date.padded_digits width n c member] at separator
  cases separator

/-- Three fields and two separators, taken apart again. -/
theorem splitOn_fields {a b c : Text} {separator : Nat} (first : separator ∉ a) (second : separator ∉ b)
    (third : separator ∉ c) : (a ++ [separator] ++ b ++ [separator] ++ c).splitOn separator = [a, b, c] := by
  have grouped : a ++ [separator] ++ b ++ [separator] ++ c = a ++ separator :: (b ++ separator :: c) := by
    simp
  rw [grouped, List.splitOn_append_cons_self_of_not_mem first,
    List.splitOn_append_cons_self_of_not_mem second, List.splitOn_eq_singleton third]

theorem fields_of_splitOn {raw a b c : Text} {separator : Nat} (split : raw.splitOn separator = [a, b, c]) :
    raw = a ++ [separator] ++ b ++ [separator] ++ c := by
  have joined := @List.intercalate_splitOn _ raw _ _ separator
  rw [split] at joined
  rw [← joined]
  simp [List.intercalate]

theorem fields_ascii {raw a b c : Text} {separator : Nat} (parts : raw = a ++ [separator] ++ b ++ [separator] ++ c)
    (ascii : ∀ c ∈ raw, c < 128) : (∀ x ∈ a, x < 128) ∧ (∀ x ∈ b, x < 128) ∧ ∀ x ∈ c, x < 128 := by
  rw [parts] at ascii
  refine ⟨?_, ?_, ?_⟩ <;> intro x member <;> exact ascii x (by simp [member])

section

variable (unicode : Unicode)

theorem finnish_render (date : Date) (zeroDay zeroMonth : Bool) :
    finnish unicode (render date (.finnish zeroDay zeroMonth)) = some (date.day, date.month, date.year) := by
  have month := date.month_range
  have year := date.year_range
  have length := @Date.length_padded 4 date.year (by decide) (by omega)
  have absent := separator_not_mem_padded (c := 46) rfl
  have split : (render date (.finnish zeroDay zeroMonth)).splitOn 46 =
      [shortField zeroDay date.day, shortField zeroMonth date.month, Date.padded 4 date.year] :=
    splitOn_fields (absent _ _) (absent _ _) (absent _ _)
  simp only [finnish, split, digitGroup_shortField unicode _ date.day_lt,
    digitGroup_shortField unicode _ (show date.month < 100 by omega),
    digitGroup_padded unicode (Nat.le_of_eq length.symm) (Nat.le_of_eq length)]
  rfl

/-- An ISO date has no dot. -/
theorem finnish_isoformat (date : Date) : finnish unicode date.isoformat = none := by
  have absent := separator_not_mem_padded (c := 46) rfl
  have dotless : 46 ∉ date.isoformat := by simp [Date.isoformat, absent]
  rw [finnish, List.splitOn_eq_singleton dotless]

theorem iso_isoformat (date : Date) :
    iso unicode date.isoformat = some (date.year, date.month, date.day) := by
  have month := date.month_range
  have year := date.year_range
  have four := @Date.length_padded 4 date.year (by decide) (by omega)
  have two := @Date.length_padded 2 date.month (by decide) (by omega)
  have last := @Date.length_padded 2 date.day (by decide) date.day_lt
  have absent := separator_not_mem_padded (c := 45) rfl
  have split : date.isoformat.splitOn 45 =
      [Date.padded 4 date.year, Date.padded 2 date.month, Date.padded 2 date.day] :=
    splitOn_fields (absent _ _) (absent _ _) (absent _ _)
  simp only [iso, split, digitGroup_padded unicode (Nat.le_of_eq four.symm) (Nat.le_of_eq four),
    digitGroup_padded unicode (Nat.le_of_eq two.symm) (Nat.le_of_eq two),
    digitGroup_padded unicode (Nat.le_of_eq last.symm) (Nat.le_of_eq last)]
  rfl

/-- The characters of a rendering are digits and separators. -/
theorem render_solid (date : Date) (rendering : Rendering) :
    ∀ c ∈ render date rendering, isSpace c = false := by
  have solid : ∀ c, isAsciiDigit c = true ∨ c = 46 ∨ c = 45 → isSpace c = false := by
    intro c either
    rw [isAsciiDigit_iff] at either
    simp [isSpace]
    omega
  intro c member
  apply solid
  cases rendering with
  | finnish zeroDay zeroMonth =>
    simp only [render, shortField, List.mem_append, List.mem_singleton] at member
    rcases member with (((day | dot) | month) | dot) | year
    · exact .inl (Date.padded_digits _ _ c day)
    · exact .inr (.inl dot)
    · exact .inl (Date.padded_digits _ _ c month)
    · exact .inr (.inl dot)
    · exact .inl (Date.padded_digits _ _ c year)
  | iso =>
    simp only [render, Date.isoformat, List.mem_append, List.mem_singleton] at member
    rcases member with (((year | hyphen) | month) | hyphen) | day
    · exact .inl (Date.padded_digits _ _ c year)
    · exact .inr (.inr hyphen)
    · exact .inl (Date.padded_digits _ _ c month)
    · exact .inr (.inr hyphen)
    · exact .inl (Date.padded_digits _ _ c day)

theorem render_ne_nil (date : Date) (rendering : Rendering) : render date rendering ≠ [] := by
  cases rendering <;> simp [render, Date.isoformat]

/-- Every rendering is read, with whitespace around it or not. -/
theorem parseDate_renders {value : Text} (renders : Renders date value) :
    parseDate unicode (some value) = some date := by
  obtain ⟨rendering, left, right, rfl, before, behind⟩ := renders
  have stripped : strip (orEmpty (some (left ++ render date rendering ++ right))) = render date rendering :=
    strip_padded before (render_solid date rendering) behind
  simp only [parseDate, stripped, if_neg (render_ne_nil date rendering)]
  cases rendering with
  | finnish zeroDay zeroMonth =>
    simp only [finnish_render]
    exact date.make_self
  | iso =>
    simp only [render, finnish_isoformat, iso_isoformat]
    exact date.make_self

variable {unicode}

theorem finnish_ascii {date : Date} {raw : Text} (ascii : ∀ c ∈ raw, c < 128)
    (matched : finnish unicode raw = some (date.day, date.month, date.year)) :
    ∃ rendering, raw = render date rendering := by
  unfold finnish at matched
  split at matched
  · rename_i day month year split
    obtain ⟨d, first, matched⟩ := Option.bind_eq_some_iff.mp matched
    obtain ⟨m, second, matched⟩ := Option.bind_eq_some_iff.mp matched
    obtain ⟨y, third, matched⟩ := Option.bind_eq_some_iff.mp matched
    cases matched
    have raw_eq := fields_of_splitOn split
    obtain ⟨small, small', small''⟩ := fields_ascii raw_eq ascii
    obtain ⟨day_eq, day_low, day_high⟩ := digitGroup_ascii first small (by decide)
    obtain ⟨month_eq, month_low, month_high⟩ := digitGroup_ascii second small' (by decide)
    obtain ⟨year_eq, year_low, year_high⟩ := digitGroup_ascii third small'' (by decide)
    obtain ⟨zeroDay, day_field⟩ := shortField_of_length day_eq day_low day_high
    obtain ⟨zeroMonth, month_field⟩ := shortField_of_length month_eq month_low month_high
    refine ⟨.finnish zeroDay zeroMonth, ?_⟩
    rw [raw_eq, render, ← day_field, ← month_field]
    rw [show year.length = 4 by omega] at year_eq
    rw [← year_eq]
  · cases matched

theorem iso_ascii {date : Date} {raw : Text} (ascii : ∀ c ∈ raw, c < 128)
    (matched : iso unicode raw = some (date.year, date.month, date.day)) : raw = date.isoformat := by
  unfold iso at matched
  split at matched
  · rename_i year month day split
    obtain ⟨y, first, matched⟩ := Option.bind_eq_some_iff.mp matched
    obtain ⟨m, second, matched⟩ := Option.bind_eq_some_iff.mp matched
    obtain ⟨d, third, matched⟩ := Option.bind_eq_some_iff.mp matched
    cases matched
    have raw_eq := fields_of_splitOn split
    obtain ⟨small, small', small''⟩ := fields_ascii raw_eq ascii
    obtain ⟨year_eq, year_low, year_high⟩ := digitGroup_ascii first small (by decide)
    obtain ⟨month_eq, month_low, month_high⟩ := digitGroup_ascii second small' (by decide)
    obtain ⟨day_eq, day_low, day_high⟩ := digitGroup_ascii third small'' (by decide)
    rw [show year.length = 4 by omega] at year_eq
    rw [show month.length = 2 by omega] at month_eq
    rw [show day.length = 2 by omega] at day_eq
    rw [raw_eq, Date.isoformat, ← year_eq, ← month_eq, ← day_eq]
  · cases matched

/-- An ASCII text that is read is a rendering of the date. -/
theorem render_of_parseDate {value : Text} (ascii : ∀ c ∈ value, c < 128)
    (parsed : parseDate unicode (some value) = some date) : ∃ rendering, strip value = render date rendering := by
  have small : ∀ c ∈ strip value, c < 128 := strip_ascii ascii
  have raw : strip (orEmpty (some value)) = strip value := rfl
  simp only [parseDate, raw] at parsed
  split at parsed
  · cases parsed
  · split at parsed
    · rename_i matched
      obtain ⟨rfl, rfl, rfl⟩ := Date.make_eq_some_iff.mp parsed
      exact finnish_ascii small matched
    · split at parsed
      · rename_i matched
        obtain ⟨rfl, rfl, rfl⟩ := Date.make_eq_some_iff.mp parsed
        exact ⟨.iso, iso_ascii small matched⟩
      · cases parsed

/-- What the callers of `parse_date` see of a rendering: a text that is not blank, and
its date. -/
theorem strip_renders {value : Text} (renders : Renders date value) : strip value ≠ [] := by
  obtain ⟨rendering, left, right, rfl, before, behind⟩ := renders
  rw [strip_padded before (render_solid date rendering) behind]
  exact render_ne_nil date rendering

theorem dates_invoice_renders (renders : Renders date value) (renders' : Renders date value')
    (due : Option Text) (today : Date) :
    dates unicode (some value) due today = dates unicode (some value') due today := by
  have filled : strip (orEmpty (some value)) ≠ [] := strip_renders renders
  have filled' : strip (orEmpty (some value')) ≠ [] := strip_renders renders'
  unfold dates
  simp only [if_neg filled, if_neg filled', parseDate_renders unicode renders, parseDate_renders unicode renders']

theorem dates_due_renders (renders : Renders date value) (renders' : Renders date value')
    (invoice : Option Text) (today : Date) :
    dates unicode invoice (some value) today = dates unicode invoice (some value') today := by
  have filled : strip (orEmpty (some value)) ≠ [] := strip_renders renders
  have filled' : strip (orEmpty (some value')) ≠ [] := strip_renders renders'
  unfold dates
  simp only [if_neg filled, if_neg filled', parseDate_renders unicode renders, parseDate_renders unicode renders']

theorem vatRates_renders (renders : Renders date value) (renders' : Renders date value')
    (lines : List VatLine) (config : VatRatesConfig) :
    vatRates unicode lines config (some value) = vatRates unicode lines config (some value') := by
  have filled {given : Text} (renders : Renders date given) : orEmpty (some given) ≠ [] := by
    intro empty
    have blank := strip_renders renders
    rw [show given = [] from empty] at blank
    exact blank rfl
  unfold vatRates
  simp only [if_neg (filled renders), if_neg (filled renders'), parseDate_renders unicode renders,
    parseDate_renders unicode renders']

end

/-- `parse_date` reads the renderings of a date and, among ASCII texts, nothing else;
`dates` and `vat_rates` give the same result for two renderings of a date. -/
theorem parseDate_exact (unicode : Unicode) (date : Date) :
    (∀ value, Renders date value → parseDate unicode (some value) = some date) ∧
    (∀ value, (∀ c ∈ value, c < 128) → parseDate unicode (some value) = some date →
      ∃ rendering, strip value = render date rendering) ∧
    ∀ value value', Renders date value → Renders date value' →
      (∀ due today, (dates unicode (some value) due today).passed =
        (dates unicode (some value') due today).passed) ∧
      (∀ invoice today, (dates unicode invoice (some value) today).passed =
        (dates unicode invoice (some value') today).passed) ∧
      ∀ lines config, (vatRates unicode lines config (some value)).map RuleResult.passed =
        (vatRates unicode lines config (some value')).map RuleResult.passed := by
  refine ⟨fun value => parseDate_renders unicode, fun value => render_of_parseDate, ?_⟩
  intro value value' renders renders'
  refine ⟨?_, ?_, ?_⟩
  · intro due today
    rw [dates_invoice_renders renders renders']
  · intro invoice today
    rw [dates_due_renders renders renders']
  · intro lines config
    rw [vatRates_renders renders renders']

end N8nSystems.Validators
