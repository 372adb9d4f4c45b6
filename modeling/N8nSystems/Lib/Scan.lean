import Mathlib.Data.List.Forall2

/-! Fallible readers over a list: the first reading, and all of them. -/

namespace N8nSystems.Lib

theorem bind_ok_iff {first : Except ε α} {next : α → Except ε β} {result : β} :
    (first >>= next) = .ok result ↔ ∃ value, first = .ok value ∧ next value = .ok result := by
  cases first <;> simp [bind, Except.bind]

/-- The first reading that is not empty, or a last resort; a failed reading ends
the scan. -/
def firstReading (read : α → Except ε (Option β)) (last : Except ε (Option β)) :
    List α → Except ε (Option β)
  | [] => last
  | value :: rest =>
    match read value with
    | .error failure => .error failure
    | .ok (some found) => .ok (some found)
    | .ok none => firstReading read last rest

/-- How a scan may end: at the first value with a meaning, where every value before
it is silent, or after all of them. -/
inductive Scan (Means : α → β → Prop) (Silent : α → Prop) (Last : Option β → Prop) :
    List α → Option β → Prop
  | found (means : Means value result) : Scan Means Silent Last (value :: rest) (some result)
  | passed (silent : Silent value) (scan : Scan Means Silent Last rest result) :
      Scan Means Silent Last (value :: rest) result
  | ended (last : Last result) : Scan Means Silent Last [] result

section
variable {read : α → Except ε (Option β)} {last : Except ε (Option β)}
variable {Means : α → β → Prop} {Silent : α → Prop} {Last : Option β → Prop}

/-- A scan returns exactly what its relation allows, when each reading does. -/
theorem firstReading_ok_iff
    (means : ∀ value result, read value = .ok (some result) ↔ Means value result)
    (silent : ∀ value, read value = .ok none ↔ Silent value)
    (resort : ∀ result, last = .ok result ↔ Last result) (values : List α) (result : Option β) :
    firstReading read last values = .ok result ↔ Scan Means Silent Last values result := by
  induction values with
  | nil =>
    constructor
    · intro returned
      exact .ended ((resort result).mp returned)
    · intro scan
      cases scan with
      | ended reached => exact (resort result).mpr reached
  | cons value rest ih =>
    rw [firstReading]
    cases reading : read value with
    | error failure =>
      constructor
      · intro returned
        cases returned
      · intro scan
        cases scan with
        | found meant => cases reading.symm.trans ((means value _).mpr meant)
        | passed passedBy => cases reading.symm.trans ((silent value).mpr passedBy)
    | ok found =>
      cases found with
      | some found =>
        constructor
        · intro returned
          cases returned
          exact .found ((means value found).mp reading)
        · intro scan
          cases scan with
          | found meant =>
            cases reading.symm.trans ((means value _).mpr meant)
            rfl
          | passed passedBy => cases reading.symm.trans ((silent value).mpr passedBy)
      | none =>
        constructor
        · intro returned
          exact .passed ((silent value).mp reading) (ih.mp returned)
        · intro scan
          cases scan with
          | found meant => cases reading.symm.trans ((means value _).mpr meant)
          | passed passedBy scan => exact ih.mpr scan

/-- Whether every value that fails stands behind one with a meaning, from the first value
and the rest. -/
theorem covered_cons {Fails Meant : α → Prop} {value : α} {rest : List α} :
    (∀ before other after, value :: rest = before ++ other :: after → Fails other →
        ∃ earlier ∈ before, Meant earlier) ↔
      ¬ Fails value ∧ (Meant value ∨ ∀ before other after, rest = before ++ other :: after →
        Fails other → ∃ earlier ∈ before, Meant earlier) := by
  constructor
  · intro covered
    constructor
    · intro failing
      obtain ⟨earlier, member, _⟩ := covered [] value rest rfl failing
      cases member
    · by_cases meant : Meant value
      · exact .inl meant
      · refine .inr fun before other after split failing => ?_
        obtain ⟨earlier, member, found⟩ :=
          covered (value :: before) other after (by rw [split]; rfl) failing
        rcases List.mem_cons.mp member with rfl | later
        · exact absurd found meant
        · exact ⟨earlier, later, found⟩
  · rintro ⟨sound, either⟩ before other after split failing
    cases before with
    | nil =>
      cases split
      exact absurd failing sound
    | cons first before =>
      obtain ⟨rfl, tail⟩ := List.cons.inj split
      rcases either with meant | covered
      · exact ⟨value, List.mem_cons_self, meant⟩
      · obtain ⟨earlier, member, meant⟩ := covered before other after tail failing
        exact ⟨earlier, List.mem_cons_of_mem _ member, meant⟩

/-- A scan returns when every value that fails stands behind one with a meaning, and
the last resort does where none has. -/
theorem firstReading_returns_iff {Fails : α → Prop}
    (means : ∀ value result, read value = .ok (some result) ↔ Means value result)
    (fails : ∀ value, (∃ failure, read value = .error failure) ↔ Fails value) (values : List α) :
    (∃ result, firstReading read last values = .ok result) ↔
      (∀ before value after, values = before ++ value :: after → Fails value →
        ∃ earlier ∈ before, ∃ result, Means earlier result) ∧
      ((∀ value ∈ values, ∀ result, ¬ Means value result) → ∃ result, last = .ok result) := by
  induction values with
  | nil => simp [firstReading]
  | cons value rest ih =>
    rw [firstReading, covered_cons, ← fails, List.forall_mem_cons]
    cases reading : read value with
    | error failure =>
      refine iff_of_false ?_ ?_
      · rintro ⟨result, returned⟩
        cases returned
      · rintro ⟨⟨sound, _⟩, _⟩
        exact sound ⟨failure, rfl⟩
    | ok found =>
      have sound : ¬ ∃ failure, (Except.ok found : Except ε (Option β)) = .error failure := by
        rintro ⟨failure, failed⟩
        cases failed
      cases found with
      | some found =>
        have meant : Means value found := (means value found).mp reading
        refine iff_of_true ⟨some found, rfl⟩ ⟨⟨sound, .inl ⟨found, meant⟩⟩, ?_⟩
        rintro ⟨silent, _⟩
        exact absurd meant (silent found)
      | none =>
        have silent : ∀ result, ¬ Means value result := by
          intro result meant
          cases reading.symm.trans ((means value result).mpr meant)
        have empty : ¬ ∃ result, Means value result := not_exists.mpr silent
        dsimp only
        rw [ih, and_iff_right sound, or_iff_right empty, and_iff_right silent]

end

/-- The first value with a meaning, and what it means. -/
def FirstMeans (Means : α → β → Prop) (values : List α) (result : β) : Prop :=
  ∃ before value after, values = before ++ value :: after ∧
    (∀ earlier ∈ before, ∀ other, ¬ Means earlier other) ∧ Means value result

/-- With such a value the scan ends there, or fails before it, whatever the last resort. -/
theorem firstReading_firstMeans {read : α → Except ε (Option β)} {Means : α → β → Prop}
    (means : ∀ value result, read value = .ok (some result) ↔ Means value result)
    {values : List α} {result : β} (first : FirstMeans Means values result) :
    (∀ last, firstReading read last values = .ok (some result)) ∨
      ∃ failure, ∀ last, firstReading read last values = .error failure := by
  obtain ⟨before, value, after, rfl, silent, meant⟩ := first
  induction before with
  | nil =>
    left
    intro last
    rw [List.nil_append, firstReading, (means value result).mpr meant]
  | cons earlier before ih =>
    simp only [List.cons_append, firstReading]
    cases reading : read earlier with
    | error failure => exact .inr ⟨failure, fun _ => rfl⟩
    | ok found =>
      cases found with
      | some found => exact absurd ((means earlier found).mp reading) (silent earlier List.mem_cons_self found)
      | none => exact ih fun other member => silent other (List.mem_cons_of_mem _ member)

/-- Two readers that return the same on every value find the same. -/
theorem firstReading_alike {read : α → Except ε (Option β)} {other : α → Except ε' (Option β)}
    {last : Except ε (Option β)} {otherLast : Except ε' (Option β)} {values : List α}
    (alike : ∀ value ∈ values, ∃ found, read value = .ok found ∧ other value = .ok found)
    (alikeLast : ∃ found, last = .ok found ∧ otherLast = .ok found) :
    ∃ found, firstReading read last values = .ok found ∧
      firstReading other otherLast values = .ok found := by
  induction values with
  | nil => exact alikeLast
  | cons value rest ih =>
    obtain ⟨found, first, second⟩ := alike value List.mem_cons_self
    rw [firstReading, firstReading, first, second]
    cases found with
    | some found => exact ⟨some found, rfl, rfl⟩
    | none => exact ih fun value member => alike value (List.mem_cons_of_mem _ member)

/-- A reading is empty when it neither fails nor finds anything. -/
theorem reading_none_iff {reading : Except ε (Option β)} :
    reading = .ok none ↔
      ¬ (∃ failure, reading = .error failure) ∧ ∀ found, ¬ reading = .ok (some found) := by
  cases reading with
  | error failure => simp
  | ok found => cases found <;> simp

theorem mapM_eq_some_iff {f : α → Option β} {values : List α} {results : List β} :
    values.mapM f = some results ↔ values.map f = results.map some := by
  induction values generalizing results with
  | nil => cases results <;> simp
  | cons value rest ih =>
    rw [List.mapM_cons]
    cases results with
    | nil => cases f value <;> cases rest.mapM f <;> simp
    | cons result results =>
      rw [List.map_cons, List.map_cons, List.cons.injEq, ← ih]
      cases f value <;> cases rest.mapM f <;> simp

theorem mapM_eq_none_iff {f : α → Option β} {values : List α} :
    values.mapM f = none ↔ ∃ value ∈ values, f value = none := by
  induction values with
  | nil => simp
  | cons value rest ih =>
    rw [List.mapM_cons]
    cases here : f value <;> cases there : rest.mapM f <;> simp_all

/-- When all of the calls return, each result is that of a call and the other way round. -/
theorem mapM_ok_mem {f : α → Except ε β} {values : List α} {results : List β}
    (returned : values.mapM f = .ok results) :
    (∀ value ∈ values, ∃ result ∈ results, f value = .ok result) ∧
      ∀ result ∈ results, ∃ value ∈ values, f value = .ok result := by
  induction values generalizing results with
  | nil =>
    cases returned
    simp
  | cons value rest ih =>
    simp only [List.mapM_cons, bind_ok_iff] at returned
    obtain ⟨first, here, others, there, same⟩ := returned
    cases same
    obtain ⟨forward, back⟩ := ih there
    constructor
    · intro other member
      rcases List.mem_cons.mp member with rfl | later
      · exact ⟨first, List.mem_cons_self, here⟩
      · obtain ⟨result, among, read⟩ := forward other later
        exact ⟨result, List.mem_cons_of_mem first among, read⟩
    · intro result member
      rcases List.mem_cons.mp member with rfl | later
      · exact ⟨value, List.mem_cons_self, here⟩
      · obtain ⟨other, among, read⟩ := back result later
        exact ⟨other, List.mem_cons_of_mem value among, read⟩

/-- What every round that returns does to its value, a pass over a list with its
places does to the list. -/
theorem mapM_zipIdx_related {f : α × Nat → Except ε (α × γ)} {Related : α → α → Prop}
    {values : List α} {start : Nat} {results : List (α × γ)}
    (related : ∀ value index result, f (value, index) = .ok result → Related value result.1)
    (returned : (values.zipIdx start).mapM f = .ok results) :
    List.Forall₂ Related values (results.map Prod.fst) := by
  induction values generalizing start results with
  | nil =>
    cases returned
    exact .nil
  | cons value rest ih =>
    simp only [List.zipIdx_cons, List.mapM_cons, bind_ok_iff] at returned
    obtain ⟨result, here, others, there, same⟩ := returned
    cases same
    exact .cons (related value start result here) (ih there)

/-- A pass over a list with its places, where every round that returns gives a value
that a round of the second pass leaves alone, leaves nothing to a second pass. -/
theorem mapM_zipIdx_again {first second : α × Nat → Except ε (α × γ)} {idle : γ} {values : List α}
    {start : Nat} {results : List (α × γ)}
    (settles : ∀ value index result, first (value, index) = .ok result →
      ∀ place, second (result.1, place) = .ok (result.1, idle))
    (returned : (values.zipIdx start).mapM first = .ok results) :
    ((results.map Prod.fst).zipIdx start).mapM second =
      .ok (results.map fun result => (result.1, idle)) := by
  induction values generalizing start results with
  | nil =>
    cases returned
    rfl
  | cons value rest ih =>
    simp only [List.zipIdx_cons, List.mapM_cons, bind_ok_iff] at returned
    obtain ⟨result, here, others, there, same⟩ := returned
    cases same
    simp only [List.map_cons, List.zipIdx_cons, List.mapM_cons, bind_ok_iff]
    exact ⟨_, settles value start result here start, _, ih there, rfl⟩

end N8nSystems.Lib
