import Mathlib.Data.List.Sort

/-! The first of the greatest entries of a list, and how a stable sort by falling key
with a search for the first entry that passes finds it. -/

namespace N8nSystems.Lib

variable {α : Type u} {β : Type v} [LinearOrder β] {key : α → β} {passes : α → Bool}
  {entries others : List α} {entry : α}

/-- Among the entries that pass, the entry has the greatest key, and those before it
have a smaller one. -/
def FirstGreatest (key : α → β) (passes : α → Bool) (entries : List α) (entry : α) : Prop :=
  ∃ before after, entries = before ++ entry :: after ∧ passes entry = true ∧
    (∀ other ∈ before, passes other = true → key other < key entry) ∧
    ∀ other ∈ after, passes other = true → key other ≤ key entry

/-- An insertion before the entries of the same key does not disturb the search. -/
theorem find?_orderedInsert {first : α} {sorted : List α}
    (falling : sorted.Pairwise fun a b => key b ≤ key a) :
    (sorted.orderedInsert (fun a b => key b ≤ key a) first).find? passes = some entry ↔
      (passes first = true ∧ entry = first ∧
        ∀ other, sorted.find? passes = some other → key other ≤ key first) ∨
      (sorted.find? passes = some entry ∧ (passes first = true → key first < key entry)) := by
  induction sorted with
  | nil =>
    cases passed : passes first <;> simp [passed, eq_comm]
  | cons head rest ih =>
    obtain ⟨bounded, tail⟩ := List.pairwise_cons.mp falling
    by_cases small : key head ≤ key first
    · -- the new entry comes first, and no later one has a greater key
      rw [List.orderedInsert_cons, if_pos small]
      have below : ∀ other, (head :: rest).find? passes = some other → key other ≤ key first := by
        intro other found
        rcases List.mem_cons.mp (List.mem_of_find?_eq_some found) with rfl | later
        · exact small
        · exact (bounded other later).trans small
      cases passed : passes first with
      | true =>
        rw [List.find?_cons_of_pos passed, Option.some.injEq]
        constructor
        · rintro rfl
          exact Or.inl ⟨rfl, rfl, below⟩
        · rintro (⟨-, rfl, -⟩ | ⟨found, less⟩)
          · rfl
          · exact absurd (below entry found) (not_le.mpr (less rfl))
      | false =>
        rw [List.find?_cons_of_neg (by simp [passed])]
        simp
    · rw [List.orderedInsert_cons, if_neg small]
      cases passed : passes head with
      | true =>
        rw [List.find?_cons_of_pos passed, List.find?_cons_of_pos passed]
        constructor
        · intro same
          cases same
          exact Or.inr ⟨rfl, fun _ => not_le.mp small⟩
        · rintro (⟨-, -, below⟩ | ⟨same, -⟩)
          · exact absurd (below head rfl) small
          · exact same
      | false =>
        rw [List.find?_cons_of_neg (by simp [passed]), List.find?_cons_of_neg (by simp [passed])]
        exact ih tail

theorem FirstGreatest.mem (chosen : FirstGreatest key passes entries entry) :
    entry ∈ entries ∧ passes entry = true := by
  obtain ⟨before, after, rfl, passed, -⟩ := chosen
  exact ⟨by simp, passed⟩

/-- No entry that passes has a greater key. -/
theorem FirstGreatest.le (chosen : FirstGreatest key passes entries entry) :
    ∀ other ∈ entries, passes other = true → key other ≤ key entry := by
  obtain ⟨before, after, rfl, -, less, atMost⟩ := chosen
  intro other member passed
  rcases List.mem_append.mp member with early | late
  · exact (less other early passed).le
  · rcases List.mem_cons.mp late with rfl | later
    · exact le_rfl
    · exact atMost other later passed

theorem firstGreatest_cons {first : α} :
    FirstGreatest key passes (first :: entries) entry ↔
      (passes first = true ∧ entry = first ∧
        ∀ other ∈ entries, passes other = true → key other ≤ key first) ∨
      (FirstGreatest key passes entries entry ∧ (passes first = true → key first < key entry)) := by
  constructor
  · rintro ⟨before, after, same, passed, less, atMost⟩
    cases before with
    | nil =>
      cases same
      exact Or.inl ⟨passed, rfl, atMost⟩
    | cons head before =>
      cases same
      refine Or.inr ⟨⟨before, after, rfl, passed, ?_, atMost⟩, less first List.mem_cons_self⟩
      exact fun other member => less other (List.mem_cons_of_mem first member)
  · rintro (⟨passed, rfl, atMost⟩ | ⟨⟨before, after, rfl, passed, less, atMost⟩, smaller⟩)
    · exact ⟨[], entries, rfl, passed, by simp, atMost⟩
    · refine ⟨first :: before, after, rfl, passed, ?_, atMost⟩
      intro other member
      rcases List.mem_cons.mp member with rfl | early
      · exact smaller
      · exact less other early

/-- The first entry that passes, in a stable order of falling keys. -/
theorem find?_insertionSort :
    (entries.insertionSort fun a b => key b ≤ key a).find? passes = some entry ↔
      FirstGreatest key passes entries entry := by
  induction entries generalizing entry with
  | nil => simp [FirstGreatest]
  | cons first rest ih =>
    have falling : (rest.insertionSort fun a b => key b ≤ key a).Pairwise fun a b => key b ≤ key a :=
      haveI : Std.Total fun a b : α => key b ≤ key a := ⟨fun a b => le_total (key b) (key a)⟩
      haveI : IsTrans α fun a b => key b ≤ key a := ⟨fun _ _ _ one two => two.trans one⟩
      List.pairwise_insertionSort _ rest
    have bounds : (∀ other, (rest.insertionSort fun a b => key b ≤ key a).find? passes = some other →
          key other ≤ key first) ↔
        ∀ other ∈ rest, passes other = true → key other ≤ key first := by
      constructor
      · intro bounded other member passed
        -- some entry passes, so the search ends at one with a key at least as great
        have among : other ∈ rest.insertionSort fun a b => key b ≤ key a :=
          (List.mem_insertionSort _).mpr member
        cases found : (rest.insertionSort fun a b => key b ≤ key a).find? passes with
        | none => exact absurd passed (List.find?_eq_none.mp found other among)
        | some best => exact ((ih.mp found).le other member passed).trans (bounded best found)
      · intro bounded other found
        exact bounded other (ih.mp found).mem.1 (ih.mp found).mem.2
    rw [List.insertionSort_cons, find?_orderedInsert falling, firstGreatest_cons, bounds, ih]

theorem find?_insertionSort_none :
    (entries.insertionSort fun a b => key b ≤ key a).find? passes = none ↔
      ∀ other ∈ entries, passes other = false := by
  simp [List.mem_insertionSort]

/-- Some entry that passes is the first of the greatest. -/
theorem exists_firstGreatest (member : entry ∈ entries) (passed : passes entry = true) :
    ∃ best, FirstGreatest key passes entries best := by
  cases found : (entries.insertionSort fun a b => key b ≤ key a).find? passes with
  | none => cases passed.symm.trans (find?_insertionSort_none.mp found entry member)
  | some best => exact ⟨best, find?_insertionSort.mp found⟩

/-- It is the first that passes among the entries of its key. -/
theorem FirstGreatest.find? (chosen : FirstGreatest key passes entries entry) :
    (entries.filter fun other => key other = key entry).find? passes = some entry := by
  obtain ⟨before, after, rfl, passed, less, -⟩ := chosen
  have early : (before.filter fun other => key other = key entry).find? passes = none := by
    apply List.find?_eq_none.mpr
    intro other member passed
    obtain ⟨among, same⟩ := List.mem_filter.mp member
    exact (less other among passed).ne (of_decide_eq_true same)
  rw [List.filter_append, List.find?_append, early, Option.none_or,
    List.filter_cons_of_pos (by simp), List.find?_cons_of_pos passed]

theorem firstGreatest_iff :
    FirstGreatest key passes entries entry ↔
      (∀ other ∈ entries, passes other = true → key other ≤ key entry) ∧
        (entries.filter fun other => key other = key entry).find? passes = some entry := by
  constructor
  · intro chosen
    exact ⟨chosen.le, chosen.find?⟩
  · rintro ⟨greatest, found⟩
    have member : entry ∈ entries := List.mem_of_mem_filter (List.mem_of_find?_eq_some found)
    have passed : passes entry = true := List.find?_some found
    obtain ⟨best, chosen⟩ : ∃ best, FirstGreatest key passes entries best :=
      exists_firstGreatest member passed
    -- both have the greatest key, and both are the first that has it
    have same : key best = key entry :=
      le_antisymm (greatest best chosen.mem.1 chosen.mem.2) (chosen.le entry member passed)
    have first := chosen.find?
    rw [same, found] at first
    cases first
    exact chosen

/-- With distinct keys any order lists the same entries of a key. -/
theorem filter_key_perm {k : β} (shuffled : entries.Perm others) (distinct : (entries.map key).Nodup) :
    entries.filter (fun other => key other = k) = others.filter fun other => key other = k := by
  have alike := shuffled.filter fun other => decide (key other = k)
  have separate : ((entries.filter fun other => key other = k).map key).Nodup :=
    distinct.sublist (List.filter_sublist.map key)
  have shared : ∀ other ∈ entries.filter (fun other => key other = k), key other = k :=
    fun other member => of_decide_eq_true (List.mem_filter.mp member).2
  -- at most one entry has the key, so there is nothing to reorder
  generalize entries.filter (fun other => key other = k) = listed at alike separate shared ⊢
  cases listed with
  | nil => exact (List.nil_perm.mp alike).symm
  | cons first rest =>
    cases rest with
    | nil => exact List.singleton_perm.mp alike
    | cons second rest =>
      have twice : key first = key second := (shared first (by simp)).trans (shared second (by simp)).symm
      simp [twice] at separate

/-- An order that differs only between entries of distinct keys leaves the choice. -/
theorem FirstGreatest.reorder (chosen : FirstGreatest key passes entries entry)
    (same : ∀ k, entries.filter (fun other => key other = k) = others.filter fun other => key other = k) :
    FirstGreatest key passes others entry := by
  obtain ⟨greatest, found⟩ := firstGreatest_iff.mp chosen
  rw [same] at found
  refine firstGreatest_iff.mpr ⟨?_, found⟩
  intro other member passed
  have among : other ∈ entries.filter fun found => key found = key other := by
    rw [same]
    simp [member]
  exact greatest other (List.mem_of_mem_filter among) passed

end N8nSystems.Lib
