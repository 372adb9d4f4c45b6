import N8nSystems.Lib.Sql

/-! What a session under row-level security can observe. A statement on the whole
database and the same statement on the session's own rows give the same outcome,
when no row it writes shares with a hidden row a key that leaves the owner out. -/

namespace N8nSystems.Lib.Sql

universe u v

theorem any_filter_of_hidden {rows : List α} {shown test : α → Bool}
    (hidden : ∀ row ∈ rows, shown row = false → test row = false) :
    (rows.filter shown).any test = rows.any test := by
  apply Bool.eq_iff_iff.mpr
  simp only [List.any_eq_true, List.mem_filter]
  constructor
  · intro found
    obtain ⟨row, ⟨member, _⟩, holds⟩ := found
    exact ⟨row, member, holds⟩
  · intro found
    obtain ⟨row, member, holds⟩ := found
    refine ⟨row, ⟨member, ?_⟩, holds⟩
    by_contra unseen
    rw [hidden row member (by simpa using unseen)] at holds
    cases holds

theorem all_congr_mem {rows : List α} {test other : α → Bool}
    (same : ∀ row ∈ rows, test row = other row) : rows.all test = rows.all other := by
  induction rows with
  | nil => rfl
  | cons row rest ih =>
    rw [List.all_cons, List.all_cons, same row (by simp), ih fun row later => same row (by simp [later])]

theorem all_filter_of_hidden {rows : List α} {shown test : α → Bool}
    (hidden : ∀ row ∈ rows, shown row = false → test row = true) :
    (rows.filter shown).all test = rows.all test := by
  rw [List.all_filter]
  apply all_congr_mem
  intro row member
  cases seen : shown row with
  | true => simp
  | false => simp [hidden row member seen]

theorem filter_concat {rows : List α} {shown : α → Bool} (visible : shown row = true) :
    (rows ++ [row]).filter shown = rows.filter shown ++ [row] := by
  rw [List.filter_append, List.filter_singleton, visible]
  rfl

theorem filter_concat_not {rows : List α} {shown : α → Bool} (hidden : shown row = false) :
    (rows ++ [row]).filter shown = rows.filter shown := by
  rw [List.filter_append, List.filter_singleton, hidden]
  exact List.append_nil _

section Isolation

variable {Table : Type u} {Column : Type v}

section Policy

variable {schema : Schema Table Column} {session : Nat}

theorem Schema.visible_iff (secured : schema.secured table = true) {row : Row Column} :
    schema.visible session table row = true ↔ row schema.owner = .uuid session := by
  simp [Schema.visible, secured]

theorem Schema.restrict_restrict (db : Database Table Column) :
    schema.restrict session (schema.restrict session db) = schema.restrict session db := by
  funext table
  simp [Schema.restrict, List.filter_filter]

theorem Schema.acceptable_visible {row : Row Column}
    (accepted : schema.acceptable session table row = true) :
    schema.visible session table row = true := by
  simp only [Schema.acceptable, Bool.and_eq_true] at accepted
  exact accepted.1.1.2

/-- References to secured tables go between rows of one owner. -/
def Schema.OwnedReferences (schema : Schema Table Column) : Prop :=
  ∀ table, ∀ key ∈ schema.foreignKeys table, schema.secured key.target = true →
    (schema.owner, schema.owner) ∈ key.columns

section References

variable {key : ForeignKey Table Column} {db : Database Table Column}

theorem ForeignKey.points_owner {row other : Row Column}
    (owned : (schema.owner, schema.owner) ∈ key.columns) (points : key.points row other = true) :
    row schema.owner = other schema.owner := by
  have parts := List.all_eq_true.mp points (schema.owner, schema.owner) owned
  simp only [Bool.and_eq_true, beq_iff_eq] at parts
  exact parts.2

/-- A reference of a row of the session is satisfied by a visible row or by none. -/
theorem ForeignKey.holds_restrict {row : Row Column}
    (owned : schema.secured key.target = true → (schema.owner, schema.owner) ∈ key.columns)
    (own : row schema.owner = .uuid session) :
    key.holds (schema.restrict session db) row = key.holds db row := by
  have same : (schema.restrict session db key.target).any (key.points row) =
      (db key.target).any (key.points row) := by
    apply any_filter_of_hidden
    intro other _ hidden
    by_contra points
    have secured : schema.secured key.target = true := by
      by_contra open_
      simp [Schema.visible, open_] at hidden
    have owner := ForeignKey.points_owner (owned secured) (by simpa using points)
    rw [(Schema.visible_iff secured).mpr (owner.symm.trans own)] at hidden
    cases hidden
  rw [ForeignKey.holds, ForeignKey.holds, same]

theorem Schema.referring_restrict (owned : schema.OwnedReferences)
    (secured : schema.secured table = true) {written : List (Row Column)}
    (shown : ∀ row ∈ written, schema.visible session table row = true) :
    schema.referring table (schema.restrict session db) written =
      schema.referring table db written := by
  apply all_congr_mem
  intro row member
  apply all_congr_mem
  intro key listed
  exact ForeignKey.holds_restrict (owned table key listed)
    ((Schema.visible_iff secured).mp (shown row member))

theorem Schema.referred_restrict [DecidableEq Table] (owned : schema.OwnedReferences)
    (secured : schema.secured table = true) {removed : List (Row Column)}
    (shown : ∀ row ∈ removed, schema.visible session table row = true) :
    schema.referred table (schema.restrict session db) removed =
      schema.referred table db removed := by
  apply all_congr_mem
  intro old member
  have own := (Schema.visible_iff secured).mp (shown old member)
  apply all_congr_mem
  intro source _
  apply all_congr_mem
  intro key listed
  by_cases aimed : key.target = table
  · -- only rows of the session point at its removed row
    have pointing : ∀ row, key.points row old = true → row schema.owner = .uuid session := by
      intro row points
      rw [← own]
      exact ForeignKey.points_owner (owned source key listed (aimed ▸ secured)) points
    have each : ∀ row, (!key.points row old || key.holds (schema.restrict session db) row) =
        (!key.points row old || key.holds db row) := by
      intro row
      cases points : key.points row old with
      | false => rfl
      | true => rw [ForeignKey.holds_restrict (owned source key listed) (pointing row points)]
    have unseen : ∀ row ∈ db source, schema.visible session source row = false →
        (!key.points row old || key.holds db row) = true := by
      intro row _ hidden
      cases points : key.points row old with
      | false => rfl
      | true =>
        simp only [Schema.visible, pointing row points, beq_self_eq_true, Bool.or_true] at hidden
        cases hidden
    simp only [each]
    rw [Schema.restrict, all_filter_of_hidden unseen]
  · simp [aimed]

end References

/-- The part of an effect that the session sees. -/
def Schema.restrictEffect (schema : Schema Table Column) (session : Nat)
    (effect : Effect Table Column) : Effect Table Column :=
  { effect with rows := effect.rows.filter (schema.visible session effect.table) }

/-- An effect on a secured table that removes and writes rows of the session only. -/
structure Schema.OwnEffect (schema : Schema Table Column) (session : Nat)
    (effect : Effect Table Column) : Prop where
  secured : schema.secured effect.table = true
  removed : ∀ row ∈ effect.removed, schema.visible session effect.table row = true
  written : ∀ row ∈ effect.written, schema.visible session effect.table row = true

theorem Schema.deleteEffect_restrict (db : Database Table Column) (table : Table)
    (condition : Row Column → Bool) (returning : Row Column → List Value) :
    schema.restrictEffect session (schema.deleteEffect session table condition returning db) =
      schema.deleteEffect session table condition returning (schema.restrict session db) := by
  have same : ∀ row, (schema.visible session table row && condition row &&
      schema.visible session table row) = (schema.visible session table row && condition row) := by
    intro row
    cases schema.visible session table row <;> simp
  simp only [Schema.restrictEffect, Schema.deleteEffect, Schema.restrict, List.filter_filter, same]
  simp only [Bool.and_comm]

theorem Schema.deleteEffect_own (db : Database Table Column) (secured : schema.secured table = true)
    (condition : Row Column → Bool) (returning : Row Column → List Value) :
    schema.OwnEffect session (schema.deleteEffect session table condition returning db) := by
  refine ⟨secured, ?_, by simp [Schema.deleteEffect]⟩
  intro row member
  simp only [Schema.deleteEffect, List.mem_filter, Bool.and_eq_true] at member ⊢
  exact member.2.1

theorem Schema.restrict_update [DecidableEq Table] (db : Database Table Column) (table : Table)
    (rows : List (Row Column)) :
    schema.restrict session (Function.update db table rows) =
      Function.update (schema.restrict session db) table
        (rows.filter (schema.visible session table)) := by
  funext other
  by_cases same : other = table
  · subst same
    simp [Schema.restrict]
  · simp [Schema.restrict, same]

/-- The same answer, and the same database to the session. -/
def Schema.SeenAs (schema : Schema Table Column) (session : Nat)
    (whole own : Outcome × Database Table Column) : Prop :=
  whole.1 = own.1 ∧ schema.restrict session whole.2 = own.2

theorem Schema.commit_restrict [DecidableEq Table] (owned : schema.OwnedReferences) {db : Database Table Column}
    {effect : Option (Effect Table Column)}
    (own : ∀ result, effect = some result → schema.OwnEffect session result) :
    schema.SeenAs session (schema.commit db effect)
      (schema.commit (schema.restrict session db) (effect.map (schema.restrictEffect session))) := by
  cases effect with
  | none => exact ⟨rfl, rfl⟩
  | some result =>
    have mine := own result rfl
    simp only [Option.map_some, Schema.commit, Schema.restrictEffect]
    rw [← Schema.restrict_update, Schema.referring_restrict owned mine.secured mine.written,
      Schema.referred_restrict owned mine.secured mine.removed]
    split
    · exact ⟨rfl, rfl⟩
    · exact ⟨rfl, rfl⟩

/-- The rows of a table that the session does not see. -/
def Schema.hidden (schema : Schema Table Column) (session : Nat) (db : Database Table Column)
    (table : Table) : List (Row Column) :=
  (db table).filter fun row => !schema.visible session table row

theorem Schema.commit_hidden [DecidableEq Table] {db : Database Table Column} {effect : Option (Effect Table Column)}
    (kept : ∀ result, effect = some result →
      result.rows.filter (fun row => !schema.visible session result.table row) =
        schema.hidden session db result.table) (table : Table) :
    schema.hidden session (schema.commit db effect).2 table = schema.hidden session db table := by
  cases effect with
  | none => rfl
  | some result =>
    simp only [Schema.commit]
    split
    · by_cases same : table = result.table
      · subst same
        simp only [Schema.hidden, Function.update_self]
        exact kept result rfl
      · simp only [Schema.hidden, Function.update_of_ne same]
    · rfl

end Policy

variable [DecidableEq Column]

section Definitions

variable (schema : Schema Table Column) (session : Nat)

/-- The row shares with no hidden row a key that leaves the owner out. -/
def Schema.ClearOf (table : Table) (row : Row Column) (rows : List (Row Column)) : Prop :=
  ∀ key ∈ schema.keys table, schema.owner ∉ key → ∀ other ∈ rows,
    schema.visible session table other = false → schema.sameKey table key row other = false

/-- The rows a statement tries to write, with their table. -/
def Schema.attempts (db : Database Table Column) (label : Environment × Statement Table Column) :
    List (Table × Row Column) :=
  let view := schema.restrict session db
  match label.2 with
  | .select _ => []
  | .insert table drafts _ _ =>
    ((drafts view).getD []).mapIdx fun index draft => (table, schema.newRow label.1 table index draft)
  | .update table assign _ =>
    match assign view with
    | none => []
    | some assign => (view table).filterMap fun row =>
        (schema.change session table assign row).map fun new => (table, new)
  | .delete _ _ _ => []

/-- No row the statement tries to write clashes with a hidden row. -/
def Schema.Clear (db : Database Table Column) (label : Environment × Statement Table Column) : Prop :=
  ∀ attempt ∈ schema.attempts session db label,
    schema.ClearOf session attempt.1 attempt.2 (db attempt.1)

end Definitions

variable {schema : Schema Table Column} {session : Nat}

theorem Schema.keyValue_uuid (table : Table) (column : Column) (value : Value) :
    schema.keyValue table column value = .uuid n ↔ value = .uuid n := by
  unfold Schema.keyValue
  split
  · split <;> simp
  · rfl

/-- A key with the owner in it tells a visible row from every hidden one. -/
theorem Schema.sameKey_hidden {row other : Row Column} (owned : schema.owner ∈ key)
    (shown : schema.visible session table row = true)
    (hidden : schema.visible session table other = false) :
    schema.sameKey table key row other = false := by
  have secured : schema.secured table = true := by
    by_contra open_
    simp [Schema.visible, open_] at hidden
  by_contra same
  rw [Bool.not_eq_false, Schema.sameKey, List.all_eq_true] at same
  have parts := same schema.owner owned
  simp only [Bool.and_eq_true, beq_iff_eq, (Schema.visible_iff secured).mp shown] at parts
  have owner : other schema.owner = .uuid session := by
    apply (Schema.keyValue_uuid table schema.owner _).mp
    rw [← parts.2]
    exact (Schema.keyValue_uuid table schema.owner _).mpr rfl
  rw [(Schema.visible_iff secured).mpr owner] at hidden
  cases hidden

theorem Schema.ClearOf.mono {row : Row Column} {rows others : List (Row Column)}
    (clear : schema.ClearOf session table row rows)
    (fewer : ∀ other ∈ others, schema.visible session table other = false → other ∈ rows) :
    schema.ClearOf session table row others :=
  fun key listed unowned other member hidden =>
    clear key listed unowned other (fewer other member hidden) hidden

/-- A clear row conflicts with the rows the session sees or with none. -/
theorem Schema.ClearOf.conflicts {row : Row Column} {rows : List (Row Column)}
    (clear : schema.ClearOf session table row rows)
    (shown : schema.visible session table row = true) :
    schema.conflicts table row (rows.filter (schema.visible session table)) =
      schema.conflicts table row rows := by
  unfold Schema.conflicts
  apply Bool.eq_iff_iff.mpr
  simp only [List.any_eq_true (l := schema.keys table)]
  have each : ∀ key ∈ schema.keys table,
      (rows.filter (schema.visible session table)).any (schema.sameKey table key row) =
        rows.any (schema.sameKey table key row) := by
    intro key listed
    apply any_filter_of_hidden
    intro other member hidden
    by_cases owned : schema.owner ∈ key
    · exact Schema.sameKey_hidden owned shown hidden
    · exact clear key listed owned other member hidden
  constructor
  · intro found
    obtain ⟨key, listed, clash⟩ := found
    exact ⟨key, listed, each key listed ▸ clash⟩
  · intro found
    obtain ⟨key, listed, clash⟩ := found
    exact ⟨key, listed, (each key listed).symm ▸ clash⟩


/-- Inserting into the whole table and into the visible part of it. -/
theorem Schema.insertRows_restrict {new rows : List (Row Column)}
    (clear : ∀ row ∈ new, schema.ClearOf session table row rows) (conflict : OnConflict) :
    (schema.insertRows session table conflict rows new).map
        (fun result => (result.1.filter (schema.visible session table), result.2)) =
      schema.insertRows session table conflict (rows.filter (schema.visible session table)) new := by
  induction new generalizing rows with
  | nil => rfl
  | cons row rest ih =>
    have later := fun other member => clear other (List.mem_cons_of_mem row member)
    simp only [Schema.insertRows]
    by_cases accepted : schema.acceptable session table row = true
    · have shown := Schema.acceptable_visible accepted
      rw [(clear row (by simp)).conflicts shown]
      simp only [accepted, Bool.not_true, Bool.false_eq_true, ↓reduceIte]
      split
      · cases conflict with
        | fail => rfl
        | doNothing => exact ih later
      · have still : ∀ other ∈ rest, schema.ClearOf session table other (rows ++ [row]) := by
          intro other member
          apply (later other member).mono
          intro old present hidden
          rcases List.mem_append.mp present with before | last
          · exact before
          · rw [List.mem_singleton.mp last, shown] at hidden
            cases hidden
        have grown := ih still
        rw [filter_concat shown] at grown
        rw [← grown, Option.map_map, Option.map_map]
        rfl
    · simp [accepted]

/-- Updating the whole table and the visible part of it. -/
theorem Schema.updateRows_restrict {change : Row Column → Option (Row Column)}
    {finished rows : List (Row Column)}
    (selects : ∀ row new, change row = some new → schema.visible session table row = true)
    (clear : ∀ row ∈ rows, ∀ new, change row = some new →
      schema.ClearOf session table new (finished ++ rows)) :
    (schema.updateRows session table change finished rows).map
        (fun result => (result.1.filter (schema.visible session table), result.2)) =
      schema.updateRows session table change (finished.filter (schema.visible session table))
        (rows.filter (schema.visible session table)) := by
  induction rows generalizing finished with
  | nil => rfl
  | cons row rest ih =>
    have later := fun other member => clear other (List.mem_cons_of_mem row member)
    cases changed : change row with
    | none =>
      have still : ∀ other ∈ rest, ∀ new, change other = some new →
          schema.ClearOf session table new (finished ++ [row] ++ rest) := by
        rw [List.append_cons] at later
        exact later
      have passed := ih still
      rw [Schema.updateRows, changed]
      by_cases shown : schema.visible session table row = true
      · rw [filter_concat shown] at passed
        rw [List.filter_cons_of_pos shown, Schema.updateRows, changed]
        exact passed
      · rw [filter_concat_not (by simpa using shown)] at passed
        rw [List.filter_cons_of_neg shown]
        exact passed
    | some new =>
      have seen := selects row new changed
      rw [List.filter_cons_of_pos seen]
      simp only [Schema.updateRows, changed]
      by_cases accepted : schema.acceptable session table new = true
      · have shown := Schema.acceptable_visible accepted
        have own : schema.ClearOf session table new (finished ++ rest) := by
          apply (clear row (by simp) new changed).mono
          intro other member _
          rcases List.mem_append.mp member with before | after
          · exact List.mem_append_left _ before
          · exact List.mem_append_right _ (List.mem_cons_of_mem row after)
        rw [← own.conflicts shown, List.filter_append]
        simp only [accepted, Bool.not_true, Bool.false_or]
        split
        · rfl
        · have still : ∀ other ∈ rest, ∀ next, change other = some next →
              schema.ClearOf session table next (finished ++ [new] ++ rest) := by
            intro other member next also
            apply (later other member next also).mono
            intro old present hidden
            simp only [List.mem_append, List.mem_cons, List.not_mem_nil, or_false] at present ⊢
            rcases present with (before | rfl) | after
            · exact .inl before
            · rw [shown] at hidden
              cases hidden
            · exact .inr (.inr after)
          have passed := ih still
          rw [filter_concat shown] at passed
          rw [← passed, Option.map_map, Option.map_map]
          rfl
      · simp [accepted]

/-- What one round of an insert does: the row is acceptable, and is left out or added. -/
theorem Schema.insertRows_cons {rows rest : List (Row Column)}
    (inserted : schema.insertRows session table conflict rows (row :: rest) = some result) :
    schema.visible session table row = true ∧
      (schema.insertRows session table conflict rows rest = some result ∨
        ∃ tail, schema.insertRows session table conflict (rows ++ [row]) rest = some tail ∧
          result = (tail.1, row :: tail.2)) := by
  simp only [Schema.insertRows] at inserted
  split at inserted
  · cases inserted
  · rename_i accepted
    refine ⟨Schema.acceptable_visible (by simpa using accepted), ?_⟩
    split at inserted
    · cases conflict with
      | fail => cases inserted
      | doNothing => exact .inl inserted
    · obtain ⟨tail, later, same⟩ := Option.map_eq_some_iff.mp inserted
      exact .inr ⟨tail, later, same.symm⟩

theorem Schema.insertRows_acceptable {rows new : List (Row Column)}
    (inserted : schema.insertRows session table conflict rows new = some result) :
    ∀ row ∈ result.2, schema.visible session table row = true := by
  induction new generalizing rows result with
  | nil =>
    cases inserted
    simp
  | cons row rest ih =>
    obtain ⟨shown, skipped | ⟨tail, later, rfl⟩⟩ := Schema.insertRows_cons inserted
    · exact ih skipped
    · intro other member
      rcases List.mem_cons.mp member with rfl | below
      · exact shown
      · exact ih later other below

/-- What one round of an update does: the row is kept, or changed to an acceptable one. -/
theorem Schema.updateRows_cons {change : Row Column → Option (Row Column)}
    {finished rest : List (Row Column)}
    (updated : schema.updateRows session table change finished (row :: rest) = some result) :
    schema.updateRows session table change (finished ++ [row]) rest = some result ∨
      ∃ new tail, change row = some new ∧ schema.visible session table new = true ∧
        schema.updateRows session table change (finished ++ [new]) rest = some tail ∧
          result = (tail.1, (row, new) :: tail.2) := by
  simp only [Schema.updateRows] at updated
  split at updated
  · exact .inl updated
  · rename_i new changed
    split at updated
    · cases updated
    · rename_i accepted
      simp only [Bool.or_eq_true, Bool.not_eq_true', not_or, Bool.not_eq_false] at accepted
      obtain ⟨tail, later, same⟩ := Option.map_eq_some_iff.mp updated
      exact .inr ⟨new, tail, changed, Schema.acceptable_visible accepted.1, later, same.symm⟩

theorem Schema.updateRows_acceptable {change : Row Column → Option (Row Column)}
    {finished rows : List (Row Column)}
    (selects : ∀ row new, change row = some new → schema.visible session table row = true)
    (updated : schema.updateRows session table change finished rows = some result) :
    ∀ pair ∈ result.2, schema.visible session table pair.1 = true ∧
      schema.visible session table pair.2 = true := by
  induction rows generalizing finished result with
  | nil =>
    cases updated
    simp
  | cons row rest ih =>
    obtain kept | ⟨new, tail, changed, shown, later, rfl⟩ := Schema.updateRows_cons updated
    · exact ih kept
    · intro pair member
      rcases List.mem_cons.mp member with rfl | below
      · exact ⟨selects row new changed, shown⟩
      · exact ih later pair below

theorem Schema.change_visible {assign : Row Column → Option (List (Column × Value))}
    (changed : schema.change session table assign row = some new) :
    schema.visible session table row = true := by
  unfold Schema.change at changed
  split at changed
  · assumption
  · cases changed

theorem Schema.insertEffect_restrict {db : Database Table Column} {env : Environment}
    {drafts : List (List (Column × Option Value))}
    (clear : ∀ row ∈ drafts.mapIdx (schema.newRow env table),
      schema.ClearOf session table row (db table)) (conflict : OnConflict)
    (returning : Row Column → List Value) :
    (schema.insertEffect session env table drafts conflict returning db).map
        (schema.restrictEffect session) =
      schema.insertEffect session env table drafts conflict returning
        (schema.restrict session db) := by
  unfold Schema.insertEffect
  split
  · rfl
  · rw [Schema.restrict, ← Schema.insertRows_restrict clear conflict, Option.map_map, Option.map_map]
    rfl

theorem Schema.insertEffect_own {db : Database Table Column} (secured : schema.secured table = true)
    (inserted : schema.insertEffect session env table drafts conflict returning db = some result) :
    schema.OwnEffect session result := by
  unfold Schema.insertEffect at inserted
  split at inserted
  · cases inserted
  · obtain ⟨rows, written, rfl⟩ := Option.map_eq_some_iff.mp inserted
    exact ⟨secured, by simp, Schema.insertRows_acceptable written⟩

theorem Schema.updateEffect_restrict {db : Database Table Column}
    {assign : Row Column → Option (List (Column × Value))}
    (clear : ∀ row ∈ db table, ∀ new, schema.change session table assign row = some new →
      schema.ClearOf session table new (db table)) (returning : Row Column → List Value) :
    (schema.updateEffect session table assign returning db).map (schema.restrictEffect session) =
      schema.updateEffect session table assign returning (schema.restrict session db) := by
  unfold Schema.updateEffect
  rw [Schema.restrict_restrict]
  split
  · rfl
  · have start : ∀ row ∈ db table, ∀ new, schema.change session table assign row = some new →
        schema.ClearOf session table new ([] ++ db table) := clear
    have parts := Schema.updateRows_restrict (fun row new => Schema.change_visible) start
    rw [List.filter_nil] at parts
    rw [Schema.restrict, ← parts, Option.map_map, Option.map_map]
    rfl

theorem Schema.updateEffect_own {db : Database Table Column} (secured : schema.secured table = true)
    (updated : schema.updateEffect session table assign returning db = some result) :
    schema.OwnEffect session result := by
  unfold Schema.updateEffect at updated
  split at updated
  · cases updated
  · obtain ⟨rows, changed, rfl⟩ := Option.map_eq_some_iff.mp updated
    have shown := Schema.updateRows_acceptable (fun row new => Schema.change_visible) changed
    refine ⟨secured, ?_, ?_⟩
    · intro row member
      obtain ⟨pair, present, rfl⟩ := List.mem_map.mp member
      exact (shown pair present).1
    · intro row member
      obtain ⟨pair, present, rfl⟩ := List.mem_map.mp member
      exact (shown pair present).2

theorem Schema.insertRows_hidden {rows new : List (Row Column)}
    (inserted : schema.insertRows session table conflict rows new = some result) :
    result.1.filter (fun row => !schema.visible session table row) =
      rows.filter fun row => !schema.visible session table row := by
  induction new generalizing rows result with
  | nil =>
    cases inserted
    rfl
  | cons row rest ih =>
    obtain ⟨shown, skipped | ⟨tail, later, rfl⟩⟩ := Schema.insertRows_cons inserted
    · exact ih skipped
    · rw [ih later]
      exact filter_concat_not (by simp [shown])

theorem Schema.updateRows_hidden {change : Row Column → Option (Row Column)}
    {finished rows : List (Row Column)}
    (selects : ∀ row new, change row = some new → schema.visible session table row = true)
    (updated : schema.updateRows session table change finished rows = some result) :
    result.1.filter (fun row => !schema.visible session table row) =
      (finished ++ rows).filter fun row => !schema.visible session table row := by
  induction rows generalizing finished result with
  | nil =>
    cases updated
    rw [List.append_nil]
  | cons row rest ih =>
    obtain kept | ⟨new, tail, changed, shown, later, rfl⟩ := Schema.updateRows_cons updated
    · rw [ih kept, List.append_assoc]
      rfl
    · rw [ih later]
      have both := selects row new changed
      simp [List.filter_append, shown, both]

theorem Schema.attempts_target {db : Database Table Column}
    {label : Environment × Statement Table Column}
    (tried : attempt ∈ schema.attempts session db label) : label.2.target = some attempt.1 := by
  obtain ⟨env, statement⟩ := label
  cases statement with
  | select query => cases tried
  | insert table drafts conflict returning =>
    obtain ⟨index, bound, rfl⟩ := List.mem_mapIdx.mp tried
    rfl
  | update table assign returning =>
    simp only [Schema.attempts] at tried
    split at tried
    · cases tried
    · obtain ⟨row, _, changed⟩ := List.mem_filterMap.mp tried
      obtain ⟨new, _, rfl⟩ := Option.map_eq_some_iff.mp changed
      rfl
  | delete table condition returning => cases tried

section Steps

variable [DecidableEq Table]

/-- Every statement on a secured table is to its session as if the rows of the
session were all there are. -/
theorem Schema.step_restrict (owned : schema.OwnedReferences) {db : Database Table Column}
    {label : Environment × Statement Table Column}
    (secured : ∀ table, label.2.target = some table → schema.secured table = true)
    (clear : schema.Clear session db label) :
    schema.SeenAs session (schema.step session db label)
      (schema.step session (schema.restrict session db) label) := by
  obtain ⟨env, statement⟩ := label
  cases statement with
  | select query =>
    simp only [Schema.step, Schema.restrict_restrict]
    split
    · exact ⟨rfl, rfl⟩
    · exact ⟨rfl, rfl⟩
  | insert table drafts conflict returning =>
    simp only [Schema.step, Schema.restrict_restrict]
    cases evaluated : drafts (schema.restrict session db) with
    | none => exact ⟨rfl, rfl⟩
    | some list =>
      have rows : ∀ row ∈ list.mapIdx (schema.newRow env table),
          schema.ClearOf session table row (db table) := by
        intro row member
        obtain ⟨index, bound, same⟩ := List.mem_mapIdx.mp member
        apply clear (table, row)
        simp only [Schema.attempts, evaluated, Option.getD_some, List.mem_mapIdx]
        exact ⟨index, bound, by rw [same]⟩
      rw [Option.bind_some, Option.bind_some, ← Schema.insertEffect_restrict rows]
      exact Schema.commit_restrict owned fun result inserted =>
        Schema.insertEffect_own (secured table rfl) inserted
  | update table assign returning =>
    simp only [Schema.step, Schema.restrict_restrict]
    cases evaluated : assign (schema.restrict session db) with
    | none => exact ⟨rfl, rfl⟩
    | some assign' =>
      have rows : ∀ row ∈ db table, ∀ new, schema.change session table assign' row = some new →
          schema.ClearOf session table new (db table) := by
        intro row member new changed
        apply clear (table, new)
        simp only [Schema.attempts, evaluated, List.mem_filterMap, Option.map_eq_some_iff]
        have seen := List.mem_filter.mpr ⟨member, Schema.change_visible changed⟩
        exact ⟨row, seen, new, changed, rfl⟩
      rw [Option.bind_some, Option.bind_some, ← Schema.updateEffect_restrict rows]
      exact Schema.commit_restrict owned fun result updated =>
        Schema.updateEffect_own (secured table rfl) updated
  | delete table condition returning =>
    simp only [Schema.step, Schema.restrict_restrict]
    cases evaluated : condition (schema.restrict session db) with
    | none => exact ⟨rfl, rfl⟩
    | some test =>
      rw [Option.map_some, Option.map_some, ← Schema.deleteEffect_restrict]
      apply Schema.commit_restrict owned
      intro result deleted
      cases deleted
      exact Schema.deleteEffect_own db (secured table rfl) test returning

/-- No statement changes a row that its session does not see. -/
theorem Schema.step_hidden (db : Database Table Column)
    (label : Environment × Statement Table Column) (table : Table) :
    schema.hidden session (schema.step session db label).2 table =
      schema.hidden session db table := by
  obtain ⟨env, statement⟩ := label
  cases statement with
  | select query =>
    simp only [Schema.step]
    split
    · rfl
    · rfl
  | insert target drafts conflict returning =>
    apply Schema.commit_hidden
    intro result effect
    obtain ⟨list, _, inserted⟩ := Option.bind_eq_some_iff.mp effect
    unfold Schema.insertEffect at inserted
    split at inserted
    · cases inserted
    · obtain ⟨rows, written, rfl⟩ := Option.map_eq_some_iff.mp inserted
      exact Schema.insertRows_hidden written
  | update target assign returning =>
    apply Schema.commit_hidden
    intro result effect
    obtain ⟨values, _, updated⟩ := Option.bind_eq_some_iff.mp effect
    unfold Schema.updateEffect at updated
    split at updated
    · cases updated
    · obtain ⟨rows, changed, rfl⟩ := Option.map_eq_some_iff.mp updated
      exact Schema.updateRows_hidden (fun row new => Schema.change_visible) changed
  | delete target condition returning =>
    apply Schema.commit_hidden
    intro result effect
    obtain ⟨test, _, rfl⟩ := Option.map_eq_some_iff.mp effect
    simp only [Schema.deleteEffect, Schema.hidden, List.filter_filter]
    apply List.filter_congr
    intro row _
    cases schema.visible session target row <;> simp

end Steps

end Isolation

end N8nSystems.Lib.Sql
