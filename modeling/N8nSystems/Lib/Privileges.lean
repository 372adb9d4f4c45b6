import N8nSystems.Lib.RowSecurity

/-! Table privileges: the access control lists that a script of GRANT and REVOKE leaves, and
what transactions of roles that hold such privileges can do to a table. -/

namespace N8nSystems.Lib.Sql

universe u v w

inductive Privilege where
  | select | insert | update | delete | truncate | references | trigger
  deriving DecidableEq, Repr

/-- `ALL PRIVILEGES` of a table. -/
def allPrivileges : List Privilege := [.select, .insert, .update, .delete, .truncate, .references, .trigger]

/-- `GRANT` and `REVOKE` of privileges on tables; the grantee `none` is `PUBLIC`. -/
inductive AccessCommand (Role : Type w) (Table : Type u) where
  | grant (privileges : List Privilege) (tables : List Table) (grantees : List (Option Role))
  | revoke (privileges : List Privilege) (tables : List Table) (grantees : List (Option Role))

/-- The privileges that each grantee holds on each table. -/
abbrev Acl (Role : Type w) (Table : Type u) := Option Role → Table → Privilege → Bool

section Access

variable {Role : Type w} {Table : Type u} [DecidableEq Role] [DecidableEq Table]

def AccessCommand.perform (acl : Acl Role Table) : AccessCommand Role Table → Acl Role Table
  | .grant privileges tables grantees => fun grantee table privilege =>
    acl grantee table privilege ||
      decide (grantee ∈ grantees ∧ table ∈ tables ∧ privilege ∈ privileges)
  | .revoke privileges tables grantees => fun grantee table privilege =>
    acl grantee table privilege &&
      !decide (grantee ∈ grantees ∧ table ∈ tables ∧ privilege ∈ privileges)

/-- The lists after a script, from a database in which nobody but the owner holds any. -/
def aclOf (script : List (AccessCommand Role Table)) : Acl Role Table :=
  script.foldl AccessCommand.perform fun _ _ _ => false

/-- A role holds its own privileges and those of `PUBLIC`. -/
def Acl.holds (acl : Acl Role Table) (role : Role) (table : Table) (privilege : Privilege) : Bool :=
  acl (some role) table privilege || acl none table privilege

end Access

/-- A statement as a role sends it. -/
inductive Request (Table : Type u) (Column : Type v) where
  | plain (statement : Statement Table Column)
  | truncate (table : Table)

/-- The privilege without which a statement that writes is refused. -/
def Request.needs {Table : Type u} {Column : Type v} : Request Table Column → Option (Table × Privilege)
  | .plain (.select _) => none
  | .plain (.insert table _ _ _) => some (table, .insert)
  | .plain (.update table _ _) => some (table, .update)
  | .plain (.delete table _ _) => some (table, .delete)
  | .truncate table => some (table, .truncate)

/-- What a role sends in a transaction before its end. -/
inductive Instruction (Table : Type u) (Column : Type v) where
  | statement (env : Environment) (request : Request Table Column)
  | savepoint (name : String)
  | rollbackTo (name : String)
  | release (name : String)

/-- A transaction of a role: its instructions, and whether it ends in a COMMIT. -/
structure Transaction (Role : Type w) (Table : Type u) (Column : Type v) where
  role : Role
  session : Nat
  instructions : List (Instruction Table Column)
  commits : Bool

/-- An open transaction: what it sees, whether an error aborted it, and its savepoints, the
latest first. -/
structure Block (Table : Type u) (Column : Type v) where
  db : Database Table Column
  aborted : Bool
  savepoints : List (String × Database Table Column)

section Semantics

variable {Role : Type w} {Table : Type u} {Column : Type v} [DecidableEq Table] [DecidableEq Column]
variable (schema : Schema Table Column) (acl : Acl Role Table)

/-- One statement of a role that holds the privilege for it. -/
def Schema.request (session : Nat) (db : Database Table Column) (env : Environment) :
    Request Table Column → Outcome × Database Table Column
  | .plain statement => schema.step session db (env, statement)
  | .truncate table => (.done 0 [], Function.update db table [])

/-- One statement of the role. -/
def Schema.requestAs (role : Role) (session : Nat) (db : Database Table Column)
    (label : Environment × Request Table Column) : Outcome × Database Table Column :=
  if label.2.needs.all fun need => acl.holds role need.1 need.2 then
    schema.request session db label.1 label.2
  else (.error, db)

/-- One instruction. An aborted transaction does nothing but go back to a savepoint. -/
def Schema.instruct (role : Role) (session : Nat) (block : Block Table Column) :
    Instruction Table Column → Block Table Column
  | .statement env request =>
    if block.aborted then block
    else match schema.requestAs acl role session block.db (env, request) with
      | (.error, _) => { block with aborted := true }
      | (.done _ _, next) => { block with db := next }
  | .savepoint name =>
    if block.aborted then block else { block with savepoints := (name, block.db) :: block.savepoints }
  | .rollbackTo name =>
    match block.savepoints.dropWhile (·.1 ≠ name) with
    | [] => { block with aborted := true }
    | saved :: earlier => ⟨saved.2, false, saved :: earlier⟩
  | .release name =>
    if block.aborted then block
    else match block.savepoints.dropWhile (·.1 ≠ name) with
      | [] => { block with aborted := true }
      | _ :: earlier => { block with savepoints := earlier }

/-- The instructions of a transaction, one after the other. -/
def Schema.block (role : Role) (session : Nat) (instructions : List (Instruction Table Column))
    (block : Block Table Column) : Block Table Column :=
  instructions.foldl (schema.instruct acl role session) block

/-- A transaction that is aborted at its end or rolled back leaves the database as it was. -/
def Schema.transact (db : Database Table Column) (transaction : Transaction Role Table Column) :
    Database Table Column :=
  let last := schema.block acl transaction.role transaction.session transaction.instructions ⟨db, false, []⟩
  if transaction.commits && !last.aborted then last.db else db

def Schema.transactAll (db : Database Table Column) (transactions : List (Transaction Role Table Column)) :
    Database Table Column :=
  transactions.foldl (schema.transact acl) db

end Semantics

/-- What a statement that needs the privilege can make of the rows of a table. -/
inductive Change {Column : Type v} : Privilege → List (Row Column) → List (Row Column) → Prop
  | insert : Change .insert rows (rows ++ new)
  | update (length : after.length = before.length) : Change .update before after
  | delete (kept : after.Sublist before) : Change .delete before after
  | truncate : Change .truncate rows []

section Changes

variable {Role : Type w} {Table : Type u} {Column : Type v} [DecidableEq Table] [DecidableEq Column]
variable {schema : Schema Table Column} {acl : Acl Role Table} {session : Nat}

omit [DecidableEq Table] in
theorem Schema.insertRows_prefix {conflict : OnConflict} {table : Table} {rows new : List (Row Column)}
    (inserted : schema.insertRows session table conflict rows new = some result) : rows <+: result.1 := by
  induction new generalizing rows result with
  | nil =>
    cases inserted
    exact List.prefix_refl rows
  | cons row rest ih =>
    obtain ⟨-, skipped | ⟨tail, later, rfl⟩⟩ := Schema.insertRows_cons inserted
    · exact ih skipped
    · have grown : rows ++ [row] <+: tail.1 := ih later
      exact (List.prefix_append rows [row]).trans grown

omit [DecidableEq Table] in
theorem Schema.updateRows_length {table : Table} {change : Row Column → Option (Row Column)}
    {finished rows : List (Row Column)}
    (updated : schema.updateRows session table change finished rows = some result) :
    result.1.length = (finished ++ rows).length := by
  induction rows generalizing finished result with
  | nil =>
    cases updated
    rw [List.append_nil]
  | cons row rest ih =>
    obtain kept | ⟨new, tail, -, -, later, rfl⟩ := Schema.updateRows_cons updated
    · simpa using ih kept
    · simpa using ih later

/-- A statement changes at most the table that it needs its privilege for, and that only in
the way of the privilege. -/
theorem Schema.request_change (db : Database Table Column) (env : Environment)
    (request : Request Table Column) :
    (schema.request session db env request).2 = db ∨
      ∃ table privilege rows, request.needs = some (table, privilege) ∧
        (schema.request session db env request).2 = Function.update db table rows ∧
        Change privilege (db table) rows := by
  have committed {effect : Option (Effect Table Column)} {table : Table} {privilege : Privilege}
      (targets : ∀ result ∈ effect, result.table = table ∧ Change privilege (db table) result.rows) :
      (schema.commit db effect).2 = db ∨ ∃ rows, (schema.commit db effect).2 = Function.update db table rows ∧
        Change privilege (db table) rows := by
    cases effect with
    | none => exact .inl rfl
    | some result =>
      obtain ⟨rfl, change⟩ := targets result rfl
      simp only [Schema.commit]
      split
      · exact .inr ⟨result.rows, rfl, change⟩
      · exact .inl rfl
  have named {table : Table} {privilege : Privilege} {next : Database Table Column}
      (needs : request.needs = some (table, privilege))
      (changed : next = db ∨ ∃ rows, next = Function.update db table rows ∧ Change privilege (db table) rows) :
      next = db ∨ ∃ table privilege rows, request.needs = some (table, privilege) ∧
        next = Function.update db table rows ∧ Change privilege (db table) rows := by
    rcases changed with same | ⟨rows, updated, change⟩
    · exact .inl same
    · exact .inr ⟨table, privilege, rows, needs, updated, change⟩
  cases request with
  | truncate table => exact .inr ⟨table, .truncate, [], rfl, rfl, .truncate⟩
  | plain statement =>
    cases statement with
    | select query =>
      left
      simp only [Schema.request, Schema.step]
      split <;> rfl
    | insert table drafts conflict returning =>
      refine named rfl (committed ?_)
      intro result effect
      obtain ⟨list, -, inserted⟩ := Option.bind_eq_some_iff.mp effect
      unfold Schema.insertEffect at inserted
      split at inserted
      · cases inserted
      · obtain ⟨rows, written, rfl⟩ := Option.map_eq_some_iff.mp inserted
        obtain ⟨new, grown⟩ := Schema.insertRows_prefix written
        exact ⟨rfl, grown ▸ .insert⟩
    | update table assign returning =>
      refine named rfl (committed ?_)
      intro result effect
      obtain ⟨values, -, updated⟩ := Option.bind_eq_some_iff.mp effect
      unfold Schema.updateEffect at updated
      split at updated
      · cases updated
      · obtain ⟨rows, changed, rfl⟩ := Option.map_eq_some_iff.mp updated
        exact ⟨rfl, .update (Schema.updateRows_length changed)⟩
    | delete table condition returning =>
      refine named rfl (committed ?_)
      intro result effect
      obtain ⟨test, -, rfl⟩ := Option.map_eq_some_iff.mp effect
      exact ⟨rfl, .delete List.filter_sublist⟩

/-- A relation that survives everything the role's privileges on a table allow. -/
structure Acl.Respects (acl : Acl Role Table) (role : Role) (table : Table)
    (Related : List (Row Column) → List (Row Column) → Prop) : Prop where
  refl : ∀ rows, Related rows rows
  trans : ∀ first second third, Related first second → Related second third → Related first third
  changes : ∀ privilege, acl.holds role table privilege = true → ∀ before after,
    Change privilege before after → Related before after

section Respects

variable {role : Role} {table : Table} {Related : List (Row Column) → List (Row Column) → Prop}

theorem Acl.Respects.requestAs (respects : acl.Respects role table Related) (db : Database Table Column)
    (label : Environment × Request Table Column) :
    Related (db table) ((schema.requestAs acl role session db label).2 table) := by
  unfold Schema.requestAs
  split
  · rename_i permitted
    rcases schema.request_change db label.1 label.2 with
      same | ⟨target, privilege, rows, needs, updated, change⟩
    · rw [same]
      exact respects.refl _
    · rw [updated]
      by_cases own : table = target
      · subst own
        rw [needs, Option.all_some] at permitted
        rw [Function.update_self]
        exact respects.changes privilege permitted _ _ change
      · rw [Function.update_of_ne own]
        exact respects.refl _
  · exact respects.refl _

/-- What the transaction sees of a table, or could go back to, is related to what it was. -/
def Block.Kept (rows : List (Row Column)) (table : Table) (Related : List (Row Column) → List (Row Column) → Prop)
    (block : Block Table Column) : Prop :=
  Related rows (block.db table) ∧ ∀ saved ∈ block.savepoints, Related rows (saved.2 table)

theorem Acl.Respects.instruct (respects : acl.Respects role table Related) {rows : List (Row Column)}
    {block : Block Table Column} (kept : block.Kept rows table Related) (instruction : Instruction Table Column) :
    (schema.instruct acl role session block instruction).Kept rows table Related := by
  obtain ⟨now, saved⟩ := kept
  have earlier {name : String} : ∀ point ∈ block.savepoints.dropWhile (·.1 ≠ name), Related rows (point.2 table) :=
    fun point member => saved point ((List.dropWhile_sublist _).subset member)
  cases instruction with
  | statement env request =>
    have one := @Acl.Respects.requestAs _ _ _ _ _ schema acl session _ _ _ respects block.db (env, request)
    simp only [Schema.instruct]
    split
    · exact ⟨now, saved⟩
    split
    · exact ⟨now, saved⟩
    · rename_i outcome
      rw [outcome] at one
      exact ⟨respects.trans _ _ _ now one, saved⟩
  | savepoint name =>
    simp only [Schema.instruct]
    split
    · exact ⟨now, saved⟩
    · exact ⟨now, List.forall_mem_cons.mpr ⟨now, saved⟩⟩
  | rollbackTo name =>
    have points := @earlier name
    simp only [Schema.instruct]
    split
    · exact ⟨now, saved⟩
    · rename_i point rest found
      rw [found] at points
      exact ⟨points point List.mem_cons_self, points⟩
  | release name =>
    have points := @earlier name
    simp only [Schema.instruct]
    split
    · exact ⟨now, saved⟩
    split
    · exact ⟨now, saved⟩
    · rename_i point rest found
      rw [found] at points
      exact ⟨now, (List.forall_mem_cons.mp points).2⟩

theorem Acl.Respects.block (respects : acl.Respects role table Related) {rows : List (Row Column)}
    {instructions : List (Instruction Table Column)} {block : Block Table Column}
    (kept : block.Kept rows table Related) :
    (schema.block acl role session instructions block).Kept rows table Related := by
  induction instructions generalizing block with
  | nil => exact kept
  | cons instruction rest ih => exact ih (respects.instruct kept instruction)

/-- What the privileges on a table allow is all that transactions of their holders do to it. -/
theorem Acl.Respects.transactAll {transactions : List (Transaction Role Table Column)}
    (respects : ∀ transaction ∈ transactions, acl.Respects transaction.role table Related)
    (refl : ∀ rows, Related rows rows) (db : Database Table Column) :
    Related (db table) (schema.transactAll acl db transactions table) := by
  induction transactions generalizing db with
  | nil => exact refl _
  | cons transaction rest ih =>
    obtain ⟨first, later⟩ := List.forall_mem_cons.mp respects
    have one : Related (db table) (schema.transact acl db transaction table) := by
      simp only [Schema.transact]
      split
      · have opened : (⟨db, false, []⟩ : Block Table Column).Kept (db table) table Related :=
          ⟨refl _, fun _ member => (by cases member)⟩
        exact (first.block opened).1
      · exact refl _
    exact first.trans _ _ _ one (ih later _)

/-- A statement without its privilege is refused, and changes nothing. -/
theorem Schema.requestAs_refused {env : Environment} {request : Request Table Column}
    (needs : request.needs = some (table, privilege)) (lacks : acl.holds role table privilege = false)
    (db : Database Table Column) : schema.requestAs acl role session db (env, request) = (.error, db) := by
  simp [Schema.requestAs, needs, lacks]

/-- An aborted transaction stays so until it goes back to a savepoint. -/
theorem Schema.block_aborted {instructions : List (Instruction Table Column)} {block : Block Table Column}
    (aborted : block.aborted = true) (onward : ∀ name, .rollbackTo name ∉ instructions) :
    (schema.block acl role session instructions block).aborted = true := by
  induction instructions generalizing block with
  | nil => exact aborted
  | cons instruction rest ih =>
    refine ih ?_ fun name later => onward name (List.mem_cons_of_mem _ later)
    cases instruction with
    | rollbackTo name => exact absurd List.mem_cons_self (onward name)
    | _ =>
      rw [Schema.instruct, if_pos aborted]
      exact aborted

/-- A refused statement undoes its transaction, unless that goes back to a savepoint after it. -/
theorem Schema.transact_refused {transaction : Transaction Role Table Column} {env : Environment}
    {request : Request Table Column} {before after : List (Instruction Table Column)}
    (made : transaction.instructions = before ++ .statement env request :: after)
    (needs : request.needs = some (table, privilege))
    (lacks : acl.holds transaction.role table privilege = false) (onward : ∀ name, .rollbackTo name ∉ after)
    (db : Database Table Column) : schema.transact acl db transaction = db := by
  have aborted : (schema.block acl transaction.role transaction.session transaction.instructions
      ⟨db, false, []⟩).aborted = true := by
    rw [made, Schema.block, List.foldl_append, List.foldl_cons]
    refine Schema.block_aborted ?_ onward
    simp only [Schema.instruct, Schema.requestAs_refused needs lacks]
    split
    · assumption
    · rfl
  simp [Schema.transact, aborted]

end Respects

end Changes

section Columns

variable {Role : Type w} {Table : Type u} {Column : Type v} {acl : Acl Role Table} {role : Role} {table : Table}

/-- Without the privileges to update or remove rows, a table grows at its end only. -/
theorem Acl.respects_prefix
    (fixed : ∀ privilege ∈ [Privilege.update, .delete, .truncate], acl.holds role table privilege = false) :
    acl.Respects role table fun before after : List (Row Column) => before <+: after where
  refl := List.prefix_refl
  trans _ _ _ := List.IsPrefix.trans
  changes := by
    intro privilege held before after change
    cases change with
    | insert => exact List.prefix_append _ _
    | _ => cases (fixed _ (by simp)).symm.trans held

/-- Without the privileges to remove rows, a table never shrinks. -/
theorem Acl.respects_length
    (kept : ∀ privilege ∈ [Privilege.delete, .truncate], acl.holds role table privilege = false) :
    acl.Respects role table fun before after : List (Row Column) => before.length ≤ after.length where
  refl _ := Nat.le_refl _
  trans _ _ _ := Nat.le_trans
  changes := by
    intro privilege held before after change
    cases change with
    | insert => simp
    | update length => exact Nat.le_of_eq length.symm
    | _ => cases (kept _ (by simp)).symm.trans held

/-- Without any privilege to write, a table stays as it is. -/
theorem Acl.respects_eq
    (reads : ∀ privilege ∈ [Privilege.insert, .update, .delete, .truncate],
      acl.holds role table privilege = false) :
    acl.Respects role table fun before after : List (Row Column) => after = before where
  refl _ := rfl
  trans _ _ _ first second := second.trans first
  changes := by
    intro privilege held before after change
    cases change with
    | _ => cases (reads _ (by simp)).symm.trans held

end Columns

end N8nSystems.Lib.Sql
