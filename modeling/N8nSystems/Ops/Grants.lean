import N8nSystems.Lib.Privileges

/-! The application roles of the platform database and what they may do to the `ops` tables
(`20260911120002_ops_roles.sql`, `20260911120003_ops_grants.sql`): the audit log is
append-only for all of them. -/

namespace N8nSystems.Ops

open Lib.Sql

universe v

inductive Table where
  | executionLog | idempotencyKeys | deadLetter | reviewQueue | auditLog | incidents
  deriving DecidableEq, Repr

inductive Role where
  | n8nApp | appBackend | readonly
  deriving DecidableEq, Repr

abbrev Command := AccessCommand Role Table

/-- `GRANT ... ON TABLE table TO role`. -/
def grantOn (privileges : List Privilege) (table : Table) (role : Role) : Command :=
  .grant privileges [table] [some role]

/-- `REVOKE ... ON TABLE table FROM grantee`. -/
def revokeOn (privileges : List Privilege) (table : Table) (grantee : Option Role) : Command :=
  .revoke privileges [table] [grantee]

/-- The table privileges of `migrate:up`, in the order of the script. -/
def up : List Command :=
  [grantOn [.select, .insert] .executionLog .n8nApp,
    grantOn [.select, .insert, .update] .executionLog .appBackend,
    grantOn [.select, .insert, .update] .idempotencyKeys .n8nApp,
    grantOn [.select, .insert, .update] .idempotencyKeys .appBackend,
    grantOn [.select, .insert, .update] .deadLetter .n8nApp,
    grantOn [.select, .insert, .update] .deadLetter .appBackend,
    grantOn [.select, .insert, .update] .reviewQueue .n8nApp,
    grantOn [.select, .insert, .update] .reviewQueue .appBackend,
    grantOn [.select, .insert] .auditLog .n8nApp,
    grantOn [.select, .insert] .auditLog .appBackend,
    grantOn [.select, .insert, .update] .incidents .n8nApp,
    grantOn [.select, .insert, .update] .incidents .appBackend,
    .grant [.select] [.executionLog, .idempotencyKeys, .deadLetter, .reviewQueue, .auditLog, .incidents]
      [some .readonly],
    revokeOn [.update, .delete] .auditLog (some .n8nApp),
    revokeOn [.update, .delete] .auditLog (some .appBackend),
    revokeOn [.update, .delete] .auditLog (some .readonly),
    revokeOn [.update, .delete] .auditLog none,
    revokeOn allPrivileges .auditLog none]

/-- The table privileges of `migrate:down`. -/
def down : List Command :=
  [.executionLog, .idempotencyKeys, .deadLetter, .reviewQueue, .auditLog, .incidents].map fun table =>
    .revoke allPrivileges [table] [some .n8nApp, some .appBackend, some .readonly]

/-- The grant matrix at the head of the script. -/
def matrix : Table → Role → List Privilege
  | _, .readonly => [.select]
  | .executionLog, .n8nApp => [.select, .insert]
  | .executionLog, .appBackend => [.select, .insert, .update]
  | .auditLog, _ => [.select, .insert]
  | _, _ => [.select, .insert, .update]

/-- The script grants what its matrix says, and nothing else. -/
theorem holds_up (role : Role) (table : Table) (privilege : Privilege) :
    (aclOf up).holds role table privilege = decide (privilege ∈ matrix table role) := by
  cases role <;> cases table <;> cases privilege <;> rfl

/-- The way down takes back every privilege that the way up gave. -/
theorem holds_down (role : Role) (table : Table) (privilege : Privilege) :
    (aclOf (up ++ down)).holds role table privilege = false := by
  cases role <;> cases table <;> cases privilege <;> rfl

section Roles

variable {Column : Type v} [DecidableEq Column]

/-- Whatever transactions the application roles make, in whatever order: the audit log grows at
its end only, no table of `ops` loses a row, n8n never rewrites the execution log, and the
read-only role changes nothing. A statement that would rewrite or remove audit rows changes
nothing, and its transaction is rolled back whole unless it goes back to a savepoint after it. -/
theorem audit_append_only (schema : Schema Table Column) (db : Database Table Column)
    (transactions : List (Transaction Role Table Column)) :
    db .auditLog <+: schema.transactAll (aclOf up) db transactions .auditLog ∧
    (∀ table, (db table).length ≤ (schema.transactAll (aclOf up) db transactions table).length) ∧
    ((∀ transaction ∈ transactions, transaction.role ≠ .appBackend) →
      db .executionLog <+: schema.transactAll (aclOf up) db transactions .executionLog) ∧
    ((∀ transaction ∈ transactions, transaction.role = .readonly) →
      schema.transactAll (aclOf up) db transactions = db) ∧
    ∀ request : Request Table Column, ∀ privilege ∈ [Privilege.update, .delete, .truncate],
      request.needs = some (.auditLog, privilege) →
        (∀ role session db env, schema.requestAs (aclOf up) role session db (env, request) = (.error, db)) ∧
        ∀ (transaction : Transaction Role Table Column) (env : Environment)
          (before after : List (Instruction Table Column)),
          transaction.instructions = before ++ .statement env request :: after →
          (∀ name, .rollbackTo name ∉ after) → schema.transact (aclOf up) db transaction = db := by
  have fixed (role : Role) : ∀ privilege ∈ [Privilege.update, .delete, .truncate],
      (aclOf up).holds role .auditLog privilege = false := by
    cases role <;> decide
  have kept (role : Role) (table : Table) : ∀ privilege ∈ [Privilege.delete, .truncate],
      (aclOf up).holds role table privilege = false := by
    cases role <;> cases table <;> decide
  refine ⟨?_, ?_, ?_, ?_, ?_⟩
  · exact Acl.Respects.transactAll (fun transaction _ => Acl.respects_prefix (fixed transaction.role))
      List.prefix_refl db
  · intro table
    exact Acl.Respects.transactAll (fun transaction _ => Acl.respects_length (kept transaction.role table))
      (fun _ => Nat.le_refl _) db
  · intro others
    refine Acl.Respects.transactAll (fun transaction member => Acl.respects_prefix ?_) List.prefix_refl db
    have foreign := others transaction member
    cases role : transaction.role with
    | appBackend => exact absurd role foreign
    | n8nApp | readonly => decide
  · intro reading
    funext table
    refine Acl.Respects.transactAll (fun transaction member => Acl.respects_eq ?_) (fun _ => rfl) db
    rw [reading transaction member]
    cases table <;> decide
  · intro request privilege rewrites needs
    refine ⟨fun role _ db _ => Schema.requestAs_refused needs (fixed role privilege rewrites) db, ?_⟩
    intro transaction env before after made onward
    exact Schema.transact_refused made needs (fixed transaction.role privilege rewrites) onward db

end Roles

end N8nSystems.Ops
