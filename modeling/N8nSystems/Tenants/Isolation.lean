import N8nSystems.Lib.Run
import N8nSystems.Tenants.Schema

/-! What role `p05_backend` can observe of other tenants' rows with
`app.tenant_id` set to one tenant. -/

namespace N8nSystems.Tenants

open Lib Lib.Sql

abbrev TenantDatabase := Database Table Column

/-- A statement that writes to none but the nine tables with row-level security. -/
structure Label where
  env : Environment
  statement : Statement Table Column
  onNine : ∀ table, statement.target = some table → secured table = true

section Session

variable (lower : String → String) (tenant : Nat)

/-- One statement of role `p05_backend` with `app.tenant_id` set to the tenant. -/
def step (db : TenantDatabase) (label : Label) : Outcome × TenantDatabase :=
  (schema lower).step tenant db (label.env, label.statement)

/-- The rows of the table that belong to the tenant. -/
def tenantRows (db : TenantDatabase) (table : Table) : List (Row Column) :=
  (db table).filter fun row => row .tenantId == .uuid tenant

/-- The rows of the table that do not belong to the tenant. -/
def otherRows (db : TenantDatabase) (table : Table) : List (Row Column) :=
  (db table).filter fun row => !(row .tenantId == .uuid tenant)

/-- The databases agree on the registry tables and on the tenant's rows. -/
structure Agree (first second : TenantDatabase) : Prop where
  registry : ∀ table, secured table = false → first table = second table
  own : ∀ table, secured table = true → tenantRows tenant first table = tenantRows tenant second table

/-- The tables whose primary key is `id` alone. -/
def idKeyed : Table → Bool
  | .leads | .submissions | .emailMessages | .followups | .activities | .llmCalls => true
  | _ => false

/-- No row that the statement inserts or writes by an update takes the id of
another tenant's row, in a table whose primary key is `id` alone. -/
def FreshIds (db : TenantDatabase) (label : Label) : Prop :=
  ∀ attempt ∈ (schema lower).attempts tenant db (label.env, label.statement),
    idKeyed attempt.1 = true → ∀ other ∈ otherRows tenant db attempt.1, attempt.2 .id ≠ other .id

variable {lower tenant}

theorem visible_secured (guarded : secured table = true) :
    (schema lower).visible tenant table = fun row => row .tenantId == .uuid tenant := by
  funext row
  simp [Schema.visible, schema, guarded]

theorem restrict_secured (guarded : secured table = true) (db : TenantDatabase) :
    (schema lower).restrict tenant db table = tenantRows tenant db table := by
  rw [Schema.restrict, visible_secured guarded, tenantRows]

theorem restrict_registry (unguarded : secured table = false) (db : TenantDatabase) :
    (schema lower).restrict tenant db table = db table := by
  rw [Schema.restrict, List.filter_eq_self]
  intro row _
  simp [Schema.visible, schema, unguarded]

theorem hidden_secured (lower : String → String) (guarded : secured table = true) (db : TenantDatabase) :
    (schema lower).hidden tenant db table = otherRows tenant db table := by
  rw [Schema.hidden, visible_secured guarded, otherRows]

/-- Agreement is equality of what the session sees. -/
theorem agree_iff {first second : TenantDatabase} :
    Agree tenant first second ↔
      (schema lower).restrict tenant first = (schema lower).restrict tenant second := by
  constructor
  · intro agree
    funext table
    cases guarded : secured table with
    | false => rw [restrict_registry guarded, restrict_registry guarded, agree.registry table guarded]
    | true => rw [restrict_secured guarded, restrict_secured guarded, agree.own table guarded]
  · intro same
    refine ⟨?_, ?_⟩
    · intro table unguarded
      have seen := congrFun same table
      rwa [restrict_registry unguarded, restrict_registry unguarded] at seen
    · intro table guarded
      have seen := congrFun same table
      rwa [restrict_secured guarded, restrict_secured guarded] at seen

/-- The only keys without the tenant are the ids. -/
theorem keys_owned (table : Table) (guarded : secured table = true) :
    ∀ key ∈ keys table, Column.tenantId ∉ key → key = [.id] ∧ idKeyed table = true := by
  cases table <;> revert guarded <;> decide

theorem keyValue_id (keyed : idKeyed table = true) (value : Value) :
    (schema lower).keyValue table .id value = value := by
  have column : (schema lower).column? table .id = some randomId := by
    cases table <;> first | rfl | cases keyed
  unfold Schema.keyValue
  rw [column]
  cases value <;> rfl

theorem FreshIds.clear {db : TenantDatabase} {label : Label} (fresh : FreshIds lower tenant db label) :
    (schema lower).Clear tenant db (label.env, label.statement) := by
  intro attempt tried key listed unowned other member unseen
  have guarded := label.onNine attempt.1 (Schema.attempts_target tried)
  obtain ⟨rfl, keyed⟩ := keys_owned attempt.1 guarded key listed unowned
  have elsewhere : other ∈ otherRows tenant db attempt.1 := by
    rw [← hidden_secured lower guarded]
    exact List.mem_filter.mpr ⟨member, by simp [unseen]⟩
  have differs := fresh attempt tried keyed other elsewhere
  simp [Schema.sameKey, keyValue_id keyed, differs]

/-- One statement in two databases that agree. -/
theorem step_agree {first second : TenantDatabase} {label : Label}
    (agree : Agree tenant first second) (fresh₁ : FreshIds lower tenant first label)
    (fresh₂ : FreshIds lower tenant second label) :
    (step lower tenant first label).1 = (step lower tenant second label).1 ∧
      Agree tenant (step lower tenant first label).2 (step lower tenant second label).2 := by
  have one := Schema.step_restrict (ownedReferences lower) label.onNine fresh₁.clear
  have other := Schema.step_restrict (ownedReferences lower) label.onNine fresh₂.clear
  rw [agree_iff.mp agree] at one
  refine ⟨one.1.trans other.1.symm, ?_⟩
  rw [agree_iff]
  exact one.2.trans other.2.symm

end Session

/-- Statements of one tenant's session never change a row of another tenant. In
two databases that agree on the registry and on the tenant's rows, a sequence of
statements that writes no id of another tenant's row has the same outcomes, and
the databases agree after each statement. -/
theorem tenants_isolated (lower : String → String) (tenant : Nat) (labels : List Label) :
    (∀ db, ∀ answer ∈ trace (step lower tenant) db labels, ∀ table, secured table = true →
      otherRows tenant answer.2 table = otherRows tenant db table) ∧
    ∀ first second, Agree tenant first second →
      Throughout (step lower tenant) (FreshIds lower tenant) first labels →
      Throughout (step lower tenant) (FreshIds lower tenant) second labels →
      List.Forall₂ (fun one other => one.1 = other.1 ∧ Agree tenant one.2 other.2)
        (trace (step lower tenant) first labels) (trace (step lower tenant) second labels) := by
  constructor
  · intro db answer member table guarded
    rw [← hidden_secured lower guarded, ← hidden_secured lower guarded]
    refine trace_invariant (fun state => (schema lower).hidden tenant state table =
      (schema lower).hidden tenant db table) rfl ?_ answer member
    intro state label _ same
    exact (Schema.step_hidden state (label.env, label.statement) table).trans same
  · intro first second agree fresh₁ fresh₂
    exact trace_simulates_throughout (Agree tenant)
      (fun _ _ _ agree fresh₁ fresh₂ => step_agree agree fresh₁ fresh₂) agree fresh₁ fresh₂

def rowOf (fields : List (Column × Value)) : Row Column := fun column => (fields.lookup column).getD .null

/-- Two registered tenants, and the leads given. -/
def twoTenants (leads : List (Row Column)) : TenantDatabase
  | .tenants => [
      rowOf [(.id, .uuid 1), (.slug, .text "acme"), (.name, .text "Acme"), (.status, .text "active"),
        (.createdAt, .timestamp 0)],
      rowOf [(.id, .uuid 2), (.slug, .text "beta"), (.name, .text "Beta"), (.status, .text "active"),
        (.createdAt, .timestamp 0)]]
  | .leads => leads
  | _ => []

def betaLead : Row Column :=
  rowOf [(.id, .uuid 7), (.tenantId, .uuid 2), (.createdAt, .timestamp 0), (.updatedAt, .timestamp 0)]

/-- `INSERT INTO p05.leads (id, tenant_id) VALUES (id, 1) RETURNING id`. -/
def insertLead (id : Nat) : Label where
  env := ⟨fun _ => 0, 0⟩
  statement := .insert .leads
    (fun _ => some [[(.id, some (.uuid id)), (.tenantId, some (.uuid 1))]]) .fail fun row => [row .id]
  onNine := by
    intro table target
    cases target
    rfl

theorem betaLead_unseen : Agree 1 (twoTenants []) (twoTenants [betaLead]) := by
  refine ⟨?_, ?_⟩
  · intro table unguarded
    cases table <;> first | rfl | cases unguarded
  · intro table _
    cases table <;> rfl

theorem insertLead_fresh (leads : List (Row Column))
    (unused : ∀ row ∈ leads, row .id ≠ .uuid leadId) :
    FreshIds lower 1 (twoTenants leads) (insertLead leadId) := by
  intro attempt tried _ other member same
  obtain rfl := List.mem_singleton.mp tried
  exact unused other (List.mem_filter.mp member).1 same.symm

theorem tenants_isolated_acme :
    List.Forall₂ (fun one other => one.1 = other.1 ∧ Agree 1 one.2 other.2)
      (trace (step id 1) (twoTenants []) [insertLead 8])
      (trace (step id 1) (twoTenants [betaLead]) [insertLead 8]) := by
  apply (tenants_isolated id 1 [insertLead 8]).2 _ _ betaLead_unseen
  · exact ⟨insertLead_fresh [] (by simp), trivial⟩
  · refine ⟨insertLead_fresh [betaLead] ?_, trivial⟩
    intro row member
    rw [List.mem_singleton.mp member]
    decide

/-- An insert with the id of another tenant's lead fails on the primary key, and
so tells that the lead is there. -/
theorem foreign_id_observed :
    Agree 1 (twoTenants []) (twoTenants [betaLead]) ∧
    (step id 1 (twoTenants []) (insertLead 7)).1 = .done 1 [[.uuid 7]] ∧
    (step id 1 (twoTenants [betaLead]) (insertLead 7)).1 = .error :=
  ⟨betaLead_unseen, rfl, rfl⟩

end N8nSystems.Tenants
