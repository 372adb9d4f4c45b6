import Mathlib.Algebra.Group.Int.Defs
import Mathlib.Algebra.Group.Nat.Defs
import Mathlib.Data.List.Basic

/-! A relational store under row-level security. A statement sees the rows that
the policy shows to its session and may write only such rows, while key and
reference constraints are enforced over all rows. -/

namespace N8nSystems.Lib.Sql

universe u v

inductive Value where
  | null
  | uuid (value : Nat)
  | text (value : String)
  | integer (value : Int)
  | boolean (value : Bool)
  | json (value : String)
  | timestamp (value : Int)
  | bytes (value : List UInt8)
  deriving DecidableEq, Repr

inductive ColumnType where
  | uuid | text | citext | integer | boolean | jsonb | timestamptz | bytea
  deriving DecidableEq, Repr

/-- The values a column of the type can hold. -/
def ColumnType.accepts : ColumnType → Value → Bool
  | _, .null => true
  | .uuid, .uuid value => value < 2 ^ 128
  | .text, .text _ => true
  | .citext, .text _ => true
  | .integer, .integer value => -(2 ^ 31) ≤ value && value < 2 ^ 31
  | .boolean, .boolean _ => true
  | .jsonb, .json _ => true
  | .timestamptz, .timestamp _ => true
  | .bytea, .bytes _ => true
  | _, _ => false

/-- The `DEFAULT` of a column; a column without one defaults to null. -/
inductive Default where
  | null | randomUuid | now
  deriving DecidableEq, Repr

structure ColumnSpec (Column : Type v) where
  column : Column
  type : ColumnType
  notNull : Bool
  default : Default

/-- A reference to a row of the target, by pairs of a referencing and a
referenced column. A null among the referencing columns satisfies it. -/
structure ForeignKey (Table : Type u) (Column : Type v) where
  columns : List (Column × Column)
  target : Table

abbrev Row (Column : Type v) := Column → Value

structure Schema (Table : Type u) (Column : Type v) where
  tables : List Table
  columns : Table → List (ColumnSpec Column)
  /-- The column lists of `PRIMARY KEY` and `UNIQUE` constraints. -/
  keys : Table → List (List Column)
  /-- The conjunction of the `CHECK` constraints, where null counts as true. -/
  checks : Table → Row Column → Bool
  foreignKeys : Table → List (ForeignKey Table Column)
  /-- The tables whose policy is `owner = session`, for reading and writing. -/
  secured : Table → Bool
  owner : Column
  /-- The case folding under which `citext` values are compared. -/
  lower : String → String

abbrev Database (Table : Type u) (Column : Type v) := Table → List (Row Column)

/-- What the environment supplies to a statement: the random ids of the rows it
inserts, by position, and the time. -/
structure Environment where
  uuids : Nat → Nat
  now : Int

inductive OnConflict where
  | fail | doNothing
  deriving DecidableEq, Repr

/-- Statements, with their queries and expressions as functions of the rows they
see; `none` is an evaluation error. An inserted column holds a value or
`DEFAULT`, and every statement returns a tuple for each row it affects. -/
inductive Statement (Table : Type u) (Column : Type v) where
  | select (query : Database Table Column → Option (List (List Value)))
  | insert (table : Table)
      (drafts : Database Table Column → Option (List (List (Column × Option Value))))
      (conflict : OnConflict) (returning : Row Column → List Value)
  | update (table : Table)
      (assign : Database Table Column → Option (Row Column → Option (List (Column × Value))))
      (returning : Row Column → List Value)
  | delete (table : Table) (condition : Database Table Column → Option (Row Column → Bool))
      (returning : Row Column → List Value)

/-- The table a statement writes to. -/
def Statement.target {Table : Type u} {Column : Type v} : Statement Table Column → Option Table
  | .select _ => none
  | .insert table _ _ _ => some table
  | .update table _ _ => some table
  | .delete table _ _ => some table

/-- An error, or the number of affected rows with the rows returned. -/
inductive Outcome where
  | error
  | done (count : Nat) (rows : List (List Value))
  deriving DecidableEq, Repr

section Semantics

variable {Table : Type u} {Column : Type v} [DecidableEq Table] [DecidableEq Column]
variable (schema : Schema Table Column) (session : Nat)

def Schema.column? (table : Table) (column : Column) : Option (ColumnSpec Column) :=
  (schema.columns table).find? (·.column == column)

/-- The policy of the table, as `USING` and as `WITH CHECK`. -/
def Schema.visible (table : Table) (row : Row Column) : Bool :=
  !schema.secured table || row schema.owner == .uuid session

/-- The database as the session sees it. -/
def Schema.restrict (db : Database Table Column) : Database Table Column :=
  fun table => (db table).filter (schema.visible session table)

/-- The row with types, policy, `NOT NULL` and `CHECK` satisfied. -/
def Schema.acceptable (table : Table) (row : Row Column) : Bool :=
  (schema.columns table).all (fun spec => spec.type.accepts (row spec.column)) &&
    schema.visible session table row &&
    (schema.columns table).all (fun spec => !spec.notNull || row spec.column != .null) &&
    schema.checks table row

/-- The value under which a column is compared. -/
def Schema.keyValue (table : Table) (column : Column) (value : Value) : Value :=
  match schema.column? table column, value with
  | some spec, .text text => if spec.type = .citext then .text (schema.lower text) else .text text
  | _, value => value

/-- Two rows agree on the key, without nulls in it. -/
def Schema.sameKey (table : Table) (key : List Column) (row other : Row Column) : Bool :=
  key.all fun column => row column != .null &&
    schema.keyValue table column (row column) == schema.keyValue table column (other column)

def Schema.conflicts (table : Table) (row : Row Column) (others : List (Row Column)) : Bool :=
  (schema.keys table).any fun key => others.any (schema.sameKey table key row)

def Environment.defaultValue (env : Environment) (index : Nat) : Default → Value
  | .null => .null
  | .randomUuid => .uuid (env.uuids index)
  | .now => .timestamp env.now

/-- The columns named are columns of the table, each once. -/
def Schema.named (table : Table) (columns : List Column) : Bool :=
  decide columns.Nodup && columns.all fun column => (schema.column? table column).isSome

/-- The row an insert builds from a draft. -/
def Schema.newRow (env : Environment) (table : Table) (index : Nat)
    (draft : List (Column × Option Value)) : Row Column := fun column =>
  match schema.column? table column with
  | none => .null
  | some spec =>
    match draft.lookup column with
    | some (some value) => value
    | _ => env.defaultValue index spec.default

/-- The row an update builds from an old one. -/
def changedRow (assignments : List (Column × Value)) (old : Row Column) : Row Column :=
  fun column => (assignments.lookup column).getD (old column)

/-- Insert rows one by one, each checked against all rows present by then. The
rows really inserted are returned too. -/
def Schema.insertRows (table : Table) (conflict : OnConflict) (rows : List (Row Column)) :
    List (Row Column) → Option (List (Row Column) × List (Row Column))
  | [] => some (rows, [])
  | row :: rest =>
    if !schema.acceptable session table row then none
    else if schema.conflicts table row rows then
      match conflict with
      | .fail => none
      | .doNothing => Schema.insertRows table conflict rows rest
    else
      (Schema.insertRows table conflict (rows ++ [row]) rest).map fun result =>
        (result.1, row :: result.2)

/-- Change rows one by one, each checked against all other rows as they are by
then. The changed rows are returned as pairs of old and new. -/
def Schema.updateRows (table : Table) (change : Row Column → Option (Row Column))
    (finished : List (Row Column)) :
    List (Row Column) → Option (List (Row Column) × List (Row Column × Row Column))
  | [] => some (finished, [])
  | row :: rest =>
    match change row with
    | none => Schema.updateRows table change (finished ++ [row]) rest
    | some new =>
      if !schema.acceptable session table new || schema.conflicts table new (finished ++ rest) then
        none
      else
        (Schema.updateRows table change (finished ++ [new]) rest).map fun result =>
          (result.1, (row, new) :: result.2)

/-- The row points at the other one. -/
def ForeignKey.points (key : ForeignKey Table Column) (row other : Row Column) : Bool :=
  key.columns.all fun pair => row pair.1 != .null && row pair.1 == other pair.2

def ForeignKey.holds (key : ForeignKey Table Column) (db : Database Table Column)
    (row : Row Column) : Bool :=
  key.columns.any (fun pair => row pair.1 == .null) || (db key.target).any (key.points row)

/-- The references of the rows written to the table. -/
def Schema.referring (table : Table) (db : Database Table Column) (written : List (Row Column)) :
    Bool :=
  written.all fun row => (schema.foreignKeys table).all fun key => key.holds db row

/-- Rows that pointed at a removed row of the table still point at some row. -/
def Schema.referred (table : Table) (db : Database Table Column) (removed : List (Row Column)) :
    Bool :=
  removed.all fun old => schema.tables.all fun source =>
    (schema.foreignKeys source).all fun key => decide (key.target ≠ table) ||
      (db source).all fun row => !key.points row old || key.holds db row

/-- The statement's effect, if it is not refused: the table, its rows after the
statement, the rows removed and written, and the rows returned. -/
structure Effect (Table : Type u) (Column : Type v) where
  table : Table
  rows : List (Row Column)
  removed : List (Row Column)
  written : List (Row Column)
  returned : List (List Value)

def Schema.insertEffect (env : Environment) (table : Table)
    (drafts : List (List (Column × Option Value))) (conflict : OnConflict)
    (returning : Row Column → List Value) (db : Database Table Column) :
    Option (Effect Table Column) :=
  if !drafts.all (fun draft => schema.named table (draft.map Prod.fst)) then none
  else
    (schema.insertRows session table conflict (db table)
      (drafts.mapIdx (schema.newRow env table))).map fun result =>
        ⟨table, result.1, [], result.2, result.2.map returning⟩

/-- The new version of a row that the session sees and the update selects. -/
def Schema.change (table : Table) (assign : Row Column → Option (List (Column × Value)))
    (row : Row Column) : Option (Row Column) :=
  if schema.visible session table row then (assign row).map fun values => changedRow values row
  else none

/-- The assignments of an update name columns of the table. -/
def Schema.assignsNamed (table : Table) (assign : Row Column → Option (List (Column × Value)))
    (rows : List (Row Column)) : Bool :=
  rows.all fun row => ((assign row).map fun values =>
    schema.named table (values.map Prod.fst)).getD true

def Schema.updateEffect (table : Table) (assign : Row Column → Option (List (Column × Value)))
    (returning : Row Column → List Value) (db : Database Table Column) :
    Option (Effect Table Column) :=
  if !schema.assignsNamed table assign (schema.restrict session db table) then none
  else
    (schema.updateRows session table (schema.change session table assign) [] (db table)).map
      fun result => ⟨table, result.1, result.2.map Prod.fst, result.2.map Prod.snd,
        result.2.map fun pair => returning pair.2⟩

def Schema.deleteEffect (table : Table) (condition : Row Column → Bool)
    (returning : Row Column → List Value) (db : Database Table Column) : Effect Table Column :=
  let selected := fun row => schema.visible session table row && condition row
  ⟨table, (db table).filter (fun row => !selected row), (db table).filter selected, [],
    ((db table).filter selected).map returning⟩

/-- Apply an effect whose references hold; a refused statement changes nothing. -/
def Schema.commit (db : Database Table Column) :
    Option (Effect Table Column) → Outcome × Database Table Column
  | none => (.error, db)
  | some effect =>
    let next := Function.update db effect.table effect.rows
    if schema.referring effect.table next effect.written &&
        schema.referred effect.table next effect.removed then
      (.done effect.returned.length effect.returned, next)
    else (.error, db)

/-- One statement of the session. -/
def Schema.step (db : Database Table Column) (label : Environment × Statement Table Column) :
    Outcome × Database Table Column :=
  let view := schema.restrict session db
  match label.2 with
  | .select query =>
    match query view with
    | none => (.error, db)
    | some rows => (.done rows.length rows, db)
  | .insert table drafts conflict returning => schema.commit db
      ((drafts view).bind fun drafts =>
        schema.insertEffect session label.1 table drafts conflict returning db)
  | .update table assign returning => schema.commit db
      ((assign view).bind fun assign => schema.updateEffect session table assign returning db)
  | .delete table condition returning => schema.commit db
      ((condition view).map fun condition => schema.deleteEffect session table condition returning db)

end Semantics

end N8nSystems.Lib.Sql
