import AccountApi.Lib.Run
import AccountApi.Lib.Table
import Mathlib.Data.Finset.Image
import Mathlib.Data.Finset.Insert
import Mathlib.Data.List.Pairwise

/-!
# Data definition in SQL

A database is a schema and the rows of its tables. A statement changes the schema, which
does not depend on the rows, and the rows, which do not depend on the schema. It fails when
an object it needs is missing, when one that it drops is needed, when a name is taken, or
when the rows do not meet a constraint that it adds.

The columns, constraints and indexes of a table are sets: the position of a column is no
part of the schema.

`Database.Valid`: the rows meet the columns and the constraints of the schema.
-/

namespace Sql

open Transition

inductive SqlType where
  | uuid
  | varchar (length : ℕ)
  | boolean
  | timestamp
  deriving DecidableEq, Repr

inductive Value where
  | null
  | uuid (id : ℕ)
  | text (s : String)
  | bool (b : Bool)
  | timestamp (t : ℤ)
  deriving DecidableEq, Repr

/-- A column of the type can hold the value. -/
def SqlType.admits : SqlType → Value → Bool
  | _, .null | uuid, .uuid _ | boolean, .bool _ | timestamp, .timestamp _ => true
  | varchar length, .text s => s.length ≤ length
  | _, _ => false

inductive Default where
  | genRandomUuid
  | now
  | value (v : Value)
  deriving DecidableEq, Repr

structure Column where
  name : String
  type : SqlType
  notNull : Bool
  default : Option Default
  deriving DecidableEq, Repr

inductive OnDelete where
  | noAction
  | cascade
  | setNull
  deriving DecidableEq, Repr

inductive ConstraintKind where
  | primaryKey
  | unique
  | foreignKey (table : String) (references : List String) (onDelete : OnDelete)
  deriving DecidableEq, Repr

structure Constraint where
  name : String
  columns : List String
  kind : ConstraintKind
  deriving DecidableEq, Repr

structure Index where
  name : String
  columns : List String
  deriving DecidableEq, Repr

structure TableSchema where
  name : String
  columns : Finset Column
  constraints : Finset Constraint
  indexes : Finset Index

instance : DecidableEq TableSchema := fun T U =>
  decidable_of_iff
    (T.name = U.name ∧ T.columns = U.columns ∧ T.constraints = U.constraints ∧ T.indexes = U.indexes)
    (by cases T; cases U; simp)

abbrev Schema := List TableSchema

/-- The value of each column; NULL where the table has no such column. -/
abbrev Row := String → Value

structure Database where
  schema : Schema
  rows : String → List Row

namespace Constraint

/-- A primary key or a unique constraint, which has an index of its name. -/
def isKey (c : Constraint) : Bool :=
  match c.kind with
  | .primaryKey | .unique => true
  | .foreignKey .. => false

/-- The table that a foreign key refers to. -/
def target (c : Constraint) : Option String :=
  match c.kind with
  | .foreignKey t _ _ => some t
  | _ => none

/-- The columns that a foreign key refers to. -/
def references (c : Constraint) : List String :=
  match c.kind with
  | .foreignKey _ references _ => references
  | _ => []

def HasNulls (c : Constraint) (r : Row) : Prop := ∃ x ∈ c.columns, r x = .null

instance (c : Constraint) (r : Row) : Decidable (c.HasNulls r) := by
  unfold HasNulls; infer_instance

/-- The rows meet the constraint of the table. -/
def Holds (c : Constraint) (table : String) (rows : String → List Row) : Prop :=
  match c.kind with
  | .primaryKey => (rows table).Pairwise (fun r r' => c.columns.map r ≠ c.columns.map r') ∧
      ∀ r ∈ rows table, ¬ c.HasNulls r
  | .unique => (rows table).Pairwise fun r r' => c.HasNulls r ∨ c.columns.map r ≠ c.columns.map r'
  | .foreignKey t references _ =>
    ∀ r ∈ rows table, c.HasNulls r ∨ ∃ r' ∈ rows t, references.map r' = c.columns.map r

instance (c : Constraint) (table : String) (rows : String → List Row) : Decidable (c.Holds table rows) := by
  unfold Holds
  split <;> infer_instance

end Constraint

namespace TableSchema

variable (T : TableSchema)

def HasColumn (x : String) : Prop := ∃ c ∈ T.columns, c.name = x

instance (x : String) : Decidable (T.HasColumn x) := by
  unfold HasColumn; infer_instance

/-- No two columns and no two constraints have one name. -/
def Distinct : Prop :=
  (∀ c ∈ T.columns, ∀ d ∈ T.columns, c.name = d.name → c = d) ∧
    ∀ c ∈ T.constraints, ∀ d ∈ T.constraints, c.name = d.name → c = d

instance : Decidable T.Distinct := by
  unfold Distinct; infer_instance

/-- The row has a value of its type in each column, and none elsewhere. -/
structure Admits (r : Row) : Prop where
  typed : ∀ c ∈ T.columns, c.type.admits (r c.name) = true ∧ (c.notNull = true → r c.name ≠ .null)
  outside : ∀ x, ¬ T.HasColumn x → r x = .null

end TableSchema

namespace Schema

variable (s : Schema)

def table (t : String) : Option TableSchema := s.find? fun T => T.name = t

/-- A table, an index or a key has the name. -/
def Uses (name : String) : Prop :=
  ∃ T ∈ s, T.name = name ∨ (∃ i ∈ T.indexes, i.name = name) ∨ ∃ c ∈ T.constraints, c.isKey ∧ c.name = name

instance (name : String) : Decidable (s.Uses name) := by
  unfold Uses; infer_instance

/-- A foreign key refers to the column of the table. -/
def Refers (table x : String) : Prop :=
  ∃ T ∈ s, ∃ c ∈ T.constraints, c.target = some table ∧ x ∈ c.references

instance (table x : String) : Decidable (s.Refers table x) := by
  unfold Refers; infer_instance

/-- A foreign key of another table refers to the table. -/
def NeedsTable (table : String) : Prop :=
  ∃ T ∈ s, T.name ≠ table ∧ ∃ c ∈ T.constraints, c.target = some table

instance (table : String) : Decidable (s.NeedsTable table) := by
  unfold NeedsTable; infer_instance

/-- The constraint can be one of the table `T`: it has a name of its own, and its columns are there. -/
def Accepts (T : TableSchema) (c : Constraint) : Prop :=
  (∀ x ∈ c.columns, T.HasColumn x) ∧ (c.isKey = true → ¬ s.Uses c.name) ∧
    match c.kind with
    | .primaryKey | .unique => True
    | .foreignKey t references _ =>
      -- a foreign key refers to the columns of a key, of its own table or of another one
      ∃ U ∈ T :: s, U.name = t ∧ ∃ k ∈ U.constraints, k.isKey ∧ k.columns = references

instance (T : TableSchema) (c : Constraint) : Decidable (s.Accepts T c) := by
  unfold Accepts
  split <;> infer_instance

/-- Replaces the table of this name. -/
def put (T : TableSchema) : Schema := s.map fun U => if U.name = T.name then T else U

end Schema

inductive Statement where
  | createTable (T : TableSchema)
  | dropTable (table : String)
  | addColumn (table : String) (c : Column)
  | dropColumn (table : String) (name : String)
  | addConstraint (table : String) (c : Constraint)
  | dropConstraint (table : String) (name : String)
  | createIndex (table : String) (i : Index)
  | dropIndex (name : String)
  /-- All rows go. -/
  | deleteFrom (table : String)

namespace Statement

/-- The schema after the statement. -/
def schemaStep (s : Schema) : Statement → Option Schema
  | createTable T => do
    guard (T.Distinct ∧ ¬ s.Uses T.name ∧ (∀ c ∈ T.constraints, s.Accepts T c) ∧ T.indexes = ∅)
    return s ++ [T]
  | dropTable t => do
    guard ((s.table t).isSome ∧ ¬ s.NeedsTable t)
    return s.filter fun T => T.name ≠ t
  | addColumn t c => do
    let T ← s.table t
    guard (¬ T.HasColumn c.name)
    return s.put { T with columns := insert c T.columns }
  | dropColumn t x => do
    let T ← s.table t
    guard (T.HasColumn x ∧ ¬ s.Refers t x)
    -- the constraints and indexes of the column go with it
    return s.put { T with
      columns := T.columns.filter fun c => c.name ≠ x
      constraints := T.constraints.filter fun c => x ∉ c.columns
      indexes := T.indexes.filter fun i => x ∉ i.columns }
  | addConstraint t c => do
    let T ← s.table t
    guard (s.Accepts T c ∧ ∀ d ∈ T.constraints, d.name ≠ c.name)
    return s.put { T with constraints := insert c T.constraints }
  | dropConstraint t name => do
    let T ← s.table t
    guard (∃ c ∈ T.constraints, c.name = name)
    -- no foreign key refers to the columns of the key
    guard (∀ c ∈ T.constraints, c.name = name → c.isKey = true → ∀ x ∈ c.columns, ¬ s.Refers t x)
    return s.put { T with constraints := T.constraints.filter fun c => c.name ≠ name }
  | createIndex t i => do
    let T ← s.table t
    guard (¬ s.Uses i.name ∧ ∀ x ∈ i.columns, T.HasColumn x)
    return s.put { T with indexes := insert i T.indexes }
  | dropIndex name => do
    guard (∃ T ∈ s, ∃ i ∈ T.indexes, i.name = name)
    return s.map fun T => { T with indexes := T.indexes.filter fun i => i.name ≠ name }
  | deleteFrom t => do
    -- what happens to rows of other tables that refer to the deleted ones is left open
    guard ((s.table t).isSome ∧ ¬ s.NeedsTable t)
    return s

/-- The rows allow the statement. -/
def Check (rows : String → List Row) : Statement → Prop
  -- a default would be evaluated for each row; there is none, and the rows get NULL
  | addColumn t c => c.default = none ∧ (c.notNull = true → rows t = [])
  | addConstraint t c => c.Holds t rows
  | _ => True

instance (rows : String → List Row) (q : Statement) : Decidable (q.Check rows) := by
  cases q <;> unfold Check <;> infer_instance

/-- The rows after the statement. -/
def rowsStep (rows : String → List Row) : Statement → String → List Row
  | createTable T => Function.update rows T.name []
  | dropTable t | deleteFrom t => Function.update rows t []
  | addColumn t c => Function.update rows t ((rows t).map fun r => Function.update r c.name .null)
  | dropColumn t x => Function.update rows t ((rows t).map fun r => Function.update r x .null)
  | _ => rows

end Statement

namespace Database

def step (db : Database) (q : Statement) : Option Database :=
  if q.Check db.rows then (q.schemaStep db.schema).map fun s => ⟨s, q.rowsStep db.rows⟩ else none

/-- The rows meet the schema. -/
structure Valid (db : Database) : Prop where
  names : (db.schema.map (·.name)).Nodup
  outside : ∀ t, db.schema.table t = none → db.rows t = []
  admits : ∀ T ∈ db.schema, ∀ r ∈ db.rows T.name, T.Admits r
  holds : ∀ T ∈ db.schema, ∀ c ∈ T.constraints, c.Holds T.name db.rows

end Database

end Sql
