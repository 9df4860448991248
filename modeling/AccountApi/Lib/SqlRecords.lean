import AccountApi.Lib.SqlValidity

/-!
# Databases that are written out, and rows that stand for records

* `exec_of_checks`: a sequence of statements succeeds when it does on the schema and every
  check on the rows succeeds.
* `Content`: databases that are written out, whose validity is computed.
* `holds_key_iff`, `holds_foreignKey_iff`: constraints on rows that stand for records.
-/

namespace Sql

open Transition

/-- The rows allow each of the statements, when it is reached. -/
def Checks : List Statement → (String → List Row) → Prop
  | [], _ => True
  | q :: qs, rows => q.Check rows ∧ Checks qs (q.rowsStep rows)

/-- The rows after the statements. -/
def rowsAfter (qs : List Statement) (rows : String → List Row) : String → List Row :=
  qs.foldl Statement.rowsStep rows

/-- **Statements succeed when they do on the schema and the rows allow each of them.** -/
theorem exec_of_checks {qs : List Statement} {db : Database} {s : Schema}
    (hschema : exec Statement.schemaStep db.schema qs = some s) (hchecks : Checks qs db.rows) :
    exec Database.step db qs = some ⟨s, rowsAfter qs db.rows⟩ := by
  induction qs generalizing db with
  | nil =>
    obtain rfl := exec_nil.1 hschema
    rfl
  | cons q qs ih =>
    obtain ⟨s', hs', hschema⟩ := exec_cons.1 hschema
    refine exec_cons.2 ⟨⟨s', q.rowsStep db.rows⟩, ?_, ih hschema hchecks.2⟩
    unfold Database.step
    rw [if_pos hchecks.1, hs']
    rfl

/-- The row with these values. -/
def row (values : List (String × Value)) : Row := fun x => (values.lookup x).getD .null

/-- A database with finitely many values. -/
structure Content where
  schema : Schema
  tables : List (String × List (List (String × Value)))

namespace Content

variable (c : Content)

def rowsOf (t : String) : List (List (String × Value)) := (c.tables.lookup t).getD []

def database : Database := ⟨c.schema, fun t => (c.rowsOf t).map row⟩

/-- `Database.Valid`, as a condition that can be computed. -/
def Sound : Prop :=
  (c.schema.map (·.name)).Nodup ∧ (∀ entry ∈ c.tables, ∃ T ∈ c.schema, T.name = entry.1) ∧
    ∀ T ∈ c.schema,
      (∀ values ∈ c.rowsOf T.name, (∀ value ∈ values, T.HasColumn value.1) ∧
        ∀ d ∈ T.columns, d.type.admits (row values d.name) = true ∧
          (d.notNull = true → row values d.name ≠ .null)) ∧
      ∀ k ∈ T.constraints, k.Holds T.name c.database.rows

instance : Decidable c.Sound := by
  unfold Sound; infer_instance

theorem lookup_none {β : Type*} {t : String} {entries : List (String × β)}
    (h : ∀ entry ∈ entries, entry.1 ≠ t) : entries.lookup t = none := by
  rw [List.lookup_eq_none_iff]
  intro entry hentry
  simpa using fun ht => h entry hentry ht.symm

theorem Sound.valid {c : Content} (h : c.Sound) : c.database.Valid := by
  obtain ⟨hnames, htables, hrows⟩ := h
  refine ⟨hnames, fun t ht => ?_, fun T hT r hr => ?_, fun T hT => (hrows T hT).2⟩
  · have hnone : c.tables.lookup t = none := by
      refine lookup_none fun entry hentry hname => ?_
      obtain ⟨T, hT, hTname⟩ := htables entry hentry
      exact Schema.table_none.1 ht T hT (hTname.trans hname)
    simp [database, rowsOf, hnone]
  · obtain ⟨values, hvalues, rfl⟩ := List.mem_map.1 hr
    obtain ⟨hcolumns, htyped⟩ := (hrows T hT).1 values hvalues
    refine ⟨htyped, fun x hx => ?_⟩
    have hnone : values.lookup x = none :=
      lookup_none fun value hvalue hname => hx (hname ▸ hcolumns value hvalue)
    simp [row, hnone]

end Content

/-! ## Rows that stand for records -/

/-- The column can hold the value. -/
def Column.Takes (c : Column) (v : Value) : Prop := c.type.admits v = true ∧ (c.notNull = true → v ≠ .null)

section
variable {name : String} {notNull : Bool} {default : Option Default}

theorem takes_uuid (id : ℕ) : Column.Takes ⟨name, .uuid, notNull, default⟩ (.uuid id) :=
  ⟨rfl, fun _ h => by cases h⟩

theorem takes_bool (b : Bool) : Column.Takes ⟨name, .boolean, notNull, default⟩ (.bool b) :=
  ⟨rfl, fun _ h => by cases h⟩

theorem takes_varchar {length : ℕ} {s : String} :
    Column.Takes ⟨name, .varchar length, notNull, default⟩ (.text s) ↔ s.length ≤ length := by
  constructor
  · rintro ⟨hlength, -⟩
    exact of_decide_eq_true hlength
  · intro hlength
    exact ⟨decide_eq_true hlength, fun _ h => by cases h⟩

theorem takes_null {type : SqlType} : Column.Takes ⟨name, type, false, default⟩ .null :=
  ⟨by cases type <;> rfl, fun h => by cases h⟩

end

/-- A row that is written out is admitted when its columns are those of the table and hold what they may. -/
theorem admits_row_iff {T : TableSchema} {values : List (String × Value)}
    (hcolumns : ∀ x ∈ values.map (·.1), T.HasColumn x) :
    T.Admits (row values) ↔ ∀ c ∈ T.columns, c.Takes (row values c.name) := by
  refine ⟨fun h => h.typed, fun h => ⟨h, fun x hx => ?_⟩⟩
  have hnone : values.lookup x = none := by
    rw [List.lookup_eq_none_iff]
    intro value hvalue
    have hne : x ≠ value.1 := fun heq => hx (heq ▸ hcolumns value.1 (List.mem_map_of_mem hvalue))
    simpa using hne
  rw [row, hnone]
  rfl

section
variable {ρ ρ' : Type*} {es : List ρ} {es' : List ρ'} {f : ρ → Row} {f' : ρ' → Row} {c : Constraint}
  {table target : String} {rows : String → List Row}

theorem hasNulls_iff {r : Row} : c.HasNulls r ↔ .null ∈ c.columns.map r := by
  unfold Constraint.HasNulls
  rw [List.mem_map]

/-- **A key on rows that stand for records**: they differ in what the columns hold. -/
theorem holds_key_iff {κ : Type*} (g : ρ → κ) (held : ρ → List Value) (hrows : rows table = es.map f)
    (hkey : c.isKey = true) (hheld : ∀ e, c.columns.map (f e) = held e) (hnulls : ∀ e, .null ∉ held e)
    (hg : ∀ e ∈ es, ∀ e' ∈ es, (held e = held e' ↔ g e = g e')) : c.Holds table rows ↔ (es.map g).Nodup := by
  have hno : ∀ e, ¬ c.HasNulls (f e) := by
    intro e
    rw [hasNulls_iff, hheld]
    exact hnulls e
  have hpairs : (es.map f).Pairwise (fun r r' => c.columns.map r ≠ c.columns.map r') ↔ (es.map g).Nodup := by
    simp only [List.Nodup, List.pairwise_map, ne_eq, hheld]
    exact List.Pairwise.iff_of_mem fun he he' => not_congr (hg _ he _ he')
  have hunique : (es.map f).Pairwise (fun r r' => c.HasNulls r ∨ c.columns.map r ≠ c.columns.map r') ↔
      (es.map f).Pairwise fun r r' => c.columns.map r ≠ c.columns.map r' := by
    simp only [List.pairwise_map, hno, false_or]
  unfold Constraint.isKey at hkey
  unfold Constraint.Holds
  split at hkey
  · simp only [hrows, hpairs, and_iff_left_iff_imp]
    rintro - r hr
    obtain ⟨e, -, rfl⟩ := List.mem_map.1 hr
    exact hno e
  · simp only [hrows, hunique, hpairs]
  · cases hkey

/-- **A foreign key on rows that stand for records**: those that refer to anything refer to a record. -/
theorem holds_foreignKey_iff {references : List String} {onDelete : OnDelete} (held : ρ → List Value)
    (held' : ρ' → List Value) (hrows : rows table = es.map f) (hrows' : rows target = es'.map f')
    (hkind : c.kind = .foreignKey target references onDelete) (hheld : ∀ e, c.columns.map (f e) = held e)
    (hheld' : ∀ e', references.map (f' e') = held' e') :
    c.Holds table rows ↔ ∀ e ∈ es, .null ∉ held e → ∃ e' ∈ es', held' e' = held e := by
  have hexists : ∀ e, (∃ r' ∈ es'.map f', references.map r' = held e) ↔ ∃ e' ∈ es', held' e' = held e := by
    intro e
    simp only [List.mem_map, exists_exists_and_eq_and, hheld']
  unfold Constraint.Holds
  simp only [hkind, hrows, hrows', List.forall_mem_map, hasNulls_iff, or_iff_not_imp_left, hheld, hexists]

end

end Sql
