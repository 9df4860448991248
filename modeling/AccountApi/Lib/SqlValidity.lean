import AccountApi.Lib.Sql

/-!
# Statements keep a database valid

What each statement does to a valid database, one lemma for each kind of statement.

* `valid_step`: **a statement that succeeds keeps the database valid**.
-/

namespace Sql

namespace Constraint

variable {c : Constraint} {t u x : String} {rows : String → List Row}

/-- Without rows, every constraint holds. -/
theorem holds_of_empty (h : rows t = []) : c.Holds t rows := by
  unfold Holds
  split <;> simp [h]

/-- Removing all rows of a table that no other table refers to. -/
theorem Holds.clear (h : c.Holds u rows) (hother : u ≠ t → c.target ≠ some t) :
    c.Holds u (Function.update rows t []) := by
  by_cases hut : u = t
  · subst hut
    exact holds_of_empty (Function.update_self u [] rows)
  · have hrows : Function.update rows t [] u = rows u := Function.update_of_ne hut _ _
    unfold Holds at h ⊢
    split
    case h_1 | h_2 =>
      rename_i hk
      simp only [hk] at h
      rw [hrows]
      exact h
    case h_3 v references onDelete hk =>
      simp only [hk] at h
      have hvt : v ≠ t := fun hvt => hother hut (by simp [target, hk, hvt])
      rw [hrows, Function.update_of_ne hvt]
      exact h

/-- A change of the rows that spares the columns of the constraint. -/
theorem Holds.map (h : c.Holds u rows) {g : String → Row → Row}
    (hcolumns : ∀ r, ∀ y ∈ c.columns, g u r y = r y)
    (hreferences : ∀ v, c.target = some v → ∀ r, ∀ y ∈ c.references, g v r y = r y) :
    c.Holds u fun v => (rows v).map (g v) := by
  have hvalues : ∀ r, c.columns.map (g u r) = c.columns.map r :=
    fun r => List.map_congr_left fun y hy => hcolumns r y hy
  have hnulls : ∀ r, c.HasNulls (g u r) ↔ c.HasNulls r := by
    intro r
    unfold HasNulls
    refine exists_congr fun y => and_congr_right fun hy => ?_
    rw [hcolumns r y hy]
  unfold Holds at h ⊢
  split
  case h_1 hk =>
    simp only [hk] at h
    refine ⟨List.pairwise_map.2 ?_, fun r hr => ?_⟩
    · simpa only [hvalues] using h.1
    · obtain ⟨r, hold, rfl⟩ := List.mem_map.1 hr
      rw [hnulls]
      exact h.2 r hold
  case h_2 hk =>
    simp only [hk] at h
    refine List.pairwise_map.2 ?_
    simpa only [hvalues, hnulls] using h
  case h_3 v references onDelete hk =>
    simp only [hk] at h
    intro r hr
    obtain ⟨r, hold, rfl⟩ := List.mem_map.1 hr
    rw [hnulls, hvalues]
    refine (h r hold).imp_right ?_
    rintro ⟨r', hr', heq⟩
    refine ⟨g v r', List.mem_map_of_mem hr', ?_⟩
    rw [← heq]
    refine List.map_congr_left fun y hy => hreferences v (by simp [target, hk]) r' y ?_
    simpa [Constraint.references, hk] using hy

/-- Forgetting the values of a column that the constraint does not use. -/
theorem Holds.forget (h : c.Holds u rows) (hcolumns : u = t → x ∉ c.columns)
    (hreferences : c.target = some t → x ∉ c.references) :
    c.Holds u (Function.update rows t ((rows t).map fun r => Function.update r x .null)) := by
  have hrows : Function.update rows t ((rows t).map fun r => Function.update r x .null) =
      fun v => (rows v).map fun r => if v = t then Function.update r x .null else r := by
    funext v
    by_cases hv : v = t
    · subst hv
      simp
    · simp [hv]
  rw [hrows]
  refine h.map (g := fun v r => if v = t then Function.update r x .null else r) (fun r y hy => ?_)
    fun v hv r y hy => ?_
  · by_cases hut : u = t
    · have hyx : y ≠ x := fun hyx => hcolumns hut (hyx ▸ hy)
      simp [hut, Function.update_of_ne hyx]
    · simp [hut]
  · by_cases hvt : v = t
    · have hyx : y ≠ x := fun hyx => hreferences (hvt ▸ hv) (hyx ▸ hy)
      simp [hvt, Function.update_of_ne hyx]
    · simp [hvt]

end Constraint

namespace Schema

variable {s : Schema} {T U : TableSchema} {t : String}

theorem table_some (h : s.table t = some T) : T ∈ s ∧ T.name = t := Table.find_key_some h

theorem table_none : s.table t = none ↔ ∀ T ∈ s, T.name ≠ t := by
  simp [table]

theorem mem_put (h : U ∈ s.put T) : U = T ∨ U ∈ s ∧ U.name ≠ T.name := by
  obtain ⟨V, hV, rfl⟩ := List.mem_map.1 h
  by_cases hname : V.name = T.name
  · exact Or.inl (if_pos hname)
  · rw [if_neg hname]
    exact Or.inr ⟨hV, hname⟩

theorem names_put : (s.put T).map (·.name) = s.map (·.name) := Table.map_key_replace

/-- Whether there is a table depends on the names only. -/
theorem table_none_congr {s' : Schema} (h : s'.map (·.name) = s.map (·.name)) :
    s'.table t = none ↔ s.table t = none := by
  have hmem : ∀ s : Schema, s.table t = none ↔ t ∉ s.map (·.name) := by
    intro s
    rw [table_none, List.mem_map]
    constructor
    · rintro hall ⟨T, hT, hname⟩
      exact hall T hT hname
    · intro hnot T hT hname
      exact hnot ⟨T, hT, hname⟩
  rw [hmem, hmem, h]

end Schema

namespace Database.Valid

variable {db : Database} {T T' : TableSchema} {t : String} {rows : String → List Row}

/-- One table is replaced. -/
theorem put (hv : db.Valid) (hT : db.schema.table t = some T) (hname : T'.name = t)
    (hrows : ∀ u, u ≠ t → rows u = db.rows u) (hadmits : ∀ r ∈ rows t, T'.Admits r)
    (hholds : ∀ c ∈ T'.constraints, c.Holds t rows)
    (hothers : ∀ U ∈ db.schema, U.name ≠ t → ∀ c ∈ U.constraints, c.Holds U.name rows) :
    Valid ⟨db.schema.put T', rows⟩ := by
  refine ⟨?_, fun u hu => ?_, fun U hU => ?_, fun U hU => ?_⟩
  · rw [Schema.names_put]
    exact hv.names
  · have hnone := (Schema.table_none_congr Schema.names_put).1 hu
    have hut : u ≠ t := by
      rintro rfl
      rw [hT] at hnone
      cases hnone
    exact (hrows u hut).trans (hv.outside u hnone)
  · rcases Schema.mem_put hU with rfl | ⟨hU, hne⟩
    · rw [hname]
      exact hadmits
    · intro r hr
      rw [hname] at hne
      exact hv.admits U hU r (hrows U.name hne ▸ hr)
  · rcases Schema.mem_put hU with rfl | ⟨hU, hne⟩
    · rw [hname]
      exact hholds
    · exact hothers U hU (hname ▸ hne)

/-- The rows stay, and the replaced table keeps its columns. -/
theorem put_rows (hv : db.Valid) (hT : db.schema.table t = some T) (hname : T'.name = t)
    (hcolumns : T'.columns = T.columns) (hholds : ∀ c ∈ T'.constraints, c ∈ T.constraints ∨ c.Holds t db.rows) :
    Valid ⟨db.schema.put T', db.rows⟩ := by
  obtain ⟨hmem, hTname⟩ := Schema.table_some hT
  refine hv.put hT hname (fun _ _ => rfl) (fun r hr => ?_) (fun c hc => ?_) fun U hU _ => hv.holds U hU
  · have hr := hv.admits T hmem r (hTname ▸ hr)
    refine ⟨hcolumns ▸ hr.typed, fun x hx => hr.outside x fun hT => hx ?_⟩
    unfold TableSchema.HasColumn
    rwa [hcolumns]
  · rcases hholds c hc with hc | hc
    · exact hTname ▸ hv.holds T hmem c hc
    · exact hc

variable {s : Schema} {T : TableSchema}

theorem createTable (hv : db.Valid) (h : Statement.schemaStep db.schema (.createTable T) = some s) :
    Valid ⟨s, Statement.rowsStep db.rows (.createTable T)⟩ := by
  simp only [Statement.schemaStep, Option.bind_eq_bind, Option.bind_eq_some_iff, Option.guard_eq_some'] at h
  obtain ⟨-, ⟨-, hunused, -, -⟩, hs⟩ := h
  obtain rfl : db.schema ++ [T] = s := by simpa using hs
  have hfresh : ∀ U ∈ db.schema, U.name ≠ T.name := fun U hU hname => hunused ⟨U, hU, Or.inl hname⟩
  have hempty : db.rows T.name = [] := hv.outside T.name (Schema.table_none.2 hfresh)
  -- the new table has no rows, as it had none before it was there
  have hrows : Statement.rowsStep db.rows (.createTable T) = db.rows := by
    simp only [Statement.rowsStep]
    rw [← hempty]
    exact Function.update_eq_self T.name db.rows
  rw [hrows]
  refine ⟨?_, fun u hu => ?_, fun U hU r hr => ?_, fun U hU c hc => ?_⟩
  · exact Table.nodup_insert hv.names hfresh
  · rw [Schema.table_none] at hu
    exact hv.outside u (Schema.table_none.2 fun U hU => hu U (List.mem_append_left _ hU))
  · rcases List.mem_append.1 hU with hU | hU
    · exact hv.admits U hU r hr
    · obtain rfl := List.mem_singleton.1 hU
      exact absurd hr (by simp [hempty])
  · rcases List.mem_append.1 hU with hU | hU
    · exact hv.holds U hU c hc
    · obtain rfl := List.mem_singleton.1 hU
      exact Constraint.holds_of_empty hempty

theorem clear_outside (hv : db.Valid) {u : String} (hu : u ≠ t → db.schema.table u = none) :
    Function.update db.rows t [] u = [] := by
  by_cases hut : u = t
  · rw [hut, Function.update_self]
  · rw [Function.update_of_ne hut]
    exact hv.outside u (hu hut)

/-- All rows of a table go, and nothing needs them. -/
theorem clear (hv : db.Valid) (hneeds : ¬ db.schema.NeedsTable t) {U : TableSchema} (hU : U ∈ db.schema) :
    (∀ r ∈ Function.update db.rows t [] U.name, U.Admits r) ∧
      ∀ c ∈ U.constraints, c.Holds U.name (Function.update db.rows t []) := by
  refine ⟨fun r hr => ?_, fun c hc => ?_⟩
  · by_cases hname : U.name = t
    · rw [hname, Function.update_self] at hr
      cases hr
    · rw [Function.update_of_ne hname] at hr
      exact hv.admits U hU r hr
  · exact (hv.holds U hU c hc).clear fun hname htarget => hneeds ⟨U, hU, hname, c, hc, htarget⟩

theorem dropTable (hv : db.Valid) (h : Statement.schemaStep db.schema (.dropTable t) = some s) :
    Valid ⟨s, Statement.rowsStep db.rows (.dropTable t)⟩ := by
  simp only [Statement.schemaStep, Option.bind_eq_bind, Option.bind_eq_some_iff, Option.guard_eq_some'] at h
  obtain ⟨-, ⟨-, hneeds⟩, hs⟩ := h
  obtain rfl : (db.schema.filter fun T => T.name ≠ t) = s := by simpa using hs
  refine ⟨?_, fun u hu => ?_, fun U hU => ?_, fun U hU => ?_⟩
  · exact hv.names.sublist (List.filter_sublist.map _)
  · refine hv.clear_outside fun hut => Schema.table_none.2 fun U hU hname => ?_
    exact Schema.table_none.1 hu U (List.mem_filter.2 ⟨hU, by simpa [hname] using hut⟩) hname
  · exact (hv.clear hneeds (List.mem_filter.1 hU).1).1
  · exact (hv.clear hneeds (List.mem_filter.1 hU).1).2

theorem deleteFrom (hv : db.Valid) (h : Statement.schemaStep db.schema (.deleteFrom t) = some s) :
    Valid ⟨s, Statement.rowsStep db.rows (.deleteFrom t)⟩ := by
  simp only [Statement.schemaStep, Option.bind_eq_bind, Option.bind_eq_some_iff, Option.guard_eq_some'] at h
  obtain ⟨-, ⟨-, hneeds⟩, hs⟩ := h
  obtain rfl : db.schema = s := by simpa using hs
  refine ⟨hv.names, fun u hu => hv.clear_outside fun _ => hu, fun U hU => ?_, fun U hU => ?_⟩
  · exact (hv.clear hneeds hU).1
  · exact (hv.clear hneeds hU).2

theorem addColumn {c : Column} (hv : db.Valid) (hc : (Statement.addColumn t c).Check db.rows)
    (h : Statement.schemaStep db.schema (.addColumn t c) = some s) :
    Valid ⟨s, Statement.rowsStep db.rows (.addColumn t c)⟩ := by
  simp only [Statement.schemaStep, Option.bind_eq_bind, Option.bind_eq_some_iff, Option.guard_eq_some'] at h
  obtain ⟨T, hT, -, hnew, hs⟩ := h
  obtain rfl : db.schema.put { T with columns := insert c T.columns } = s := by simpa using hs
  obtain ⟨hmem, hname⟩ := Schema.table_some hT
  have hold : ∀ r ∈ db.rows t, T.Admits r := fun r hr => hv.admits T hmem r (hname ▸ hr)
  have hnull : ∀ r ∈ db.rows t, r c.name = .null := fun r hr => (hold r hr).outside c.name hnew
  -- the rows have NULL in the new column, as they had before it was there
  have hrows : Statement.rowsStep db.rows (.addColumn t c) = db.rows := by
    have hsame : (db.rows t).map (fun r => Function.update r c.name .null) = db.rows t := by
      refine (List.map_congr_left fun r hr => ?_).trans (List.map_id _)
      rw [← hnull r hr]
      exact Function.update_eq_self c.name r
    simp only [Statement.rowsStep]
    rw [hsame]
    exact Function.update_eq_self t db.rows
  rw [hrows]
  refine hv.put hT hname (fun _ _ => rfl) (fun r hr => ⟨fun d hd => ?_, fun x hx => ?_⟩)
    (fun d hd => hname ▸ hv.holds T hmem d hd) fun U hU _ => hv.holds U hU
  · rcases Finset.mem_insert.1 hd with rfl | hd
    · refine ⟨?_, fun hnot => ?_⟩
      · rw [hnull r hr]
        cases d.type <;> rfl
      · rw [hc.2 hnot] at hr
        cases hr
    · exact (hold r hr).typed d hd
  · refine (hold r hr).outside x ?_
    rintro ⟨d, hd, rfl⟩
    exact hx ⟨d, Finset.mem_insert_of_mem hd, rfl⟩

theorem dropColumn {x : String} (hv : db.Valid)
    (h : Statement.schemaStep db.schema (.dropColumn t x) = some s) :
    Valid ⟨s, Statement.rowsStep db.rows (.dropColumn t x)⟩ := by
  simp only [Statement.schemaStep, Option.bind_eq_bind, Option.bind_eq_some_iff, Option.guard_eq_some'] at h
  obtain ⟨T, hT, -, ⟨-, hrefers⟩, hs⟩ := h
  obtain rfl := Option.some.inj hs
  obtain ⟨hmem, hname⟩ := Schema.table_some hT
  refine hv.put hT hname (fun u hu => Function.update_of_ne hu _ _) (fun r hr => ?_) (fun c hc => ?_)
    fun U hU hne c hc => ?_
  · simp only [Statement.rowsStep, Function.update_self] at hr
    obtain ⟨r, hold, rfl⟩ := List.mem_map.1 hr
    have hadmits := hv.admits T hmem r (hname ▸ hold)
    refine ⟨fun c hc => ?_, fun y hy => ?_⟩
    · obtain ⟨hc, hcx⟩ := Finset.mem_filter.1 hc
      rw [Function.update_of_ne hcx]
      exact hadmits.typed c hc
    · by_cases hyx : y = x
      · rw [hyx, Function.update_self]
      · rw [Function.update_of_ne hyx]
        refine hadmits.outside y ?_
        rintro ⟨c, hc, rfl⟩
        exact hy ⟨c, Finset.mem_filter.2 ⟨hc, hyx⟩, rfl⟩
  · obtain ⟨hc, hx⟩ := Finset.mem_filter.1 hc
    exact (hname ▸ hv.holds T hmem c hc : c.Holds t db.rows).forget (fun _ => hx)
      fun htarget href => hrefers ⟨T, hmem, c, hc, htarget, href⟩
  · exact (hv.holds U hU c hc).forget (fun hut => absurd hut hne)
      fun htarget href => hrefers ⟨U, hU, c, hc, htarget, href⟩

theorem addConstraint {c : Constraint} (hv : db.Valid) (hc : (Statement.addConstraint t c).Check db.rows)
    (h : Statement.schemaStep db.schema (.addConstraint t c) = some s) : Valid ⟨s, db.rows⟩ := by
  simp only [Statement.schemaStep, Option.bind_eq_bind, Option.bind_eq_some_iff, Option.guard_eq_some'] at h
  obtain ⟨T, hT, -, -, hs⟩ := h
  obtain rfl := Option.some.inj hs
  refine hv.put_rows hT (Schema.table_some hT).2 rfl fun d hd => ?_
  rcases Finset.mem_insert.1 hd with rfl | hd
  · exact Or.inr hc
  · exact Or.inl hd

theorem dropConstraint {name : String} (hv : db.Valid)
    (h : Statement.schemaStep db.schema (.dropConstraint t name) = some s) : Valid ⟨s, db.rows⟩ := by
  simp only [Statement.schemaStep, Option.bind_eq_bind, Option.bind_eq_some_iff, Option.guard_eq_some'] at h
  obtain ⟨T, hT, -, -, -, -, hs⟩ := h
  obtain rfl := Option.some.inj hs
  exact hv.put_rows hT (Schema.table_some hT).2 rfl fun d hd => Or.inl (Finset.mem_filter.1 hd).1

theorem createIndex {i : Index} (hv : db.Valid)
    (h : Statement.schemaStep db.schema (.createIndex t i) = some s) : Valid ⟨s, db.rows⟩ := by
  simp only [Statement.schemaStep, Option.bind_eq_bind, Option.bind_eq_some_iff, Option.guard_eq_some'] at h
  obtain ⟨T, hT, -, -, hs⟩ := h
  obtain rfl := Option.some.inj hs
  exact hv.put_rows hT (Schema.table_some hT).2 rfl fun d hd => Or.inl hd

theorem dropIndex {name : String} (hv : db.Valid)
    (h : Statement.schemaStep db.schema (.dropIndex name) = some s) : Valid ⟨s, db.rows⟩ := by
  simp only [Statement.schemaStep, Option.bind_eq_bind, Option.bind_eq_some_iff, Option.guard_eq_some'] at h
  obtain ⟨-, -, hs⟩ := h
  obtain rfl := Option.some.inj hs
  have hnames : (db.schema.map fun T => { T with indexes := T.indexes.filter fun i => i.name ≠ name }).map
      (·.name) = db.schema.map (·.name) := by
    rw [List.map_map]
    rfl
  refine ⟨?_, fun u hu => ?_, fun U hU => ?_, fun U hU => ?_⟩
  · exact hnames ▸ hv.names
  · exact hv.outside u ((Schema.table_none_congr hnames).1 hu)
  · obtain ⟨V, hV, rfl⟩ := List.mem_map.1 hU
    intro r hr
    have hadmits := hv.admits V hV r hr
    exact ⟨hadmits.typed, hadmits.outside⟩
  · obtain ⟨V, hV, rfl⟩ := List.mem_map.1 hU
    exact hv.holds V hV

end Database.Valid

/-- **A statement that succeeds keeps the database valid.** -/
theorem valid_step {db db' : Database} {q : Statement} (hv : db.Valid) (h : db.step q = some db') :
    db'.Valid := by
  unfold Database.step at h
  split at h
  case isFalse => cases h
  case isTrue hc =>
    obtain ⟨s, hs, rfl⟩ := Option.map_eq_some_iff.1 h
    cases q with
    | createTable T => exact hv.createTable hs
    | dropTable t => exact hv.dropTable hs
    | addColumn t c => exact hv.addColumn hc hs
    | dropColumn t x => exact hv.dropColumn hs
    | addConstraint t c => exact hv.addConstraint hc hs
    | dropConstraint t name => exact hv.dropConstraint hs
    | createIndex t i => exact hv.createIndex hs
    | dropIndex name => exact hv.dropIndex hs
    | deleteFrom t => exact hv.deleteFrom hs

end Sql
