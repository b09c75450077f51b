import SchemaLint.Proofs.Definition.Key

/-!
# Runs keep catalogs well-formed

The representation invariant holds of a catalog without schemas, and every edit keeps it.  So it
holds after every run from such a catalog, whatever the statements are and whether they succeed,
fail, or fail part of the way.
-/

namespace SchemaLint

open Sql

namespace Definition

theorem markAllPrimary_wellFormed {table : Table} (h : table.WellFormed)
    (columns : List (String × Option UInt64)) : (markAllPrimary table columns).WellFormed := by
  unfold markAllPrimary
  induction columns generalizing table with
  | nil => exact h
  | cons column columns ih =>
      exact ih (h.modifyColumn column.1 (f := markPrimary) (fun _ => rfl) (fun _ => rfl)
        fun _ => ⟨rfl, rfl⟩)

theorem markLeading_wellFormed {table : Table} (h : table.WellFormed) (unique : Bool)
    (columns : List (String × Option UInt64)) : (markLeading unique table columns).WellFormed := by
  cases columns with
  | nil => exact h
  | cons first rest =>
      exact h.modifyColumn first.1 (f := markFirst unique) (fun _ => rfl) (fun _ => rfl)
        fun _ => ⟨rfl, rfl⟩

/-- An index over resolved columns may be added under a free name. -/
theorem pushIndex_wellFormed {table marked : Table} {parts : List KeyPart}
    {columns : List (String × Option UInt64)} {index : Index} (h : marked.WellFormed)
    (hindexes : marked.indexes = table.indexes)
    (hnames : marked.columns.map Column.name = table.columns.map Column.name)
    (hfree : table.index? index.name = none) (hempty : index.parts = [])
    (hcolumns : resolveParts table parts = .ok columns) :
    (marked.pushIndex (index.pushColumns columns)).WellFormed := by
  refine h.pushIndex ?_ ?_ ?_
  · rw [Index.name_pushColumns, Table.index?_eq_none_iff, hindexes]
    exact Table.index?_eq_none_iff.1 hfree
  · exact Index.Numbered.pushColumns (by simp [Index.Numbered, hempty]) columns
  · intro name hname
    rw [Index.columnNames_pushColumns, Index.columnNames, hempty] at hname
    rw [hnames]
    exact name_mem_of_resolveParts hcolumns name (by simpa using hname)

end Definition

/-- Tables are well-formed at any time, whatever their keys are called. -/
theorem tableInvariant_wellFormed : TableInvariant (fun _ => True) Table.WellFormed where
  numbered := fun _ _ _ => trivial
  start := fun name schemaName spec encoding => Table.wellFormed_empty name schemaName _
  view := fun schemaName name => Table.wellFormed_empty name schemaName _
  addColumn := by
    intro encoding table spec result h hadd
    obtain ⟨hfree, column, hcolumn, rfl⟩ := Definition.addColumn_eq_ok.1 hadd
    obtain ⟨hname, hordinal, -⟩ := Definition.column_eq_ok hcolumn
    exact h.pushColumn (hname ▸ hfree) hordinal
  addPrimaryKey := by
    intro table parts result h hadd
    obtain ⟨hfree, columns, hcolumns, rfl⟩ := Definition.addPrimaryKey_eq_ok.1 hadd
    exact Definition.pushIndex_wellFormed (Definition.markAllPrimary_wellFormed h columns)
      (Definition.indexes_markAllPrimary table columns)
      (Definition.names_markAllPrimary table columns) hfree rfl hcolumns
  addSecondaryIndex := by
    intro table key result h _ hadd
    obtain ⟨hfree, columns, hcolumns, rfl⟩ := Definition.addSecondaryIndex_eq_ok.1 hadd
    exact Definition.pushIndex_wellFormed (Definition.markLeading_wellFormed h _ columns)
      (Definition.indexes_markLeading _ table columns)
      (Definition.names_markLeading _ table columns) hfree rfl hcolumns
  startCounter := by
    intro table h
    rw [Definition.startCounter_eq]
    exact h.withInfo _
  relink := fun h schemaName => h.relink schemaName

namespace Session

/-- An alteration changes columns and indexes only. -/
theorem alter_heading (line : Nat) (object : ObjectName) (table : Table) (action : AlterAction) :
    table.SameHeading (alter line object table action).1 := by
  rcases alter_eq_self_or line object table action with hsame | hresult
  · rw [hsame]
    exact .refl table
  · cases action with
    | addColumn spec =>
        rw [result_edit_addColumn] at hresult
        split at hresult
        · cases hresult
        · exact Definition.addColumn_heading hresult
    | addKey key => exact Definition.addKey_heading hresult
    | unsupported text => cases hresult

theorem runAll_alter_heading (line : Nat) (object : ObjectName) (actions : List AlterAction)
    (table : Table) :
    table.SameHeading (Outcome.runAll (alter line object) table actions).1 :=
  Outcome.runAll_keeps (P := table.SameHeading)
    (fun target action _ htarget => htarget.trans (alter_heading line object target action))
    (.refl table)

end Session

namespace Catalog

theorem Arranged.addTable {catalog : Catalog} (h : catalog.Arranged) (schema : String)
    (table : Table) : (Session.addTable catalog schema table).Arranged :=
  (h.ensureSchema schema).modifySchema schema (Schema.name_addTable · table)
    fun _ howner => howner.addTable table

/-- Every edit keeps schemas and tables in their places. -/
theorem Arranged.edited {Named : String → Prop} {first second : Catalog}
    (h : first.Arranged) (hedit : Edited Named first second) : second.Arranged := by
  induction hedit with
  | refl _ => exact h
  | trans _ _ ih₁ ih₂ => exact ih₂ (ih₁ h)
  | ensureSchema catalog name => exact h.ensureSchema name
  | removeSchema catalog name => exact h.sublist List.eraseP_sublist
  | addView catalog schema name => exact h.addTable schema _
  | addTable catalog _ _ => exact h.addTable _ _
  | removeTable catalog schema name =>
      exact h.modifySchema schema (fun _ => rfl) fun _ howner => howner.removeTable name
  | alterTable catalog schema name line object _ =>
      -- the actions before one that fails have taken effect, but none of them renames the table
      refine h.modifySchema schema (fun _ => rfl) fun _ howner => ?_
      exact howner.modifyTable name
        (fun table => (Session.runAll_alter_heading line object _ table).name_eq)
        (fun table => (Session.runAll_alter_heading line object _ table).schemaName_eq)
  | addUser catalog creation spec =>
      refine h.of_schemas_eq ?_
      unfold Session.addUser
      split <;> rfl
  | grant catalog user host privileges => exact h.of_schemas_eq rfl

/-- Every edit keeps a catalog well-formed. -/
theorem WellFormed.edited {first second : Catalog} (h : first.WellFormed)
    (hedit : Edited (fun _ => True) first second) : second.WellFormed where
  toArranged := h.toArranged.edited hedit
  tables_wellFormed := tableInvariant_wellFormed.edited hedit h.tables_wellFormed

theorem wellFormed_of_schemas_eq_nil {catalog : Catalog} (h : catalog.schemas = []) :
    catalog.WellFormed where
  schemas_nodup := by simp [h]
  schemas_arranged := by simp [h]
  tables_wellFormed := by simp [tables, h]

end Catalog

namespace Session

theorem applyEach_wellFormed {session : Session} (h : session.catalog.WellFormed)
    (statements : List Statement) : (session.applyEach statements).catalog.WellFormed :=
  h.edited (edited_applyEach statements (fun _ _ _ _ => trivial) session)

/-- From a catalog without schemas, the catalog is well-formed at any time, and so is what a
session ends with. -/
theorem wellFormed_of_start {catalog : Catalog} (h : catalog.schemas = [])
    (statements : List Statement) :
    ((start catalog).applyEach statements).catalog.WellFormed ∧
      ((start catalog).applyEach statements).finish.WellFormed := by
  have hrun : ((start catalog).applyEach statements).catalog.WellFormed :=
    applyEach_wellFormed (Catalog.wellFormed_of_schemas_eq_nil h) statements
  exact ⟨hrun, hrun.retainSchemas _⟩

/-- So it is after an alteration that adds one index and fails at the next, and the table is there
with the index. -/
theorem wellFormed_after_failed_alteration :
    let created : Statement := .createTable {
      name := { name := "t" }
      columns := [{ name := "a", type := { name := "int" } }] }
    let altered : Statement := .alterTable { name := "t" } [
      .addKey { kind := .index, name := some "k", columns := [{ column := "A" }] },
      .addKey { kind := .unique, columns := [{ column := "b" }] }]
    let session := (start {}).applyEach [created, altered]
    (((start {}).applyEach [created]).apply altered).2 =
        .error (.missingColumn "__unnamed__.t" "b") ∧
      (session.catalog.tables.map fun table =>
        (table.name, table.columns.map Column.name, table.indexes.map Index.name)) =
          [("t", ["a"], ["k"])] ∧
      session.catalog.WellFormed ∧ session.finish.WellFormed := by
  intro created altered session
  have hfails : (((start {}).applyEach [created]).apply altered).2 =
      .error (.missingColumn "__unnamed__.t" "b") := by
    decide +kernel
  have htables : (session.catalog.tables.map fun table =>
      (table.name, table.columns.map Column.name, table.indexes.map Index.name)) =
        [("t", ["a"], ["k"])] := by
    decide +kernel
  exact ⟨hfails, htables, wellFormed_of_start rfl [created, altered]⟩

end Session
end SchemaLint
