import SchemaLint.Proofs.Session.PrimaryKey

/-!
# Marks of leading columns

Each index that is added marks its first column over the mark that is there already.  What comes
out is a function of the indexes of the table, in whatever order and by whatever statements they
were added.

* `leadMark` - the mark of a column by the indexes that it leads.
* `leadMark_concat` - one more index marks the column that it leads, and no other.
* `tableInvariant_leadMarked` - all columns outside the primary key have these marks at any time.
-/

namespace SchemaLint

open Sql

/-- A column of this name comes first in the index. -/
def Index.IsLedBy (name : String) (index : Index) : Prop :=
  index.columnNames.head? = some name

instance (name : String) (index : Index) : Decidable (index.IsLedBy name) :=
  inferInstanceAs (Decidable (index.columnNames.head? = some name))

/-- The mark of a column outside the primary key, by the indexes that it leads. -/
def leadMark (indexes : List Index) (name : String) : ColumnKey :=
  if ∃ index ∈ indexes, index.IsLedBy name ∧ index.unique = true then .unique
  else if ∃ index ∈ indexes, index.IsLedBy name then .multiple
  else .none

/-- A column that leads no index has no mark. -/
theorem leadMark_eq_none {indexes : List Index} {name : String}
    (h : ∀ index ∈ indexes, ¬ index.IsLedBy name) : leadMark indexes name = .none := by
  rw [leadMark, if_neg, if_neg]
  · rintro ⟨index, hindex, hled⟩
    exact h index hindex hled
  · rintro ⟨index, hindex, hled, -⟩
    exact h index hindex hled

/-- One more index adds its mark to the column that it is led by, and to no other. -/
theorem leadMark_concat (indexes : List Index) (index : Index) (name : String) :
    leadMark (indexes ++ [index]) name =
      if index.IsLedBy name then Definition.strongerKey index.unique (leadMark indexes name)
      else leadMark indexes name := by
  have hany : ∀ P : Index → Prop, (∃ other ∈ indexes ++ [index], P other) ↔
      (∃ other ∈ indexes, P other) ∨ P index := fun P => by
    simp [or_and_right, exists_or]
  simp only [leadMark, hany]
  by_cases hled : index.IsLedBy name
  · -- a unique index overrules the others, and any other gives way to one that is there
    cases hunique : index.unique <;>
      by_cases holdUnique : ∃ other ∈ indexes, other.IsLedBy name ∧ other.unique = true <;>
      by_cases hold : ∃ other ∈ indexes, other.IsLedBy name <;>
      simp [hled, holdUnique, hold, Definition.strongerKey]
  · simp only [hled, false_and, or_false, if_false]

/-- Only the columns and the uniqueness of indexes count. -/
theorem leadMark_map {f : Index → Index} (hparts : ∀ index, (f index).parts = index.parts)
    (hunique : ∀ index, (f index).unique = index.unique) (indexes : List Index) (name : String) :
    leadMark (indexes.map f) name = leadMark indexes name := by
  have hled : ∀ index, (f index).IsLedBy name ↔ index.IsLedBy name := fun index => by
    rw [Index.IsLedBy, Index.columnNames, hparts]
    rfl
  simp [leadMark, hled, hunique]

/-- Every column outside the primary key has the mark of the indexes that it leads. -/
def Table.LeadMarked (table : Table) : Prop :=
  ∀ column ∈ table.columns, column.isPrimary = false →
    column.info.columnKey = leadMark table.indexes column.name

instance (table : Table) : Decidable table.LeadMarked :=
  inferInstanceAs (Decidable (∀ column ∈ table.columns, column.isPrimary = false →
    column.info.columnKey = leadMark table.indexes column.name))

theorem Table.leadMarked_of_columns_eq_nil {table : Table} (h : table.columns = []) :
    table.LeadMarked := by
  intro column hcolumn
  rw [h] at hcolumn
  cases hcolumn

namespace Definition

variable {table result : Table}

/-- An index that is made from columns is led by the first of them. -/
theorem leadMark_pushIndex {index : Index} (hparts : index.parts = []) (table : Table)
    (columns : List (String × Option UInt64)) (name : String) :
    leadMark (table.pushIndex (index.pushColumns columns)).indexes name =
      if (columns.map Prod.fst).head? = some name then
        strongerKey index.unique (leadMark table.indexes name)
      else
        leadMark table.indexes name := by
  have hnames : (index.pushColumns columns).columnNames = columns.map Prod.fst := by
    rw [Index.columnNames_pushColumns, Index.columnNames, hparts]
    rfl
  rw [← hnames, ← Index.unique_pushColumns index columns]
  exact leadMark_concat table.indexes _ name

/-- Of the columns of an index the first one is marked. -/
theorem columns_markLeading (h : table.WellFormed) (unique : Bool)
    {columns : List (String × Option UInt64)}
    (hnames : ∀ name ∈ columns.map Prod.fst, name ∈ table.columns.map Column.name) :
    (markLeading unique table columns).columns = table.columns.map fun column =>
      if (columns.map Prod.fst).head? = some column.name then markFirst unique column
      else column := by
  cases columns with
  | nil => simp [markLeading]
  | cons first rest =>
      rw [markLeading, columns_modifyColumn_of_mem h (hnames _ List.mem_cons_self)]
      simp [eq_comm]

/-- A column that is new leads no index, and it has no mark. -/
theorem addColumn_leadMarked (hwf : table.WellFormed) (h : table.LeadMarked) {encoding : Encoding}
    {spec : ColumnSpec} (hadd : addColumn encoding table spec = .ok result) :
    result.LeadMarked := by
  obtain ⟨hfree, column, hcolumn, rfl⟩ := addColumn_eq_ok.1 hadd
  obtain ⟨hname, -, hkey⟩ := column_eq_ok hcolumn
  intro other hother hprimary
  rcases List.mem_append.1 hother with hother | hother
  · exact h other hother hprimary
  · obtain rfl := List.mem_singleton.1 hother
    refine hkey.trans (leadMark_eq_none fun index hindex hled => ?_).symm
    -- the columns of an index are there before it
    have hmem : column.name ∈ index.columnNames := List.mem_of_head? hled
    obtain ⟨old, hold, hsame⟩ := List.mem_map.1 (hwf.covered index hindex _ hmem)
    exact Table.column?_eq_none_iff.1 hfree old hold (by rw [hsame, hname])

/-- The columns of a primary key are marked as such, and the others keep their marks. -/
theorem addPrimaryKey_leadMarked (hwf : table.WellFormed) (h : table.LeadMarked)
    {parts : List KeyPart} (hadd : addPrimaryKey table parts = .ok result) :
    result.LeadMarked := by
  obtain ⟨-, columns, hcolumns, rfl⟩ := addPrimaryKey_eq_ok.1 hadd
  intro column hmem hprimary
  change column ∈ (markAllPrimary table columns).columns at hmem
  rw [columns_markAllPrimary hwf (name_mem_of_resolveParts hcolumns)] at hmem
  obtain ⟨old, hold, rfl⟩ := List.mem_map.1 hmem
  by_cases hnamed : old.name ∈ columns.map Prod.fst
  · rw [if_pos hnamed] at hprimary
    cases hprimary
  · rw [if_neg hnamed] at hprimary ⊢
    rw [leadMark_pushIndex rfl, if_neg fun hhead => hnamed (List.mem_of_head? hhead),
      indexes_markAllPrimary]
    exact h old hold hprimary

/-- An index that is not primary marks the column that it is led by, and the others keep their
marks. -/
theorem addSecondaryIndex_leadMarked (hwf : table.WellFormed) (h : table.LeadMarked)
    {key : KeyClause} (hadd : addSecondaryIndex table key = .ok result) : result.LeadMarked := by
  obtain ⟨-, columns, hcolumns, rfl⟩ := addSecondaryIndex_eq_ok.1 hadd
  intro column hmem hprimary
  change column ∈ (markLeading (key.kind == .unique) table columns).columns at hmem
  rw [columns_markLeading hwf _ (name_mem_of_resolveParts hcolumns)] at hmem
  obtain ⟨old, hold, rfl⟩ := List.mem_map.1 hmem
  by_cases hfirst : (columns.map Prod.fst).head? = some old.name
  · rw [if_pos hfirst] at hprimary ⊢
    rw [isPrimary_markFirst] at hprimary
    refine Eq.trans ?_ (leadMark_pushIndex rfl _ columns old.name).symm
    rw [if_pos hfirst, indexes_markLeading]
    exact congrArg (strongerKey _) (h old hold hprimary)
  · rw [if_neg hfirst] at hprimary ⊢
    rw [leadMark_pushIndex rfl, if_neg hfirst, indexes_markLeading]
    exact h old hold hprimary

end Definition

/-- The marks of leading columns are those of the indexes at any time. -/
theorem tableInvariant_leadMarked :
    TableInvariant (fun _ => True) fun table => table.WellFormed ∧ table.LeadMarked where
  numbered := fun _ _ _ => trivial
  start := fun name schemaName _ _ =>
    ⟨Table.wellFormed_empty name schemaName _, Table.leadMarked_of_columns_eq_nil rfl⟩
  view := fun schemaName name =>
    ⟨Table.wellFormed_empty name schemaName _, Table.leadMarked_of_columns_eq_nil rfl⟩
  addColumn := fun h hadd => ⟨tableInvariant_wellFormed.addColumn h.1 hadd,
    Definition.addColumn_leadMarked h.1 h.2 hadd⟩
  addPrimaryKey := fun h hadd => ⟨tableInvariant_wellFormed.addPrimaryKey h.1 hadd,
    Definition.addPrimaryKey_leadMarked h.1 h.2 hadd⟩
  addSecondaryIndex := fun h hname hadd =>
    ⟨tableInvariant_wellFormed.addSecondaryIndex h.1 hname hadd,
      Definition.addSecondaryIndex_leadMarked h.1 h.2 hadd⟩
  startCounter := by
    intro table h
    refine ⟨tableInvariant_wellFormed.startCounter h.1, ?_⟩
    rw [Definition.startCounter_eq]
    exact h.2
  relink := by
    intro table h schemaName
    refine ⟨tableInvariant_wellFormed.relink h.1 schemaName, fun column hcolumn hprimary => ?_⟩
    obtain ⟨old, hold, rfl⟩ := List.mem_map.1 hcolumn
    refine (h.2 old hold hprimary).trans (Eq.symm ?_)
    exact leadMark_map (f := fun index => { index with tableName := table.name, schemaName })
      (fun _ => rfl) (fun _ => rfl) table.indexes old.name

namespace Session

/-- From a catalog without schemas, the marks of columns outside primary keys never depend on the
order in which indexes were added: they are those of the indexes that the columns lead. -/
theorem leadMarked_of_start {catalog : Catalog} (h : catalog.schemas = [])
    (statements : List Statement) :
    ∀ table ∈ ((start catalog).applyEach statements).catalog.tables, table.LeadMarked := by
  have hnone : ∀ table ∈ (start catalog).catalog.tables,
      table.WellFormed ∧ table.LeadMarked := by simp [start, Catalog.tables, h]
  intro table htable
  exact (tableInvariant_leadMarked.applyEach statements (fun _ _ _ _ => trivial) _ hnone
    table htable).2

/-- A column that a unique index and then a plain one lead has the mark of the unique one, as it
has when they come the other way round. -/
theorem leadMarked_of_start_of_two_orders :
    let create (first second : KeyKind) : Statement := .createTable {
      name := { name := "t" }
      columns := [{ name := "a", type := { name := "int" } }]
      keys := [
        { kind := first, columns := [{ column := "A" }] },
        { kind := second, columns := [{ column := "a" }] }] }
    ∀ kinds ∈ [(KeyKind.unique, KeyKind.index), (.index, .unique)],
      ∃ table ∈ ((start {}).applyEach [create kinds.1 kinds.2]).catalog.tables,
        table.LeadMarked ∧ table.columns.map (·.info.columnKey) = [.unique] := by
  intro create kinds hkinds
  have hmarked : ∀ table ∈ ((start {}).applyEach [create kinds.1 kinds.2]).catalog.tables,
      table.LeadMarked := leadMarked_of_start rfl _
  have hbuilt : ∀ kinds ∈ [(KeyKind.unique, KeyKind.index), (.index, .unique)],
      ∃ table ∈ ((start {}).applyEach [create kinds.1 kinds.2]).catalog.tables,
        table.columns.map (·.info.columnKey) = [.unique] := by
    decide +kernel
  obtain ⟨table, htable, hkeys⟩ := hbuilt kinds hkinds
  exact ⟨table, htable, hmarked table htable, hkeys⟩

end Session
end SchemaLint
