import Mathlib.Data.List.Nodup
import SchemaLint.Proofs.Catalog.Edit

/-!
# Well-formed catalogs

The representation invariant of a catalog: names do not clash, columns and index parts are
numbered from one in order, index parts are over columns of their table, and the repeated names of
owners are right.  Each edit of a table or a schema keeps its part of the invariant, under the
condition that the caller has to check.
-/

namespace SchemaLint

open Text (lower)

/-- Texts are equal up to case exactly if their small forms are equal. -/
theorem Text.sameLetters_iff {a b : String} : sameLetters a b = true ↔ lower a = lower b := by
  simp [sameLetters]

namespace Index

/-- The parts are numbered from one in order, in numbers of 32 bits. -/
def Numbered (index : Index) : Prop :=
  ∀ (k : Nat) (hk : k < index.parts.length), index.parts[k].position = UInt32.ofNat (k + 1)

theorem Numbered.pushColumn {index : Index} (h : index.Numbered) (columnName : String)
    (length : Option UInt64) : (index.pushColumn columnName length).Numbered := by
  intro k hk
  have hlength : k < index.parts.length + 1 := by simpa [Index.pushColumn] using hk
  by_cases hlast : k < index.parts.length
  · simpa [Index.pushColumn, List.getElem_append, hlast] using h k hlast
  -- the new part is the last one
  · have hk' : k = index.parts.length := by omega
    subst hk'
    simp [Index.pushColumn, UInt32.ofNat_add]

theorem Numbered.pushColumns {index : Index} (h : index.Numbered)
    (columns : List (String × Option UInt64)) : (index.pushColumns columns).Numbered := by
  induction columns generalizing index with
  | nil => exact h
  | cons column columns ih => exact ih (h.pushColumn column.1 column.2)

theorem columnNames_pushColumns (index : Index) (columns : List (String × Option UInt64)) :
    (index.pushColumns columns).columnNames = index.columnNames ++ columns.map Prod.fst := by
  induction columns generalizing index with
  | nil => simp [pushColumns]
  | cons column columns ih =>
      have hstep : index.pushColumns (column :: columns) =
          (index.pushColumn column.1 column.2).pushColumns columns := rfl
      rw [hstep, ih]
      simp [Index.pushColumn, columnNames]

@[simp] theorem name_pushColumns (index : Index) (columns : List (String × Option UInt64)) :
    (index.pushColumns columns).name = index.name := by
  induction columns generalizing index with
  | nil => rfl
  | cons column columns ih => exact ih (index.pushColumn column.1 column.2)

@[simp] theorem unique_pushColumns (index : Index) (columns : List (String × Option UInt64)) :
    (index.pushColumns columns).unique = index.unique := by
  induction columns generalizing index with
  | nil => rfl
  | cons column columns ih => exact ih (index.pushColumn column.1 column.2)

end Index

namespace Table

/-- The part of the representation invariant that one table has to satisfy. -/
structure WellFormed (table : Table) : Prop where
  columns_nodup : (table.columns.map fun column => lower column.name).Nodup
  indexes_nodup : (table.indexes.map fun index => lower index.name).Nodup
  /-- Columns are numbered from one in order, in numbers of 32 bits. -/
  ordinals : ∀ (i : Nat) (hi : i < table.columns.length),
    table.columns[i].info.ordinalPosition = UInt32.ofNat (i + 1)
  numbered : ∀ index ∈ table.indexes, index.Numbered
  /-- Index parts spell the names of columns exactly as the table does. -/
  covered : ∀ index ∈ table.indexes, ∀ name ∈ index.columnNames,
    name ∈ table.columns.map Column.name
  columns_owned : ∀ column ∈ table.columns,
    column.tableName = table.name ∧ column.schemaName = table.schemaName
  indexes_owned : ∀ index ∈ table.indexes,
    index.tableName = table.name ∧ index.schemaName = table.schemaName

theorem column?_eq_none_iff {table : Table} {name : String} :
    table.column? name = none ↔ ∀ column ∈ table.columns, lower column.name ≠ lower name := by
  simp [column?, Column.hasName, Text.sameLetters]

theorem index?_eq_none_iff {table : Table} {name : String} :
    table.index? name = none ↔ ∀ index ∈ table.indexes, lower index.name ≠ lower name := by
  simp [index?, Index.hasName, Text.sameLetters]

theorem nextOrdinal_eq (table : Table) :
    table.nextOrdinal = UInt32.ofNat (table.columns.length + 1) := by
  rw [nextOrdinal, UInt32.ofNat_add]
  rfl

/-- A table without columns and indexes is well-formed. -/
theorem wellFormed_empty (name schemaName : String) (info : TableInfo) :
    ({ name, schemaName, info } : Table).WellFormed where
  columns_nodup := .nil
  indexes_nodup := .nil
  ordinals := by simp
  numbered := by simp
  covered := by simp
  columns_owned := by simp
  indexes_owned := by simp

/-- The information about a table is no part of the invariant. -/
theorem WellFormed.withInfo {table : Table} (h : table.WellFormed) (info : TableInfo) :
    ({ table with info } : Table).WellFormed :=
  ⟨h.columns_nodup, h.indexes_nodup, h.ordinals, h.numbered, h.covered, h.columns_owned,
    h.indexes_owned⟩

/-- Neither are the facts about it. -/
theorem WellFormed.withFacts {table : Table} (h : table.WellFormed) (facts : TableFacts) :
    ({ table with facts } : Table).WellFormed :=
  ⟨h.columns_nodup, h.indexes_nodup, h.ordinals, h.numbered, h.covered, h.columns_owned,
    h.indexes_owned⟩

/-- A column may be added if its name is free and it has the next number. -/
theorem WellFormed.pushColumn {table : Table} (h : table.WellFormed) {column : Column}
    (hname : table.column? column.name = none)
    (hordinal : column.info.ordinalPosition = table.nextOrdinal) :
    (table.pushColumn column).WellFormed where
  columns_nodup := by
    rw [Table.pushColumn, List.map_append, List.nodup_append]
    refine ⟨h.columns_nodup, by simp, ?_⟩
    intro a ha b hb hab
    obtain ⟨old, hold, rfl⟩ := List.mem_map.1 ha
    rw [List.map_singleton, List.mem_singleton] at hb
    exact column?_eq_none_iff.1 hname old hold (hab.trans hb)
  indexes_nodup := h.indexes_nodup
  ordinals := by
    intro i hi
    have hi' : i < table.columns.length + 1 := by simpa [Table.pushColumn] using hi
    by_cases hlast : i < table.columns.length
    · simpa [Table.pushColumn, List.getElem_append, hlast] using h.ordinals i hlast
    -- the new column is the last one
    · have hi'' : i = table.columns.length := by omega
      subst hi''
      simpa [Table.pushColumn, nextOrdinal_eq] using hordinal
  numbered := h.numbered
  covered := by
    intro index hindex name hmem
    rw [Table.pushColumn, List.map_append]
    exact List.mem_append_left _ (h.covered index hindex name hmem)
  columns_owned := by
    intro other hother
    rcases List.mem_append.1 hother with hother | hother
    · exact h.columns_owned other hother
    · rw [List.mem_singleton.1 hother]
      exact ⟨rfl, rfl⟩
  indexes_owned := h.indexes_owned

/-- An index may be added if its name is free and its numbered parts are over columns of the
table. -/
theorem WellFormed.pushIndex {table : Table} (h : table.WellFormed) {index : Index}
    (hname : table.index? index.name = none) (hnumbered : index.Numbered)
    (hcovered : ∀ name ∈ index.columnNames, name ∈ table.columns.map Column.name) :
    (table.pushIndex index).WellFormed where
  columns_nodup := h.columns_nodup
  indexes_nodup := by
    rw [Table.pushIndex, List.map_append, List.nodup_append]
    refine ⟨h.indexes_nodup, by simp, ?_⟩
    intro a ha b hb hab
    obtain ⟨old, hold, rfl⟩ := List.mem_map.1 ha
    rw [List.map_singleton, List.mem_singleton] at hb
    exact index?_eq_none_iff.1 hname old hold (hab.trans hb)
  ordinals := h.ordinals
  numbered := by
    intro other hother
    rcases List.mem_append.1 hother with hother | hother
    · exact h.numbered other hother
    · rw [List.mem_singleton.1 hother]
      exact hnumbered
  covered := by
    intro other hother
    rcases List.mem_append.1 hother with hother | hother
    · exact h.covered other hother
    · rw [List.mem_singleton.1 hother]
      exact hcovered
  columns_owned := h.columns_owned
  indexes_owned := by
    intro other hother
    rcases List.mem_append.1 hother with hother | hother
    · exact h.indexes_owned other hother
    · rw [List.mem_singleton.1 hother]
      exact ⟨rfl, rfl⟩

/-- A column may be changed as long as it keeps its name, number and owner. -/
theorem WellFormed.modifyColumn {table : Table} (h : table.WellFormed) (name : String)
    {f : Column → Column} (hname : ∀ column, (f column).name = column.name)
    (hordinal : ∀ column, (f column).info.ordinalPosition = column.info.ordinalPosition)
    (howner : ∀ column, (f column).tableName = column.tableName ∧
      (f column).schemaName = column.schemaName) :
    (table.modifyColumn name f).WellFormed where
  columns_nodup := by
    have hlower : ∀ column, lower (f column).name = lower column.name := fun column => by
      rw [hname]
    rw [map_columns_modifyColumn hlower]
    exact h.columns_nodup
  indexes_nodup := h.indexes_nodup
  ordinals := by
    -- the numbers of all columns together are unchanged, so each number is
    have hmap := map_columns_modifyColumn (h := fun column => column.info.ordinalPosition)
      hordinal table name
    intro i hi
    have hi' : i < table.columns.length := by
      have hlength := congrArg List.length hmap
      simp only [List.length_map] at hlength
      exact hlength ▸ hi
    have hget := List.getElem_of_eq hmap (i := i) (by simpa using hi)
    simp only [List.getElem_map] at hget
    exact hget.trans (h.ordinals i hi')
  numbered := h.numbered
  covered := by
    intro index hindex column hcolumn
    rw [map_columns_modifyColumn hname]
    exact h.covered index hindex column hcolumn
  columns_owned := by
    intro column hcolumn
    rcases mem_modifyFirst hcolumn with hcolumn | ⟨old, hold, -, rfl⟩
    · exact h.columns_owned column hcolumn
    · have hkept := howner old
      exact ⟨hkept.1.trans (h.columns_owned old hold).1, hkept.2.trans (h.columns_owned old hold).2⟩
  indexes_owned := h.indexes_owned

/-- A well-formed table stays so in another schema. -/
theorem WellFormed.relink {table : Table} (h : table.WellFormed) (schemaName : String) :
    ({ table with schemaName } : Table).relink.WellFormed where
  columns_nodup := by
    simpa [Table.relink, Function.comp_def] using h.columns_nodup
  indexes_nodup := by
    simpa [Table.relink, Function.comp_def] using h.indexes_nodup
  ordinals := by
    intro i hi
    simpa [Table.relink] using h.ordinals i (by simpa [Table.relink] using hi)
  numbered := by
    intro index hindex
    obtain ⟨old, hold, rfl⟩ := List.mem_map.1 hindex
    exact h.numbered old hold
  covered := by
    intro index hindex
    obtain ⟨old, hold, rfl⟩ := List.mem_map.1 hindex
    intro name hname
    simpa [Table.relink, Function.comp_def] using h.covered old hold name hname
  columns_owned := by
    intro column hcolumn
    obtain ⟨old, -, rfl⟩ := List.mem_map.1 hcolumn
    exact ⟨rfl, rfl⟩
  indexes_owned := by
    intro index hindex
    obtain ⟨old, -, rfl⟩ := List.mem_map.1 hindex
    exact ⟨rfl, rfl⟩

/-- The names in a well-formed table are those that would be repeated in it. -/
theorem WellFormed.relink_eq {table : Table} (h : table.WellFormed) : table.relink = table := by
  have hcolumns : (table.columns.map fun column =>
      { column with tableName := table.name, schemaName := table.schemaName }) = table.columns := by
    refine List.map_congr_left (g := id) (fun column hcolumn => ?_) |>.trans (List.map_id _)
    obtain ⟨htable, hschema⟩ := h.columns_owned column hcolumn
    rw [← htable, ← hschema, id]
  have hindexes : (table.indexes.map fun index =>
      { index with tableName := table.name, schemaName := table.schemaName }) = table.indexes := by
    refine List.map_congr_left (g := id) (fun index hindex => ?_) |>.trans (List.map_id _)
    obtain ⟨htable, hschema⟩ := h.indexes_owned index hindex
    rw [← htable, ← hschema, id]
  rw [Table.relink, hcolumns, hindexes]

end Table

namespace Schema

/-- The part of the representation invariant that is about the place of tables in a schema. -/
structure Arranged (schema : Schema) : Prop where
  tables_nodup : (schema.tables.map Table.name).Nodup
  tables_owned : ∀ table ∈ schema.tables, table.schemaName = schema.name

theorem arranged_empty (name : String) : ({ name } : Schema).Arranged :=
  ⟨.nil, by simp⟩

theorem contains_iff {schema : Schema} {name : String} :
    schema.contains name = true ↔ name ∈ schema.tables.map Table.name := by
  simp [contains, table?]

theorem Arranged.addTable {schema : Schema} (h : schema.Arranged) (table : Table) :
    (schema.addTable table).Arranged := by
  unfold Schema.addTable addTable?
  split
  · exact h
  · next hnew =>
      rw [contains_iff] at hnew
      refine ⟨?_, ?_⟩
      · simp only [Option.getD_some, List.map_append, List.nodup_append]
        refine ⟨h.tables_nodup, by simp, ?_⟩
        rintro a ha b hb rfl
        rw [List.map_singleton, List.mem_singleton] at hb
        -- the schema was asked for this name before
        exact hnew (by simpa [hb, Table.relink] using ha)
      · intro other hother
        rcases List.mem_append.1 hother with hother | hother
        · exact h.tables_owned other hother
        · rw [List.mem_singleton.1 hother]
          rfl

theorem Arranged.removeTable {schema : Schema} (h : schema.Arranged) (name : String) :
    (schema.removeTable name).Arranged where
  tables_nodup := (List.eraseP_sublist.map Table.name).nodup h.tables_nodup
  tables_owned := fun table htable => h.tables_owned table (mem_tables_removeTable htable)

/-- A table may be changed as long as it keeps its name and that of its schema. -/
theorem Arranged.modifyTable {schema : Schema} (h : schema.Arranged) (name : String)
    {f : Table → Table} (hname : ∀ table, (f table).name = table.name)
    (howner : ∀ table, (f table).schemaName = table.schemaName) :
    (schema.modifyTable name f).Arranged where
  tables_nodup := by
    rw [Schema.modifyTable, Table.map_modifyFirst hname]
    exact h.tables_nodup
  tables_owned := by
    intro table htable
    rcases mem_tables_modifyTable htable with htable | ⟨old, hold, rfl⟩
    · exact h.tables_owned table htable
    · exact (howner old).trans (h.tables_owned old hold)

end Schema

namespace Catalog

/-- The part of the representation invariant that is about the place of schemas and tables. -/
structure Arranged (catalog : Catalog) : Prop where
  schemas_nodup : (catalog.schemas.map Schema.name).Nodup
  schemas_arranged : ∀ schema ∈ catalog.schemas, schema.Arranged

/-- The representation invariant of a catalog. -/
structure WellFormed (catalog : Catalog) : Prop extends Arranged catalog where
  tables_wellFormed : ∀ table ∈ catalog.tables, table.WellFormed

theorem Arranged.of_schemas_eq {catalog other : Catalog} (h : catalog.Arranged)
    (hsame : other.schemas = catalog.schemas) : other.Arranged :=
  ⟨hsame ▸ h.schemas_nodup, hsame ▸ h.schemas_arranged⟩

theorem Arranged.ensureSchema {catalog : Catalog} (h : catalog.Arranged) (name : String) :
    (catalog.ensureSchema name).Arranged := by
  by_cases hfound : (catalog.schema? name).isSome = true
  · exact h.of_schemas_eq (by rw [schemas_ensureSchema, if_pos hfound])
  · have hsame : (catalog.ensureSchema name).schemas =
        catalog.schemas ++ [({ name } : Schema)] := by
      rw [schemas_ensureSchema, if_neg hfound]
    have hnew : ∀ schema ∈ catalog.schemas, schema.name ≠ name := by
      simpa [schema?] using hfound
    constructor
    · rw [hsame, List.map_append, List.nodup_append]
      refine ⟨h.schemas_nodup, by simp, ?_⟩
      rintro a ha b hb rfl
      obtain ⟨schema, hschema, rfl⟩ := List.mem_map.1 ha
      exact hnew schema hschema (by simpa using hb)
    · rw [hsame]
      intro schema hschema
      rcases List.mem_append.1 hschema with hschema | hschema
      · exact h.schemas_arranged schema hschema
      · rw [List.mem_singleton.1 hschema]
        exact Schema.arranged_empty name

theorem Arranged.modifySchema {catalog : Catalog} (h : catalog.Arranged) (name : String)
    {f : Schema → Schema} (hname : ∀ schema, (f schema).name = schema.name)
    (hf : ∀ schema, schema.Arranged → (f schema).Arranged) :
    (catalog.modifySchema name f).Arranged where
  schemas_nodup := by
    rw [Catalog.modifySchema, Table.map_modifyFirst hname]
    exact h.schemas_nodup
  schemas_arranged := by
    intro schema hschema
    rcases Table.mem_modifyFirst hschema with hschema | ⟨old, hold, -, rfl⟩
    · exact h.schemas_arranged schema hschema
    · exact hf old (h.schemas_arranged old hold)

/-- Leaving schemas out keeps the others in place. -/
theorem Arranged.sublist {catalog other : Catalog} (h : catalog.Arranged)
    (hsub : other.schemas.Sublist catalog.schemas) : other.Arranged where
  schemas_nodup := (hsub.map Schema.name).nodup h.schemas_nodup
  schemas_arranged := fun schema hschema => h.schemas_arranged schema (hsub.subset hschema)

theorem WellFormed.retainSchemas {catalog : Catalog} (h : catalog.WellFormed)
    (keep : Schema → Bool) : (catalog.retainSchemas keep).WellFormed where
  toArranged := h.toArranged.sublist List.filter_sublist
  tables_wellFormed := fun table htable =>
    h.tables_wellFormed table (mem_tables_retainSchemas htable)

end Catalog
end SchemaLint
