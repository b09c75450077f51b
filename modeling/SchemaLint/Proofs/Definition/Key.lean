import SchemaLint.Proofs.Catalog.WellFormed
import SchemaLint.Proofs.Definition.Invariant

/-!
# Growing tables

What a column or key adds to a table, in the cases where it can be added.  These statements are
exact, so that no later one has to look into the definitions again.
-/

namespace SchemaLint

open Sql

namespace Table

/-- The tables differ in their columns and indexes only. -/
def SameHeading (table other : Table) : Prop :=
  other = { table with columns := other.columns, indexes := other.indexes }

variable {first second third : Table}

theorem SameHeading.refl (table : Table) : table.SameHeading table :=
  rfl

theorem SameHeading.trans (h₁ : first.SameHeading second) (h₂ : second.SameHeading third) :
    first.SameHeading third := by
  rw [SameHeading, h₂, h₁]

theorem SameHeading.name_eq (h : first.SameHeading second) : second.name = first.name := by
  rw [SameHeading] at h
  rw [h]

theorem SameHeading.schemaName_eq (h : first.SameHeading second) :
    second.schemaName = first.schemaName := by
  rw [SameHeading] at h
  rw [h]

theorem SameHeading.info_eq (h : first.SameHeading second) : second.info = first.info := by
  rw [SameHeading] at h
  rw [h]

end Table

namespace Definition

variable {table result : Table}

theorem addColumn_eq_ok {encoding : Encoding} {spec : ColumnSpec} :
    addColumn encoding table spec = .ok result ↔
      table.column? spec.name = none ∧
        ∃ column, Definition.column spec table.nextOrdinal encoding = .ok column ∧
          result = table.pushColumn column := by
  rw [addColumn_eq]
  cases htaken : table.column? spec.name with
  | some _ => simp
  | none =>
      cases hcolumn : Definition.column spec table.nextOrdinal encoding with
      | error _ => simp
      | ok column => simp [eq_comm]

theorem withLength_ordinalPosition {class? : Option TypeClass} {type : TypeSpec}
    {info info' : ColumnInfo} (h : withLength class? type info = .ok info') :
    info'.ordinalPosition = info.ordinalPosition ∧ info'.columnKey = info.columnKey := by
  unfold withLength at h
  split at h <;> cases h <;> exact ⟨rfl, rfl⟩

theorem withEncoding_ordinalPosition {class? : Option TypeClass} {spec : ColumnSpec}
    {inherited : Encoding} {info info' : ColumnInfo}
    (h : withEncoding class? spec inherited info = .ok info') :
    info'.ordinalPosition = info.ordinalPosition ∧ info'.columnKey = info.columnKey := by
  unfold withEncoding at h
  split at h
  · obtain ⟨encoding, -, rfl⟩ := map_eq_ok.1 h
    exact ⟨rfl, rfl⟩
  · cases h
    exact ⟨rfl, rfl⟩

/-- What is shown of a column before its type and its encoding are looked up. -/
def draftInfo (spec : ColumnSpec) (ordinal : UInt32) : ColumnInfo where
  ordinalPosition := ordinal
  dataType := ColumnType.canonical spec.type.name
  columnType := columnType spec.type (ColumnType.canonical spec.type.name)
  isNullable := spec.nullable.getD !spec.primaryKey
  columnComment := spec.comment.getD ""

/-- What is shown of a column, with what does not depend on its type. -/
def completeInfo (spec : ColumnSpec) (info : ColumnInfo) : ColumnInfo :=
  { info with
    columnDefault := defaultText spec.default
    generationExpression := (spec.generation.map (·.expression)).getD ""
    extra := extra spec }

theorem columnInfo_eq (spec : ColumnSpec) (ordinal : UInt32) (inherited : Encoding) :
    columnInfo spec ordinal inherited =
      (withLength (ColumnType.classify (ColumnType.canonical spec.type.name)) spec.type
          (draftInfo spec ordinal) >>=
        withEncoding (ColumnType.classify (ColumnType.canonical spec.type.name)) spec
          inherited).map (completeInfo spec) := by
  unfold columnInfo draftInfo
  dsimp only
  generalize ColumnType.classify (ColumnType.canonical spec.type.name) = class?
  generalize withLength class? spec.type _ = sized
  cases sized with
  | error error => rfl
  | ok sized =>
      change (withEncoding class? spec inherited sized >>= _) =
        (withEncoding class? spec inherited sized).map _
      cases withEncoding class? spec inherited sized <;> rfl

/-- A new column has the name of its definition and the number it is given, and is in no key. -/
theorem column_eq_ok {spec : ColumnSpec} {ordinal : UInt32} {inherited : Encoding}
    {column : Column} (h : Definition.column spec ordinal inherited = .ok column) :
    column.name = spec.name ∧ column.info.ordinalPosition = ordinal ∧
      column.info.columnKey = .none := by
  obtain ⟨info, hinfo, rfl⟩ := map_eq_ok.1 h
  unfold columnInfo at hinfo
  obtain ⟨sized, hsized, hinfo⟩ := bind_eq_ok.1 hinfo
  obtain ⟨encoded, hencoded, hinfo⟩ := bind_eq_ok.1 hinfo
  cases hinfo
  have hsize := withLength_ordinalPosition hsized
  have hencoding := withEncoding_ordinalPosition hencoded
  exact ⟨rfl, hencoding.1.trans hsize.1, hencoding.2.trans hsize.2⟩

/-- Key parts are resolved to names of columns as the table spells them. -/
theorem name_mem_of_resolveParts {parts : List KeyPart} {columns : List (String × Option UInt64)}
    (h : resolveParts table parts = .ok columns) :
    ∀ name ∈ columns.map Prod.fst, name ∈ table.columns.map Column.name := by
  unfold resolveParts at h
  induction parts generalizing columns with
  | nil =>
      cases h
      simp
  | cons part parts ih =>
      rw [List.mapM_cons, bind_eq_ok] at h
      obtain ⟨resolved, hresolved, h⟩ := h
      obtain ⟨rest, hrest, h⟩ := bind_eq_ok.1 h
      cases h
      intro name hname
      rcases List.mem_cons.1 hname with rfl | hname
      · unfold resolvePart at hresolved
        split at hresolved
        · next column hcolumn =>
            cases hresolved
            exact List.mem_map_of_mem (List.mem_of_find?_eq_some hcolumn)
        · cases hresolved
      · exact ih hrest name hname

theorem addPrimaryKey_eq_ok {parts : List KeyPart} :
    addPrimaryKey table parts = .ok result ↔
      table.index? Index.primaryName = none ∧
        ∃ columns, resolveParts table parts = .ok columns ∧
          result = (markAllPrimary table columns).pushIndex
            (({ name := Index.primaryName, unique := true } : Index).pushColumns columns) := by
  rw [addPrimaryKey_eq]
  cases htaken : table.index? Index.primaryName with
  | some _ => simp
  | none =>
      simp only [Option.isSome_none, Bool.false_eq_true, if_false, map_eq_ok, true_and]
      exact exists_congr fun columns => and_congr_right fun _ => eq_comm

theorem addSecondaryIndex_eq_ok {key : KeyClause} :
    addSecondaryIndex table key = .ok result ↔
      table.index? (secondaryName table key) = none ∧
        ∃ columns, resolveParts table key.columns = .ok columns ∧
          result = (markLeading (key.kind == .unique) table columns).pushIndex
            (({ name := secondaryName table key, unique := key.kind == .unique,
                indexType := indexType key } : Index).pushColumns columns) := by
  rw [addSecondaryIndex_eq]
  cases htaken : table.index? (secondaryName table key) with
  | some _ => simp
  | none =>
      simp only [Option.isSome_none, Bool.false_eq_true, if_false, map_eq_ok, true_and]
      exact exists_congr fun columns => and_congr_right fun _ => eq_comm

/-- Marks are changes of columns that leave the rest of the table alone. -/
theorem markAllPrimary_eq (table : Table) (columns : List (String × Option UInt64)) :
    markAllPrimary table columns =
      { table with columns := (markAllPrimary table columns).columns } := by
  induction columns generalizing table with
  | nil => rfl
  | cons column columns ih => exact ih (table.modifyColumn column.1 markPrimary)

theorem markLeading_eq (unique : Bool) (table : Table)
    (columns : List (String × Option UInt64)) :
    markLeading unique table columns =
      { table with columns := (markLeading unique table columns).columns } := by
  cases columns <;> rfl

theorem indexes_markAllPrimary (table : Table) (columns : List (String × Option UInt64)) :
    (markAllPrimary table columns).indexes = table.indexes := by
  rw [markAllPrimary_eq]

theorem indexes_markLeading (unique : Bool) (table : Table)
    (columns : List (String × Option UInt64)) :
    (markLeading unique table columns).indexes = table.indexes := by
  rw [markLeading_eq]

theorem map_columns_markAllPrimary {β : Type} {h : Column → β}
    (hmark : ∀ column, h (markPrimary column) = h column) (table : Table)
    (columns : List (String × Option UInt64)) :
    (markAllPrimary table columns).columns.map h = table.columns.map h := by
  unfold markAllPrimary
  induction columns generalizing table with
  | nil => rfl
  | cons column columns ih =>
      exact (ih (table.modifyColumn column.1 markPrimary)).trans
        (Table.map_columns_modifyColumn hmark table column.1)

theorem map_columns_markLeading {β : Type} {h : Column → β} {unique : Bool}
    (hmark : ∀ column, h (markFirst unique column) = h column) (table : Table)
    (columns : List (String × Option UInt64)) :
    (markLeading unique table columns).columns.map h = table.columns.map h := by
  cases columns with
  | nil => rfl
  | cons first rest => exact Table.map_columns_modifyColumn hmark table first.1

theorem names_markAllPrimary (table : Table) (columns : List (String × Option UInt64)) :
    (markAllPrimary table columns).columns.map Column.name = table.columns.map Column.name :=
  map_columns_markAllPrimary (fun _ => rfl) table columns

theorem names_markLeading (unique : Bool) (table : Table)
    (columns : List (String × Option UInt64)) :
    (markLeading unique table columns).columns.map Column.name =
      table.columns.map Column.name :=
  map_columns_markLeading (fun _ => rfl) table columns

theorem addColumn_heading {encoding : Encoding} {spec : ColumnSpec}
    (h : addColumn encoding table spec = .ok result) : table.SameHeading result := by
  obtain ⟨-, column, -, rfl⟩ := addColumn_eq_ok.1 h
  rfl

theorem addPrimaryKey_heading {parts : List KeyPart}
    (h : addPrimaryKey table parts = .ok result) : table.SameHeading result := by
  obtain ⟨-, columns, -, rfl⟩ := addPrimaryKey_eq_ok.1 h
  rw [markAllPrimary_eq]
  rfl

theorem addKey_heading {key : KeyClause} (h : addKey table key = .ok result) :
    table.SameHeading result := by
  rw [addKey_eq] at h
  split at h
  · exact addPrimaryKey_heading h
  · obtain ⟨-, columns, -, rfl⟩ := addSecondaryIndex_eq_ok.1 h
    rw [markLeading_eq]
    rfl

theorem map_columns_addPrimaryKey {β : Type} {h : Column → β} {parts : List KeyPart}
    (hprimary : ∀ column, h (markPrimary column) = h column)
    (hadd : addPrimaryKey table parts = .ok result) :
    result.columns.map h = table.columns.map h := by
  obtain ⟨-, columns, -, rfl⟩ := addPrimaryKey_eq_ok.1 hadd
  exact map_columns_markAllPrimary hprimary table columns

/-- A key changes the marks of columns and nothing else of them. -/
theorem map_columns_addKey {β : Type} {h : Column → β} {key : KeyClause}
    (hprimary : ∀ column, h (markPrimary column) = h column)
    (hfirst : ∀ unique column, h (markFirst unique column) = h column)
    (hadd : addKey table key = .ok result) : result.columns.map h = table.columns.map h := by
  rw [addKey_eq] at hadd
  split at hadd
  · exact map_columns_addPrimaryKey hprimary hadd
  · obtain ⟨-, columns, -, rfl⟩ := addSecondaryIndex_eq_ok.1 hadd
    exact map_columns_markLeading (hfirst _) table columns

theorem map_columns_foldlM_addKey {β : Type} {h : Column → β} {keys : List KeyClause}
    (hprimary : ∀ column, h (markPrimary column) = h column)
    (hfirst : ∀ unique column, h (markFirst unique column) = h column)
    (hfold : keys.foldlM addKey table = .ok result) :
    result.columns.map h = table.columns.map h :=
  foldlM_keeps (P := fun state : Table => state.columns.map h = table.columns.map h)
    (fun _ _ _ _ hstate hadd => (map_columns_addKey hprimary hfirst hadd).trans hstate) rfl hfold

theorem length_indexes_addPrimaryKey {parts : List KeyPart}
    (h : addPrimaryKey table parts = .ok result) :
    result.indexes.length = table.indexes.length + 1 := by
  obtain ⟨-, columns, -, rfl⟩ := addPrimaryKey_eq_ok.1 h
  simp [Table.pushIndex, indexes_markAllPrimary]

/-- Every key is one more index. -/
theorem length_indexes_addKey {key : KeyClause} (h : addKey table key = .ok result) :
    result.indexes.length = table.indexes.length + 1 := by
  rw [addKey_eq] at h
  split at h
  · exact length_indexes_addPrimaryKey h
  · obtain ⟨-, columns, -, rfl⟩ := addSecondaryIndex_eq_ok.1 h
    simp [Table.pushIndex, indexes_markLeading]

/-- The start of a counter changes nothing but the counter. -/
theorem startCounter_eq (table : Table) :
    startCounter table = { table with info := (startCounter table).info } := by
  unfold startCounter
  split <;> rfl

theorem columns_startCounter (table : Table) : (startCounter table).columns = table.columns := by
  rw [startCounter_eq]

theorem indexes_startCounter (table : Table) : (startCounter table).indexes = table.indexes := by
  rw [startCounter_eq]

theorem tableCollation_startCounter (table : Table) :
    (startCounter table).info.tableCollation = table.info.tableCollation := by
  unfold startCounter
  split <;> rfl

end Definition
end SchemaLint
