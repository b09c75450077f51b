import SchemaLint.Proofs.Definition.Table

/-!
# Primary keys declared with a column

A column can declare the primary key by itself, or the definition can have a clause for it.  The
key of the column is added as soon as the column is, and the key of the clause after all columns.
This makes no difference, because adding a primary key commutes with adding further columns, and
because a column that takes part in the key forgets whether it would accept nulls.

* `addDeclaredColumn_of_primary` - a column with its key is the column, and then the key.
* `addColumn_withPrimary` - a further column may as well come before the key, and
  `foldlM_withPrimary` says so of all of them.
* `table_withPrimaryClause` - the two definitions make the same table or fail alike.
-/

namespace SchemaLint

open Sql

namespace Sql

/-- The definition of the column without the primary key that it may declare. -/
def ColumnSpec.withoutPrimary (spec : ColumnSpec) : ColumnSpec :=
  { spec with primaryKey := false }

/-- The definition of the table with a clause before its keys, and no primary keys declared by
columns. -/
def TableSpec.withPrimaryClause (spec : TableSpec) (clause : KeyClause) : TableSpec :=
  { spec with
    columns := spec.columns.map ColumnSpec.withoutPrimary
    keys := clause :: spec.keys }

theorem map_withoutPrimary_eq_self {columns : List ColumnSpec}
    (h : ∀ spec ∈ columns, spec.primaryKey = false) :
    columns.map ColumnSpec.withoutPrimary = columns := by
  refine (List.map_congr_left fun spec hspec => ?_).trans (List.map_id columns)
  rw [ColumnSpec.withoutPrimary, ← h spec hspec]
  rfl

end Sql

namespace Definition

variable {table result : Table} {encoding : Encoding} {spec : ColumnSpec} {name : String}

/-- The table with a primary key over one column. -/
def withPrimary (name : String) (table : Table) : Table :=
  (markAllPrimary table [(name, none)]).pushIndex
    (({ name := Index.primaryName, unique := true } : Index).pushColumns [(name, none)])

/-- The table has a column that is spelled so. -/
def Spells (name : String) (table : Table) : Prop :=
  (table.column? name).map Column.name = some name

/-- The primary key of a table without indexes, over a column that is spelled as in the table. -/
theorem addPrimaryKey_of_spells (hindexes : table.indexes = []) (h : Spells name table) :
    addPrimaryKey table [{ column := name }] = .ok (withPrimary name table) := by
  obtain ⟨column, hcolumn, hname⟩ := Option.map_eq_some_iff.1 h
  refine addPrimaryKey_eq_ok.2 ⟨?_, [(name, none)], ?_, rfl⟩
  · rw [Table.index?, hindexes]
    rfl
  · change [({ column := name } : KeyPart)].mapM (resolvePart table) = _
    simp [resolvePart, hcolumn, hname]

theorem withLength_withNullable (class? : Option TypeClass) (type : TypeSpec) (info : ColumnInfo)
    (isNullable : Bool) :
    withLength class? type { info with isNullable } =
      (withLength class? type info).map fun info => { info with isNullable } := by
  unfold withLength
  split <;> rfl

theorem withEncoding_withNullable (class? : Option TypeClass) (spec : ColumnSpec)
    (inherited : Encoding) (info : ColumnInfo) (isNullable : Bool) :
    withEncoding class? spec inherited { info with isNullable } =
      (withEncoding class? spec inherited info).map fun info => { info with isNullable } := by
  unfold withEncoding
  split
  · cases encodingOf spec inherited <;> rfl
  · rfl

theorem draftInfo_withoutPrimary (spec : ColumnSpec) (ordinal : UInt32) :
    draftInfo spec.withoutPrimary ordinal =
      { draftInfo spec ordinal with isNullable := spec.nullable.getD true } := by
  simp only [draftInfo, ColumnSpec.withoutPrimary, Bool.not_false]

theorem withEncoding_withoutPrimary (class? : Option TypeClass) (spec : ColumnSpec)
    (inherited : Encoding) :
    withEncoding class? spec.withoutPrimary inherited = withEncoding class? spec inherited := rfl

/-- Without its primary key, the definition of a column makes the same column, but for nulls. -/
theorem columnInfo_withoutPrimary (spec : ColumnSpec) (ordinal : UInt32) (inherited : Encoding) :
    columnInfo spec.withoutPrimary ordinal inherited =
      (columnInfo spec ordinal inherited).map fun info =>
        { info with isNullable := spec.nullable.getD true } := by
  have htype : spec.withoutPrimary.type = spec.type := rfl
  rw [columnInfo_eq, columnInfo_eq, htype, draftInfo_withoutPrimary, withEncoding_withoutPrimary,
    withLength_withNullable]
  generalize ColumnType.classify (ColumnType.canonical spec.type.name) = class?
  cases withLength class? spec.type (draftInfo spec ordinal) with
  | error error => rfl
  | ok sized =>
      have hencoding := withEncoding_withNullable class? spec inherited sized
        (spec.nullable.getD true)
      refine (congrArg (Except.map _) hencoding).trans ?_
      change _ = ((withEncoding class? spec inherited sized).map (completeInfo spec)).map _
      cases withEncoding class? spec inherited sized <;> rfl

/-- A column that gets into the primary key forgets whether it would accept nulls. -/
theorem map_markPrimary_column (spec : ColumnSpec) (ordinal : UInt32) (inherited : Encoding) :
    (column spec.withoutPrimary ordinal inherited).map markPrimary =
      (column spec ordinal inherited).map markPrimary := by
  rw [column, column, columnInfo_withoutPrimary]
  cases columnInfo spec ordinal inherited <;> rfl

theorem spells_pushColumn {column : Column} (h : table.column? column.name = none) :
    Spells column.name (table.pushColumn column) := by
  rw [Spells, Table.column?_pushColumn h]
  rfl

theorem Spells.pushColumn (h : Spells name table) (column : Column) :
    Spells name (table.pushColumn column) := by
  obtain ⟨found, hfound, hname⟩ := Option.map_eq_some_iff.1 h
  have hsome : table.columns.find? (Column.hasName name) = some found := hfound
  simp [Spells, Table.column?, Table.pushColumn, List.find?_append, hsome, hname]

theorem Spells.addColumn (h : Spells name table)
    (hadd : addColumn encoding table spec = .ok result) : Spells name result := by
  obtain ⟨-, column, -, rfl⟩ := addColumn_eq_ok.1 hadd
  exact h.pushColumn column

/-- After its addition a column is spelled as in its definition. -/
theorem spells_of_addColumn (hadd : addColumn encoding table spec = .ok result) :
    Spells spec.name result := by
  obtain ⟨hfree, column, hcolumn, rfl⟩ := addColumn_eq_ok.1 hadd
  rw [← (column_eq_ok hcolumn).1] at hfree ⊢
  exact spells_pushColumn hfree

theorem indexes_of_addColumn (hadd : addColumn encoding table spec = .ok result) :
    result.indexes = table.indexes := by
  obtain ⟨-, column, -, rfl⟩ := addColumn_eq_ok.1 hadd
  rfl

/-- A key over a column that was just added is over this column. -/
theorem withPrimary_pushColumn_self {column : Column} (h : table.column? column.name = none) :
    withPrimary column.name (table.pushColumn column) =
      { table.pushColumn (markPrimary column) with
        indexes := (withPrimary column.name table).indexes } := by
  have hcolumns : ((table.pushColumn column).modifyColumn column.name markPrimary).columns =
      (table.pushColumn (markPrimary column)).columns := by
    have hlast : Column.hasName column.name
        { column with tableName := table.name, schemaName := table.schemaName } = true := by
      simp [Column.hasName, Text.sameLetters]
    refine (Table.modifyFirst_append_of_none h).trans ?_
    rw [Table.modifyFirst_cons_of_pos hlast]
    rfl
  exact congrArg (fun columns => { table with
    columns, indexes := (withPrimary column.name table).indexes }) hcolumns

/-- A key over an earlier column may as well come first. -/
theorem withPrimary_pushColumn (h : Spells name table) (column : Column) :
    withPrimary name (table.pushColumn column) = (withPrimary name table).pushColumn column := by
  have hsome : (table.columns.find? (Column.hasName name)).isSome = true := by
    obtain ⟨found, hfound, -⟩ := Option.map_eq_some_iff.1 h
    exact Option.isSome_of_eq_some hfound
  have hcolumns : ((table.pushColumn column).modifyColumn name markPrimary).columns =
      ((withPrimary name table).pushColumn column).columns :=
    Table.modifyFirst_append_of_isSome hsome
  exact congrArg (fun columns => { table with
    columns, indexes := (withPrimary name table).indexes }) hcolumns

/-- Below the key it makes no difference whether the column declares it. -/
theorem map_withPrimary_addColumn (encoding : Encoding) (table : Table) (spec : ColumnSpec) :
    (addColumn encoding table spec.withoutPrimary).map (withPrimary spec.name) =
      (addColumn encoding table spec).map (withPrimary spec.name) := by
  have hmade := map_markPrimary_column spec table.nextOrdinal encoding
  have hname : spec.withoutPrimary.name = spec.name := rfl
  rw [addColumn_eq, addColumn_eq, hname]
  cases hfree : table.column? spec.name with
  | some _ => rfl
  | none =>
      simp only [Option.isSome_none, Bool.false_eq_true, if_false]
      cases hplain : column spec.withoutPrimary table.nextOrdinal encoding with
      | error error =>
          rw [hplain] at hmade
          rw [map_eq_error.1 hmade.symm]
      | ok plain =>
          rw [hplain] at hmade
          obtain ⟨declared, hdeclared, hsame⟩ := map_eq_ok.1 hmade.symm
          have hplainName : plain.name = spec.name := (column_eq_ok hplain).1
          have hdeclaredName : declared.name = spec.name := (column_eq_ok hdeclared).1
          rw [hdeclared]
          refine congrArg Except.ok ?_
          rw [← hplainName] at hfree ⊢
          rw [withPrimary_pushColumn_self hfree, ← hsame]
          rw [hplainName, ← hdeclaredName] at hfree ⊢
          rw [withPrimary_pushColumn_self hfree]

/-- A column that declares the key is the column, and then the key. -/
theorem addDeclaredColumn_of_primary (hindexes : table.indexes = [])
    (hprimary : spec.primaryKey = true) (hunique : spec.unique = false) :
    addDeclaredColumn encoding table spec =
      (addColumn encoding table spec.withoutPrimary).map (withPrimary spec.name) := by
  rw [map_withPrimary_addColumn]
  simp only [addDeclaredColumn_eq, addInlinePrimary_eq, addInlineUnique_eq, hprimary, hunique,
    if_true, Bool.false_eq_true, if_false]
  cases hadd : addColumn encoding table spec with
  | error error => rfl
  | ok grown =>
      have hkey := addPrimaryKey_of_spells ((indexes_of_addColumn hadd).trans hindexes)
        (spells_of_addColumn hadd)
      change (addPrimaryKey grown _ >>= fun table => .ok table) = _
      rw [hkey]
      rfl

/-- A further column may as well come before the key. -/
theorem addColumn_withPrimary (h : Spells name table) :
    addColumn encoding (withPrimary name table) spec =
      (addColumn encoding table spec).map (withPrimary name) := by
  have hnames : (withPrimary name table).columns.map Column.name =
      table.columns.map Column.name := names_markAllPrimary table [(name, none)]
  have hordinal : (withPrimary name table).nextOrdinal = table.nextOrdinal := by
    rw [Table.nextOrdinal, Table.nextOrdinal, ← List.length_map Column.name, hnames,
      List.length_map]
  have htaken : ((withPrimary name table).column? spec.name).isSome =
      (table.column? spec.name).isSome := by
    rw [Table.isSome_column?, Table.isSome_column?, hnames]
  rw [addColumn_eq, addColumn_eq, htaken, hordinal]
  split
  · rfl
  · cases column spec table.nextOrdinal encoding with
    | error error => rfl
    | ok column => exact congrArg Except.ok (withPrimary_pushColumn h column).symm

/-- So may all further columns without keys. -/
theorem foldlM_withPrimary {columns : List ColumnSpec} (h : Spells name table)
    (hplain : ∀ spec ∈ columns, spec.primaryKey = false ∧ spec.unique = false) :
    columns.foldlM (addDeclaredColumn encoding) (withPrimary name table) =
      (columns.foldlM (addDeclaredColumn encoding) table).map (withPrimary name) := by
  refine foldlM_map (P := Spells name) ?_ ?_ h
  · intro state spec hspec hstate
    rw [addDeclaredColumn_of_no_key (hplain spec hspec).1 (hplain spec hspec).2,
      addDeclaredColumn_of_no_key (hplain spec hspec).1 (hplain spec hspec).2]
    exact addColumn_withPrimary hstate
  · intro state spec result hspec hstate hadd
    rw [addDeclaredColumn_of_no_key (hplain spec hspec).1 (hplain spec hspec).2] at hadd
    exact hstate.addColumn hadd

/-- Columns without keys bring no indexes. -/
theorem indexes_foldlM {columns : List ColumnSpec}
    (hplain : ∀ spec ∈ columns, spec.primaryKey = false ∧ spec.unique = false)
    (hfold : columns.foldlM (addDeclaredColumn encoding) table = .ok result) :
    result.indexes = table.indexes := by
  refine foldlM_keeps (P := fun state : Table => state.indexes = table.indexes) ?_ rfl hfold
  intro state spec next hspec hstate hadd
  rw [addDeclaredColumn_of_no_key (hplain spec hspec).1 (hplain spec hspec).2] at hadd
  exact (indexes_of_addColumn hadd).trans hstate

theorem Spells.foldlM {columns : List ColumnSpec} (h : Spells name table)
    (hplain : ∀ spec ∈ columns, spec.primaryKey = false ∧ spec.unique = false)
    (hfold : columns.foldlM (addDeclaredColumn encoding) table = .ok result) :
    Spells name result := by
  refine foldlM_keeps ?_ h hfold
  intro state spec next hspec hstate hadd
  rw [addDeclaredColumn_of_no_key (hplain spec hspec).1 (hplain spec hspec).2] at hadd
  exact hstate.addColumn hadd

theorem addKey_of_spells {clause : KeyClause} (hkind : clause.kind = .primary)
    (hcolumns : clause.columns = [{ column := name }]) (hindexes : table.indexes = [])
    (h : Spells name table) : addKey table clause = .ok (withPrimary name table) := by
  have hclause : isPrimaryClause clause = true := by simp [isPrimaryClause, hkind]
  rw [addKey_eq, if_pos hclause, hcolumns]
  exact addPrimaryKey_of_spells hindexes h

/-- A column with its key and then columns without keys are these columns, and then the clause. -/
theorem foldlM_cons_of_primary {column : ColumnSpec} {after : List ColumnSpec}
    {clause : KeyClause} (hindexes : table.indexes = []) (hprimary : column.primaryKey = true)
    (hunique : column.unique = false)
    (hplain : ∀ spec ∈ after, spec.primaryKey = false ∧ spec.unique = false)
    (hkind : clause.kind = .primary) (hcolumns : clause.columns = [{ column := column.name }]) :
    (column :: after).foldlM (addDeclaredColumn encoding) table =
      (column.withoutPrimary :: after).foldlM (addDeclaredColumn encoding) table >>= fun table =>
        addKey table clause := by
  have hdeclared : addDeclaredColumn encoding table column.withoutPrimary =
      addColumn encoding table column.withoutPrimary := addDeclaredColumn_of_no_key rfl hunique
  rw [List.foldlM_cons, List.foldlM_cons, addDeclaredColumn_of_primary hindexes hprimary hunique,
    hdeclared]
  cases hadd : addColumn encoding table column.withoutPrimary with
  | error error => rfl
  | ok grown =>
      have hspells : Spells column.withoutPrimary.name grown := spells_of_addColumn hadd
      have hempty : grown.indexes = [] := (indexes_of_addColumn hadd).trans hindexes
      refine (foldlM_withPrimary hspells hplain).trans ?_
      change _ = after.foldlM (addDeclaredColumn encoding) grown >>= fun table =>
        addKey table clause
      cases hfold : after.foldlM (addDeclaredColumn encoding) grown with
      | error error => rfl
      | ok last =>
          exact (addKey_of_spells hkind hcolumns ((indexes_foldlM hplain hfold).trans hempty)
            (hspells.foldlM hplain hfold)).symm

/-- The columns with a primary key among them are the columns without it, and then the clause. -/
theorem columned_withPrimaryClause (schemaName : String) {spec : TableSpec} {column : ColumnSpec}
    {clause : KeyClause} (encoding : Encoding)
    (hprimary : spec.columns.filter ColumnSpec.primaryKey = [column])
    (hunique : ∀ other ∈ spec.columns, other.unique = false) (hkind : clause.kind = .primary)
    (hcolumns : clause.columns = [{ column := column.name }]) :
    columned schemaName spec encoding =
      columned schemaName (spec.withPrimaryClause clause) encoding >>= fun table =>
        addKey table clause := by
  obtain ⟨before, after, hsplit, hbefore, hdeclares, hafter⟩ :=
    List.filter_eq_cons_iff.1 hprimary
  have hnone : ∀ other ∈ before ++ after, other.primaryKey = false := by
    intro other hother
    rw [List.filter_eq_nil_iff] at hafter
    rcases List.mem_append.1 hother with hother | hother
    · exact Bool.not_eq_true _ ▸ hbefore other hother
    · exact Bool.not_eq_true _ ▸ hafter other hother
  have hplain : ∀ other ∈ before ++ after, other.primaryKey = false ∧ other.unique = false :=
    fun other hother => by
      refine ⟨hnone other hother, hunique other ?_⟩
      rw [hsplit, List.mem_append, List.mem_cons]
      exact (List.mem_append.1 hother).imp_right .inr
  obtain ⟨hplainBefore, hplainAfter⟩ := List.forall_mem_append.1 hplain
  have hsame := map_withoutPrimary_eq_self hnone
  rw [List.map_append] at hsame
  have hmoved : (spec.withPrimaryClause clause).columns =
      before ++ column.withoutPrimary :: after := by
    obtain ⟨hsameBefore, hsameAfter⟩ := List.append_inj hsame (List.length_map _)
    rw [TableSpec.withPrimaryClause, hsplit, List.map_append, List.map_cons, hsameBefore,
      hsameAfter]
  rw [columned, columned, hsplit, hmoved, List.foldlM_append, List.foldlM_append]
  change _ = (before.foldlM (addDeclaredColumn encoding) ({
    name := spec.name.name, schemaName, info := tableInfo spec encoding } : Table) >>= _) >>= _
  cases hfold : before.foldlM (addDeclaredColumn encoding) ({
      name := spec.name.name, schemaName, info := tableInfo spec encoding } : Table) with
  | error error => rfl
  | ok table =>
      exact foldlM_cons_of_primary (indexes_foldlM hplainBefore hfold) hdeclares
        (hunique column (by simp [hsplit])) hplainAfter hkind hcolumns

/-- A definition with one primary key that a column declares, and no unique columns, makes the same
table as the definition with a clause for this key in front of its keys, or fails with the same
error. -/
theorem table_withPrimaryClause (schemaName : String) {spec : TableSpec} {column : ColumnSpec}
    {clause : KeyClause} (hprimary : spec.columns.filter ColumnSpec.primaryKey = [column])
    (hunique : ∀ other ∈ spec.columns, other.unique = false) (hkind : clause.kind = .primary)
    (hcolumns : clause.columns = [{ column := column.name }]) :
    Definition.table schemaName (spec.withPrimaryClause clause) =
      Definition.table schemaName spec := by
  rw [table_eq, table_eq]
  have hoptions : encodingOfOptions (spec.withPrimaryClause clause) = encodingOfOptions spec := rfl
  rw [hoptions]
  refine congrArg _ (funext fun encoding => ?_)
  rw [columned_withPrimaryClause schemaName encoding hprimary hunique hkind hcolumns]
  cases columned schemaName (spec.withPrimaryClause clause) encoding with
  | error error => rfl
  | ok table =>
      change (addKey table clause >>= _).map startCounter = addKey table clause >>= _
      cases addKey table clause <;> rfl

/-- A primary key in the middle, whose column would accept nulls and leads a unique index too. -/
theorem table_withPrimaryClause_of_nullable_column :
    let spec : TableSpec := {
      name := { name := "t" }
      columns := [
        { name := "a", type := { name := "int" } },
        { name := "b", type := { name := "int" }, nullable := some true, primaryKey := true },
        { name := "c", type := { name := "int" } }]
      keys := [{ kind := .unique, columns := [{ column := "B" }, { column := "c" }] }] }
    Definition.table "s"
        (spec.withPrimaryClause { kind := .primary, columns := [{ column := "b" }] }) =
      Definition.table "s" spec ∧
      (Definition.table "s" spec).map (fun table => table.columns.map fun column =>
        (column.info.isNullable, column.info.columnKey)) =
        .ok [(true, .none), (false, .primary), (true, .none)] := by
  intro spec
  have hprimary : spec.columns.filter ColumnSpec.primaryKey = [
      { name := "b", type := { name := "int" }, nullable := some true, primaryKey := true }] := by
    decide
  exact ⟨table_withPrimaryClause "s" hprimary (by decide) rfl rfl, by decide +kernel⟩

end Definition
end SchemaLint
