import SchemaLint.Proofs.Session.PrimaryKey
import SchemaLint.Proofs.Snapshot.Reload

/-!
# Key rules of loaded tables

The tables that a run builds have indexes over their own columns, a primary key that is unique,
and marks on the columns of the primary key and no others (`Session.keyRules_of_start`).  Loading
checks the first of these rules for the primary key and nothing else of them, so a loaded table
keeps the rules exactly when its text did for what is left (`Snapshot.keyRules_iff`).
-/

namespace SchemaLint

open Sql
open Text (lower)

namespace Table

/-- The rules about the keys of a table, with the names of columns read up to the case of ASCII
letters. -/
structure KeyRules (table : Table) : Prop where
  covered : ∀ index ∈ table.indexes, ∀ name ∈ index.columnNames,
    (table.column? name).isSome = true
  unique : ∀ index ∈ table.indexes, index.isPrimary = true → index.unique = true
  marked_iff : ∀ column ∈ table.columns, column.isPrimary = true ↔
    ∃ index ∈ table.indexes, index.isPrimary = true ∧ index.containsColumn column.name = true

instance (table : Table) : Decidable table.KeyRules :=
  decidable_of_iff
    ((∀ index ∈ table.indexes, ∀ name ∈ index.columnNames,
        (table.column? name).isSome = true) ∧
      (∀ index ∈ table.indexes, index.isPrimary = true → index.unique = true) ∧
      ∀ column ∈ table.columns, column.isPrimary = true ↔
        ∃ index ∈ table.indexes, index.isPrimary = true ∧
          index.containsColumn column.name = true)
    ⟨fun h => ⟨h.1, h.2.1, h.2.2⟩, fun h => ⟨h.covered, h.unique, h.marked_iff⟩⟩

variable {table : Table} {index : Index}

/-! ### The primary key of a table whose indexes have distinct names -/

section Distinct

variable (hnodup : (table.indexes.map fun index => lower index.name).Nodup)

include hnodup

/-- A search for the name of primary keys that finds a primary key finds the one there is. -/
theorem find?_eq_some_of_isPrimary {p : Index → Bool} (hindex : index ∈ table.indexes)
    (hprimary : index.isPrimary = true) (hp : p index = true)
    (hname : ∀ other, p other = true → lower other.name = lower Index.primaryName) :
    table.indexes.find? p = some index := by
  have hsame : index.name = Index.primaryName := by simpa [Index.isPrimary] using hprimary
  obtain ⟨found, hfound⟩ := Option.isSome_iff_exists.1 (List.find?_isSome.2 ⟨index, hindex, hp⟩)
  have hlower : lower found.name = lower index.name := by
    rw [hname found (List.find?_some hfound), hsame]
  rw [hfound, List.inj_on_of_nodup_map hnodup (List.mem_of_find?_eq_some hfound) hindex hlower]

theorem primaryKey?_eq_some_iff :
    table.primaryKey? = some index ↔ index ∈ table.indexes ∧ index.isPrimary = true := by
  constructor
  · exact fun h => ⟨List.mem_of_find?_eq_some h, List.find?_some h⟩
  · rintro ⟨hindex, hprimary⟩
    refine find?_eq_some_of_isPrimary hnodup hindex hprimary hprimary fun other hother => ?_
    have hname : other.name = Index.primaryName := by simpa [Index.isPrimary] using hother
    rw [hname]

theorem any_primaryKey?_iff (p : Index → Bool) : table.primaryKey?.any p = true ↔
    ∃ index ∈ table.indexes, index.isPrimary = true ∧ p index = true := by
  rw [Option.any_eq_true]
  simp only [primaryKey?_eq_some_iff hnodup, and_assoc]

/-- The primary key is also what is found under its name in small or capital letters. -/
theorem index?_primaryName (hindex : index ∈ table.indexes) (hprimary : index.isPrimary = true) :
    table.index? Index.primaryName = some index := by
  have hname : index.name = Index.primaryName := by simpa [Index.isPrimary] using hprimary
  refine find?_eq_some_of_isPrimary hnodup hindex hprimary ?_ fun other => Text.sameLetters_iff.1
  rw [Index.hasName, Text.sameLetters_iff, hname]

end Distinct

/-! ### The rules in a table that was built -/

theorem containsColumn_iff {name : String} : index.containsColumn name = true ↔
    ∃ part ∈ index.columnNames, lower part = lower name := by
  simp [Index.containsColumn, Index.columnNames, Text.sameLetters_iff]

/-- Where parts spell columns exactly, it makes no difference that the rules are about names up to
case. -/
theorem PrimaryKeyConsistent.keyRules (h : table.PrimaryKeyConsistent) (hwf : table.WellFormed) :
    table.KeyRules := by
  refine ⟨fun index hindex name hname => ?_, h.unique, fun column hcolumn => ?_⟩
  · obtain ⟨column, hcolumn, rfl⟩ := List.mem_map.1 (hwf.covered index hindex name hname)
    rw [Option.isSome_iff_ne_none]
    exact fun hnone => column?_eq_none_iff.1 hnone column hcolumn rfl
  · rw [h.marked_iff column hcolumn]
    refine exists_congr fun index => and_congr_right fun hindex => and_congr_right fun _ => ?_
    rw [containsColumn_iff]
    constructor
    · exact fun hname => ⟨column.name, hname, rfl⟩
    · rintro ⟨name, hname, hsame⟩
      obtain ⟨other, hother, rfl⟩ := List.mem_map.1 (hwf.covered index hindex name hname)
      rwa [List.inj_on_of_nodup_map hwf.columns_nodup hother hcolumn hsame] at hname

end Table

/-- After every run from a catalog without schemas, the tables keep the rules, if no key that is
not primary asks for the name of a primary key. -/
theorem Session.keyRules_of_start {catalog : Catalog} (h : catalog.schemas = [])
    {statements : List Statement}
    (hnames : ∀ statement ∈ statements, Index.primaryName ∉ statement.secondaryNames) :
    ∀ table ∈ ((start catalog).applyEach statements).catalog.tables, table.KeyRules := by
  intro table htable
  have hmarks := (tableInvariant_marks (· ≠ Index.primaryName)
    fun base n _ => numbered_ne_primaryName base n).applyEach statements
    (fun statement hstatement name hname heq => hnames statement hstatement (heq ▸ hname))
    (start catalog) (by simp [start, Catalog.tables, h]) table htable
  exact (hmarks.2.resolve_right fun hbad => hbad.1 rfl).keyRules hmarks.1

namespace Snapshot

variable {parse : Digest.StatementParser} {table : Table}

/-- A table that passes the checks has all columns of its primary key. -/
theorem column?_isSome_of_checkTable (h : checkTable table = .ok ()) {index : Index}
    (hindex : index ∈ table.indexes) (hprimary : index.isPrimary = true) :
    ∀ name ∈ index.columnNames, (table.column? name).isSome = true := by
  obtain ⟨-, hnodup, hmissing⟩ := checkTable_eq_ok.1 h
  rw [missingKeyColumn?, Table.index?_primaryName hnodup hindex hprimary, Option.bind_some,
    List.find?_eq_none] at hmissing
  intro name hname
  simpa [Option.isSome_iff_ne_none] using hmissing name hname

theorem checkTable_of_load {text : String} {snapshot : Snapshot}
    (h : load parse text = .ok snapshot) (htable : table ∈ snapshot.catalog.tables) :
    checkTable table = .ok () := by
  obtain ⟨_, _, -, hprepare⟩ := exists_of_load h
  exact (checkCatalog_eq_ok.1 (ready_of_prepare hprepare).checked).2.2 table htable

/-- A loaded table keeps the rules exactly when its secondary indexes are over columns that it has,
its primary key is unique, and the columns that are marked are those of the primary key. -/
theorem keyRules_iff {text : String} {snapshot : Snapshot} (h : load parse text = .ok snapshot)
    (htable : table ∈ snapshot.catalog.tables) : table.KeyRules ↔
      (∀ index ∈ table.secondaryIndexes, ∀ name ∈ index.columnNames,
        (table.column? name).isSome = true) ∧
      (∀ primary ∈ table.primaryKey?, primary.unique = true) ∧
      table.primaryKeyColumns = table.columns.filter fun column =>
        table.primaryKey?.any (·.containsColumn column.name) := by
  have hchecked := checkTable_of_load h htable
  have hnodup := (checkTable_eq_ok.1 hchecked).2.1
  constructor
  · rintro ⟨hcovered, hunique, hmarked⟩
    refine ⟨fun index hindex => hcovered index (List.mem_of_mem_filter hindex), ?_, ?_⟩
    · intro primary hprimary
      obtain ⟨hindex, hname⟩ := (Table.primaryKey?_eq_some_iff hnodup).1 hprimary
      exact hunique primary hindex hname
    · refine List.filter_congr fun column hcolumn => ?_
      rw [Bool.eq_iff_iff, hmarked column hcolumn, Table.any_primaryKey?_iff hnodup]
  · rintro ⟨hsecondary, hunique, hcolumns⟩
    refine ⟨fun index hindex => ?_, fun index hindex hprimary => ?_, fun column hcolumn => ?_⟩
    -- the loader has looked at the columns of the primary key only
    · by_cases hprimary : index.isPrimary = true
      · exact column?_isSome_of_checkTable hchecked hindex hprimary
      · exact hsecondary index (List.mem_filter.2 ⟨hindex, by simpa using hprimary⟩)
    · exact hunique index ((Table.primaryKey?_eq_some_iff hnodup).2 ⟨hindex, hprimary⟩)
    · have hmem : column ∈ table.columns.filter Column.isPrimary ↔
          column ∈ table.columns.filter fun column =>
            table.primaryKey?.any (·.containsColumn column.name) :=
        Iff.of_eq (congrArg (column ∈ ·) hcolumns)
      rwa [List.mem_filter, List.mem_filter, and_iff_right hcolumn, and_iff_right hcolumn,
        Table.any_primaryKey?_iff hnodup] at hmem

/-- A primary key that spells its column in capital letters. -/
theorem keyRules_of_capitals :
    let text := "\x7b\"database\":\x7b\"schemas\":[\x7b\"name\":\"s\",\"tables\":[" ++
      "\x7b\"name\":\"t\",\"columns\":[\x7b\"name\":\"a\",\"info\":\x7b\"column_key\":\"PRI\"\x7d\x7d]," ++
      "\"indexes\":[\x7b\"name\":\"PRIMARY\",\"unique\":true," ++
      "\"statistics\":[\x7b\"column_name\":\"A\",\"seq_in_index\":1\x7d]\x7d]\x7d]\x7d]\x7d\x7d"
    let table : Table := {
      name := "t"
      schemaName := "s"
      columns := [{
        name := "a"
        tableName := "t"
        schemaName := "s"
        info := { columnKey := .primary } }]
      indexes := [{
        name := "PRIMARY"
        tableName := "t"
        schemaName := "s"
        unique := true
        parts := [{ columnName := "A", position := 1 }] }]
      facts := { redundantIndexes := some [] } }
    load Digest.parse? text =
        .ok { catalog := { schemas := [{ name := "s", tables := [table] }] } } ∧
      table.KeyRules := by
  intro text table
  have hload : load Digest.parse? text =
      .ok { catalog := { schemas := [{ name := "s", tables := [table] }] } } := by
    decide +kernel
  exact ⟨hload, (keyRules_iff hload List.mem_cons_self).2 ⟨by decide, by decide, by decide⟩⟩

/-- An index over a column that the table does not have is loaded, unless it is the primary key. -/
theorem not_keyRules_of_dangling_index :
    let text := "\x7b\"database\":\x7b\"schemas\":[\x7b\"name\":\"s\",\"tables\":[" ++
      "\x7b\"name\":\"t\",\"columns\":[\x7b\"name\":\"a\"\x7d],\"indexes\":[\x7b\"name\":\"i\",\"unique\":false," ++
      "\"statistics\":[\x7b\"column_name\":\"b\",\"seq_in_index\":1\x7d]\x7d]\x7d]\x7d]\x7d\x7d"
    ¬ ∀ snapshot, load Digest.parse? text = .ok snapshot →
      ∀ table ∈ snapshot.catalog.tables, table.KeyRules := by
  intro text hrules
  let table : Table := {
    name := "t"
    schemaName := "s"
    columns := [{ name := "a", tableName := "t", schemaName := "s" }]
    indexes := [{
      name := "i"
      tableName := "t"
      schemaName := "s"
      unique := false
      parts := [{ columnName := "b", position := 1 }] }]
    facts := { redundantIndexes := some [] } }
  have hload : load Digest.parse? text =
      .ok { catalog := { schemas := [{ name := "s", tables := [table] }] } } := by
    decide +kernel
  exact absurd (hrules _ hload table List.mem_cons_self) (by decide)

end Snapshot
end SchemaLint
