import SchemaLint.Proofs.Definition.Key
import SchemaLint.Proofs.Metadata.ColumnType
import SchemaLint.Rule.Column

/-!
# Type names that are stored

The sizes of columns and one of the rules compare the stored name of a type with a literal, where
everything else looks up its one name.  The two agree because columns are built with the one name
of their type, however it is written in the definition, and nothing changes it afterwards.

* `Column.ReadsLiterally` - what is read off the stored name is what the metadata say.
* `tableInvariant_typesNamedOnce` - tables store the one names of types at any time.
-/

namespace SchemaLint

open Sql

namespace Column

/-- The column with the one name of its type in place of the stored one. -/
def underOneName (column : Column) : Column :=
  { column with
    info := { column.info with dataType := ColumnType.canonical column.info.dataType } }

/-- The length that the size of a column goes by, for the type that is looked up. -/
def lengthOfType (column : Column) : Option UInt64 :=
  let type := ColumnType.canonical column.info.dataType
  if type = "enum" ∨ type = "set" then some (UInt64.ofNat column.members.length)
  else column.declaredLength

/-- The stored name of the type is its one name, and whoever compares it with a literal finds the
type that is looked up. -/
structure ReadsLiterally (column : Column) : Prop where
  canonical_eq : ColumnType.canonical column.info.dataType = column.info.dataType
  eq_iff : ∀ name, ColumnType.canonical name = name →
    (column.info.dataType = name ↔ ColumnType.canonical column.info.dataType = name)
  storageSize_eq : column.storageSize =
    Storage.size (ColumnType.canonical column.info.dataType) column.lengthOfType
      column.info.numericScale
  answer_eq : ∀ table, Rule.uuidStorage.answer (.column table column) =
    Rule.uuidStorage.answer (.column table column.underOneName)

theorem readsLiterally_of_canonical_eq {column : Column}
    (h : ColumnType.canonical column.info.dataType = column.info.dataType) :
    column.ReadsLiterally where
  canonical_eq := h
  eq_iff := fun name _ => by rw [h]
  storageSize_eq := by
    simp only [lengthOfType, h]
    rfl
  answer_eq := fun table => by rw [underOneName, h]

end Column

/-- Every column has the one name of its type. -/
def Table.TypesNamedOnce (table : Table) : Prop :=
  ∀ name ∈ table.columns.map (·.info.dataType), ColumnType.canonical name = name

theorem Table.TypesNamedOnce.congr {table other : Table} (h : table.TypesNamedOnce)
    (hsame : other.columns.map (·.info.dataType) = table.columns.map (·.info.dataType)) :
    other.TypesNamedOnce := by
  rwa [TypesNamedOnce, hsame]

namespace Definition

theorem withLength_dataType {class? : Option TypeClass} {type : TypeSpec}
    {info info' : ColumnInfo} (h : withLength class? type info = .ok info') :
    info'.dataType = info.dataType := by
  unfold withLength at h
  split at h <;> cases h <;> rfl

theorem withEncoding_dataType {class? : Option TypeClass} {spec : ColumnSpec}
    {inherited : Encoding} {info info' : ColumnInfo}
    (h : withEncoding class? spec inherited info = .ok info') :
    info'.dataType = info.dataType := by
  unfold withEncoding at h
  split at h
  · obtain ⟨encoding, -, rfl⟩ := map_eq_ok.1 h
    rfl
  · cases h
    rfl

/-- A column is stored under the one name of the type in its definition. -/
theorem dataType_of_column {spec : ColumnSpec} {ordinal : UInt32} {inherited : Encoding}
    {column : Column} (h : Definition.column spec ordinal inherited = .ok column) :
    column.info.dataType = ColumnType.canonical spec.type.name := by
  obtain ⟨info, hinfo, rfl⟩ := map_eq_ok.1 h
  rw [columnInfo_eq] at hinfo
  obtain ⟨encoded, hencoded, rfl⟩ := map_eq_ok.1 hinfo
  obtain ⟨sized, hsized, hencoded⟩ := bind_eq_ok.1 hencoded
  have hdraft : (draftInfo spec ordinal).dataType = ColumnType.canonical spec.type.name := by
    simp only [draftInfo]
  rw [← hdraft, ← withLength_dataType hsized, ← withEncoding_dataType hencoded]
  rfl

end Definition

/-- Columns come with the one names of their types, and keys leave the types alone. -/
theorem tableInvariant_typesNamedOnce :
    TableInvariant (fun _ => True) Table.TypesNamedOnce where
  numbered := fun _ _ _ => trivial
  start := fun _ _ _ _ _ hname => nomatch hname
  view := fun _ _ _ hname => nomatch hname
  addColumn := by
    intro encoding table spec result h hadd
    obtain ⟨-, column, hcolumn, rfl⟩ := Definition.addColumn_eq_ok.1 hadd
    intro name hname
    rw [Table.pushColumn, List.map_append, List.mem_append] at hname
    rcases hname with hname | hname
    · exact h name hname
    · rw [List.map_singleton, List.mem_singleton, Definition.dataType_of_column hcolumn] at hname
      rw [hname, ColumnType.canonical_canonical]
  addPrimaryKey := fun h hadd =>
    h.congr (Definition.map_columns_addPrimaryKey (fun _ => rfl) hadd)
  addSecondaryIndex := by
    intro table key result h _ hadd
    obtain ⟨-, columns, -, rfl⟩ := Definition.addSecondaryIndex_eq_ok.1 hadd
    exact h.congr (Definition.map_columns_markLeading (fun _ => rfl) table columns)
  startCounter := by
    intro table h
    rw [Definition.startCounter_eq]
    exact h
  relink := fun h schemaName => h.congr (by simp [Table.relink, Function.comp_def])

namespace Session

/-- A type name has one name, which is its own, and nothing that is looked up by a type name tells
the two apart.  From a catalog without schemas, columns are stored under these names after every
run, so what is read off the stored name of a type is what the metadata say of it. -/
theorem typesNamedOnce_of_start {catalog : Catalog} (h : catalog.schemas = [])
    (statements : List Statement) :
    (∀ name, ColumnType.canonical (ColumnType.canonical name) = ColumnType.canonical name ∧
      ColumnType.Alike name (ColumnType.canonical name)) ∧
    ∀ table ∈ ((start catalog).applyEach statements).catalog.tables,
      ∀ column ∈ table.columns, column.ReadsLiterally := by
  refine ⟨fun name => ⟨ColumnType.canonical_canonical name, ColumnType.alike_canonical name⟩, ?_⟩
  have hnone : ∀ table ∈ (start catalog).catalog.tables, table.TypesNamedOnce := by
    simp [start, Catalog.tables, h]
  intro table htable column hcolumn
  have hnamed : table.TypesNamedOnce :=
    tableInvariant_typesNamedOnce.applyEach statements (fun _ _ _ _ => trivial) _ hnone table htable
  exact Column.readsLiterally_of_canonical_eq (hnamed _ (List.mem_map_of_mem hcolumn))

/-- Whatever statement a column comes from, and in whatever spelling, its type has one name. -/
theorem typesNamedOnce_of_aliases :
    let column (name type : String) : ColumnSpec := { name, type := { name := type } }
    let table : ObjectName := { name := "t" }
    let statements : List Statement := [
      .createTable {
        name := table
        columns := [column "a" "ENUM", column "b" " national\t CHARACTER  varying"]
        keys := [{ kind := .primary, columns := [{ column := "a" }] }] },
      .alterTable table [.addColumn (column "c" "Dec"), .unsupported "DROP COLUMN a"]]
    ∃ table ∈ ((start {}).applyEach statements).catalog.tables,
      (∀ column ∈ table.columns, column.ReadsLiterally) ∧
        table.columns.map (·.info.dataType) = ["enum", "varchar", "decimal"] := by
  intro column table statements
  have hempty : ({} : Catalog).schemas = [] := rfl
  have hliteral := (typesNamedOnce_of_start hempty statements).2
  have hbuilt : ∃ table ∈ ((start {}).applyEach statements).catalog.tables,
      table.columns.map (·.info.dataType) = ["enum", "varchar", "decimal"] := by
    decide +kernel
  obtain ⟨table, htable, htypes⟩ := hbuilt
  exact ⟨table, htable, hliteral table htable, htypes⟩

end Session
end SchemaLint
