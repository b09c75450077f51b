import SchemaLint.Catalog.Column
import SchemaLint.Catalog.Index

/-!
# Tables

A table with its columns and indexes in order, and the facts about it that are not part of its
definition.  A fact that is absent was never gathered, which differs from an empty one.
-/

namespace SchemaLint

/-- What the information schema shows of a table. -/
structure TableInfo where
  tableType : String := "BASE TABLE"
  engine : Option String := some "InnoDB"
  rowFormat : Option String := some "Dynamic"
  tableRows : UInt64 := 0
  avgRowLength : UInt64 := 0
  dataLength : UInt64 := 0
  indexLength : UInt64 := 0
  dataFree : UInt64 := 0
  autoIncrement : Option UInt64 := none
  tableCollation : Option String := none
  createOptions : String := ""
  tableComment : String := ""
deriving DecidableEq

/-- How far the counter of a table has used up the range of its column. -/
structure AutoIncrementUsage where
  columnName : String
  dataType : String
  unsigned : Bool
  maxValue : UInt64
  /-- The value that the counter hands out next. -/
  autoIncrement : UInt64
deriving DecidableEq

namespace AutoIncrementUsage

/-- The number of values handed out. -/
def used (usage : AutoIncrementUsage) : UInt64 :=
  if usage.autoIncrement = 0 then 0 else usage.autoIncrement - 1

/-- The share of the range handed out, in percent. -/
def percent (usage : AutoIncrementUsage) : Float :=
  if usage.maxValue = 0 then 100.0
  else usage.used.toFloat / usage.maxValue.toFloat * 100.0

end AutoIncrementUsage

/-- An index that another index makes unnecessary. -/
structure RedundantIndex where
  redundantIndex : String
  redundantColumns : List String
  redundantIsUnique : Bool
  dominantIndex : String
  dominantColumns : List String
deriving DecidableEq

/-- Counters of the rows that were accessed. -/
structure AccessCounters where
  rowsFetched : UInt64 := 0
  rowsInserted : UInt64 := 0
  rowsUpdated : UInt64 := 0
  rowsDeleted : UInt64 := 0
  fullScans : UInt64 := 0
deriving DecidableEq

/-- Facts about a table that are attached to it after it has been built. -/
structure TableFacts where
  autoIncrement : Option AutoIncrementUsage := none
  redundantIndexes : Option (List RedundantIndex) := none
  unusedIndexes : Option (List String) := none
  access : Option AccessCounters := none
deriving DecidableEq

/-- A table.  The name of its schema is repeated in it. -/
structure Table where
  name : String
  schemaName : String := ""
  info : TableInfo := {}
  columns : List Column := []
  indexes : List Index := []
  facts : TableFacts := {}
deriving DecidableEq

namespace Table

/-- The name with that of its schema. -/
def qualifiedName (table : Table) : String :=
  table.schemaName ++ "." ++ table.name

/-- The first column of this name, up to the case of ASCII letters. -/
def column? (table : Table) (name : String) : Option Column :=
  table.columns.find? (Column.hasName name)

/-- The first index of this name, up to the case of ASCII letters. -/
def index? (table : Table) (name : String) : Option Index :=
  table.indexes.find? (Index.hasName name)

/-- The ordinal position that the next column gets. -/
def nextOrdinal (table : Table) : UInt32 :=
  UInt32.ofNat table.columns.length + 1

/-- The table with one more column. -/
def pushColumn (table : Table) (column : Column) : Table :=
  { table with
    columns := table.columns ++
      [{ column with tableName := table.name, schemaName := table.schemaName }] }

/-- The table with one more index. -/
def pushIndex (table : Table) (index : Index) : Table :=
  { table with
    indexes := table.indexes ++
      [{ index with tableName := table.name, schemaName := table.schemaName }] }

/-- The list with the first element that satisfies `p` replaced by its image. -/
def modifyFirst {α : Type} (p : α → Bool) (f : α → α) : List α → List α
  | [] => []
  | x :: xs => if p x then f x :: xs else x :: modifyFirst p f xs

/-- The table with the first column of this name changed. -/
def modifyColumn (table : Table) (name : String) (f : Column → Column) : Table :=
  { table with columns := modifyFirst (Column.hasName name) f table.columns }

/-- The primary key. -/
def primaryKey? (table : Table) : Option Index :=
  table.indexes.find? Index.isPrimary

/-- The columns of the primary key, in the order of the table. -/
def primaryKeyColumns (table : Table) : List Column :=
  table.columns.filter Column.isPrimary

/-- All indexes but the primary key. -/
def secondaryIndexes (table : Table) : List Index :=
  table.indexes.filter (!·.isPrimary)

/-- The first column that counts up by itself. -/
def autoIncrementColumn? (table : Table) : Option Column :=
  table.columns.find? Column.isAutoIncrement

/-- Whether the table holds rows of its own. -/
def isBaseTable (table : Table) : Bool :=
  Text.sameLetters table.info.tableType "BASE TABLE"

/-- Whether the table is a view, which has no storage. -/
def isVirtual (table : Table) : Bool :=
  Text.sameLetters table.info.tableType "VIEW"

/-- Whether the storage engine is InnoDB. -/
def isInnoDB (table : Table) : Bool :=
  table.info.engine.any fun engine => Text.sameLetters engine "InnoDB"

/-- The table with its names repeated in its columns and indexes. -/
def relink (table : Table) : Table :=
  { table with
    columns := table.columns.map fun column =>
      { column with tableName := table.name, schemaName := table.schemaName }
    indexes := table.indexes.map fun index =>
      { index with tableName := table.name, schemaName := table.schemaName } }

end Table
end SchemaLint
