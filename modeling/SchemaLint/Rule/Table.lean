import SchemaLint.Number.Fixed
import SchemaLint.Rule.Basic

/-!
# Rules about tables

Tables without a primary key or with a costly one, counters that run out, indexes that are not
needed, empty tables, and tables in an old encoding.
-/

namespace SchemaLint
namespace Rule

/-- A table of rows without a primary key is critical. -/
def primaryKey : Rule :=
  onTable "primary_key" Table.isBaseTable fun table =>
    let columns := table.primaryKeyColumns.map Column.name
    .ok (some (
      if columns.isEmpty then
        .saying .critical ("Table " ++ table.qualifiedName ++ " has no primary key")
      else
        ({} : Verdict).datum "columns" (Json.texts columns)))

/-- The shares of a range from which on its use is worth a warning or critical, in percent. -/
def warningPercent : Float := 60.0
def criticalPercent : Float := 80.0

/-- Ranges up to this size are expected to fill up, and never critical. -/
def smallRange : UInt64 := 1024

/-- How bad the use of a range is. -/
def usageSeverity (usage : AutoIncrementUsage) : Severity :=
  let severity : Severity :=
    if usage.percent ≥ criticalPercent then .critical
    else if usage.percent ≥ warningPercent then .warning
    else .ok
  if usage.maxValue ≤ smallRange then severity.better .warning else severity

/-- What is said of the use of a range. -/
def usageMessage (table : Table) (usage : AutoIncrementUsage) : String :=
  table.qualifiedName ++ "." ++ usage.columnName ++ " (" ++ usage.dataType ++ ") has used " ++
    Fixed.text 2 usage.percent ++ "% of its range (" ++ Decimal.text64 usage.used ++ " of " ++
    Decimal.text64 usage.maxValue ++ ")"

/-- How much of the range of an integer counter is used up. -/
def autoIncrementCapacity : Rule :=
  onTable "auto_increment_capacity" (fun table => table.autoIncrementColumn?.any Column.isInteger)
    fun table =>
      match table.facts.autoIncrement with
      | none =>
          .error (.unavailable "auto_increment_capacity" table.qualifiedName "auto_increment usage")
      | some usage =>
          let severity := usageSeverity usage
          let verdict : Verdict :=
            if severity = .ok then {} else .saying severity (usageMessage table usage)
          .ok (some ((((verdict.datum "column" (.text usage.columnName)).datum
            "used" (Json.natural usage.used)).datum
            "max_value" (Json.natural usage.maxValue)).datum
            "percent" (Json.fraction usage.percent)))

/-- What is said of an index that another one makes unnecessary. -/
def redundancyMessage (redundant : RedundantIndex) : String :=
  (if redundant.redundantIsUnique then "Unique index " else "Index ") ++
    redundant.redundantIndex ++ " (" ++ Text.join ", " redundant.redundantColumns ++
    ") is redundant with " ++ redundant.dominantIndex ++ " (" ++
    Text.join ", " redundant.dominantColumns ++ ")"

/-- A concern if the facts name an index that is not needed or not used. -/
def redundantIndexes : Rule :=
  onTable "redundant_indexes" Table.isBaseTable fun table =>
    let redundant := (table.facts.redundantIndexes.getD []).map redundancyMessage
    let unused := (table.facts.unusedIndexes.getD []).map fun index =>
      "Index " ++ index ++ " is never used"
    let messages := redundant ++ unused
    .ok (some { severity := if messages.isEmpty then .ok else .concern, messages })

/-- A sum with the size of one more column. -/
def addSize (total : UInt64) (column : Column) : Except StorageError UInt64 := do
  (Word.plus total (← column.totalSize)).mapError .overflow

/-- The sum of the sizes of columns. -/
def totalSize (columns : List Column) : Except StorageError UInt64 :=
  columns.foldlM addSize 0

/-- Primary keys up to this many bytes are always fine. -/
def narrowKeyBytes : UInt64 := 8

/-- The size of a key that could stand in for a wide one. -/
def surrogateKeyBytes : UInt64 := 4

/-- The bytes that a primary key takes in its index and in every other one. -/
def keyCost (size count : UInt64) : Except Overflow UInt64 := do
  Word.plus size (← Word.times count size)

/-- The bytes that a surrogate key would take: in its own index, in a unique one for the old key,
and in every other one. -/
def surrogateCost (size count : UInt64) : Except Overflow UInt64 := do
  let own ← Word.plus surrogateKeyBytes (← Word.plus size surrogateKeyBytes)
  Word.plus own (← Word.times count surrogateKeyBytes)

/-- What is said of a wide primary key. -/
def wideKeyMessage (table : Table) (size count current surrogate : UInt64) : String :=
  "Primary key of " ++ table.qualifiedName ++ " is " ++ Decimal.text64 size ++
    " bytes and is copied into " ++ Decimal.text64 count ++
    " secondary index(es); a surrogate key would cost " ++
    Decimal.text64 surrogate ++ " bytes per row instead of " ++ Decimal.text64 current

/-- What is said of a primary key that is wide or copied often, at its cost and at that of a
surrogate key. -/
def costVerdict (table : Table) (size count current surrogate : UInt64) : Verdict :=
  let verdict : Verdict :=
    if surrogate < current then
      .saying .warning (wideKeyMessage table size count current surrogate)
    else
      {}
  (verdict.datum "current_cost" (Json.natural current)).datum
    "surrogate_cost" (Json.natural surrogate)

/-- What is said of a primary key of some size beside a number of other indexes.  The costs are
only worked out if they matter. -/
def keyVerdict (table : Table) (size count : UInt64) : Except Overflow Verdict := do
  let verdict ←
    if size ≤ narrowKeyBytes || count = 0 then
      pure {}
    else
      let current ← keyCost size count
      let surrogate ← surrogateCost size count
      pure (costVerdict table size count current surrogate)
  return verdict.datum "pk_size" (Json.natural size)

/-- A warning for a primary key that costs more than a surrogate key would. -/
def saneInnoDBPrimaryKey : Rule :=
  onTable "sane_innodb_primary_key" (fun table => table.isInnoDB && table.primaryKey?.isSome)
    fun table => do
      let size ← (totalSize table.primaryKeyColumns).mapError .ofStorage
      let count ← (Word.count table.secondaryIndexes).mapError .overflow
      return some (← (keyVerdict table size count).mapError .overflow)

/-- Whether a table without rows has had some: it has free space, or its counter has moved. -/
def hadRows (info : TableInfo) : Bool :=
  0 < info.dataFree || info.autoIncrement.any (1 < ·)

/-- A warning for tables that never had a row; those that were emptied are mentioned. -/
def emptyTable : Rule :=
  onTable "empty_table" Table.isBaseTable fun table =>
    let verdict : Verdict :=
      if 0 < table.info.tableRows then {}
      else if hadRows table.info then
        .saying .info ("Table " ++ table.qualifiedName ++ " has been emptied")
      else
        .saying .warning ("Table " ++ table.qualifiedName ++ " is empty")
    .ok (some (verdict.datum "table_rows" (Json.natural table.info.tableRows)))

/-- A concern for tables whose collation does not cover all characters. -/
def tableEncoding : Rule :=
  onTable "table_encoding" (fun table => table.isBaseTable && table.info.tableCollation.isSome)
    fun table =>
      .ok (table.info.tableCollation.map fun collation =>
        let verdict : Verdict :=
          if "utf8mb4_".toList.isPrefixOf (Text.lower collation).toList then {}
          else .saying .concern ("Table " ++ table.qualifiedName ++ " defaults to " ++ collation ++
            "; utf8mb4 covers all of Unicode")
        verdict.datum "collation" (.text collation))

end Rule
end SchemaLint
