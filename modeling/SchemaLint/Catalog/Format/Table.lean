import SchemaLint.Catalog.Table
import SchemaLint.Json.Members

/-!
# Tables as JSON

Columns, indexes, facts and tables as JSON objects.  The members are written in a fixed order;
a member that may be missing is read as its default.
-/

namespace SchemaLint

open Json (Members record?)

namespace ColumnKey

/-- The JSON form of a key. -/
def toJson (key : ColumnKey) : Json := .text key.label

/-- Reads the JSON form of a key. -/
def ofJson? (value : Json) : Option ColumnKey :=
  (Json.label? value).bind ofLabel?

end ColumnKey

namespace ColumnInfo

/-- The names of the members. -/
def fields : List String := [
  "ordinal_position", "column_default", "is_nullable", "data_type", "character_maximum_length",
  "character_octet_length", "numeric_precision", "numeric_scale", "datetime_precision",
  "character_set_name", "collation_name", "column_type", "column_key", "extra",
  "generation_expression", "column_comment"]

/-- The JSON form of what is shown of a column. -/
def toJson (info : ColumnInfo) : Json := .object [
  ("ordinal_position", Json.count info.ordinalPosition.toNat),
  ("column_default", Json.optional .text info.columnDefault),
  ("is_nullable", .boolean info.isNullable),
  ("data_type", .text info.dataType),
  ("character_maximum_length", Json.optional Json.natural info.characterMaximumLength),
  ("character_octet_length", Json.optional Json.natural info.characterOctetLength),
  ("numeric_precision", Json.optional Json.natural info.numericPrecision),
  ("numeric_scale", Json.optional Json.natural info.numericScale),
  ("datetime_precision", Json.optional Json.natural info.datetimePrecision),
  ("character_set_name", Json.optional .text info.characterSetName),
  ("collation_name", Json.optional .text info.collationName),
  ("column_type", .text info.columnType),
  ("column_key", info.columnKey.toJson),
  ("extra", .text info.extra),
  ("generation_expression", .text info.generationExpression),
  ("column_comment", .text info.columnComment)]

/-- Reads the JSON form of what is shown of a column. -/
def ofJson? (value : Json) : Option ColumnInfo := do
  let members ← record? fields value
  return {
    ordinalPosition := ← members.orElse "ordinal_position" 0 Json.word32?
    columnDefault := ← members.orElse "column_default" none (Json.nullable? Json.text?)
    isNullable := ← members.orElse "is_nullable" false Json.boolean?
    dataType := ← members.orElse "data_type" "" Json.text?
    characterMaximumLength :=
      ← members.orElse "character_maximum_length" none (Json.nullable? Json.word64?)
    characterOctetLength :=
      ← members.orElse "character_octet_length" none (Json.nullable? Json.word64?)
    numericPrecision := ← members.orElse "numeric_precision" none (Json.nullable? Json.word64?)
    numericScale := ← members.orElse "numeric_scale" none (Json.nullable? Json.word64?)
    datetimePrecision := ← members.orElse "datetime_precision" none (Json.nullable? Json.word64?)
    characterSetName := ← members.orElse "character_set_name" none (Json.nullable? Json.text?)
    collationName := ← members.orElse "collation_name" none (Json.nullable? Json.text?)
    columnType := ← members.orElse "column_type" "" Json.text?
    columnKey := ← members.orElse "column_key" .none ColumnKey.ofJson?
    extra := ← members.orElse "extra" "" Json.text?
    generationExpression := ← members.orElse "generation_expression" "" Json.text?
    columnComment := ← members.orElse "column_comment" "" Json.text? }

end ColumnInfo

namespace Column

/-- The names of the members. -/
def fields : List String :=
  ["name", "table_name", "schema_name", "info", "members", "cardinality"]

/-- The JSON form of a column; members are written only if there are any. -/
def toJson (column : Column) : Json :=
  .object ([
    ("name", .text column.name),
    ("table_name", .text column.tableName),
    ("schema_name", .text column.schemaName),
    ("info", column.info.toJson)] ++
    (if column.members.isEmpty then [] else [("members", Json.texts column.members)]) ++
    [("cardinality", Json.natural column.cardinality)])

/-- Reads the JSON form of a column. -/
def ofJson? (value : Json) : Option Column := do
  let members ← record? fields value
  return {
    name := ← members.required "name" Json.text?
    tableName := ← members.orElse "table_name" "" Json.text?
    schemaName := ← members.orElse "schema_name" "" Json.text?
    info := ← members.orElse "info" {} ColumnInfo.ofJson?
    members := ← members.orElse "members" [] (Json.list? Json.text?)
    cardinality := ← members.orElse "cardinality" 0 Json.word64? }

end Column

namespace IndexPart

/-- The names of the members. -/
def fields : List String := ["column_name", "seq_in_index", "sub_part"]

/-- The JSON form of a column of an index. -/
def toJson (part : IndexPart) : Json := .object [
  ("column_name", .text part.columnName),
  ("seq_in_index", Json.count part.position.toNat),
  ("sub_part", Json.optional Json.natural part.length)]

/-- Reads the JSON form of a column of an index. -/
def ofJson? (value : Json) : Option IndexPart := do
  let members ← record? fields value
  return {
    columnName := ← members.required "column_name" Json.text?
    position := ← members.required "seq_in_index" Json.word32?
    length := ← members.orElse "sub_part" none (Json.nullable? Json.word64?) }

end IndexPart

namespace Index

/-- The names of the members. -/
def fields : List String :=
  ["name", "table_name", "schema_name", "unique", "index_type", "statistics"]

/-- The JSON form of an index. -/
def toJson (index : Index) : Json := .object [
  ("name", .text index.name),
  ("table_name", .text index.tableName),
  ("schema_name", .text index.schemaName),
  ("unique", .boolean index.unique),
  ("index_type", .text index.indexType),
  ("statistics", .array (index.parts.map IndexPart.toJson))]

/-- Reads the JSON form of an index. -/
def ofJson? (value : Json) : Option Index := do
  let members ← record? fields value
  return {
    name := ← members.required "name" Json.text?
    tableName := ← members.orElse "table_name" "" Json.text?
    schemaName := ← members.orElse "schema_name" "" Json.text?
    unique := ← members.required "unique" Json.boolean?
    indexType := ← members.orElse "index_type" "BTREE" Json.text?
    parts := ← members.orElse "statistics" [] (Json.list? IndexPart.ofJson?) }

end Index

namespace TableInfo

/-- The names of the members. -/
def fields : List String := [
  "table_type", "engine", "row_format", "table_rows", "avg_row_length", "data_length",
  "index_length", "data_free", "auto_increment", "table_collation", "create_options",
  "table_comment"]

/-- The JSON form of what is shown of a table. -/
def toJson (info : TableInfo) : Json := .object [
  ("table_type", .text info.tableType),
  ("engine", Json.optional .text info.engine),
  ("row_format", Json.optional .text info.rowFormat),
  ("table_rows", Json.natural info.tableRows),
  ("avg_row_length", Json.natural info.avgRowLength),
  ("data_length", Json.natural info.dataLength),
  ("index_length", Json.natural info.indexLength),
  ("data_free", Json.natural info.dataFree),
  ("auto_increment", Json.optional Json.natural info.autoIncrement),
  ("table_collation", Json.optional .text info.tableCollation),
  ("create_options", .text info.createOptions),
  ("table_comment", .text info.tableComment)]

/-- Reads the JSON form of what is shown of a table. -/
def ofJson? (value : Json) : Option TableInfo := do
  let members ← record? fields value
  let missing : TableInfo := {}
  return {
    tableType := ← members.orElse "table_type" missing.tableType Json.text?
    engine := ← members.orElse "engine" missing.engine (Json.nullable? Json.text?)
    rowFormat := ← members.orElse "row_format" missing.rowFormat (Json.nullable? Json.text?)
    tableRows := ← members.orElse "table_rows" 0 Json.word64?
    avgRowLength := ← members.orElse "avg_row_length" 0 Json.word64?
    dataLength := ← members.orElse "data_length" 0 Json.word64?
    indexLength := ← members.orElse "index_length" 0 Json.word64?
    dataFree := ← members.orElse "data_free" 0 Json.word64?
    autoIncrement := ← members.orElse "auto_increment" none (Json.nullable? Json.word64?)
    tableCollation := ← members.orElse "table_collation" none (Json.nullable? Json.text?)
    createOptions := ← members.orElse "create_options" "" Json.text?
    tableComment := ← members.orElse "table_comment" "" Json.text? }

end TableInfo

namespace AutoIncrementUsage

/-- The names of the members. -/
def fields : List String :=
  ["column_name", "data_type", "unsigned", "max_value", "auto_increment"]

/-- The JSON form of a counter's usage. -/
def toJson (usage : AutoIncrementUsage) : Json := .object [
  ("column_name", .text usage.columnName),
  ("data_type", .text usage.dataType),
  ("unsigned", .boolean usage.unsigned),
  ("max_value", Json.natural usage.maxValue),
  ("auto_increment", Json.natural usage.autoIncrement)]

/-- Reads the JSON form of a counter's usage. -/
def ofJson? (value : Json) : Option AutoIncrementUsage := do
  let members ← record? fields value
  return {
    columnName := ← members.required "column_name" Json.text?
    dataType := ← members.required "data_type" Json.text?
    unsigned := ← members.required "unsigned" Json.boolean?
    maxValue := ← members.required "max_value" Json.word64?
    autoIncrement := ← members.required "auto_increment" Json.word64? }

end AutoIncrementUsage

namespace RedundantIndex

/-- The names of the members. -/
def fields : List String := [
  "redundant_index", "redundant_columns", "redundant_is_unique", "dominant_index",
  "dominant_columns"]

/-- The JSON form of a redundant index. -/
def toJson (redundant : RedundantIndex) : Json := .object [
  ("redundant_index", .text redundant.redundantIndex),
  ("redundant_columns", Json.texts redundant.redundantColumns),
  ("redundant_is_unique", .boolean redundant.redundantIsUnique),
  ("dominant_index", .text redundant.dominantIndex),
  ("dominant_columns", Json.texts redundant.dominantColumns)]

/-- Reads the JSON form of a redundant index. -/
def ofJson? (value : Json) : Option RedundantIndex := do
  let members ← record? fields value
  return {
    redundantIndex := ← members.required "redundant_index" Json.text?
    redundantColumns := ← members.required "redundant_columns" (Json.list? Json.text?)
    redundantIsUnique := ← members.required "redundant_is_unique" Json.boolean?
    dominantIndex := ← members.required "dominant_index" Json.text?
    dominantColumns := ← members.required "dominant_columns" (Json.list? Json.text?) }

end RedundantIndex

namespace AccessCounters

/-- The names of the members. -/
def fields : List String :=
  ["rows_fetched", "rows_inserted", "rows_updated", "rows_deleted", "full_scans"]

/-- The JSON form of access counters. -/
def toJson (access : AccessCounters) : Json := .object [
  ("rows_fetched", Json.natural access.rowsFetched),
  ("rows_inserted", Json.natural access.rowsInserted),
  ("rows_updated", Json.natural access.rowsUpdated),
  ("rows_deleted", Json.natural access.rowsDeleted),
  ("full_scans", Json.natural access.fullScans)]

/-- Reads the JSON form of access counters. -/
def ofJson? (value : Json) : Option AccessCounters := do
  let members ← record? fields value
  return {
    rowsFetched := ← members.orElse "rows_fetched" 0 Json.word64?
    rowsInserted := ← members.orElse "rows_inserted" 0 Json.word64?
    rowsUpdated := ← members.orElse "rows_updated" 0 Json.word64?
    rowsDeleted := ← members.orElse "rows_deleted" 0 Json.word64?
    fullScans := ← members.orElse "full_scans" 0 Json.word64? }

end AccessCounters

namespace TableFacts

/-- The names of the members. -/
def fields : List String := ["auto_increment", "redundant_indexes", "unused_indexes", "access"]

/-- The JSON form of a list of redundant indexes. -/
def redundantToJson (redundant : List RedundantIndex) : Json :=
  .array (redundant.map RedundantIndex.toJson)

/-- The JSON form of the facts about a table. -/
def toJson (facts : TableFacts) : Json := .object [
  ("auto_increment", Json.optional AutoIncrementUsage.toJson facts.autoIncrement),
  ("redundant_indexes", Json.optional redundantToJson facts.redundantIndexes),
  ("unused_indexes", Json.optional Json.texts facts.unusedIndexes),
  ("access", Json.optional AccessCounters.toJson facts.access)]

/-- Reads the JSON form of the facts about a table. -/
def ofJson? (value : Json) : Option TableFacts := do
  let members ← record? fields value
  return {
    autoIncrement :=
      ← members.orElse "auto_increment" none (Json.nullable? AutoIncrementUsage.ofJson?)
    redundantIndexes :=
      ← members.orElse "redundant_indexes" none
        (Json.nullable? (Json.list? RedundantIndex.ofJson?))
    unusedIndexes := ← members.orElse "unused_indexes" none (Json.nullable? (Json.list? Json.text?))
    access := ← members.orElse "access" none (Json.nullable? AccessCounters.ofJson?) }

end TableFacts

namespace Table

/-- The names of the members. -/
def fields : List String := ["name", "schema_name", "info", "columns", "indexes", "facts"]

/-- The JSON form of a table. -/
def toJson (table : Table) : Json := .object [
  ("name", .text table.name),
  ("schema_name", .text table.schemaName),
  ("info", table.info.toJson),
  ("columns", .array (table.columns.map Column.toJson)),
  ("indexes", .array (table.indexes.map Index.toJson)),
  ("facts", table.facts.toJson)]

/-- Reads the JSON form of a table. -/
def ofJson? (value : Json) : Option Table := do
  let members ← record? fields value
  return {
    name := ← members.required "name" Json.text?
    schemaName := ← members.orElse "schema_name" "" Json.text?
    info := ← members.orElse "info" {} TableInfo.ofJson?
    columns := ← members.orElse "columns" [] (Json.list? Column.ofJson?)
    indexes := ← members.orElse "indexes" [] (Json.list? Index.ofJson?)
    facts := ← members.orElse "facts" {} TableFacts.ofJson? }

end Table
end SchemaLint
