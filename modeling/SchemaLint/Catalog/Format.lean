import SchemaLint.Catalog.Basic
import SchemaLint.Catalog.Format.Table

/-!
# Catalogs as JSON

Accounts, queries, schemas and whole catalogs as JSON objects.  The statements of a query are
not written; they are read again from its digest.
-/

namespace SchemaLint

open Json (Members record?)

namespace Account

/-- The names of the members. -/
def fields : List String := [
  "user", "host", "database_name", "privileges", "has_password", "plugin", "locked",
  "password_expired", "max_connections", "current_connections", "total_connections"]

/-- The JSON form of an account. -/
def toJson (account : Account) : Json := .object [
  ("user", .text account.user),
  ("host", .text account.host),
  ("database_name", .text account.catalogName),
  ("privileges", Json.texts account.privileges.names),
  ("has_password", .boolean account.hasPassword),
  ("plugin", Json.optional .text account.plugin),
  ("locked", .boolean account.locked),
  ("password_expired", .boolean account.passwordExpired),
  ("max_connections", Json.natural account.maxConnections),
  ("current_connections", Json.natural account.currentConnections),
  ("total_connections", Json.natural account.totalConnections)]

/-- Reads the JSON form of an account. -/
def ofJson? (value : Json) : Option Account := do
  let members ← record? fields value
  return {
    user := ← members.required "user" Json.text?
    host := ← members.required "host" Json.text?
    catalogName := ← members.orElse "database_name" "" Json.text?
    privileges := ← members.orElse "privileges" NameMap.empty Json.names?
    hasPassword := ← members.orElse "has_password" false Json.boolean?
    plugin := ← members.orElse "plugin" none (Json.nullable? Json.text?)
    locked := ← members.orElse "locked" false Json.boolean?
    passwordExpired := ← members.orElse "password_expired" false Json.boolean?
    maxConnections := ← members.orElse "max_connections" 0 Json.word64?
    currentConnections := ← members.orElse "current_connections" 0 Json.word64?
    totalConnections := ← members.orElse "total_connections" 0 Json.word64? }

end Account

namespace TableReference

/-- The names of the members. -/
def fields : List String := ["schema", "table"]

/-- The JSON form of a reference. -/
def toJson (reference : TableReference) : Json := .object [
  ("schema", Json.optional .text reference.schema),
  ("table", .text reference.table)]

/-- Reads the JSON form of a reference. -/
def ofJson? (value : Json) : Option TableReference := do
  let members ← record? fields value
  return {
    schema := ← members.orElse "schema" none (Json.nullable? Json.text?)
    table := ← members.required "table" Json.text? }

end TableReference

namespace QueryCounters

/-- The names of the members. -/
def fields : List String := [
  "exec_count", "rows_examined", "rows_sent", "select_scan", "no_index_used",
  "no_good_index_used", "sort_scan", "created_tmp_tables", "created_tmp_disk_tables"]

/-- The JSON form of query counters. -/
def toJson (counters : QueryCounters) : Json := .object [
  ("exec_count", Json.natural counters.execCount),
  ("rows_examined", Json.natural counters.rowsExamined),
  ("rows_sent", Json.natural counters.rowsSent),
  ("select_scan", Json.natural counters.selectScan),
  ("no_index_used", Json.natural counters.noIndexUsed),
  ("no_good_index_used", Json.natural counters.noGoodIndexUsed),
  ("sort_scan", Json.natural counters.sortScan),
  ("created_tmp_tables", Json.natural counters.createdTmpTables),
  ("created_tmp_disk_tables", Json.natural counters.createdTmpDiskTables)]

/-- Reads the JSON form of query counters. -/
def ofJson? (value : Json) : Option QueryCounters := do
  let members ← record? fields value
  return {
    execCount := ← members.orElse "exec_count" 0 Json.word64?
    rowsExamined := ← members.orElse "rows_examined" 0 Json.word64?
    rowsSent := ← members.orElse "rows_sent" 0 Json.word64?
    selectScan := ← members.orElse "select_scan" 0 Json.word64?
    noIndexUsed := ← members.orElse "no_index_used" 0 Json.word64?
    noGoodIndexUsed := ← members.orElse "no_good_index_used" 0 Json.word64?
    sortScan := ← members.orElse "sort_scan" 0 Json.word64?
    createdTmpTables := ← members.orElse "created_tmp_tables" 0 Json.word64?
    createdTmpDiskTables := ← members.orElse "created_tmp_disk_tables" 0 Json.word64? }

end QueryCounters

namespace Query

/-- The names of the members. -/
def fields : List String := ["digest", "digest_text", "schema_name", "tables", "summary"]

/-- The JSON form of a query. -/
def toJson (query : Query) : Json := .object [
  ("digest", Json.optional .text query.digest),
  ("digest_text", .text query.digestText),
  ("schema_name", Json.optional .text query.schemaName),
  ("tables", Json.ofMap TableReference.toJson query.tables),
  ("summary", query.counters.toJson)]

/-- Reads the JSON form of a query. -/
def ofJson? (value : Json) : Option Query := do
  let members ← record? fields value
  return {
    digest := ← members.orElse "digest" none (Json.nullable? Json.text?)
    digestText := ← members.required "digest_text" Json.text?
    schemaName := ← members.orElse "schema_name" none (Json.nullable? Json.text?)
    tables := ← members.orElse "tables" NameMap.empty (Json.map? TableReference.ofJson?)
    counters := ← members.orElse "summary" {} QueryCounters.ofJson? }

end Query

namespace Schema

/-- The names of the members. -/
def fields : List String := ["name", "tables"]

/-- The JSON form of a schema. -/
def toJson (schema : Schema) : Json := .object [
  ("name", .text schema.name),
  ("tables", .array (schema.tables.map Table.toJson))]

/-- Reads the JSON form of a schema. -/
def ofJson? (value : Json) : Option Schema := do
  let members ← record? fields value
  return {
    name := ← members.required "name" Json.text?
    tables := ← members.orElse "tables" [] (Json.list? Table.ofJson?) }

end Schema

namespace Catalog

/-- The names of the members. -/
def fields : List String := ["name", "variables", "accounts", "schemas", "queries"]

/-- The JSON form of a catalog. -/
def toJson (catalog : Catalog) : Json := .object [
  ("name", .text catalog.name),
  ("variables", Json.ofMap .text catalog.sessionVariables),
  ("accounts", Json.ofMap Account.toJson catalog.accounts),
  ("schemas", .array (catalog.schemas.map Schema.toJson)),
  ("queries", .array (catalog.queries.map Query.toJson))]

/-- Reads the JSON form of a catalog. -/
def ofJson? (value : Json) : Option Catalog := do
  let members ← record? fields value
  return {
    name := ← members.orElse "name" "" Json.text?
    sessionVariables := ← members.orElse "variables" NameMap.empty (Json.map? Json.text?)
    accounts := ← members.orElse "accounts" NameMap.empty (Json.map? Account.ofJson?)
    schemas := ← members.orElse "schemas" [] (Json.list? Schema.ofJson?)
    queries := ← members.orElse "queries" [] (Json.list? Query.ofJson?) }

end Catalog
end SchemaLint
