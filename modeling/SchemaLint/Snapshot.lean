import SchemaLint.Calendar.Timestamp
import SchemaLint.Catalog.Error
import SchemaLint.Catalog.Facts
import SchemaLint.Catalog.Format
import SchemaLint.Digest.Scope
import SchemaLint.Json.Printer
import SchemaLint.Json.Reader

/-!
# Snapshots

A snapshot is a catalog that was captured from a server, written as JSON text.  A snapshot that
is loaded has its names repeated in all it holds, is checked for names that clash and for
primary keys over missing columns, and has its digests read and its facts derived.
-/

namespace SchemaLint

/-- A catalog captured from a server. -/
structure Snapshot where
  source : Option String := none
  capturedAt : Option Timestamp := none
  catalog : Catalog
deriving DecidableEq

/-- Why a snapshot cannot be loaded. -/
inductive SnapshotError where
  /-- The file cannot be read. -/
  | unreadable (reason : String)
  /-- The text is no JSON text of a snapshot. -/
  | malformed
  | invalid (error : CatalogError)
deriving DecidableEq, Repr

namespace SnapshotError

/-- The text shown to the user. -/
def message : SnapshotError → String
  | .unreadable reason => "IO error: " ++ reason
  | .malformed => "JSON error"
  | .invalid error => "Invalid snapshot: " ++ error.message

end SnapshotError

namespace Snapshot

/-- The names of the members. -/
def fields : List String := ["source", "captured_at", "database"]

/-- The JSON form of a timestamp. -/
def timeToJson (time : Timestamp) : Json := .text time.text

/-- Reads the JSON form of a timestamp. -/
def timeOfJson? (value : Json) : Option Timestamp :=
  (Json.text? value).bind Timestamp.parse?

/-- The JSON form of a snapshot. -/
def toJson (snapshot : Snapshot) : Json := .object [
  ("source", Json.optional .text snapshot.source),
  ("captured_at", Json.optional timeToJson snapshot.capturedAt),
  ("database", snapshot.catalog.toJson)]

/-- Reads the JSON form of a snapshot, without checking it. -/
def ofJson? (value : Json) : Option Snapshot := do
  let members ← Json.record? fields value
  return {
    source := ← members.orElse "source" none (Json.nullable? Json.text?)
    capturedAt := ← members.orElse "captured_at" none (Json.nullable? timeOfJson?)
    catalog := ← members.required "database" Catalog.ofJson? }

/-- The first item whose key is that of an item before it. -/
def repeated? {α κ : Type} [BEq κ] (key : α → κ) (seen : List κ) : List α → Option α
  | [] => none
  | item :: items =>
      if seen.contains (key item) then some item else repeated? key (key item :: seen) items

/-- An error for an item, if there is one. -/
def refuse {α : Type} (item : Option α) (error : α → CatalogError) : Except CatalogError Unit :=
  match item with
  | none => .ok ()
  | some item => .error (error item)

/-- Checks the names of the tables of schemas, and of the schemas themselves. -/
def checkSchemas (seen : List String) : List Schema → Except CatalogError Unit
  | [] => .ok ()
  | schema :: schemas => do
      if seen.contains schema.name then
        throw (.existingSchema schema.name)
      refuse (repeated? Table.name [] schema.tables) fun table =>
        .existingTable table.qualifiedName
      checkSchemas (schema.name :: seen) schemas

/-- The first column of the primary key that the table does not have. -/
def missingKeyColumn? (table : Table) : Option String :=
  (table.index? Index.primaryName).bind fun primary =>
    primary.columnNames.find? fun name => (table.column? name).isNone

/-- Checks the names of the columns and indexes of a table, and its primary key. -/
def checkTable (table : Table) : Except CatalogError Unit := do
  refuse (repeated? (fun column => Text.lower column.name) [] table.columns) fun column =>
    .existingColumn table.qualifiedName column.name
  refuse (repeated? (fun index => Text.lower index.name) [] table.indexes) fun index =>
    .existingIndex table.qualifiedName index.name
  refuse (missingKeyColumn? table) fun name => .missingColumn table.qualifiedName name

/-- Checks a catalog. -/
def checkCatalog (catalog : Catalog) : Except CatalogError Unit := do
  checkSchemas [] catalog.schemas
  catalog.tables.forM checkTable

section Load

variable (parse : Digest.StatementParser)

/-- The catalog with its digests read. -/
def resolveQueries (catalog : Catalog) : Catalog :=
  { catalog with queries := catalog.queries.map (Query.resolve parse) }

/-- The snapshot made ready for use. -/
def prepare (snapshot : Snapshot) : Except CatalogError Snapshot := do
  let catalog := snapshot.catalog.relink
  checkCatalog catalog
  return { snapshot with catalog := (resolveQueries parse catalog).deriveFacts }

/-- Loads a snapshot from its JSON text. -/
def load (text : String) : Except SnapshotError Snapshot :=
  match (Json.parse? text).bind ofJson? with
  | none => .error .malformed
  | some snapshot =>
      match snapshot.prepare parse with
      | .ok snapshot => .ok snapshot
      | .error error => .error (.invalid error)

end Load

/-- The JSON text of a snapshot. -/
def text (snapshot : Snapshot) : String :=
  snapshot.toJson.pretty

end Snapshot
end SchemaLint
