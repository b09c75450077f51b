import SchemaLint.Definition.Column
import SchemaLint.Definition.Key

/-!
# Tables from definitions

The table that a definition makes: its columns in order, each with the keys that it declares by
itself, and then the keys of the table.
-/

namespace SchemaLint

open Sql

namespace Definition

/-- The options that are shown elsewhere than in the text of the options. -/
def ownOptions : List String :=
  ["ENGINE", "AUTO_INCREMENT", "CHARSET", "COLLATE", "COMMENT"]

/-- The text of the options that are not shown elsewhere. -/
def createOptions (options : List (String × String)) : String :=
  Text.join " " ((options.filter fun option => !ownOptions.contains option.1).map fun option =>
    Text.lower option.1 ++ "=" ++ option.2)

/-- What the information schema shows of a table. -/
def tableInfo (spec : TableSpec) (encoding : Encoding) : TableInfo where
  engine := some ((spec.option? "ENGINE").getD "InnoDB")
  rowFormat := some (((spec.option? "ROW_FORMAT").map Text.capitalize).getD "Dynamic")
  autoIncrement := (spec.option? "AUTO_INCREMENT").bind Decimal.word64?
  tableCollation := some encoding.collation
  tableComment := (spec.option? "COMMENT").getD ""
  createOptions := createOptions spec.options

/-- A counter that starts at one, if a column counts up and no counter is given. -/
def startCounter (table : Table) : Table :=
  if table.info.autoIncrement.isNone && table.autoIncrementColumn?.isSome then
    { table with info := { table.info with autoIncrement := some 1 } }
  else
    table

end Definition

namespace TableEdit

open Definition

/-- Adds the primary key that a column definition declares by itself. -/
def addInlinePrimary (spec : ColumnSpec) : TableEdit Unit := do
  if spec.primaryKey then
    addPrimaryKey [{ column := spec.name }]

/-- Adds the unique index that a column definition declares by itself. -/
def addInlineUnique (spec : ColumnSpec) : TableEdit Unit := do
  if spec.unique then
    let name := freeIndexName (← get) spec.name
    addKey { kind := .unique, name := some name, columns := [{ column := spec.name }] }

/-- Adds a column of a definition and the keys that the column declares. -/
def addDeclaredColumn (encoding : Encoding) (spec : ColumnSpec) : TableEdit Unit := do
  addColumn encoding spec
  addInlinePrimary spec
  addInlineUnique spec

/-- Adds all that a definition declares. -/
def addDeclared (encoding : Encoding) (spec : TableSpec) : TableEdit Unit := do
  spec.columns.forM (addDeclaredColumn encoding)
  spec.keys.forM addKey
  modify startCounter

end TableEdit

namespace Definition

/-- The table of a definition. -/
def table (schemaName : String) (spec : TableSpec) : Except CatalogError Table :=
  match Encoding.resolve (spec.option? "CHARSET") (spec.option? "COLLATE") with
  | .error error => .error (.metadata error)
  | .ok encoding =>
      (TableEdit.addDeclared encoding spec).result {
        name := spec.name.name
        schemaName
        info := tableInfo spec encoding }

/-- A view, of which only the name is known. -/
def view (schemaName name : String) : Table where
  name
  schemaName
  info := { tableType := "VIEW", engine := none, rowFormat := none }

end Definition
end SchemaLint
