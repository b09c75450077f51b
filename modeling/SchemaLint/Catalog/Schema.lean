import SchemaLint.Catalog.Table

/-!
# Schemas

A schema holds tables in the order of their creation.
-/

namespace SchemaLint

/-- A schema and its tables. -/
structure Schema where
  name : String
  tables : List Table := []
deriving DecidableEq

namespace Schema

/-- The first table of this name. -/
def table? (schema : Schema) (name : String) : Option Table :=
  schema.tables.find? (·.name == name)

/-- Whether there is a table of this name. -/
def contains (schema : Schema) (name : String) : Bool :=
  (schema.table? name).isSome

/-- The schema with one more table, or nothing when there is one of that name. -/
def addTable? (schema : Schema) (table : Table) : Option Schema :=
  if schema.contains table.name then
    none
  else
    some { schema with
      tables := schema.tables ++ [({ table with schemaName := schema.name } : Table).relink] }

/-- The schema with one more table, or the same schema when there is one of that name. -/
def addTable (schema : Schema) (table : Table) : Schema :=
  (schema.addTable? table).getD schema

/-- The schema without the first table of this name. -/
def removeTable (schema : Schema) (name : String) : Schema :=
  { schema with tables := schema.tables.eraseP (·.name == name) }

/-- The schema with the first table of this name changed. -/
def modifyTable (schema : Schema) (name : String) (f : Table → Table) : Schema :=
  { schema with tables := Table.modifyFirst (·.name == name) f schema.tables }

/-- Whether the schema has no tables. -/
def isEmpty (schema : Schema) : Bool :=
  schema.tables.isEmpty

/-- The schema with the names of owners repeated in all it holds. -/
def relink (schema : Schema) : Schema :=
  { schema with
    tables := schema.tables.map fun table =>
      ({ table with schemaName := schema.name } : Table).relink }

end Schema
end SchemaLint
