import SchemaLint.Text.Basic

/-!
# Indexes

An index of a table: its columns in order, each in full or by its first characters.
-/

namespace SchemaLint

/-- A column of an index. -/
structure IndexPart where
  columnName : String
  /-- The place of the column in the index, counted from one. -/
  position : UInt32
  /-- The number of leading characters that are indexed, if not all. -/
  length : Option UInt64 := none
deriving DecidableEq

/-- An index.  The names of its table and schema are repeated in it. -/
structure Index where
  name : String
  tableName : String := ""
  schemaName : String := ""
  unique : Bool
  indexType : String := "BTREE"
  parts : List IndexPart := []
deriving DecidableEq

namespace Index

/-- The name of every primary key. -/
def primaryName : String := "PRIMARY"

/-- The index with one more column at its end. -/
def pushColumn (index : Index) (columnName : String) (length : Option UInt64) : Index :=
  { index with
    parts := index.parts ++
      [{ columnName, position := UInt32.ofNat index.parts.length + 1, length }] }

/-- The index with columns and lengths at its end. -/
def pushColumns (index : Index) (columns : List (String × Option UInt64)) : Index :=
  columns.foldl (fun index column => index.pushColumn column.1 column.2) index

/-- Whether this is the primary key. -/
def isPrimary (index : Index) : Bool :=
  index.name == primaryName

/-- Whether the index has this name, up to the case of ASCII letters. -/
def hasName (name : String) (index : Index) : Bool :=
  Text.sameLetters index.name name

/-- The names of the columns in order. -/
def columnNames (index : Index) : List String :=
  index.parts.map IndexPart.columnName

/-- Whether the index has this column, up to the case of ASCII letters. -/
def containsColumn (index : Index) (columnName : String) : Bool :=
  index.parts.any fun part => Text.sameLetters part.columnName columnName

/-- The name with those of its schema and table. -/
def qualifiedName (index : Index) : String :=
  index.schemaName ++ "." ++ index.tableName ++ "." ++ index.name

end Index
end SchemaLint
