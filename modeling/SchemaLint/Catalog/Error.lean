import SchemaLint.Metadata.Error
import SchemaLint.Sql.SyntaxError

/-!
# Catalog errors

Why a statement cannot be applied to a catalog, or why a catalog is malformed.
-/

namespace SchemaLint

/-- A reason to refuse a statement or a catalog. -/
inductive CatalogError where
  /-- A statement that is not understood. -/
  | unreadable (line : Nat) (text : String)
  | missingTable (table : String)
  | existingSchema (schema : String)
  | existingTable (table : String)
  | missingColumn (table column : String)
  | existingColumn (table column : String)
  | existingIndex (table index : String)
  | metadata (error : MetadataError)
deriving DecidableEq, Repr

namespace CatalogError

/-- The text shown to the user. -/
def message : CatalogError → String
  | .unreadable line text =>
      "line " ++ Decimal.text line ++ ": cannot handle statement: " ++ text
  | .missingTable table => "Table '" ++ table ++ "' doesn't exist"
  | .existingSchema schema => "Database '" ++ schema ++ "' exists"
  | .existingTable table => "Table '" ++ table ++ "' already exists"
  | .missingColumn table column => "Unknown column '" ++ column ++ "' in table '" ++ table ++ "'"
  | .existingColumn table column =>
      "Duplicate column name '" ++ column ++ "' in table '" ++ table ++ "'"
  | .existingIndex table index => "Duplicate key name '" ++ index ++ "' in table '" ++ table ++ "'"
  | .metadata error => error.message

/-- A statement that cannot be read, with the error that says why. -/
def ofSyntax (error : Sql.SyntaxError) : CatalogError :=
  .unreadable error.line error.message

end CatalogError

/-- Whether a change could be made. -/
abbrev Outcome := Except CatalogError Unit

end SchemaLint
