/-!
# Failures of metadata look-ups
-/

namespace SchemaLint

/-- A name that the metadata tables do not know, or cannot use. -/
inductive MetadataError where
  | unknownCharacterSet (name : String)
  | unknownCollation (name : String)
  | unknownColumnType (name : String)
  /-- A type without a largest integer. -/
  | unsuitableColumnType (name : String)
deriving DecidableEq, Repr

namespace MetadataError

/-- The text shown to the user. -/
def message : MetadataError → String
  | .unknownCharacterSet name => "Unknown character set: " ++ name
  | .unknownCollation name => "Unknown collation: " ++ name
  | .unknownColumnType name => "Unknown column type: " ++ name
  | .unsuitableColumnType name => "Invalid column type for this operation: " ++ name

end MetadataError
end SchemaLint
