import SchemaLint.Text.Basic

/-!
# Column types

The one name that stands for each column type and its aliases, and the coarse class of a type,
which decides what a declared length means.
-/

namespace SchemaLint

/-- The coarse class of a column type. -/
inductive TypeClass where
  | integer
  | otherNumeric
  | string
  | time
  | binary
deriving DecidableEq, Repr

namespace TypeClass

/-- The label of a class. -/
def label : TypeClass → String
  | .integer => "integer"
  | .otherNumeric => "other_numeric"
  | .string => "string"
  | .time => "time"
  | .binary => "binary"

end TypeClass

namespace ColumnType

/-- The name that a type name in small letters and single spaces is an alias of. -/
def standing (name : String) : String :=
  match name with
  | "integer" | "int4" => "int"
  | "int1" | "bool" | "boolean" => "tinyint"
  | "int2" => "smallint"
  | "int3" | "middleint" => "mediumint"
  | "int8" => "bigint"
  | "dec" | "numeric" | "fixed" => "decimal"
  | "real" | "double precision" | "float8" => "double"
  | "float4" => "float"
  | "character" | "nchar" | "national char" | "national character" => "char"
  | "character varying" | "nvarchar" | "national varchar" | "national character varying"
  | "char varying" => "varchar"
  | "long varchar" | "long" => "mediumtext"
  | "long varbinary" => "mediumblob"
  | other => other

/-- The one name of a type, whatever case, spacing or alias it is written in. -/
def canonical (name : String) : String :=
  standing (Text.collapse (Text.lower (Text.trim name)))

/-- The class of a type given by its one name. -/
def classOf : String → Option TypeClass
  | "tinyint" | "smallint" | "mediumint" | "int" | "bigint" => some .integer
  | "decimal" | "float" | "double" | "bit" => some .otherNumeric
  | "char" | "varchar" | "tinytext" | "text" | "mediumtext" | "longtext" | "enum" | "set" =>
      some .string
  | "date" | "time" | "datetime" | "timestamp" | "year" => some .time
  | "binary" | "varbinary" | "tinyblob" | "blob" | "mediumblob" | "longblob" => some .binary
  | _ => none

/-- The class of a type. -/
def classify (name : String) : Option TypeClass :=
  classOf (canonical name)

end ColumnType
end SchemaLint
