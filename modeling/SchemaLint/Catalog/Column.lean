import SchemaLint.Metadata.Storage

/-!
# Columns

A column with the projection of its definition that the information schema shows.
-/

namespace SchemaLint

/-- How a column takes part in the keys of its table. -/
inductive ColumnKey where
  | none
  | primary
  | unique
  /-- The first column of a key that is not unique. -/
  | multiple
deriving DecidableEq, Repr

namespace ColumnKey

/-- The label of the information schema. -/
def label : ColumnKey → String
  | .none => ""
  | .primary => "PRI"
  | .unique => "UNI"
  | .multiple => "MUL"

/-- The key with a given label. -/
def ofLabel? : String → Option ColumnKey
  | "" => some .none
  | "PRI" => some .primary
  | "UNI" => some .unique
  | "MUL" => some .multiple
  | _ => Option.none

end ColumnKey

/-- What the information schema shows of a column. -/
structure ColumnInfo where
  ordinalPosition : UInt32 := 0
  columnDefault : Option String := none
  isNullable : Bool := false
  dataType : String := ""
  characterMaximumLength : Option UInt64 := none
  characterOctetLength : Option UInt64 := none
  numericPrecision : Option UInt64 := none
  numericScale : Option UInt64 := none
  datetimePrecision : Option UInt64 := none
  characterSetName : Option String := none
  collationName : Option String := none
  columnType : String := ""
  columnKey : ColumnKey := .none
  extra : String := ""
  generationExpression : String := ""
  columnComment : String := ""
deriving DecidableEq

/-- A column.  The names of its table and schema are repeated in it. -/
structure Column where
  name : String
  tableName : String := ""
  schemaName : String := ""
  info : ColumnInfo := {}
  /-- The members of an enumeration or a set. -/
  members : List String := []
  /-- The number of distinct values, when it is known. -/
  cardinality : UInt64 := 0
deriving DecidableEq

namespace Column

/-- The name with those of its schema and table. -/
def qualifiedName (column : Column) : String :=
  column.schemaName ++ "." ++ column.tableName ++ "." ++ column.name

/-- Whether the column has this name, up to the case of ASCII letters. -/
def hasName (name : String) (column : Column) : Bool :=
  Text.sameLetters column.name name

/-- Whether the column is part of the primary key. -/
def isPrimary (column : Column) : Bool :=
  column.info.columnKey == .primary

/-- Whether the column counts up by itself. -/
def isAutoIncrement (column : Column) : Bool :=
  Text.contains (Text.lower column.info.extra) "auto_increment"

/-- Whether the column type has no sign. -/
def isUnsigned (column : Column) : Bool :=
  Text.contains (Text.lower column.info.columnType) "unsigned"

/-- Whether the column is computed when it is read. -/
def isVirtual (column : Column) : Bool :=
  Text.contains (Text.upper column.info.extra) "VIRTUAL GENERATED"

/-- The class of the column type. -/
def typeClass (column : Column) : Option TypeClass :=
  ColumnType.classify column.info.dataType

/-- Whether the column holds text. -/
def isString (column : Column) : Bool :=
  column.typeClass == some .string

/-- Whether the column holds integers. -/
def isInteger (column : Column) : Bool :=
  column.typeClass == some .integer

/-- The declared length, precision or number of fractional digits, whichever the type has. -/
def declaredLength (column : Column) : Option UInt64 :=
  match column.typeClass with
  | some .integer | some .otherNumeric => column.info.numericPrecision
  | some .string | some .binary => column.info.characterMaximumLength
  | some .time => column.info.datetimePrecision
  | none => none

/-- The bytes of one value. -/
def storageSize (column : Column) : Except StorageError StorageSize :=
  let length :=
    if column.info.dataType = "enum" ∨ column.info.dataType = "set" then
      some (UInt64.ofNat column.members.length)
    else
      column.declaredLength
  Storage.size column.info.dataType length column.info.numericScale

/-- The bytes of one value with its length header. -/
def totalSize (column : Column) : Except StorageError UInt64 := do
  (← column.storageSize).total.mapError .overflow

/-- The largest integer that fits the column. -/
def maxValue (column : Column) : Except MetadataError UInt64 :=
  Storage.maxValue column.info.dataType column.isUnsigned

end Column
end SchemaLint
