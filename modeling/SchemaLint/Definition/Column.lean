import SchemaLint.Definition.Edit
import SchemaLint.Definition.Encoding
import SchemaLint.Sql.Statement

/-!
# Columns from definitions

The column that a definition makes, with all that the information schema would show of it, and
how it is added to a table.
-/

namespace SchemaLint

open Sql

namespace Definition

/-- The largest number of bytes that is shown for a declared number of characters. -/
def maxOctetLength : UInt64 := 65535

/-- The number of bytes shown for a number of characters, at four bytes each. -/
def octetLength (characters : UInt64) : UInt64 :=
  if characters ≤ maxOctetLength / 4 then characters * 4 else maxOctetLength

/-- A text in quotes, with the quotes in it doubled. -/
def quoted (text : String) : String :=
  "'" ++ Text.double '\'' text ++ "'"

/-- The arguments of a type, in parentheses: its members, or its length and scale. -/
def typeArguments (type : TypeSpec) : String :=
  if type.members ≠ [] then
    "(" ++ Text.join "," (type.members.map quoted) ++ ")"
  else
    match type.length, type.scale with
    | some length, some scale =>
        "(" ++ Decimal.text64 length ++ "," ++ Decimal.text64 scale ++ ")"
    | some length, none => "(" ++ Decimal.text64 length ++ ")"
    | none, _ => ""

/-- The full text of a type whose one name is `dataType`. -/
def columnType (type : TypeSpec) (dataType : String) : String :=
  dataType ++ typeArguments type ++ (if type.unsigned then " unsigned" else "") ++
    (if type.zerofill then " zerofill" else "")

/-- The declared length at the place where its class of types has it. -/
def withLength (class? : Option TypeClass) (type : TypeSpec) (info : ColumnInfo) :
    Except MetadataError ColumnInfo :=
  match type.length, class? with
  | none, _ => .ok info
  | some length, some .integer => .ok { info with numericPrecision := some length }
  | some length, some .otherNumeric =>
      .ok { info with numericPrecision := some length, numericScale := type.scale }
  | some length, some .string =>
      .ok { info with
        characterMaximumLength := some length
        characterOctetLength := some (octetLength length) }
  | some length, some .binary =>
      .ok { info with
        characterMaximumLength := some length
        characterOctetLength := some length }
  | some length, some .time => .ok { info with datetimePrecision := some length }
  | some _, none => .error (.unknownColumnType info.dataType)

/-- The encoding of a text column. -/
def encodingOf (spec : ColumnSpec) (inherited : Encoding) : Except MetadataError Encoding :=
  match spec.charset, spec.collation with
  | none, none => .ok inherited
  | charset, collation => Encoding.resolve charset collation

/-- The encoding of a column, if it holds text. -/
def withEncoding (class? : Option TypeClass) (spec : ColumnSpec) (inherited : Encoding)
    (info : ColumnInfo) : Except MetadataError ColumnInfo :=
  if class? = some .string then
    (encodingOf spec inherited).map fun encoding =>
      { info with
        characterSetName := some encoding.charset
        collationName := some encoding.collation }
  else
    .ok info

/-- The text of a default. -/
def defaultText : Option DefaultValue → Option String
  | none | some .null => none
  | some (.literal text) | some (.expression text) => some text
  | some .currentTimestamp => some "CURRENT_TIMESTAMP"

/-- Whether a default is computed when a row is inserted. -/
def isComputedDefault : Option DefaultValue → Bool
  | some .currentTimestamp | some (.expression _) => true
  | _ => false

/-- What else is to be said of a column. -/
def extra (spec : ColumnSpec) : String :=
  let remarks := [
    (spec.autoIncrement, "auto_increment"),
    (isComputedDefault spec.default, "DEFAULT_GENERATED"),
    (spec.onUpdateCurrentTimestamp, "on update CURRENT_TIMESTAMP"),
    (spec.generation.any (·.stored), "STORED GENERATED"),
    (spec.generation.any (!·.stored), "VIRTUAL GENERATED")]
  Text.join " " ((remarks.filter Prod.fst).map Prod.snd)

/-- What the information schema shows of a column that is not part of a key yet. -/
def columnInfo (spec : ColumnSpec) (ordinal : UInt32) (inherited : Encoding) :
    Except MetadataError ColumnInfo := do
  let dataType := ColumnType.canonical spec.type.name
  let class? := ColumnType.classify dataType
  let info ← withLength class? spec.type {
    ordinalPosition := ordinal
    dataType
    columnType := columnType spec.type dataType
    isNullable := spec.nullable.getD !spec.primaryKey
    columnComment := spec.comment.getD "" }
  let info ← withEncoding class? spec inherited info
  return { info with
    columnDefault := defaultText spec.default
    generationExpression := (spec.generation.map (·.expression)).getD ""
    extra := extra spec }

/-- The column of a definition. -/
def column (spec : ColumnSpec) (ordinal : UInt32) (inherited : Encoding) :
    Except MetadataError Column :=
  (columnInfo spec ordinal inherited).map fun info =>
    { name := spec.name, info, members := spec.type.members }

end Definition

namespace TableEdit

/-- Appends a column. -/
def addColumn (inherited : Encoding) (spec : ColumnSpec) : TableEdit Unit := do
  let table ← get
  if (table.column? spec.name).isSome then
    throw (.existingColumn table.qualifiedName spec.name)
  else
    match Definition.column spec table.nextOrdinal inherited with
    | .error error => throw (.metadata error)
    | .ok column => modify (·.pushColumn column)

end TableEdit
end SchemaLint
