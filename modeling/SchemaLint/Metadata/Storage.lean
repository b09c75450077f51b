import SchemaLint.Metadata.ColumnType
import SchemaLint.Metadata.Error
import SchemaLint.Number.Word

/-!
# Storage

The bytes that one value of a column type occupies, and the largest value of an integer type.
Sizes are words of 64 bits.  A declared length may be any word, so what is added to it may leave
the words; then there is no size.
-/

namespace SchemaLint

/-- The bytes of one value: the value itself and its length header. -/
structure StorageSize where
  body : UInt64
  header : UInt64
deriving DecidableEq, Repr

namespace StorageSize

/-- All bytes of a value. -/
def total (size : StorageSize) : Except Overflow UInt64 :=
  Word.plus size.body size.header

/-- A size without header. -/
def fixed (body : UInt64) : StorageSize :=
  { body, header := 0 }

/-- A length of its own in front: one byte up to 255 bytes, else two. -/
def withLength (length : UInt64) : StorageSize :=
  { body := length, header := if length < 256 then 1 else 2 }

end StorageSize

/-- Why there is no size. -/
inductive StorageError where
  | metadata (error : MetadataError)
  | overflow (cause : Overflow)
deriving DecidableEq, Repr

namespace Storage

/-- The bytes of the digits that do not fill a group of nine. -/
def leftoverBytes (digits : UInt64) : UInt64 :=
  if digits = 0 then 0
  else if digits ≤ 2 then 1
  else if digits ≤ 4 then 2
  else if digits ≤ 6 then 3
  else 4

/-- The bytes of decimal digits: four for each group of nine, and those of the rest. -/
def decimalBytes (digits : UInt64) : Except Overflow UInt64 := do
  Word.plus (← Word.times (digits / 9) 4) (leftoverBytes (digits % 9))

/-- The size of a decimal number with some digits on both sides of the point. -/
def decimalSize (whole fraction : UInt64) : Except Overflow StorageSize := do
  return .fixed (← Word.plus (← decimalBytes whole) (← decimalBytes fraction))

/-- The bytes of a number of bits. -/
def bitBytes (bits : UInt64) : Except Overflow UInt64 := do
  return (← Word.plus bits 7) / 8

/-- The bytes of fractional seconds. -/
def fractionBytes : Option UInt64 → Except Overflow UInt64
  | none => return 0
  | some places => return (← Word.plus places 1) / 2

/-- The size of a time of some bytes with fractional seconds. -/
def timeSize (bytes : UInt64) (places : Option UInt64) : Except Overflow StorageSize := do
  return .fixed (← Word.plus bytes (← fractionBytes places))

/-- The bytes of a set with a bit for each of its members. -/
def setBytes (members : UInt64) : Except Overflow UInt64 := do
  let bytes ← bitBytes members
  return if bytes ≤ 1 then 1 else if bytes ≤ 4 then bytes else 8

/-- The size of one value of a type given by its one name.  The length is the declared length or
precision, or the number of members. -/
def sizeOf? (type : String) (length scale : Option UInt64) :
    Option (Except Overflow StorageSize) :=
  match type with
  | "tinyint" => some (.ok (.fixed 1))
  | "smallint" => some (.ok (.fixed 2))
  | "mediumint" => some (.ok (.fixed 3))
  | "int" => some (.ok (.fixed 4))
  | "bigint" => some (.ok (.fixed 8))
  | "float" => some (.ok (.fixed (if 24 < length.getD 0 then 8 else 4)))
  | "double" => some (.ok (.fixed 8))
  | "decimal" =>
      let precision := length.getD 10
      let scale := min (scale.getD 0) precision
      some (decimalSize (precision - scale) scale)
  | "bit" => some ((bitBytes (length.getD 1)).map .fixed)
  | "year" => some (.ok (.fixed 1))
  | "date" => some (.ok (.fixed 3))
  | "time" => some (timeSize 3 length)
  | "datetime" => some (timeSize 5 length)
  | "timestamp" => some (timeSize 4 length)
  | "char" | "binary" => some (.ok (.fixed (length.getD 1)))
  | "varchar" | "varbinary" => some (.ok (.withLength (length.getD 0)))
  | "tinytext" | "tinyblob" => some (.ok { body := 255, header := 1 })
  | "text" | "blob" => some (.ok { body := 65535, header := 2 })
  | "mediumtext" | "mediumblob" => some (.ok { body := 16777215, header := 3 })
  | "longtext" | "longblob" | "json" => some (.ok { body := 4294967295, header := 4 })
  | "enum" => some (.ok (.fixed (if length.getD 0 ≤ 255 then 1 else 2)))
  | "set" => some ((setBytes (length.getD 0)).map .fixed)
  | _ => none

/-- The size of one value of a type. -/
def size (type : String) (length scale : Option UInt64) : Except StorageError StorageSize :=
  match sizeOf? (ColumnType.canonical type) length scale with
  | some size => size.mapError .overflow
  | none => .error (.metadata (.unknownColumnType type))

/-- The largest signed value of an integer type given by its one name. -/
def signedMax? : String → Option UInt64
  | "tinyint" => some 127
  | "smallint" => some 32767
  | "mediumint" => some 8388607
  | "int" => some 2147483647
  | "bigint" => some 9223372036854775807
  | _ => none

/-- The largest value of an integer type; without a sign it is twice as large and one more. -/
def maxValue (type : String) (unsigned : Bool) : Except MetadataError UInt64 :=
  match signedMax? (ColumnType.canonical type) with
  | some largest => .ok (if unsigned then largest * 2 + 1 else largest)
  | none => .error (.unsuitableColumnType type)

end Storage
end SchemaLint
