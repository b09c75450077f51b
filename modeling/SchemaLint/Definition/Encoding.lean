import SchemaLint.Catalog.Table
import SchemaLint.Metadata.Charset

/-!
# Encodings

The character set and collation of a table or column, from whichever of them is declared.
-/

namespace SchemaLint

/-- A character set with a collation. -/
structure Encoding where
  charset : String
  collation : String
deriving DecidableEq, Repr

namespace Encoding

/-- The character set of a table that declares neither a character set nor a collation. -/
def defaultCharset : String := "latin1"

/-- The encoding that a declaration means.  A declared collation is taken as it is beside a
declared character set, and names the character set without one. -/
def resolve (charset collation : Option String) : Except MetadataError Encoding :=
  match charset, collation with
  | some charset, some collation =>
      (Charset.defaultCollation (Text.lower charset)).map fun _ =>
        { charset := Text.lower charset, collation := Text.lower collation }
  | some charset, none =>
      (Charset.defaultCollation charset).map fun collation =>
        { charset := Text.lower charset, collation }
  | none, some collation =>
      (Charset.ofCollation collation).map fun charset =>
        { charset, collation := Text.lower collation }
  | none, none =>
      (Charset.defaultCollation defaultCharset).map fun collation =>
        { charset := defaultCharset, collation }

/-- The encoding that a column added to an existing table has by default. -/
def ofTable (table : Table) : Except MetadataError Encoding :=
  resolve none table.info.tableCollation

end Encoding
end SchemaLint
