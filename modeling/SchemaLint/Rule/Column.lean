import SchemaLint.Rule.Basic

/-!
# Rules about columns

Text columns that repeat few values, that are indexed in full, or that hold identifiers better
stored as bytes.
-/

namespace SchemaLint
namespace Rule

/-- The least size and number of rows at which repeated values are worth a concern, and the
greatest share of distinct values. -/
def leastStorage : UInt64 := 12
def leastRows : UInt64 := 1000
def greatestSelectivity : Float := 0.01

/-- The share of distinct values among the rows. -/
def selectivity (rows cardinality : UInt64) : Float :=
  if rows = 0 then 1.0 else cardinality.toFloat / rows.toFloat

/-- What is said of a text column of some size in a table of some rows. -/
def repetitionVerdict (column : Column) (storage rows : UInt64) : Verdict :=
  if storage ≥ leastStorage && rows ≥ leastRows &&
      selectivity rows column.cardinality ≤ greatestSelectivity then
    .saying .concern (column.qualifiedName ++ " takes up to " ++ Decimal.text64 storage ++
      " bytes but holds only " ++ Decimal.text64 column.cardinality ++ " distinct values in " ++
      Decimal.text64 rows ++ " rows")
  else
    {}

/-- A concern for wide text columns that repeat a handful of values. -/
def lowCardinalityStorage : Rule :=
  onColumn "low_cardinality_storage"
    (fun table column => !(table.isVirtual || column.isVirtual) && column.isString)
    fun table column => do
      let storage ← column.totalSize.mapError .ofStorage
      let rows := table.info.tableRows
      let verdict := repetitionVerdict column storage rows
      return some (((verdict.datum "storage" (Json.natural storage)).datum
        "cardinality" (Json.natural column.cardinality)).datum
        "table_rows" (Json.natural rows))

/-- The longest text that is worth indexing in full. -/
def greatestFullLength : UInt64 := 12

/-- With fewer rows for every value than these, the beginning of a text tells enough. -/
def rowsPerValue : Float := 1000.0

/-- Whether an index of the table has the whole column. -/
def isIndexedInFull (table : Table) (column : Column) : Bool :=
  table.indexes.any fun index => index.parts.any fun part =>
    part.length.isNone && Text.sameLetters part.columnName column.name

/-- Whether an index on the beginning of a column would do. -/
def beginningSuffices (length rows cardinality : UInt64) : Bool :=
  length > greatestFullLength && cardinality > 0 &&
    rows.toFloat / cardinality.toFloat < rowsPerValue

/-- A concern for long text columns that are indexed in full without need. -/
def indexPrefix : Rule :=
  onColumn "index_prefix" (fun table column => column.isString && isIndexedInFull table column)
    fun table column =>
      let length := column.declaredLength.getD 0
      let verdict : Verdict :=
        if beginningSuffices length table.info.tableRows column.cardinality then
          .saying .concern (column.qualifiedName ++ " (" ++ Decimal.text64 length ++
            " characters) is indexed in full; a prefix index would be smaller")
        else
          {}
      .ok (some (verdict.datum "length" (Json.natural length)))

/-- The names of identifiers, and the ends of longer names for them, backwards. -/
def reversedIdentifiers : List (List Char) :=
  ["id", "uid", "uuid"].map fun name => name.toList.reverse

/-- Whether a name is that of an identifier, in any case, after an underscore or alone. -/
def looksLikeIdentifier (name : String) : Bool :=
  let reversed := (Text.lower name).toList.reverse
  reversedIdentifiers.any fun identifier =>
    identifier.isPrefixOf reversed && (reversed.drop identifier.length).head?.all (· == '_')

/-- A concern for identifiers of the length of a UUID that are stored as text. -/
def uuidStorage : Rule :=
  onColumn "uuid_storage" (fun _ _ => true) fun _ column =>
    if looksLikeIdentifier column.name then
      match column.info.dataType, column.declaredLength with
      | "binary", some 16 => .ok (some {})
      | "char", some length | "varchar", some length =>
          if length = 34 || length = 36 then
            .ok (some (.saying .concern (column.qualifiedName ++
              " looks like a UUID stored as " ++ column.info.columnType ++
              "; BINARY(16) takes less than half the space")))
          else
            .ok none
      | _, _ => .ok none
    else
      .ok none

end Rule
end SchemaLint
