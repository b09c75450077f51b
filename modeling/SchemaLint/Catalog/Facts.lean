import SchemaLint.Catalog.Basic

/-!
# Derived facts

Facts about a table that follow from its definition: how far its counter is used up, and which
indexes another index makes unnecessary.  A fact that is present already is kept.
-/

namespace SchemaLint

namespace Index

/-- The columns with their lengths, in small letters so that they can be compared. -/
def comparableParts (index : Index) : List (String × Option UInt64) :=
  index.parts.map fun part => (Text.lower part.columnName, part.length)

/-- Whether one index is preferred over another with equal parts: the primary key, then a unique
one, then the one that is declared first. -/
def preferred (candidate dominant : Index) (candidateFirst : Bool) : Bool :=
  dominant.isPrimary ||
    match candidate.unique, dominant.unique with
    | false, true => true
    | true, false => false
    | _, _ => !candidateFirst

/-- Whether `dominant` makes `candidate` unnecessary: it has the same type, and its columns begin
with those of the candidate.  A unique index is only made unnecessary by one with the same
columns, and the primary key never is. -/
def isDominated (candidate dominant : Index) (candidateFirst : Bool) : Bool :=
  let parts := candidate.comparableParts
  let others := dominant.comparableParts
  !candidate.isPrimary && Text.sameLetters candidate.indexType dominant.indexType &&
    !parts.isEmpty && parts.isPrefixOf others &&
    if parts.length < others.length then !candidate.unique
    else preferred candidate dominant candidateFirst

end Index

namespace Table

/-- How far the counter of the table is used up, if it has one of integer type. -/
def autoIncrementUsage? (table : Table) : Option AutoIncrementUsage :=
  table.autoIncrementColumn?.bind fun column =>
    match column.maxValue with
    | .error _ => none
    | .ok maxValue => some {
        columnName := column.name
        dataType := column.info.dataType
        unsigned := column.isUnsigned
        maxValue
        autoIncrement := table.info.autoIncrement.getD 1 }

/-- The first index that makes the index at a position unnecessary. -/
def dominant? (table : Table) (candidate : Index) (position : Nat) : Option Index :=
  (table.indexes.zipIdx.find? fun other =>
    other.2 != position && candidate.isDominated other.1 (position < other.2)).map Prod.fst

/-- The indexes that others make unnecessary. -/
def redundantIndexes (table : Table) : List RedundantIndex :=
  table.indexes.zipIdx.filterMap fun entry =>
    (table.dominant? entry.1 entry.2).map fun dominant => {
      redundantIndex := entry.1.name
      redundantColumns := entry.1.columnNames
      redundantIsUnique := entry.1.unique
      dominantIndex := dominant.name
      dominantColumns := dominant.columnNames }

/-- The redundant indexes as a fact: the one that is present, or else the derived one, which
only a view does not have. -/
def redundantIndexFact (table : Table) : Option (List RedundantIndex) :=
  table.facts.redundantIndexes <|>
    (if table.isVirtual then none else some table.redundantIndexes)

/-- The table with the facts that can be derived from it. -/
def deriveFacts (table : Table) : Table :=
  { table with
    facts := { table.facts with
      autoIncrement := table.facts.autoIncrement <|> table.autoIncrementUsage?
      redundantIndexes := table.redundantIndexFact } }

end Table

namespace Catalog

/-- The catalog with the facts that can be derived from its tables. -/
def deriveFacts (catalog : Catalog) : Catalog :=
  { catalog with
    schemas := catalog.schemas.map fun schema =>
      { schema with tables := schema.tables.map Table.deriveFacts } }

end Catalog
end SchemaLint
