import SchemaLint.Digest.Syntax
import SchemaLint.NameMap
import SchemaLint.Text.Basic

/-!
# Query digests of a catalog

A digest of statements of one shape, with the tables that it reads and its counters.
-/

namespace SchemaLint

/-- A table that a query reads. -/
structure TableReference where
  schema : Option String := none
  table : String
deriving DecidableEq, Repr

/-- Counters over the executions of a query. -/
structure QueryCounters where
  execCount : UInt64 := 0
  rowsExamined : UInt64 := 0
  rowsSent : UInt64 := 0
  selectScan : UInt64 := 0
  noIndexUsed : UInt64 := 0
  noGoodIndexUsed : UInt64 := 0
  sortScan : UInt64 := 0
  createdTmpTables : UInt64 := 0
  createdTmpDiskTables : UInt64 := 0
deriving DecidableEq

namespace QueryCounters

/-- The share of executions that a counter applies to. -/
def perExecution (counters : QueryCounters) (count : UInt64) : Float :=
  if counters.execCount = 0 then 0.0 else count.toFloat / counters.execCount.toFloat

/-- The rows examined for every row sent. -/
def examinedPerSent? (counters : QueryCounters) : Option Float :=
  if counters.rowsSent = 0 then none
  else some (counters.rowsExamined.toFloat / counters.rowsSent.toFloat)

end QueryCounters

/-- A query digest. -/
structure Query where
  digest : Option String := none
  digestText : String
  schemaName : Option String := none
  /-- The statements of the digest; none when it could not be read. -/
  statements : List Digest.Statement := []
  /-- The tables that are read, under the names by which the digest calls them. -/
  tables : NameMap TableReference := NameMap.empty
  counters : QueryCounters := {}
deriving DecidableEq

namespace Query

/-- Whether the digest could be read. -/
def isParsed (query : Query) : Bool :=
  !query.statements.isEmpty

/-- A text cut to `max` characters, the last three of which are then dots. -/
def shorten (max : Nat) (text : String) : String :=
  if text.length ≤ max then text
  else String.ofList (text.toList.take (max - 3)) ++ "..."

/-- The text of the digest on one line, cut to `max` characters. -/
def shortText (query : Query) (max : Nat) : String :=
  shorten max (Text.collapse query.digestText)

end Query
end SchemaLint
