import SchemaLint.Number.Fixed
import SchemaLint.Rule.Basic

/-!
# Rules about queries

Queries that do much more work than their results need.
-/

namespace SchemaLint
namespace Rule

/-- The rows examined for every row sent that are too many. -/
def wastefulRatio : Float := 100.0

/-- The share of executions with a bad plan that is too large. -/
def badPlanRatio : Float := 0.2

/-- A remark of some severity. -/
abbrev Remark := Severity × String

/-- The remark on rows that were examined in vain. -/
def examinedRemark (counters : QueryCounters) : List Remark :=
  match counters.examinedPerSent? with
  | none => []
  | some ratio =>
      if ratio ≥ wastefulRatio then
        [(.concern, "Examines " ++ Fixed.text 0 ratio ++ " rows for every row sent")]
      else
        []

/-- The bad plans and how often they were used. -/
def badPlans (counters : QueryCounters) : List (String × UInt64) := [
  ("full table scans", counters.selectScan),
  ("no index used", counters.noIndexUsed),
  ("no good index used", counters.noGoodIndexUsed),
  ("full sorts", counters.sortScan)]

/-- The remark on a bad plan. -/
def planRemark (counters : QueryCounters) (plan : String × UInt64) : List Remark :=
  let ratio := counters.perExecution plan.2
  if ratio ≥ badPlanRatio then
    [(.warning, Fixed.text 0 (ratio * 100.0) ++ "% of executions: " ++ plan.1)]
  else
    []

/-- The remark on temporary tables. -/
def temporaryRemark (counters : QueryCounters) : List Remark :=
  if 0 < counters.createdTmpDiskTables then
    [(.warning, "Created " ++ Decimal.text64 counters.createdTmpDiskTables ++
      " temporary tables on disk")]
  else
    []

/-- All remarks on the counters of a query. -/
def remarks (counters : QueryCounters) : List Remark :=
  examinedRemark counters ++ (badPlans counters).flatMap (planRemark counters) ++
    temporaryRemark counters

/-- A table with its schema. -/
def referenceText (reference : TableReference) : String :=
  match reference.schema with
  | some schema => schema ++ "." ++ reference.table
  | none => reference.table

/-- The worst of the remarks on a query, with all of them as messages. -/
def queryInefficiency : Rule :=
  onQuery "query_inefficiency" (fun query => 0 < query.counters.execCount) fun query =>
    let remarks := remarks query.counters
    let verdict : Verdict :=
      { severity := remarks.foldl (fun severity remark => severity.worse remark.1) .ok
        messages := remarks.map Prod.snd }
    let counted := verdict.datum "exec_count" (Json.natural query.counters.execCount)
    .ok (some (
      if query.tables.isEmpty then counted
      else counted.datum "tables" (Json.texts (query.tables.values.map referenceText))))

end Rule
end SchemaLint
