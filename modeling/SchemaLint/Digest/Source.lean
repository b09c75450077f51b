import SchemaLint.Digest.Expression

/-!
# Sources of queries

What a query reads from: tables, derived tables, and joins of them, which may stand in
parentheses.
-/

namespace SchemaLint
namespace Digest
namespace Grammar

open SchemaLint.Parser Reader

/-- The words that are no names of tables unless they are quoted or follow a keyword. -/
def tableReservedWords : List String := [
  "WITH", "EXPLAIN", "ANALYZE", "SELECT", "WHERE", "GROUP", "SORT", "HAVING", "ORDER", "PIVOT",
  "UNPIVOT", "TOP", "LATERAL", "VIEW", "LIMIT", "OFFSET", "FETCH", "UNION", "EXCEPT",
  "INTERSECT", "MINUS", "ON", "JOIN", "INNER", "CROSS", "FULL", "LEFT", "RIGHT", "NATURAL",
  "USING", "CLUSTER", "DISTRIBUTE", "GLOBAL", "ANTI", "SEMI", "RETURNING", "ASOF",
  "MATCH_CONDITION", "OUTER", "SET", "QUALIFY", "WINDOW", "END", "FOR", "PARTITION", "PREWHERE",
  "SETTINGS", "FORMAT", "START", "CONNECT", "MATCH_RECOGNIZE", "SAMPLE", "TABLESAMPLE", "FROM"]

/-- The name under which a source is known, with the names of its columns. -/
def alternative : Reader (Option String) := do
  let name ← optionalAlternative tableReservedWords
  if name.isSome then
    if ← optionalToken .leftParen then
      list identifier
      expectToken .rightParen
  return name

/-- A derived table after the opening parenthesis. -/
def derivedRest (nested : Nested) : Reader Source := do
  let query ← nested.query
  expectToken .rightParen
  let _ ← alternative
  return .derived query

/-- The arguments of a function that takes the place of a table. -/
def optionalArguments (nested : Nested) : Reader Unit := do
  if ← optionalToken .leftParen then
    Expression.argumentsRest nested

/-- Hints in parentheses, if there are any. -/
def optionalHints (nested : Nested) : Reader Unit := do
  match ← remaining with
  | first :: .leftParen :: _ =>
      if HasKeywords.isKeyword "WITH" first then
        let _ ← next
        parenthesized (list nested.anyExpression)
  | _ => return ()

/-- A table with its partitions, arguments and hints. -/
def tableSource (nested : Nested) : Reader Source := do
  let name ← objectName
  if ← optionalKeyword "PARTITION" then
    columnNames
  optionalArguments nested
  let _ ← optionalKeywords ["WITH", "ORDINALITY"]
  let known ← alternative
  optionalHints nested
  return .table name known

/-- A derived table or the call of a function that may use the tables before it. -/
def lateralRest (nested : Nested) : Reader Source := do
  if ← optionalToken .leftParen then
    derivedRest nested
  else
    let _ ← objectName
    expectToken .leftParen
    Expression.argumentsRest nested
    let _ ← alternative
    return .other

/-- A table function after its keyword. -/
def functionRest (nested : Nested) : Reader Source := do
  parenthesized nested.anyExpression
  let _ ← alternative
  return .other

/-- A kind of join, with or without a condition. -/
inductive Join where
  | free
  | conditional
  | natural

/-- The keywords of joins. -/
def joinWords : List (String × List String × Join) := [
  ("CROSS", ["JOIN"], .free),
  ("CROSS", ["APPLY"], .free),
  ("OUTER", ["APPLY"], .free),
  ("JOIN", [], .conditional),
  ("INNER", ["JOIN"], .conditional),
  ("LEFT", ["JOIN"], .conditional),
  ("LEFT", ["OUTER", "JOIN"], .conditional),
  ("LEFT", ["SEMI", "JOIN"], .conditional),
  ("LEFT", ["ANTI", "JOIN"], .conditional),
  ("RIGHT", ["JOIN"], .conditional),
  ("RIGHT", ["OUTER", "JOIN"], .conditional),
  ("RIGHT", ["SEMI", "JOIN"], .conditional),
  ("RIGHT", ["ANTI", "JOIN"], .conditional),
  ("ANTI", ["JOIN"], .conditional),
  ("SEMI", ["JOIN"], .conditional),
  ("FULL", ["JOIN"], .conditional),
  ("FULL", ["OUTER", "JOIN"], .conditional),
  ("NATURAL", ["JOIN"], .natural),
  ("NATURAL", ["INNER", "JOIN"], .natural),
  ("NATURAL", ["LEFT", "JOIN"], .natural),
  ("NATURAL", ["LEFT", "OUTER", "JOIN"], .natural),
  ("NATURAL", ["LEFT", "SEMI", "JOIN"], .natural),
  ("NATURAL", ["LEFT", "ANTI", "JOIN"], .natural),
  ("NATURAL", ["RIGHT", "JOIN"], .natural),
  ("NATURAL", ["RIGHT", "OUTER", "JOIN"], .natural),
  ("NATURAL", ["RIGHT", "SEMI", "JOIN"], .natural),
  ("NATURAL", ["RIGHT", "ANTI", "JOIN"], .natural),
  ("NATURAL", ["FULL", "JOIN"], .natural),
  ("NATURAL", ["FULL", "OUTER", "JOIN"], .natural)]

/-- The condition of a join, if one follows. -/
def optionalCondition (nested : Nested) : Reader Unit := do
  if ← optionalKeyword "ON" then
    nested.anyExpression
  else if ← optionalKeyword "USING" then
    columnNames

/-- A source with others joined to it, each of which `factor` reads. -/
def joinedBy (nested : Nested) (factor : Reader Source) : Reader Sources := do
  let first ← factor
  let rest : Sources ← clauses (keywordHead joinWords)
    (fun kind joined => do
      let added ← factor
      if let .conditional := kind then
        optionalCondition nested
      return joined.append (.cons added .nil))
    Sources.nil
  return .cons first rest

/-- Whether sources in parentheses are joined, or are themselves in parentheses. -/
def mayStandAlone : Sources → Bool
  | .nil => false
  | .cons (.nested _) .nil => true
  | .cons _ .nil => false
  | .cons _ (.cons _ _) => true

/-- Joined sources after the opening parenthesis. -/
def nestedRest (nested : Nested) (factor : Reader Source) : Reader Source := do
  let sources ← joinedBy nested factor
  unless mayStandAlone sources do
    refuse
  expectToken .rightParen
  let _ ← alternative
  return .nested sources

/-- A source in which parentheses are nested at most `depth` deep. -/
def factor (nested : Nested) : Nat → Reader Source
  | 0 => refuse
  | depth + 1 => do
      if ← optionalKeyword "LATERAL" then
        lateralRest nested
      else if ← optionalKeyword "TABLE" then
        functionRest nested
      else if ← optionalToken .leftParen then
        either (· == .unexpected) (derivedRest nested) (nestedRest nested (factor nested depth))
      else
        tableSource nested

/-- A source with others joined to it. -/
def joinedSources (nested : Nested) : Reader Sources := do
  let depth := (← remaining).length
  joinedBy nested (factor nested (depth + 1))

/-- Lists of joined sources with commas between them. -/
def listedSources (nested : Nested) : Reader Sources :=
  separatedFold .comma false (fun sources => return sources.append (← joinedSources nested)) .nil

end Grammar
end Digest
end SchemaLint
