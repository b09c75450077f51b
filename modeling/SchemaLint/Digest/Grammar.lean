import SchemaLint.Digest.Scan
import SchemaLint.Digest.Source

/-!
# Reading digests

The statements of a digest.  Queries and changes of rows are kept with their sources; of the
others only the form is checked.
-/

namespace SchemaLint
namespace Digest
namespace Grammar

open SchemaLint.Parser Reader

/-- The words that are no names of columns unless they are quoted or follow a keyword. -/
def reservedWords : List String := [
  "WITH", "EXPLAIN", "ANALYZE", "SELECT", "WHERE", "GROUP", "SORT", "HAVING", "ORDER", "TOP",
  "LATERAL", "VIEW", "LIMIT", "OFFSET", "FETCH", "UNION", "EXCEPT", "INTERSECT", "MINUS",
  "CLUSTER", "DISTRIBUTE", "RETURNING", "FROM", "INTO", "END"]

/-- An item of a selection: a star, or an expression with a name. -/
def selectedExpression (nested : Nested) : Reader Unit := do
  match ← remaining with
  | first :: rest =>
      let bare := HasKeywords.isKeyword "FROM" first && rest.head? != some .period &&
        rest.head? != some .leftParen
      if bare then
        refuse
      else
        nested.anyExpression
        let _ ← optionalAlternative reservedWords
  | [] => refuse

/-- An item of a selection. -/
def selected (nested : Nested) : Reader Unit :=
  either (fun _ => true) Expression.wildcard (selectedExpression nested)

/-- Whether rows that occur twice are wanted. -/
def distinctness (nested : Nested) : Reader Unit := do
  let all ← optionalKeyword "ALL"
  if ← optionalKeyword "DISTINCT" then
    if all then
      refuse
    after "ON" (parenthesized (list nested.anyExpression))

/-- The number of first rows that are wanted. -/
def firstRows (nested : Nested) : Reader Unit :=
  after "TOP" do
    if ← optionalToken .leftParen then
      nested.anyExpression
      expectToken .rightParen
    else
      token fun t => if t = .number then some () else none

/-- The table that rows are put into. -/
def intoTable : Reader Unit :=
  after "INTO" do
    let _ ← optionalOneOf ["TEMP", "TEMPORARY"]
    let _ ← optionalKeyword "UNLOGGED"
    let _ ← optionalKeyword "TABLE"
    let _ ← objectName

/-- The columns to group by. -/
def grouping (nested : Nested) : Reader Unit := do
  if ← optionalKeywords ["GROUP", "BY"] then
    unless ← optionalKeyword "ALL" do
      list nested.anyExpression

/-- A list of expressions after two keywords, if they follow. -/
def listAfter (nested : Nested) (first second : String) : Reader Unit := do
  if ← optionalKeywords [first, second] then
    list nested.anyExpression

/-- A window that has a name. -/
def namedWindow (nested : Nested) : Reader Unit := do
  let _ ← identifier
  expectKeywords ["AS"]
  expectToken .leftParen
  Expression.windowRest nested

/-- A selection after its first keyword. -/
def selection (nested : Nested) : Reader Body := do
  distinctness nested
  firstRows nested
  list (selected nested)
  intoTable
  let mut sources := Sources.nil
  if ← optionalKeyword "FROM" then
    sources ← listedSources nested
  after "WHERE" nested.anyExpression
  grouping nested
  listAfter nested "CLUSTER" "BY"
  listAfter nested "DISTRIBUTE" "BY"
  listAfter nested "SORT" "BY"
  after "HAVING" nested.anyExpression
  after "WINDOW" (list (namedWindow nested))
  after "QUALIFY" nested.anyExpression
  return .select sources

/-- One of several rows. -/
def row (nested : Nested) : Reader Unit := do
  let _ ← optionalKeyword "ROW"
  expectToken .leftParen
  unless ← optionalToken .rightParen do
    list nested.anyExpression
    expectToken .rightParen

/-- A body that is no combination of bodies. -/
def simpleBody (nested : Nested) : Reader Body := do
  if ← optionalKeyword "SELECT" then
    selection nested
  else if ← optionalToken .leftParen then
    let query ← nested.query
    expectToken .rightParen
    return .parenthesized query
  else if ← optionalKeyword "VALUES" then
    list (row nested)
    return .rows
  else if ← optionalKeyword "TABLE" then
    let _ ← objectName
    return .rows
  else
    refuse

/-- The operators that combine bodies. -/
def setOperators : List (String × List String × Unit) :=
  [("UNION", [], ()), ("EXCEPT", [], ()), ("INTERSECT", [], ())]

/-- What may follow an operator that combines bodies. -/
def setQuantifier : Reader Unit := do
  let _ ← Expression.optionalSequence [
    ["DISTINCT", "BY", "NAME"], ["BY", "NAME"], ["ALL", "BY", "NAME"], ["ALL"], ["DISTINCT"]]

/-- The body of a query. -/
def body (nested : Nested) : Reader Body := do
  let first ← simpleBody nested
  clauses (keywordHead setOperators)
    (fun _ left => do
      setQuantifier
      return .combine left (← simpleBody nested))
    first

/-- A named query in front of another. -/
def definition (nested : Nested) : Reader (String × Query) := do
  let name ← identifier
  unless ← optionalKeyword "AS" do
    if ← optionalToken .leftParen then
      list identifier
      expectToken .rightParen
    expectKeywords ["AS"]
  let query ← parenthesized nested.query
  if ← optionalKeyword "FROM" then
    let _ ← identifier
  return (name.value, query)

/-- The named queries in front of another, and whether they are recursive. -/
def definitions (nested : Nested) : Reader (Bool × Definitions) := do
  if ← optionalKeyword "WITH" then
    let recursive ← optionalKeyword "RECURSIVE"
    let found ← separated .comma (definition nested)
    return (recursive, found.foldr (fun entry rest => .cons entry.1 entry.2 rest) .nil)
  else
    return (false, .nil)

/-- The number of rows and how many of them to pass over.  Each may stand first, and a comma
may stand for the second word. -/
def limits (nested : Nested) : Reader Unit := do
  let limit : Reader Unit := do
    unless ← optionalKeyword "ALL" do
      nested.anyExpression
  let offset : Reader Unit := do
    nested.anyExpression
    let _ ← optionalOneOf ["ROW", "ROWS"]
  if ← optionalKeyword "LIMIT" then
    let all ← ahead "ALL"
    limit
    if ← optionalKeyword "OFFSET" then
      offset
    else if !all then
      if ← optionalToken .comma then
        nested.anyExpression
  else if ← optionalKeyword "OFFSET" then
    offset
    after "LIMIT" limit

/-- The number of rows to fetch. -/
def fetch (nested : Nested) : Reader Unit :=
  after "FETCH" do
    expectOneOf ["FIRST", "NEXT"]
    unless ← optionalOneOf ["ROW", "ROWS"] do
      nested.anyExpression
      let _ ← optionalKeyword "PERCENT"
      expectOneOf ["ROW", "ROWS"]
    unless ← optionalKeyword "ONLY" do
      expectKeywords ["WITH", "TIES"]

/-- How rows are locked. -/
def rowLock : Reader Unit := do
  expectOneOf ["UPDATE", "SHARE"]
  if ← optionalKeyword "OF" then
    let _ ← objectName
  unless ← optionalKeyword "NOWAIT" do
    let _ ← optionalKeywords ["SKIP", "LOCKED"]

/-- A new value of a column, or of several columns. -/
def assignment (nested : Nested) : Reader Unit := do
  if ← optionalToken .leftParen then
    list objectName
    expectToken .rightParen
  else
    let _ ← objectName
  expectToken (.operator "=")
  nested.anyExpression

/-- The items that a statement returns. -/
def returning (nested : Nested) : Reader Unit :=
  after "RETURNING" (list (selected nested))

/-- What an insertion or update does on a conflict. -/
def conflictClause : Reader Unit := do
  let _ ← Expression.optionalSequence [
    ["OR", "REPLACE"], ["OR", "ROLLBACK"], ["OR", "ABORT"], ["OR", "FAIL"], ["OR", "IGNORE"]]

/-- An update after its first keyword, and its target. -/
def update (nested : Nested) : Reader Sources := do
  conflictClause
  let target ← joinedSources nested
  expectKeywords ["SET"]
  list (assignment nested)
  let _ ← optionalKeyword "FROM"
  after "WHERE" nested.anyExpression
  returning nested
  return target

/-- Whether a selection in parentheses follows. -/
def selectionAhead : Reader Bool := do
  match ← remaining with
  | .leftParen :: second :: _ => return HasKeywords.isKeyword "SELECT" second
  | _ => return false

/-- The columns and partitions of an insertion. -/
def insertedColumns (nested : Nested) : Reader Unit := do
  unless ← selectionAhead do
    if ← optionalToken .leftParen then
      unless ← optionalToken .rightParen do
        list identifier
        expectToken .rightParen
    after "PARTITION" (parenthesized (list nested.anyExpression))

/-- The rows of an insertion: one of default values, or those of a query. -/
def insertedRows (nested : Nested) : Reader (Option Query) := do
  if ← optionalKeywords ["DEFAULT", "VALUES"] then
    return none
  else
    insertedColumns nested
    return some (← nested.query)

/-- What an insertion does with rows that are there already. -/
def onDuplicate (nested : Nested) : Reader Unit := do
  if ← optionalKeyword "AS" then
    let _ ← objectName
    if (← peek) = some .leftParen then
      columnNames
  if ← optionalKeyword "ON" then
    expectKeywords ["DUPLICATE", "KEY", "UPDATE"]
    list (assignment nested)
  returning nested

/-- An insertion after its first keyword, and the query that gives its rows. -/
def insertion (nested : Nested) : Reader (Option Query) := do
  conflictClause
  let _ ← optionalOneOf ["LOW_PRIORITY", "DELAYED", "HIGH_PRIORITY"]
  let _ ← optionalKeyword "IGNORE"
  let _ ← optionalKeyword "OVERWRITE"
  let _ ← optionalKeyword "INTO"
  let _ ← optionalKeyword "TABLE"
  let _ ← objectName
  let rows ← insertedRows nested
  onDuplicate nested
  return rows

/-- The rest of a query after its definitions, unless it inserts or updates rows. -/
def queryRest (nested : Nested) : Reader Body := do
  let body ← body nested
  Expression.optionalOrder nested
  limits nested
  fetch nested
  clauses (keywordHead [("FOR", [], ())]) (fun _ _ => rowLock) ()
  return body

/-- A query with more nesting inside. -/
def queryWithin (nested : Nested) : Reader Query := do
  let (recursive, definitions) ← definitions nested
  if ← optionalKeyword "INSERT" then
    let rows ← insertion nested
    return .mk recursive definitions (rows.elim .rows .insert)
  else if ← optionalKeyword "UPDATE" then
    return .mk recursive definitions (.update (← update nested))
  else
    return .mk recursive definitions (← queryRest nested)

/-- The parsers with one more level of nesting. -/
def deeper (nested : Nested) : Nested where
  expression := Expression.within nested
  query := queryWithin nested

/-- The parsers with some levels of nesting. -/
def withDepth : Nat → Nested
  | 0 => Nested.exhausted
  | depth + 1 => deeper (withDepth depth)

/-- The number of levels of expressions and queries inside a statement. -/
def maxDepth : Nat := 49

/-- A deletion after its first keyword, and its sources. -/
def deletion (nested : Nested) : Reader Sources := do
  unless ← optionalKeyword "FROM" do
    list objectName
    expectKeywords ["FROM"]
  let mut sources ← listedSources nested
  if ← optionalKeyword "USING" then
    sources := sources.append (← listedSources nested)
  after "WHERE" nested.anyExpression
  returning nested
  Expression.optionalOrder nested
  after "LIMIT" do
    unless ← optionalKeyword "ALL" do
      nested.anyExpression
  return sources

/-- How a transaction is chained to the next one. -/
def transactionEnd : Reader Unit := do
  let _ ← optionalOneOf ["TRANSACTION", "WORK"]
  if ← optionalKeyword "AND" then
    let _ ← optionalKeyword "NO"
    expectKeywords ["CHAIN"]

/-- What the first keyword of a statement says of it. -/
inductive Head where
  | query
  | update
  | insert
  | delete
  | startTransaction
  | beginTransaction
  | commit
  | rollback

/-- The first keywords of statements. -/
def heads : List (String × List String × Head) := [
  ("SELECT", [], .query),
  ("WITH", [], .query),
  ("VALUES", [], .query),
  ("UPDATE", [], .update),
  ("INSERT", [], .insert),
  ("REPLACE", [], .insert),
  ("DELETE", [], .delete),
  ("START", ["TRANSACTION"], .startTransaction),
  ("BEGIN", [], .beginTransaction),
  ("COMMIT", [], .commit),
  ("ROLLBACK", [], .rollback)]

/-- What a statement begins with. -/
def headOf? (tokens : List Token) : Option (Head × Nat) :=
  match tokens with
  | [] => none
  | .leftParen :: _ => some (.query, 0)
  | first :: rest => keywordHead heads first rest

/-- A statement that begins with a head. -/
def statementWith (nested : Nested) (head : Head) : Reader Statement := do
  match head with
  | .query => return .query (← nested.query)
  | .update =>
      let _ ← next
      return .update (← update nested)
  | .insert =>
      let _ ← next
      return (← insertion nested).elim .other .insert
  | .delete =>
      let _ ← next
      return .delete (← deletion nested)
  | .startTransaction =>
      expectKeywords ["START", "TRANSACTION"]
      return .other
  | .beginTransaction =>
      let _ ← next
      let _ ← optionalOneOf ["TRANSACTION", "WORK"]
      return .other
  | .commit =>
      let _ ← next
      transactionEnd
      return .other
  | .rollback =>
      let _ ← next
      transactionEnd
      if ← optionalKeyword "TO" then
        let _ ← optionalKeyword "SAVEPOINT"
        let _ ← identifier
      return .other

/-- A statement. -/
def statement : Reader Statement := do
  match headOf? (← remaining) with
  | some (head, _) => statementWith (withDepth maxDepth) head
  | none => refuse

/-- A statement, or nothing between semicolons. -/
def optionalStatement : Reader (List Statement) := do
  match ← peek with
  | none | some .semicolon => return []
  | some _ => return [← statement]

/-- The statements of a digest, with semicolons between them.  The word `END` after a statement
ends the digest. -/
def statements : Reader (List Statement) := do
  let found ← separated .semicolon optionalStatement
  let ended ← ahead "END"
  if (← atEnd) || ended then
    return found.flatten
  else
    refuse

end Grammar

/-- The statements of a text in which placeholders may stand for values. -/
def parse? : StatementParser := fun text => do
  let tokens ← scan text.toList
  match Grammar.statements.run tokens with
  | .ok (statements, _) => some statements
  | .error _ => none

end Digest
end SchemaLint
