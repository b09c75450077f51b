import SchemaLint.Sql.Grammar.Column
import SchemaLint.Sql.Grammar.Key

/-!
# Tables in statements

The elements and options of a new table, the actions that alter a table, and new indexes.
-/

namespace SchemaLint
namespace Sql
namespace Grammar

open SchemaLint.Parser Reader

/-- An element of a table: a column, a key, or a check or foreign key, which is passed over. -/
def tableElement (table : TableSpec) : Reader TableSpec := do
  let start ← remaining
  let constrained ← optionalKeyword "CONSTRAINT"
  if constrained then
    constraintName
  if ← aheadAny ["FOREIGN", "CHECK"] then
    skipClause
    return table
  else
    match (← peek).bind keyKindOf? with
    | some kind => return { table with keys := table.keys ++ [← keyClause kind start] }
    | none =>
        if constrained then
          fail "PRIMARY KEY, UNIQUE, FOREIGN KEY or CHECK"
        else
          return { table with columns := table.columns ++ [← column] }

/-- The value of a table option: a group or one token. -/
def optionValue : Reader String := do
  match ← peek with
  | some .leftParen => group
  | some (.word value) | some (.quoted value) | some (.text value) | some (.number value)
  | some (.bits value) =>
      let _ ← next
      return value
  | _ => fail "option value"

/-- The beginning of a part of the options of a table. -/
inductive OptionHead where
  /-- A comma or a word that says nothing. -/
  | filler
  /-- A part of the statement that is not modelled, up to its end. -/
  | rest
  | option (name : String)

/-- The beginnings of several words or without an option. -/
def optionHeads : List (String × List String × OptionHead) := [
  ("DEFAULT", [], .filler),
  ("PARTITION", [], .rest),
  ("AS", [], .rest),
  ("SELECT", [], .rest),
  ("IGNORE", [], .rest),
  ("REPLACE", [], .rest),
  ("CHARACTER", ["SET"], .option "CHARSET"),
  ("DATA", ["DIRECTORY"], .option "DATA DIRECTORY"),
  ("INDEX", ["DIRECTORY"], .option "INDEX DIRECTORY")]

/-- The beginning that a token and those after it are. -/
def optionHead (token : Token) (rest : List Token) : Option (OptionHead × Nat) :=
  match token with
  | .comma => some (.filler, 0)
  | .word name =>
      some ((keywordHead optionHeads token rest).getD (.option (Text.upper name), 0))
  | _ => none

/-- A part of the options of a table, after its beginning. -/
def tableOption (head : OptionHead) (table : TableSpec) : Reader TableSpec := do
  match head with
  | .filler => return table
  | .rest => scan (fun _ => (table, [])) fun _ => List.nil_suffix
  | .option name =>
      optionalEquals
      return { table with options := table.options ++ [(name, ← optionValue)] }

/-- The options of a table, to the end of the statement. -/
def tableOptions (table : TableSpec) : Reader TableSpec := do
  let table ← clauses optionHead tableOption table
  if ← atEnd then
    return table
  else
    fail "table option"

/-- The elements of a table after the opening parenthesis, and its options. -/
def tableBody (table : TableSpec) : Reader TableSpec := do
  let table ← separatedFold .comma false tableElement table
  expectToken .rightParen "\x60,\x60 or \x60)\x60"
  tableOptions table

/-- The keywords after `ADD` that do not begin a column. -/
def keyWords : List String :=
  ["PRIMARY", "UNIQUE", "INDEX", "KEY", "FULLTEXT", "SPATIAL", "CONSTRAINT", "FOREIGN", "CHECK"]

/-- One column, or several in parentheses. -/
def addedColumns : Reader (List ColumnSpec) := do
  if ← optionalToken .leftParen then
    let columns ← separated .comma column
    expectToken .rightParen ")"
    return columns
  else
    return [← column]

/-- An action that is passed over; its text begins with the tokens `start`. -/
def unsupportedAction (start : List Token) : Reader (List AlterAction) := do
  skipClause
  return [.unsupported (← textSince start)]

/-- What an action adds, after its first keyword.  The text of the action begins with the
tokens `start`. -/
def addition (start : List Token) : Reader (List AlterAction) := do
  let keyAhead ← aheadAny keyWords
  let columnKeyword ← optionalKeyword "COLUMN"
  if columnKeyword || !keyAhead then
    return (← addedColumns).map .addColumn
  else
    let clause ← remaining
    if ← optionalKeyword "CONSTRAINT" then
      constraintName
    match (← peek).bind keyKindOf? with
    | some kind => return [.addKey (← keyClause kind clause)]
    | none => unsupportedAction start

/-- One alteration of a table, which may add several columns. -/
def alterAction : Reader (List AlterAction) := do
  let start ← remaining
  if ← optionalKeyword "ADD" then
    addition start
  else
    unsupportedAction start

/-- The alterations of a table, to the end of the statement; there may be none, and the last
may be followed by a comma. -/
def alterActions : Reader (List AlterAction) := do
  if ← atEnd then
    return []
  else
    let actions ← separatedFold .comma true
      (fun actions => return actions ++ (← alterAction)) []
    if ← atEnd then
      return actions
    else
      fail "\x60,\x60 between ALTER TABLE actions"

/-- The kind of a new index. -/
def indexKind : Reader KeyKind := do
  if ← optionalKeyword "UNIQUE" then return .unique
  else if ← optionalKeyword "FULLTEXT" then return .fulltext
  else if ← optionalKeyword "SPATIAL" then return .spatial
  else return .index

/-- A new index, after the first keyword of its statement. -/
def createIndex : Reader Statement := do
  let start ← remaining
  let kind ← indexKind
  expectKeyword "INDEX"
  let name ← identifier
  let method ← optionalMethod
  expectKeyword "ON"
  let table ← objectName
  let columns ← keyParts
  let method ← keyOptions method
  return .createIndex table { kind, name := some name, columns, method, text := ← textSince start }

end Grammar
end Sql
end SchemaLint
