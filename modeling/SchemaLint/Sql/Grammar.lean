import SchemaLint.Sql.Grammar.Account
import SchemaLint.Sql.Grammar.Table
import SchemaLint.Sql.Scan
import SchemaLint.Sql.Script

/-!
# Reading statements

The statement that a text is, and the statements of a script.  Those that define the catalog are
read in full, the others are known by their first keywords, and a statement that is not
understood keeps its text.
-/

namespace SchemaLint
namespace Sql
namespace Grammar

open SchemaLint.Parser Reader

/-- The words that say that an object may be there already. -/
def optionalIfNotExists : Reader Bool :=
  optionalKeywords ["IF", "NOT", "EXISTS"]

/-- The words that say that an object may be missing. -/
def optionalIfExists : Reader Bool :=
  optionalKeywords ["IF", "EXISTS"]

/-- A part of a statement between `CREATE` and the kind of object. -/
inductive CreationHead where
  | definer
  | algorithm
  | security

/-- The keywords of those parts. -/
def creationHeads : List (String × List String × CreationHead) := [
  ("DEFINER", [], .definer),
  ("ALGORITHM", [], .algorithm),
  ("SQL", ["SECURITY"], .security)]

/-- The rest of a part between `CREATE` and the kind of object. -/
def creationPart (head : CreationHead) : Reader Unit := do
  match head with
  | .definer =>
      optionalEquals
      let _ ← accountName
      if ← optionalToken .leftParen then
        expectToken .rightParen ")"
  | .algorithm => anyValue
  | .security =>
      let _ ← next

/-- The kinds of objects that a statement creates. -/
inductive CreatedKind where
  | schema
  | table
  | view
  | index
  | user
  | inert (kind : Inert)

/-- The keywords of objects that are created. -/
def createdKinds : List (String × List String × CreatedKind) := [
  ("DATABASE", [], .schema),
  ("SCHEMA", [], .schema),
  ("TABLE", [], .table),
  ("VIEW", [], .view),
  ("UNIQUE", [], .index),
  ("FULLTEXT", [], .index),
  ("SPATIAL", [], .index),
  ("INDEX", [], .index),
  ("USER", [], .user),
  ("PROCEDURE", [], .inert .createProcedure),
  ("FUNCTION", [], .inert .createFunction),
  ("TRIGGER", [], .inert .createTrigger)]

/-- What the first entry whose keywords follow stands for. -/
def kindAhead {κ : Type} (table : List (String × List String × κ)) : Reader (Option κ) :=
  return match ← remaining with
  | [] => none
  | token :: rest => (keywordHead table token rest).map Prod.fst

/-- A new schema; what follows its name is not read. -/
def createSchema : Reader Statement := do
  let ifNotExists ← optionalIfNotExists
  return .createDatabase (← identifier) ifNotExists

/-- A new table; one without a list of elements is not understood. -/
def createTable (temporary : Bool) (statement : String) : Reader Statement := do
  let ifNotExists ← optionalIfNotExists
  let name ← objectName
  if ← optionalToken .leftParen then
    return .createTable (← tableBody { name, ifNotExists, temporary })
  else
    return .unsupported statement

/-- A statement that begins with `CREATE`, after that keyword. -/
def create (statement : String) : Reader Statement := do
  let _ ← optionalKeywords ["OR", "REPLACE"]
  clauses (keywordHead creationHeads) (fun head _ => creationPart head) ()
  let temporary ← optionalKeyword "TEMPORARY"
  match ← kindAhead createdKinds with
  | some .schema =>
      let _ ← next
      createSchema
  | some .table =>
      let _ ← next
      createTable temporary statement
  | some .view =>
      let _ ← next
      return .createView (← objectName)
  | some .index => createIndex
  | some .user =>
      let _ ← next
      createUser (← optionalIfNotExists)
  | some (.inert kind) => return .inert kind
  | none => return .unsupported statement

/-- The kinds of objects that a statement drops. -/
inductive DroppedKind where
  | schema
  | table
  | inert (kind : Inert)

/-- The keywords of objects that are dropped. -/
def droppedKinds : List (String × List String × DroppedKind) := [
  ("DATABASE", [], .schema),
  ("SCHEMA", [], .schema),
  ("TABLE", [], .table),
  ("TABLES", [], .table),
  ("VIEW", [], .table),
  ("PROCEDURE", [], .inert .dropProcedure),
  ("FUNCTION", [], .inert .dropFunction),
  ("TRIGGER", [], .inert .dropTrigger)]

/-- A statement that begins with `DROP`, after that keyword. -/
def drop (statement : String) : Reader Statement := do
  let _ ← optionalKeyword "TEMPORARY"
  match ← kindAhead droppedKinds with
  | some .schema =>
      let _ ← next
      let ifExists ← optionalIfExists
      return .dropDatabase (← identifier) ifExists
  | some .table =>
      let _ ← next
      let ifExists ← optionalIfExists
      return .dropTable (← separated .comma objectName) ifExists
  | some (.inert kind) => return .inert kind
  | none => return .unsupported statement

/-- A statement that begins with `ALTER`, after that keyword. -/
def alter (statement : String) : Reader Statement := do
  let _ ← optionalKeyword "ONLINE"
  let _ ← optionalKeyword "IGNORE"
  if ← optionalKeyword "TABLE" then
    let table ← objectName
    return .alterTable table (← alterActions)
  else
    return .unsupported statement

/-- What the first keyword of a statement says of it. -/
inductive StatementHead where
  | create
  | drop
  | alter
  | grant
  | use
  | inert (kind : Inert)

/-- The first keywords of statements. -/
def statementHeads : List (String × List String × StatementHead) := [
  ("CREATE", [], .create),
  ("DROP", [], .drop),
  ("ALTER", [], .alter),
  ("GRANT", [], .grant),
  ("USE", [], .use),
  ("SET", [], .inert .set),
  ("DESCRIBE", [], .inert .describe),
  ("DESC", [], .inert .describe),
  ("INSERT", [], .inert .insert),
  ("REPLACE", [], .inert .insert),
  ("SELECT", [], .inert .select),
  ("UPDATE", [], .inert .update),
  ("DELETE", [], .inert .delete),
  ("LOCK", [], .inert .lockTables),
  ("UNLOCK", [], .inert .unlockTables),
  ("START", [], .inert .transaction),
  ("BEGIN", [], .inert .transaction),
  ("COMMIT", [], .inert .transaction),
  ("ROLLBACK", [], .inert .transaction)]

/-- A statement, whose text is `statement`. -/
def statement (statement : String) : Reader Statement := do
  match ← kindAhead statementHeads with
  | some head =>
      let _ ← next
      match head with
      | .create => create statement
      | .drop => drop statement
      | .alter => alter statement
      | .grant => grant
      | .use => return .use (← identifier)
      | .inert kind => return .inert kind
  | none => return .unsupported statement

end Grammar

/-- The statement that a text is; nothing, if there are only comments in it. -/
def parseStatement (line : Nat) (text : String) : Except SyntaxError (Option Statement) := do
  match ← tokenize line text with
  | [] => return none
  | tokens =>
      match (Grammar.statement (Text.trim text)).run tokens with
      | .ok (statement, _) => return some statement
      | .error mismatch => throw (mismatch.atLine line)

/-- A statement with its text and the line on which it begins. -/
structure ScriptStatement where
  line : Nat
  text : String
  statement : Statement
deriving DecidableEq, Repr

/-- The statement of a chunk, unless there are only comments in it. -/
def Chunk.parse (chunk : Chunk) : Except SyntaxError (Option ScriptStatement) :=
  (parseStatement chunk.line chunk.text).map fun statement =>
    statement.map ({ line := chunk.line, text := chunk.text, statement := · })

/-- The statements of a script, or the first error. -/
def parseScript (script : String) : Except SyntaxError (List ScriptStatement) :=
  ((Script.chunks script).mapM Chunk.parse).map (·.filterMap id)

end Sql
end SchemaLint
