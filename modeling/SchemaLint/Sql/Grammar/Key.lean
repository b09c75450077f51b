import SchemaLint.Sql.Grammar.Name

/-!
# Keys in statements

Key clauses of tables and the columns and options of an index.  The text of a clause is kept,
from its first keyword to the end of its options.
-/

namespace SchemaLint
namespace Sql
namespace Grammar

open SchemaLint.Parser Reader

/-- The kind of key that a token begins. -/
def keyKindOf? (token : Token) : Option KeyKind :=
  if token.isKeyword "PRIMARY" then some .primary
  else if token.isKeyword "UNIQUE" then some .unique
  else if token.isKeyword "INDEX" || token.isKeyword "KEY" then some .index
  else if token.isKeyword "FULLTEXT" then some .fulltext
  else if token.isKeyword "SPATIAL" then some .spatial
  else none

/-- A column of a key, with the number of leading characters and a direction if given. -/
def keyPart : Reader KeyPart := do
  if (← peek) = some .leftParen then
    fail "column name (expression key parts are not supported)"
  else
    let column ← identifier
    let mut length : Option UInt64 := none
    if ← optionalToken .leftParen then
      length := some (← integer)
      expectToken .rightParen ")"
    optionalEither "ASC" "DESC"
    return { column, length }

/-- The columns of a key. -/
def keyParts : Reader (List KeyPart) := do
  expectToken .leftParen "("
  let parts ← separated .comma keyPart
  expectToken .rightParen "\x60,\x60 or \x60)\x60"
  return parts

/-- An index method, in capitals. -/
def keyMethod : Reader String :=
  return Text.upper (← identifier)

/-- An index method if the keyword for it follows. -/
def optionalMethod : Reader (Option String) := do
  if ← optionalKeyword "USING" then
    return some (← keyMethod)
  else
    return none

/-- The first keyword of an index option, up to options that are read alike. -/
inductive KeyOptionHead where
  | method
  | comment
  | value
  | tokenizer
  | visibility

/-- The keywords of index options. -/
def keyOptionHeads : List (String × List String × KeyOptionHead) := [
  ("USING", [], .method),
  ("COMMENT", [], .comment),
  ("KEY_BLOCK_SIZE", [], .value),
  ("ENGINE_ATTRIBUTE", [], .value),
  ("SECONDARY_ENGINE_ATTRIBUTE", [], .value),
  ("ALGORITHM", [], .value),
  ("LOCK", [], .value),
  ("WITH", ["PARSER"], .tokenizer),
  ("VISIBLE", [], .visibility),
  ("INVISIBLE", [], .visibility)]

/-- The rest of an index option; only a method changes anything. -/
def keyOption (head : KeyOptionHead) (method : Option String) : Reader (Option String) := do
  match head with
  | .method => return some (← keyMethod)
  | .comment =>
      let _ ← text
      return method
  | .value =>
      anyValue
      return method
  | .tokenizer =>
      let _ ← identifier
      return method
  | .visibility => return method

/-- The options after the columns of an index, and the method that holds after them. -/
def keyOptions (method : Option String) : Reader (Option String) :=
  clauses (keywordHead keyOptionHeads) keyOption method

/-- The keywords at the beginning of a key clause. -/
def keyHead (kind : KeyKind) : Reader Unit := do
  match kind with
  | .primary =>
      expectKeyword "PRIMARY"
      expectKeyword "KEY"
  | .index =>
      let _ ← next
  | .unique | .fulltext | .spatial =>
      let _ ← next
      optionalEither "INDEX" "KEY"

/-- The name of a key, if one follows. -/
def optionalKeyName : Reader (Option String) := do
  match ← peek with
  | some token =>
      if token.isKeyword "USING" then
        return none
      else
        match nameOf? token with
        | some name =>
            let _ ← next
            return some name
        | none => return none
  | none => return none

/-- A key clause whose text begins with the tokens `start`. -/
def keyClause (kind : KeyKind) (start : List Token) : Reader KeyClause := do
  keyHead kind
  let name ← optionalKeyName
  let method ← optionalMethod
  let columns ← keyParts
  let method ← keyOptions method
  return { kind, name, columns, method, text := ← textSince start }

/-- The name of a constraint, which may be left out before these keywords. -/
def constraintName : Reader Unit := do
  unless ← aheadAny ["PRIMARY", "UNIQUE", "FOREIGN", "CHECK"] do
    let _ ← identifier

end Grammar
end Sql
end SchemaLint
