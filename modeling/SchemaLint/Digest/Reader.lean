import SchemaLint.Digest.Syntax
import SchemaLint.Digest.Token

/-!
# Reading tokens of digests

The parsers of names and keywords, and the nesting of expressions and queries in one another,
which is limited.
-/

namespace SchemaLint
namespace Digest

/-- Why a digest is refused. -/
inductive Refusal where
  | unexpected
  /-- Expressions and queries are nested too deep. -/
  | tooDeep
deriving DecidableEq, Repr

/-- A parser of the tokens of a digest. -/
abbrev Reader := Parser Token Refusal

namespace Reader

open SchemaLint.Parser

variable {α : Type}

/-- Finds something else than expected. -/
def refuse : Reader α :=
  failWith fun _ => .unexpected

/-- Reads this token. -/
def expectToken (token : Token) : Reader Unit := do
  unless ← optionalToken token do
    refuse

/-- Reads these keywords. -/
def expectKeywords (keywords : List String) : Reader Unit := do
  unless ← optionalKeywords keywords do
    refuse

/-- Reads one of these keywords, or nothing. -/
def optionalOneOf (keywords : List String) : Reader Bool := do
  if ← aheadAny keywords then
    let _ ← next
    return true
  else
    return false

/-- Reads one of these keywords. -/
def expectOneOf (keywords : List String) : Reader Unit := do
  unless ← optionalOneOf keywords do
    refuse

/-- Reads one token that `f` maps to a value. -/
def token (f : Token → Option α) : Reader α := do
  match (← peek).bind f with
  | some value =>
      let _ ← next
      return value
  | none => refuse

/-- Reads something if a keyword stands in front of it. -/
def after (keyword : String) (p : Reader Unit) : Reader Unit := do
  if ← optionalKeyword keyword then
    p

/-- Reads items with commas between them, and drops them. -/
def list (item : Reader α) : Reader Unit := do
  let _ ← separated .comma item

/-- Reads something between parentheses. -/
def parenthesized (p : Reader α) : Reader α := do
  expectToken .leftParen
  let value ← p
  expectToken .rightParen
  return value

/-- The identifier that a token is; a text may stand for one. -/
def identifierOf? : Token → Option Identifier
  | .word w => some ⟨w, none⟩
  | .quoted name => some ⟨name, some '\x60'⟩
  | .text quote value => some ⟨value, some quote⟩
  | _ => none

/-- An identifier. -/
def identifier : Reader Identifier :=
  token identifierOf?

/-- An identifier of several parts with points between them. -/
def objectName : Reader (List Identifier) :=
  separated .period identifier

/-- The names of columns in parentheses. -/
def columnNames : Reader Unit :=
  parenthesized (list identifier)

/-- Whether a token is a literal value. -/
def isValue : Token → Bool
  | .text _ _ | .number | .literal | .placeholder => true
  | _ => false

/-- A literal value. -/
def value : Reader Unit :=
  token fun t => if isValue t then some () else none

/-- A name for a column or table, which may follow a keyword.  Without the keyword, the words
`reserved` are no such names. -/
def optionalAlternative (reserved : List String) : Reader (Option String) := do
  if ← optionalKeyword "AS" then
    return some (← identifier).value
  else if ← aheadAny reserved then
    return none
  else
    match (← peek).bind identifierOf? with
    | some name =>
        let _ ← next
        return some name.value
    | none => return none

end Reader

/-- The parsers of what may be nested.  The parser of expressions reads only operators that bind
more tightly than a given strength. -/
structure Nested where
  expression : Nat → Reader Unit
  query : Reader Query

namespace Nested

/-- No more nesting. -/
def exhausted : Nested where
  expression _ := Parser.failWith fun _ => .tooDeep
  query := Parser.failWith fun _ => .tooDeep

/-- An expression. -/
def anyExpression (nested : Nested) : Reader Unit :=
  nested.expression 0

end Nested
end Digest
end SchemaLint
