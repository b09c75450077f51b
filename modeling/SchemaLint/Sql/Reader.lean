import SchemaLint.Parser.Keyword
import SchemaLint.Sql.SyntaxError

/-!
# Reading tokens of statements

The parsers of single tokens and keywords.  A parser that fails says what it expected and which
token it found.
-/

namespace SchemaLint
namespace Sql

/-- What a parser expects, and the token that it finds there, if any. -/
structure Mismatch where
  expected : String
  found : Option Token
deriving DecidableEq, Repr

namespace Mismatch

/-- The syntax error of a statement that begins on line `line`. -/
def atLine (line : Nat) (mismatch : Mismatch) : SyntaxError :=
  match mismatch.found with
  | some token => .unexpectedToken line mismatch.expected token
  | none => .unexpectedEnd line mismatch.expected

end Mismatch

instance : HasKeywords Token := ⟨Token.isKeyword⟩

/-- A parser of the tokens of a statement. -/
abbrev Reader := Parser Token Mismatch

namespace Reader

open SchemaLint.Parser

variable {α : Type}

/-- Finds something else than expected. -/
def fail (expected : String) : Reader α :=
  failWith fun tokens => ⟨expected, tokens.head?⟩

/-- Reads this token. -/
def expectToken (token : Token) (expected : String) : Reader Unit := do
  unless ← optionalToken token do
    fail expected

/-- Reads this keyword. -/
def expectKeyword (keyword : String) : Reader Unit := do
  unless ← optionalKeyword keyword do
    fail keyword

/-- Reads one token that `f` maps to a value. -/
def token (f : Token → Option α) (expected : String) : Reader α := do
  match (← peek).bind f with
  | some value =>
      let _ ← next
      return value
  | none => fail expected

/-- The text of the tokens read since `start` tokens were left. -/
def textSince (start : List Token) : Reader String := do
  let rest ← remaining
  return Token.displayAll (start.take (start.length - rest.length))

end Reader
end Sql
end SchemaLint
