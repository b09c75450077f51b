import SchemaLint.Number.Decimal
import SchemaLint.Sql.Token

/-!
# Syntax errors

What can be wrong with a statement, and on which line of the script.
-/

namespace SchemaLint
namespace Sql

/-- A syntax error. -/
inductive SyntaxError where
  /-- A comment that does not end; the line is the last one of the text. -/
  | unterminatedComment (line : Nat)
  /-- A literal that does not end; the line is what the scanner has counted to at its opening
  quote. -/
  | unterminatedQuote (line : Nat) (quote : Char)
  /-- A token other than what is expected; the line is that of the statement. -/
  | unexpectedToken (line : Nat) (expected : String) (found : Token)
  /-- No token where one is expected; the line is that of the statement. -/
  | unexpectedEnd (line : Nat) (expected : String)
  /-- A digest that is not a statement. -/
  | unreadableDigest
deriving DecidableEq, Repr

namespace SyntaxError

/-- The line of an error. -/
def line : SyntaxError → Nat
  | .unterminatedComment line => line
  | .unterminatedQuote line _ => line
  | .unexpectedToken line _ _ => line
  | .unexpectedEnd line _ => line
  | .unreadableDigest => 1

/-- What is wrong. -/
def reason : SyntaxError → String
  | .unterminatedComment _ => "unterminated comment"
  | .unterminatedQuote _ quote => "unterminated " ++ String.ofList [quote] ++ " quoted string"
  | .unexpectedToken _ expected found =>
      "expected " ++ expected ++ ", found \x60" ++ found.display ++ "\x60"
  | .unexpectedEnd _ expected => "unexpected end of statement, expected " ++ expected
  | .unreadableDigest => "query digest cannot be read"

/-- The text shown to the user. -/
def message (error : SyntaxError) : String :=
  "line " ++ Decimal.text error.line ++ ": " ++ error.reason

end SyntaxError
end Sql
end SchemaLint
