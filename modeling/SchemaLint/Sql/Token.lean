import SchemaLint.Text.Basic

/-!
# SQL tokens

The tokens of a statement.  A keyword is a word like any other: only its place decides what it
means, and a quoted identifier is never a keyword.
-/

namespace SchemaLint
namespace Sql

/-- A token of a statement. -/
inductive Token where
  /-- An identifier or keyword without quotes. -/
  | word (text : String)
  /-- An identifier in backticks. -/
  | quoted (name : String)
  /-- The value of a string literal. -/
  | text (value : String)
  | number (digits : String)
  /-- A bit or hexadecimal literal as written. -/
  | bits (literal : String)
  | leftParen
  | rightParen
  | comma
  | dot
  | equals
  | at
  | minus
  | plus
  | semicolon
  | symbol (c : Char)
deriving DecidableEq, Repr

namespace Token

/-- Whether the token is this keyword, in any case. -/
def isKeyword (keyword : String) : Token → Bool
  | .word w => Text.sameLetters w keyword
  | _ => false

/-- The text of a token.  Quotes and backticks inside are doubled. -/
def display : Token → String
  | .word w => w
  | .quoted name => "\x60" ++ Text.double '\x60' name ++ "\x60"
  | .text value => "'" ++ Text.double '\'' value ++ "'"
  | .number digits => digits
  | .bits literal => literal
  | .leftParen => "("
  | .rightParen => ")"
  | .comma => ","
  | .dot => "."
  | .equals => "="
  | .at => "@"
  | .minus => "-"
  | .plus => "+"
  | .semicolon => ";"
  | .symbol c => String.ofList [c]

/-- The texts of tokens with single spaces between them. -/
def displayAll (tokens : List Token) : String :=
  Text.join " " (tokens.map display)

end Token
end Sql
end SchemaLint
