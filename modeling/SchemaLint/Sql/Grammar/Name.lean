import SchemaLint.Sql.Reader
import SchemaLint.Sql.Statement

/-!
# Names, literals and groups

The smallest parts of statements: names with or without quotes, literals, accounts, and groups
in parentheses, of which only the text is kept.
-/

namespace SchemaLint
namespace Sql
namespace Grammar

open SchemaLint.Parser Reader

/-- The name that a token is. -/
def nameOf? : Token → Option String
  | .word w => some w
  | .quoted name => some name
  | _ => none

/-- The name or text that a token is. -/
def nameOrTextOf? : Token → Option String
  | .text value => some value
  | token => nameOf? token

/-- The text that a token is. -/
def textOf? : Token → Option String
  | .text value => some value
  | _ => none

/-- The digits that a token is. -/
def digitsOf? : Token → Option String
  | .number digits => some digits
  | _ => none

/-- The host that a token after the sign `@` is. -/
def hostOf? : Token → Option String
  | .number digits => some digits
  | .symbol '%' => some "%"
  | token => nameOrTextOf? token

/-- A name. -/
def identifier : Reader String :=
  token nameOf? "identifier"

/-- A name, or a text in its place. -/
def nameOrText : Reader String :=
  token nameOrTextOf? "identifier"

/-- A string literal. -/
def text : Reader String :=
  token textOf? "string literal"

/-- A number as written. -/
def numeral : Reader String :=
  token digitsOf? "number"

/-- An integer of 64 bits. -/
def integer : Reader UInt64 :=
  token (fun t => (digitsOf? t).bind Decimal.word64?) "integer"

/-- A name that may be qualified. -/
def objectName : Reader ObjectName := do
  let first ← identifier
  if ← optionalToken .dot then
    return { schema := some first, name := ← identifier }
  else
    return { name := first }

/-- The user and host of an account; without a host it is any host. -/
def accountName : Reader (String × String) := do
  let user ← nameOrText
  if ← optionalToken .at then
    return (user, ← token hostOf? "host name")
  else
    return (user, "%")

/-- An equals sign that may be left out. -/
def optionalEquals : Reader Unit := do
  let _ ← optionalToken .equals

/-- One of two keywords, or neither. -/
def optionalEither (first second : String) : Reader Unit := do
  unless ← optionalKeyword first do
    let _ ← optionalKeyword second

/-- Any one token after an equals sign that may be left out. -/
def anyValue : Reader Unit := do
  optionalEquals
  let _ ← next

/-- The tokens from the first one outside inner parentheses that closes a parenthesis or
satisfies `stops`. -/
def outerRest (stops : Token → Bool) : Nat → List Token → List Token
  | _, [] => []
  | depth, .leftParen :: rest => outerRest stops (depth + 1) rest
  | 0, .rightParen :: rest => .rightParen :: rest
  | depth + 1, .rightParen :: rest => outerRest stops depth rest
  | 0, token :: rest => if stops token then token :: rest else outerRest stops 0 rest
  | depth + 1, _ :: rest => outerRest stops (depth + 1) rest

theorem outerRest_suffix (stops : Token → Bool) (depth : Nat) (tokens : List Token) :
    outerRest stops depth tokens <:+ tokens := by
  fun_induction outerRest stops depth tokens with
  | case1 => exact List.suffix_refl _
  | case2 _ rest ih => exact ih.trans (List.suffix_cons _ _)
  | case3 => exact List.suffix_refl _
  | case4 _ rest ih => exact ih.trans (List.suffix_cons _ _)
  | case5 => exact List.suffix_refl _
  | case6 _ rest _ _ _ ih => exact ih.trans (List.suffix_cons _ _)
  | case7 _ _ rest _ _ ih => exact ih.trans (List.suffix_cons _ _)

/-- Passes over tokens up to the end of the enclosing parentheses or to an outer token that
satisfies `stops`; that token stays. -/
def skipTo (stops : Token → Bool) : Reader Unit :=
  scan (fun tokens => ((), outerRest stops 0 tokens)) (outerRest_suffix stops 0)

/-- Passes over the rest of a clause. -/
def skipClause : Reader Unit :=
  skipTo (· == .comma)

/-- The rest of a group after its opening parenthesis, and its text. -/
def groupRest : Reader String := do
  let start ← remaining
  skipTo fun _ => false
  let body ← textSince start
  expectToken .rightParen ")"
  return body

/-- A group in parentheses, and its text without them. -/
def group : Reader String := do
  expectToken .leftParen "("
  groupRest

/-- A group that may be left out. -/
def optionalGroup : Reader Unit := do
  if ← optionalToken .leftParen then
    let _ ← groupRest

end Grammar
end Sql
end SchemaLint
