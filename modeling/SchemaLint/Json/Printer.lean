import SchemaLint.Json.Basic
import SchemaLint.Number.Shortest

/-!
# Writing JSON text

JSON values written on one line, or over several lines with two spaces of indentation for each
open container.  Strings keep every character that JSON does not oblige to escape.  What is
illegible is written `null`.
-/

namespace SchemaLint
namespace Json

/-- Numbers are positional from five places below the point to sixteen above it, and integral
floating point numbers keep a place. -/
def layout : DecimalLayout :=
  { leastPoint := -4, greatestPoint := 16, exponentMark := "e", integralEnding := ".0" }

/-- A hexadecimal digit. -/
def hexDigit (n : Nat) : Char :=
  if n < 10 then Char.ofNat (48 + n) else Char.ofNat (87 + n)

/-- A character inside a string. -/
def escape (c : Char) : List Char :=
  match c with
  | '"' => ['\\', '"']
  | '\\' => ['\\', '\\']
  | '\x08' => ['\\', 'b']
  | '\x0c' => ['\\', 'f']
  | '\n' => ['\\', 'n']
  | '\r' => ['\\', 'r']
  | '\t' => ['\\', 't']
  | c =>
      if c.toNat < 32 then
        ['\\', 'u', '0', '0', hexDigit (c.toNat / 16), hexDigit (c.toNat % 16)]
      else
        [c]

/-- A string with its quotes. -/
def quote (s : String) : String :=
  String.ofList ('"' :: s.toList.flatMap escape ++ ['"'])

namespace Number

/-- The text of a number.  Infinities and not-a-number have none, and are written `null`. -/
def text : Number → String
  | .natural n => Decimal.text n.toNat
  | .negative n => DecimalLayout.integer n.toInt
  | .fraction x => (layout.float? x).getD "null"

end Number

mutual

/-- Appends the text of a value on one line. -/
def writeCompact (out : String) : Json → String
  | .null => out ++ "null"
  | .boolean b => out ++ (if b then "true" else "false")
  | .number n => out ++ n.text
  | .text s => out ++ quote s
  | .illegible => out ++ "null"
  | .array items => writeCompactItems (out ++ "[") items ++ "]"
  | .object members => writeCompactMembers (out ++ "\x7b") members ++ "\x7d"
termination_by structural value => value

/-- Appends the items of an array on one line. -/
def writeCompactItems (out : String) : List Json → String
  | [] => out
  | item :: items =>
      let out := writeCompact out item
      writeCompactItems (if items.isEmpty then out else out ++ ",") items
termination_by structural items => items

/-- Appends the members of an object on one line. -/
def writeCompactMembers (out : String) : List (String × Json) → String
  | [] => out
  | (name, value) :: members =>
      let out := writeCompact (out ++ quote name ++ ":") value
      writeCompactMembers (if members.isEmpty then out else out ++ ",") members
termination_by structural members => members

end

/-- The beginning of a line inside `depth` containers. -/
def newLine (depth : Nat) : String :=
  String.ofList ('\n' :: List.replicate (2 * depth) ' ')

mutual

/-- Appends the text of a value over several lines, inside `depth` containers. -/
def writePretty (depth : Nat) (out : String) : Json → String
  | .null => out ++ "null"
  | .boolean b => out ++ (if b then "true" else "false")
  | .number n => out ++ n.text
  | .text s => out ++ quote s
  | .illegible => out ++ "null"
  | .array [] => out ++ "[]"
  | .array items =>
      writePrettyItems (depth + 1) (out ++ "[") items ++ newLine depth ++ "]"
  | .object [] => out ++ "\x7b\x7d"
  | .object members =>
      writePrettyMembers (depth + 1) (out ++ "\x7b") members ++ newLine depth ++ "\x7d"
termination_by structural value => value

/-- Appends the items of an array, each on a line of its own. -/
def writePrettyItems (depth : Nat) (out : String) : List Json → String
  | [] => out
  | item :: items =>
      let out := writePretty depth (out ++ newLine depth) item
      writePrettyItems depth (if items.isEmpty then out else out ++ ",") items
termination_by structural items => items

/-- Appends the members of an object, each on a line of its own. -/
def writePrettyMembers (depth : Nat) (out : String) : List (String × Json) → String
  | [] => out
  | (name, value) :: members =>
      let out := writePretty depth (out ++ newLine depth ++ quote name ++ ": ") value
      writePrettyMembers depth (if members.isEmpty then out else out ++ ",") members
termination_by structural members => members

end

/-- The text of a value on one line. -/
def compact (value : Json) : String :=
  writeCompact "" value

/-- The text of a value over several lines. -/
def pretty (value : Json) : String :=
  writePretty 0 "" value

end Json
end SchemaLint
