import SchemaLint.Toml.Reader
import SchemaLint.Toml.Scalar

/-!
# TOML documents

Values, lines and whole documents.  A document is a list of lines: every line of a key puts a
value into the table whose header came last.
-/

namespace SchemaLint
namespace Toml
namespace Reader

/-- A character of a value of one word. -/
def isWordPart (c : Char) : Bool :=
  c.isAlphanum || ['+', '-', '_', '.', ':'].contains c

/-- Whether a time follows a date after a space. -/
def timeAhead : List Char → Bool
  | ' ' :: c :: _ => c.isDigit
  | _ => false

/-- A value of one word, or of two: a date and a time. -/
def word : Reader Toml := do
  let first ← run isWordPart
  if Scalar.isDate first && timeAhead (← Parser.remaining) then
    let _ ← Parser.next
    ofOption (ofWord? (first ++ ' ' :: (← run isWordPart)))
  else
    ofOption (ofWord? first)

/-- A value that holds no others. -/
def atom : Reader Toml := do
  match ← Parser.peek with
  | some '"' => return .text (← text .basic)
  | some '\'' => return .text (← text .literal)
  | _ => word

/-- One more item of an array, after a comma, and the comma after it. -/
def arrayItem (item : Reader Toml) (state : List Toml × Bool) : Reader (List Toml × Bool) := do
  require state.2
  let value ← item
  gap
  let comma ← Parser.optionalToken ','
  gap
  return (value :: state.1, comma)

/-- An array. -/
def array (item : Reader Toml) : Reader Toml := do
  char '['
  gap
  let (items, _) ← Parser.turns (·.head? ≠ some ']') (arrayItem item) ([], true)
  char ']'
  return .array items.reverse

/-- A key, its value, and space after it. -/
def keyValue (item : Reader Toml) : Reader (List String × Toml) := do
  let key ← key
  char '='
  blanks
  let value ← item
  return (key, value)

/-- A table in braces. -/
def inlineTable (item : Reader Toml) : Reader Toml := do
  char '\x7b'
  blanks
  if ← Parser.optionalToken '\x7d' then
    return .table .inline []
  let entries ← Parser.separatedFold ',' false (fun entries => do
    let (key, value) ← keyValue item
    blanks
    ofOption (Entries.addDotted entries key value)) []
  char '\x7d'
  return .table .inline entries

/-- A value with up to so many arrays and braces inside each other. -/
def value : Nat → Reader Toml
  | 0 => atom
  | depth + 1 => do
      match ← Parser.peek with
      | some '[' => array (value depth)
      | some '\x7b' => inlineTable (value depth)
      | _ => atom

end Reader

/-- The tables of a document that has been read in part, and the header that came last. -/
structure Document where
  root : Entries := []
  header : List String := []

namespace Document

open Reader

/-- The document after a line with a key. -/
def put (document : Document) (key : List String) (value : Toml) : Option Document := do
  let root ← Entries.changeAt .implied (fun _ entries => entries.addDotted key value)
    document.header .header document.root
  return { document with root }

/-- The rest of a line that begins with a bracket. -/
def headerLine (document : Document) : Reader Document := do
  char '['
  let isElement ← Parser.optionalToken '['
  let header ← key
  char ']'
  if isElement then char ']'
  lineEnd
  let root ← ofOption
    (if isElement then document.root.openElement header else document.root.openTable header)
  return { root, header }

/-- One line. -/
def line (document : Document) : Reader Document := do
  blanks
  match ← Parser.peek with
  | none => return document
  | some '[' => headerLine document
  | some c =>
      if c == '#' || c == '\n' || c == '\r' then
        lineEnd
        return document
      else
        let (key, value) ← keyValue (value deepest)
        lineEnd
        ofOption (document.put key value)

/-- The text without the mark that may begin it. -/
def withoutMark : List Char → List Char
  | '\ufeff' :: rest => rest
  | cs => cs

end Document

/-- The table that a text denotes, or nothing if it is malformed. -/
def parse? (s : String) : Option Entries :=
  let lines := Parser.turns (fun cs => !cs.isEmpty) Document.line {}
  match lines.run (Document.withoutMark s.toList) with
  | .ok (document, _) => some document.root
  | .error () => none

end Toml
end SchemaLint
