import SchemaLint.Number.Radix
import SchemaLint.Parser

/-!
# Characters, strings and keys of TOML texts

Parsers of the parts of a TOML text in which single characters matter.  They say no more about a
malformed text than that it is malformed.
-/

namespace SchemaLint
namespace Toml

/-- A parser of the characters of a text. -/
abbrev Reader (α : Type) := Parser Char Unit α

namespace Reader

variable {α : Type}

/-- Refuses the text. -/
def refuse : Reader α :=
  Parser.failWith fun _ => ()

/-- Refuses the text unless a condition holds. -/
def require (condition : Bool) : Reader Unit :=
  if condition then pure () else refuse

/-- Refuses the text unless there is a value. -/
def ofOption : Option α → Reader α
  | some value => pure value
  | none => refuse

/-- This character. -/
def char (c : Char) : Reader Unit := do
  require (← Parser.optionalToken c)

/-- The characters of a class that follow. -/
def run (p : Char → Bool) : Reader (List Char) :=
  Parser.scan (fun cs => (cs.takeWhile p, cs.dropWhile p)) fun _ => List.dropWhile_suffix p

/-- A number of characters, or fewer if the text ends before. -/
def atMost (n : Nat) : Reader (List Char) :=
  Parser.scan (fun cs => (cs.take n, cs.drop n)) fun _ => List.drop_suffix n _

/-- Space inside a line. -/
def isBlank (c : Char) : Bool :=
  c == ' ' || c == '\t'

/-- A character that may stand in comments and strings as it is. -/
def isPlain (c : Char) : Bool :=
  c == '\t' || (32 ≤ c.toNat && c.toNat ≠ 127)

/-- Passes over space inside a line. -/
def blanks : Reader Unit := do
  let _ ← run isBlank

/-- The text after a line break, if there is one. -/
def afterBreak? : List Char → Option (List Char)
  | '\n' :: rest => some rest
  | '\r' :: '\n' :: rest => some rest
  | _ => none

theorem afterBreak?_suffix {cs rest : List Char} (h : afterBreak? cs = some rest) :
    rest <:+ cs := by
  unfold afterBreak? at h
  split at h
  · cases h
    exact List.suffix_cons _ _
  · cases h
    exact (List.suffix_cons _ _).trans (List.suffix_cons _ _)
  · cases h

/-- Passes over a line break if it follows, and says whether it does. -/
def optionalBreak : Reader Bool :=
  Parser.scan
    (fun cs =>
      match afterBreak? cs with
      | some rest => (true, rest)
      | none => (false, cs))
    (fun cs => by
      split
      · next h => exact afterBreak?_suffix h
      · exact List.suffix_refl _)

/-- Passes over a comment if it follows. -/
def comment : Reader Unit := do
  if ← Parser.optionalToken '#' then
    let _ ← run isPlain

/-- The end of a line. -/
def lineEnd : Reader Unit := do
  blanks
  comment
  unless ← optionalBreak do
    require (← Parser.atEnd)

/-- Whether space, a comment or a line break follows. -/
def gapAhead (cs : List Char) : Bool :=
  cs.head?.any fun c => isBlank c || c == '#' || c == '\n' || c == '\r'

/-- Passes over space, comments and line breaks. -/
def gap : Reader Unit :=
  Parser.turns gapAhead (fun _ => do
    blanks
    comment
    if gapAhead (← Parser.remaining) then
      require (← optionalBreak)) ()

/-! ## Strings -/

/-- The character with a number, given in so many hexadecimal digits. -/
def numbered (width : Nat) : Reader Char := do
  let digits ← atMost width
  require (digits.length = width)
  let n ← ofOption (Radix.value? 16 digits)
  if n.isValidChar then return Char.ofNat n else refuse

/-- The character that the characters after a backslash stand for. -/
def escaped : Reader Char := do
  match ← Parser.next with
  | some 'b' => return '\x08'
  | some 'f' => return '\x0c'
  | some 'n' => return '\n'
  | some 'r' => return '\r'
  | some 't' => return '\t'
  | some '"' => return '"'
  | some '\\' => return '\\'
  | some 'u' => numbered 4
  | some 'U' => numbered 8
  | _ => refuse

/-- A kind of string: with which mark it begins and ends, and whether a backslash is special. -/
structure Quoting where
  mark : Char
  escapes : Bool

/-- Strings with escapes. -/
def Quoting.basic : Quoting := ⟨'"', true⟩

/-- Strings that mean what they say. -/
def Quoting.literal : Quoting := ⟨'\'', false⟩

/-- One character of a string, in front of those before it in reverse. -/
def textChar (quoting : Quoting) (done : List Char) : Reader (List Char) := do
  match ← Parser.next with
  | none => refuse
  | some c =>
      if quoting.escapes && c == '\\' then
        return (← escaped) :: done
      else
        require (isPlain c)
        return c :: done

/-- A string on one line, after its first mark. -/
def shortText (quoting : Quoting) : Reader String := do
  let done ← Parser.turns (·.head? ≠ some quoting.mark) (textChar quoting) []
  char quoting.mark
  return String.ofList done.reverse

/-- The text without space and line breaks at its beginning. -/
def skipLines : List Char → List Char
  | '\r' :: '\n' :: rest => skipLines rest
  | c :: rest => if isBlank c || c == '\n' then skipLines rest else c :: rest
  | [] => []

theorem skipLines_suffix (cs : List Char) : skipLines cs <:+ cs := by
  fun_induction skipLines cs with
  | case1 _ ih => exact (ih.trans (List.suffix_cons _ _)).trans (List.suffix_cons _ _)
  | case2 _ _ _ _ ih => exact ih.trans (List.suffix_cons _ _)
  | case3 => exact List.suffix_refl _
  | case4 => exact List.suffix_refl _

/-- After a backslash at the end of a line, passes over all space and line breaks that follow;
says whether it was one. -/
def foldedBreak : Reader Bool :=
  Parser.scan
    (fun cs =>
      if (afterBreak? (cs.dropWhile isBlank)).isSome then (true, skipLines cs) else (false, cs))
    (fun cs => by
      split
      · exact skipLines_suffix cs
      · exact List.suffix_refl _)

/-- One character or line break of a string over several lines, in front of those before it in
reverse. -/
def longTextChar (quoting : Quoting) (done : List Char) : Reader (List Char) := do
  if ← optionalBreak then
    return '\n' :: done
  if quoting.escapes && (← Parser.peek) = some '\\' then
    let _ ← Parser.next
    if ← foldedBreak then return done else return (← escaped) :: done
  textChar { quoting with escapes := false } done

/-- Whether three marks follow. -/
def tripleAhead (mark : Char) (cs : List Char) : Bool :=
  cs.take 3 = [mark, mark, mark]

/-- A string over several lines, after its first three marks.  A line break right after them does
not count, and up to two marks may stand right before the last three. -/
def longText (quoting : Quoting) : Reader String := do
  let _ ← optionalBreak
  let done ← Parser.turns (!tripleAhead quoting.mark ·) (longTextChar quoting) []
  let marks ← run (· == quoting.mark)
  require (3 ≤ marks.length && marks.length ≤ 5)
  return String.ofList (done.reverse ++ marks.drop 3)

/-- A string of some kind, in its short or long form. -/
def text (quoting : Quoting) : Reader String := do
  if tripleAhead quoting.mark (← Parser.remaining) then
    let _ ← atMost 3
    longText quoting
  else
    char quoting.mark
    shortText quoting

/-! ## Keys -/

/-- A character of a key without quotes. -/
def isKeyPart (c : Char) : Bool :=
  c.isAlphanum || c == '_' || c == '-'

/-- A key without dots. -/
def simpleKey : Reader String := do
  match ← Parser.peek with
  | some '"' =>
      char '"'
      shortText .basic
  | some '\'' =>
      char '\''
      shortText .literal
  | _ =>
      let cs ← run isKeyPart
      require (cs ≠ [])
      return String.ofList cs

/-- The greatest number of tables inside each other. -/
def deepest : Nat := 79

/-- A key with dots and space around its parts. -/
def key : Reader (List String) := do
  let parts ← Parser.separated '.' do
    blanks
    let part ← simpleKey
    blanks
    return part
  require (parts.length ≤ deepest)
  return parts

end Reader
end Toml
end SchemaLint
