import SchemaLint.Sql.Lexeme

/-!
# Scripts

A script cut into chunks at its delimiter, which a line of its own can change.  Delimiters inside
quotes and comments do not count, comments are left out, and each chunk has the line on which
its first character stands.  Here two dashes begin a comment only before white space or the end.
-/

namespace SchemaLint
namespace Sql

/-- A piece of a script between delimiters. -/
structure Chunk where
  text : String
  line : Nat
deriving DecidableEq, Repr

namespace Script

/-- The chunk that is being read: where it begins, and its characters in reverse.  It begins
with a character that is not white. -/
structure Pending where
  line : Nat
  reversed : List Char

/-- The chunk that has been read, without white space at its end. -/
def Pending.chunk (pending : Pending) : Chunk where
  text := String.ofList (pending.reversed.dropWhile Text.isWhite).reverse
  line := pending.line

/-- Where the reader stands. -/
structure Cursor where
  delimiter : List Char := [';']
  line : Nat := 1
  /-- Whether nothing of the line has been read yet. -/
  lineStart : Bool := true
  pending : Option Pending := none

namespace Cursor

/-- The cursor after a character of the chunk; white space does not begin a chunk. -/
def push (cursor : Cursor) (c : Char) : Cursor :=
  match cursor.pending with
  | some pending =>
      { cursor with pending := some { pending with reversed := c :: pending.reversed } }
  | none =>
      if Text.isWhite c then cursor
      else { cursor with pending := some ⟨cursor.line, [c]⟩ }

/-- The cursor after a space that takes the place of a comment. -/
def pushGap (cursor : Cursor) : Cursor :=
  cursor.push ' '

/-- The cursor on the line after a character. -/
def advance (cursor : Cursor) (c : Char) : Cursor :=
  { cursor with line := Lexeme.lineAfter cursor.line c }

/-- The cursor at the beginning of a line. -/
def newLine (cursor : Cursor) : Cursor :=
  { cursor with lineStart := true }

/-- The cursor past the beginning of a line. -/
def inLine (cursor : Cursor) : Cursor :=
  { cursor with lineStart := false }

/-- The chunk that the cursor has read, if any. -/
def finished (cursor : Cursor) : List Chunk :=
  (cursor.pending.map Pending.chunk).toList

end Cursor

/-- The delimiter that a line sets: its second word, when the first one is the command. -/
def delimiterCommand? (line : List Char) : Option (List Char) :=
  match Text.runsOutside Text.isWhite line with
  | command :: delimiter :: _ =>
      if Text.sameLetters (String.ofList command) "DELIMITER" then some delimiter else none
  | _ => none

/-- Reads quoted text into the chunk up to its closing quote, or to the end.  The opening quote
has been read. -/
def quoted (quote : Char) (cursor : Cursor) : List Char → Cursor × List Char
  | [] => (cursor, [])
  | [c] => ((cursor.push c).advance c, [])
  | c :: d :: rest =>
      let next := (cursor.push c).advance c
      if c = '\\' ∧ quote ≠ '\x60' then
        quoted quote ((next.push d).advance d) rest
      else if c = quote then
        if d = quote then
          quoted quote (next.push d) rest
        else
          (next, d :: rest)
      else
        quoted quote next (d :: rest)

/-- Passes over a comment up to the mark that ends it, or to the end. -/
def blockComment (cursor : Cursor) : List Char → Cursor × List Char
  | [] => (cursor, [])
  | '*' :: '/' :: rest => (cursor, rest)
  | c :: rest => blockComment (cursor.advance c) rest

/-- Whether `c` opens quoted text. -/
def isQuote (c : Char) : Bool :=
  c == '\'' || c == '"' || c == '\x60'

/-- Whether a comment that ends with its line begins with `c` and `cs`. -/
def beginsComment (c : Char) (cs : List Char) : Bool :=
  c == '#' || (c == '-' && cs.head? == some '-' && ((cs.drop 1).head?.all Text.isWhite))

theorem quoted_length (quote : Char) (cursor : Cursor) (cs : List Char) :
    (quoted quote cursor cs).2.length ≤ cs.length := by
  fun_induction quoted quote cursor cs with
  | case1 => simp
  | case2 => simp
  | case3 _ c d rest _ _ ih => simp only [List.length_cons]; omega
  | case4 _ rest _ _ ih => simp only [List.length_cons]; omega
  | case5 => simp
  | case6 _ c d rest _ _ _ ih => simp only [List.length_cons] at ih ⊢; omega

theorem blockComment_length (cursor : Cursor) (cs : List Char) :
    (blockComment cursor cs).2.length ≤ cs.length := by
  fun_induction blockComment cursor cs with
  | case1 => simp
  | case2 => simp only [List.length_cons]; omega
  | case3 _ c rest _ ih => simp only [List.length_cons]; omega

/-- The delimiter that a command on this line sets, if a command may stand here. -/
def command? (cursor : Cursor) (text : List Char) : Option (List Char) :=
  if cursor.lineStart && cursor.pending.isNone then
    delimiterCommand? (text.takeWhile (· != '\n'))
  else
    none

/-- The chunks of a text, from a cursor on. -/
def chunksFrom (cursor : Cursor) (text : List Char) : List Chunk :=
  match text with
  | [] => cursor.finished
  | c :: cs =>
      match command? cursor (c :: cs) with
      | some delimiter =>
          have := (List.dropWhile_suffix (l := cs) (· != '\n')).length_le
          chunksFrom { cursor with delimiter } (cs.dropWhile (· != '\n'))
      | none =>
          if c = '\n' then
            chunksFrom ((cursor.push c).advance c).newLine cs
          else if isQuote c then
            have := quoted_length c (cursor.inLine.push c) cs
            chunksFrom (quoted c (cursor.inLine.push c) cs).1
              (quoted c (cursor.inLine.push c) cs).2
          else if beginsComment c cs then
            have := (List.dropWhile_suffix (l := cs) (· != '\n')).length_le
            chunksFrom cursor.inLine (cs.dropWhile (· != '\n'))
          else if c = '/' ∧ cs.head? = some '*' then
            have := blockComment_length cursor.inLine (cs.drop 1)
            chunksFrom (blockComment cursor.inLine (cs.drop 1)).1.pushGap
              (blockComment cursor.inLine (cs.drop 1)).2
          else if cursor.delimiter.isPrefixOf (c :: cs) then
            cursor.finished ++
              chunksFrom { cursor.inLine with pending := none }
                (cs.drop (cursor.delimiter.length - 1))
          else
            chunksFrom (cursor.inLine.push c) cs
termination_by text.length
decreasing_by
  all_goals simp_all only [List.length_cons, List.length_drop]; omega

/-- The chunks of a script. -/
def chunks (script : String) : List Chunk :=
  chunksFrom {} script.toList

end Script
end Sql
end SchemaLint
