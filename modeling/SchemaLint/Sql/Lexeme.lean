import SchemaLint.Sql.SyntaxError

/-!
# Lexemes

The scanners of single lexemes: comments, quoted text, numbers and words.  Each one gives what
it read and the rest of the text, and the rest is never longer than the text.  Those that can
pass a line feed also give the line on which the rest begins.
-/

namespace SchemaLint
namespace Sql
namespace Lexeme

/-- The line after a character that stands on line `line`. -/
def lineAfter (line : Nat) (c : Char) : Nat :=
  if c = '\n' then line + 1 else line

/-- The rest after a comment that ends with its line; the line feed stays. -/
def afterLineComment (cs : List Char) : List Char :=
  cs.dropWhile (· != '\n')

/-- The rest after the mark that ends a comment, and the line reached. -/
def afterBlockComment (line : Nat) : List Char → Nat × Option (List Char)
  | [] => (line, none)
  | '*' :: '/' :: rest => (line, some rest)
  | c :: rest => afterBlockComment (lineAfter line c) rest

/-- The character that a backslash and one more character stand for in a literal. -/
def unescape : Char → Char
  | 'n' => '\n'
  | 't' => '\t'
  | 'r' => '\r'
  | '0' => '\x00'
  | c => c

/-- Quoted text that has been read: its value, the line after it and the rest. -/
structure Quoted where
  value : List Char
  line : Nat
  rest : List Char

/-- Puts a character in front of quoted text. -/
def Quoted.push (c : Char) (quoted : Quoted) : Quoted :=
  { quoted with value := c :: quoted.value }

/-- The text up to the closing quote.  A doubled quote stands for the quote, and a backslash
escapes the character after it, except between backticks. -/
def quotedBody (quote : Char) (line : Nat) : List Char → Option Quoted
  | [] => none
  | [c] => if c = quote then some ⟨[], line, []⟩ else none
  | c :: d :: rest =>
      if c = quote then
        if d = quote then
          (quotedBody quote line rest).map (·.push quote)
        else
          some ⟨[], line, d :: rest⟩
      else if c = '\\' ∧ quote ≠ '\x60' then
        (quotedBody quote (lineAfter line d) rest).map (·.push (unescape d))
      else
        (quotedBody quote (lineAfter line c) (d :: rest)).map (·.push c)

/-- Whether `c` continues a number whose last character is `previous`.  A sign does so after the
mark of an exponent only. -/
def continuesNumber (previous c : Char) : Bool :=
  c.isDigit || c == '.' || c == 'e' || c == 'E' ||
    ((c == '+' || c == '-') && (previous == 'e' || previous == 'E'))

/-- The characters that continue a number, and the rest. -/
def numberTail (previous : Char) : List Char → List Char × List Char
  | [] => ([], [])
  | c :: rest =>
      if continuesNumber previous c then
        let (tail, rest) := numberTail c rest
        (c :: tail, rest)
      else
        ([], c :: rest)

/-- A character with which a word begins. -/
def startsWord (c : Char) : Bool :=
  Text.isLetter c || c == '_' || c == '$'

/-- A character that continues a word. -/
def continuesWord (c : Char) : Bool :=
  Text.isLetterOrNumber c || c == '_' || c == '$'

theorem afterBlockComment_length {line line' : Nat} {cs rest : List Char}
    (h : afterBlockComment line cs = (line', some rest)) : rest.length < cs.length := by
  fun_induction afterBlockComment line cs with
  | case1 => simp at h
  | case2 =>
      cases h
      simp only [List.length_cons]
      omega
  | case3 line c cs _ ih =>
      have := ih h
      simp only [List.length_cons]
      omega

theorem quotedBody_length {quote : Char} {line : Nat} {cs : List Char} {quoted : Quoted}
    (h : quotedBody quote line cs = some quoted) : quoted.rest.length < cs.length := by
  fun_induction quotedBody quote line cs generalizing quoted with
  | case1 => simp at h
  | case2 =>
      cases h
      simp
  | case3 => simp at h
  | case4 line rest ih =>
      obtain ⟨inner, hinner, rfl⟩ := Option.map_eq_some_iff.1 h
      have := ih hinner
      simp only [Quoted.push, List.length_cons]
      omega
  | case5 =>
      cases h
      simp
  | case6 line c d rest _ _ ih =>
      obtain ⟨inner, hinner, rfl⟩ := Option.map_eq_some_iff.1 h
      have := ih hinner
      simp only [Quoted.push, List.length_cons]
      omega
  | case7 line c d rest _ _ ih =>
      obtain ⟨inner, hinner, rfl⟩ := Option.map_eq_some_iff.1 h
      have := ih hinner
      simp only [Quoted.push, List.length_cons] at this ⊢
      omega

theorem numberTail_length (previous : Char) (cs : List Char) :
    (numberTail previous cs).2.length ≤ cs.length := by
  fun_induction numberTail previous cs with
  | case1 => exact Nat.le_refl _
  | case2 _ _ _ _ _ _ htail ih =>
      rw [htail] at ih
      exact Nat.le_succ_of_le ih
  | case3 => exact Nat.le_refl _

end Lexeme
end Sql
end SchemaLint
