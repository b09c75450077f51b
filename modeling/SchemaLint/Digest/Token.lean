import SchemaLint.Parser.Keyword
import SchemaLint.Text.Basic

/-!
# Tokens of query digests

The tokens of a digest.  Of a literal that cannot stand for a name only its presence is kept.
-/

namespace SchemaLint
namespace Digest

/-- A token of a digest. -/
inductive Token where
  /-- A name or keyword without quotes. -/
  | word (text : String)
  /-- A name in backticks. -/
  | quoted (name : String)
  /-- A text in single or double quotes. -/
  | text (quote : Char) (value : String)
  | number
  /-- A literal with a mark in front, such as one of bits. -/
  | literal
  | placeholder
  | leftParen
  | rightParen
  | comma
  | period
  | semicolon
  | operator (symbols : String)
deriving DecidableEq, Repr

instance : HasKeywords Token where
  isKeyword keyword token :=
    match token with
    | .word w => Text.sameLetters w keyword
    | _ => false

namespace Token

/-- White space between tokens. -/
def isSpace (c : Char) : Bool :=
  c == ' ' || (9 ≤ c.toNat && c.toNat ≤ 13)

/-- A character with which a name begins. -/
def startsName (c : Char) : Bool :=
  Text.isLetter c || c == '_' || c == '$' || c == '@' || (0x80 ≤ c.toNat && c.toNat ≤ 0xFFFF)

/-- A character that continues a name. -/
def continuesName (c : Char) : Bool :=
  startsName c || c.isDigit

/-- The character that a backslash and one more character stand for in a text. -/
def unescape : Char → List Char
  | '%' => ['\\', '%']
  | '_' => ['\\', '_']
  | '0' => ['\x00']
  | 'a' => ['\x07']
  | 'b' => ['\x08']
  | 'f' => ['\x0c']
  | 'n' => ['\n']
  | 'r' => ['\r']
  | 't' => ['\t']
  | 'Z' => ['\x1a']
  | c => [c]

/-- The text up to the closing quote, and the rest.  A doubled quote stands for the quote, and
where `escapes` is set, a backslash escapes the character after it. -/
def quotedBody (quote : Char) (escapes : Bool) : List Char → Option (List Char × List Char)
  | [] => none
  | [c] => if c = quote then some ([], []) else none
  | c :: d :: rest =>
      if c = quote then
        if d = quote then
          (quotedBody quote escapes rest).map fun found => (quote :: found.1, found.2)
        else
          some ([], d :: rest)
      else if c = '\\' ∧ escapes then
        (quotedBody quote escapes rest).map fun found => (unescape d ++ found.1, found.2)
      else
        (quotedBody quote escapes (d :: rest)).map fun found => (c :: found.1, found.2)

theorem quotedBody_length {quote : Char} {escapes : Bool} {cs : List Char}
    {found : List Char × List Char} (h : quotedBody quote escapes cs = some found) :
    found.2.length < cs.length := by
  fun_induction quotedBody quote escapes cs generalizing found with
  | case1 => simp at h
  | case2 => simp_all; simp [← h]
  | case3 => simp at h
  | case4 rest ih =>
      obtain ⟨inner, hinner, rfl⟩ := Option.map_eq_some_iff.1 h
      have := ih hinner
      simp only [List.length_cons]
      omega
  | case5 => simp_all; simp [← h]
  | case6 c d rest _ _ ih =>
      obtain ⟨inner, hinner, rfl⟩ := Option.map_eq_some_iff.1 h
      have := ih hinner
      simp only [List.length_cons]
      omega
  | case7 c d rest _ _ ih =>
      obtain ⟨inner, hinner, rfl⟩ := Option.map_eq_some_iff.1 h
      have := ih hinner
      simp only [List.length_cons] at this ⊢
      omega

/-- The rest after a comment in marks, inside `depth` more of them and after a character. -/
def afterComment (previous : Char) (depth : Nat) : List Char → Option (List Char)
  | [] => none
  | c :: rest =>
      if previous = '/' ∧ c = '*' then
        afterComment c (depth + 1) rest
      else if previous = '*' ∧ c = '/' then
        if depth = 0 then some rest else afterComment c (depth - 1) rest
      else
        afterComment c depth rest

theorem afterComment_length {previous : Char} {depth : Nat} {cs rest : List Char}
    (h : afterComment previous depth cs = some rest) : rest.length < cs.length := by
  fun_induction afterComment previous depth cs with
  | case1 => simp at h
  | case2 _ _ _ _ _ ih => exact Nat.lt_succ_of_lt (ih h)
  | case3 =>
      cases h
      exact Nat.lt_succ_self _
  | case4 _ _ _ _ _ _ _ ih => exact Nat.lt_succ_of_lt (ih h)
  | case5 _ _ _ _ _ _ ih => exact Nat.lt_succ_of_lt (ih h)

/-- The exponent that a number goes on with, of which there may be none. -/
def exponent (cs : List Char) : List Char :=
  match cs with
  | e :: rest =>
      if e = 'e' ∨ e = 'E' then
        let sign := (rest.take 1).filter fun c => c == '+' || c == '-'
        let digits := (rest.drop sign.length).takeWhile Char.isDigit
        if digits.isEmpty then [] else e :: (sign ++ digits)
      else
        []
  | [] => []

/-- The digits, point and digits that a text begins with. -/
def mantissa (cs : List Char) : List Char :=
  let whole := cs.takeWhile Char.isDigit
  let rest := cs.drop whole.length
  if rest.head? = some '.' then
    whole ++ '.' :: (rest.drop 1).takeWhile Char.isDigit
  else
    whole

/-- The token that a digit or a point begins, and the number of its characters.  A name may
begin with a number that has no exponent. -/
def numeral (cs : List Char) : Token × Nat :=
  let base := mantissa cs
  if cs.takeWhile Char.isDigit = ['0'] ∧ (cs.drop 1).head? = some 'x' then
    (.literal, 2 + ((cs.drop 2).takeWhile Text.isHexDigit).length)
  else if base = ['.'] then
    (.period, 1)
  else
    let power := exponent (cs.drop base.length)
    let name := (cs.drop base.length).takeWhile continuesName
    if power.isEmpty && !name.isEmpty then
      (.word (String.ofList (base ++ name)), base.length + name.length)
    else
      (.number, base.length + power.length)

/-- Operators of more than one character, those that begin others after them. -/
def longOperators : List String := [
  "->>", "->", "||/", "||", "|/", "=>", "==", "!=", "!!", "!~", "<=>", "<=", "<>", "<<", "<@",
  ">=", ">>", "::", ":=", "&&"]

/-- The operator that a text begins with. -/
def operatorText (c : Char) (cs : List Char) : String :=
  (longOperators.find? fun symbols => symbols.toList.isPrefixOf (c :: cs)).getD
    (String.ofList [c])

/-- The token of one character. -/
def single (c : Char) : Option Token :=
  match c with
  | '(' => some .leftParen
  | ')' => some .rightParen
  | ',' => some .comma
  | ';' => some .semicolon
  | _ => none

/-- How a name that begins with the sign `@` goes on, or nothing if the sign stands alone. -/
def atName? (cs : List Char) : Option (List Char) :=
  match cs with
  | [] => none
  | '@' :: [] => none
  | '@' :: c :: rest =>
      if c = ' ' then none else some ('@' :: c :: rest.takeWhile continuesName)
  | c :: rest =>
      if c ∈ [' ', '\'', '"', '\x60', '>', '?'] then none
      else some (c :: rest.takeWhile continuesName)

/-- Whether `c` marks a literal in the quotes that follow. -/
def marksLiteral (c : Char) (cs : List Char) : Bool :=
  (cs.head? == some '\'' && c ∈ ['b', 'B', 'n', 'N', 'x', 'X', 'e', 'E']) ||
    (cs.head? == some '"' && c ∈ ['b', 'B'])

/-- The token of a literal with the mark `c`; one mark is of a literal that has no place in a
digest. -/
def ofMark (c : Char) : Token :=
  if c = 'e' ∨ c = 'E' then .operator (String.ofList [c]) else .literal

end Token
end Digest
end SchemaLint
