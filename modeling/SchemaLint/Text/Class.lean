import SchemaLint.Text.Ranges

/-!
# Character classes

White space, letters and digits over all of Unicode.  Each class answers for ASCII directly and
looks a table up above it, so a statement about ASCII text never meets a table.
-/

namespace SchemaLint
namespace Text

/-- The property White_Space. -/
def isWhite (c : Char) : Bool :=
  let n := c.toNat
  (9 ≤ n && n ≤ 13) || n == 32 || n == 0x85 || n == 0xA0 || n == 0x1680 ||
    (0x2000 ≤ n && n ≤ 0x200A) || n == 0x2028 || n == 0x2029 || n == 0x202F ||
    n == 0x205F || n == 0x3000

/-- The property Alphabetic. -/
def isLetter (c : Char) : Bool :=
  if c.toNat < 128 then c.isAlpha else Ranges.contains Ranges.alphabetic c.toNat

/-- Alphabetic, or a number of any kind. -/
def isLetterOrNumber (c : Char) : Bool :=
  if c.toNat < 128 then c.isAlphanum
  else Ranges.contains Ranges.alphabetic c.toNat || Ranges.contains Ranges.numeric c.toNat

/-- A character that continues a word for the purpose of word boundaries. -/
def isWordPart (c : Char) : Bool :=
  if c.toNat < 128 then c.isAlphanum || c == '_'
  else Ranges.contains Ranges.alphabetic c.toNat || Ranges.contains Ranges.joining c.toNat

/-- An ASCII hexadecimal digit. -/
def isHexDigit (c : Char) : Bool :=
  c.isDigit || ('a' ≤ c && c ≤ 'f') || ('A' ≤ c && c ≤ 'F')

theorem isLetterOrNumber_of_isLetter {c : Char} (h : isLetter c = true) :
    isLetterOrNumber c = true := by
  unfold isLetter at h
  unfold isLetterOrNumber
  split <;> simp_all [Char.isAlphanum]

end Text
end SchemaLint
