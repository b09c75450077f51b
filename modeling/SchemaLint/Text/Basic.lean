import SchemaLint.Text.Class

/-!
# Text operations

Operations on strings that the rest of the library shares: trimming, splitting and joining,
comparison ignoring ASCII case, and replacement.  Each one is a function on the list of
characters, so a statement about it is a statement about lists.
-/

namespace SchemaLint
namespace Text

/-- The text without the characters of class `p` at both ends. -/
def trimList (p : Char → Bool) (cs : List Char) : List Char :=
  ((cs.dropWhile p).reverse.dropWhile p).reverse

/-- The text without white space at both ends. -/
def trim (s : String) : String :=
  String.ofList (trimList isWhite s.toList)

/-- The text without the character `c` at both ends. -/
def trimChar (c : Char) (s : String) : String :=
  String.ofList (trimList (· == c) s.toList)

/-- Whether the text holds white space only. -/
def isBlank (s : String) : Bool :=
  s.toList.all isWhite

/-- The text with ASCII capitals made small. -/
def lower (s : String) : String :=
  String.ofList (s.toList.map Char.toLower)

/-- The text with small ASCII letters made capital. -/
def upper (s : String) : String :=
  String.ofList (s.toList.map Char.toUpper)

/-- Equality up to the case of ASCII letters. -/
def sameLetters (a b : String) : Bool :=
  lower a == lower b

/-- The first letter capital and the others small. -/
def capitalize (s : String) : String :=
  match s.toList.map Char.toLower with
  | [] => ""
  | c :: cs => String.ofList (c.toUpper :: cs)

/-- The pieces between occurrences of `separator`; always at least one. -/
def splitList (separator : Char) : List Char → List (List Char)
  | [] => [[]]
  | c :: cs =>
      if c = separator then
        [] :: splitList separator cs
      else
        match splitList separator cs with
        | [] => [[c]]
        | piece :: pieces => (c :: piece) :: pieces

/-- The pieces of a text between occurrences of `separator`. -/
def split (separator : Char) (s : String) : List String :=
  (splitList separator s.toList).map String.ofList

/-- The maximal runs of characters outside the class `p`. -/
def runsOutside (p : Char → Bool) : List Char → List (List Char)
  | [] => []
  | c :: cs =>
      if p c then
        runsOutside p cs
      else
        match cs with
        | [] => [[c]]
        | d :: _ =>
            if p d then
              [c] :: runsOutside p cs
            else
              match runsOutside p cs with
              | [] => [[c]]
              | run :: runs => (c :: run) :: runs

/-- The words of a text: its maximal runs without white space. -/
def words (s : String) : List String :=
  (runsOutside isWhite s.toList).map String.ofList

/-- The strings one after another with `separator` between them. -/
def join (separator : String) (parts : List String) : String :=
  separator.intercalate parts

/-- The text with runs of white space made single spaces and none at the ends. -/
def collapse (s : String) : String :=
  join " " (words s)

/-- Every character that `f` maps replaced by its image. -/
def substitute (f : Char → List Char) (s : String) : String :=
  String.ofList (s.toList.flatMap f)

/-- The text with every `c` written twice. -/
def double (c : Char) (s : String) : String :=
  substitute (fun d => if d = c then [c, c] else [d]) s

/-- Occurrences of `old` replaced by `new`, from the left and without overlap.  The count `skip`
is of characters that belong to an occurrence already replaced. -/
def replaceList (old new : List Char) : Nat → List Char → List Char
  | _, [] => []
  | skip + 1, _ :: cs => replaceList old new skip cs
  | 0, c :: cs =>
      if old ≠ [] ∧ old.isPrefixOf (c :: cs) then
        new ++ replaceList old new (old.length - 1) cs
      else
        c :: replaceList old new 0 cs

/-- The text with occurrences of `old` replaced by `new`. -/
def replace (old new s : String) : String :=
  String.ofList (replaceList old.toList new.toList 0 s.toList)

/-- Whether `needle` occurs in the list as a contiguous run. -/
def occursIn (needle : List Char) : List Char → Bool
  | [] => needle.isEmpty
  | c :: cs => needle.isPrefixOf (c :: cs) || occursIn needle cs

/-- Whether `needle` occurs in the text. -/
def contains (s needle : String) : Bool :=
  occursIn needle.toList s.toList

/-- The first line that is not blank, trimmed, or nothing. -/
def firstLine (s : String) : String :=
  (((split '\n' s).map trim).find? (· ≠ "")).getD ""

/-- The text filled up with spaces on the right to `width` characters. -/
def padRight (width : Nat) (s : String) : String :=
  s ++ String.ofList (List.replicate (width - s.length) ' ')

/-- The text filled up with spaces on the left to `width` characters. -/
def padLeft (width : Nat) (s : String) : String :=
  String.ofList (List.replicate (width - s.length) ' ') ++ s

/-- The number of line feeds. -/
def lineFeeds (cs : List Char) : Nat :=
  cs.count '\n'

end Text
end SchemaLint
