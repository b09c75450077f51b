import SchemaLint.Sql.Lexeme

/-!
# Scanning statements

The list of tokens of a statement.  White space and comments are dropped; two dashes begin a
comment whatever follows them.
-/

namespace SchemaLint
namespace Sql

/-- A token that has been read, the line after it and the rest of the text. -/
structure Scanned where
  token : Token
  line : Nat
  rest : List Char

namespace Scanned

/-- A quoted lexeme made a token. -/
def ofQuoted (line : Nat) (quote : Char) (make : String → Token) (cs : List Char) :
    Except SyntaxError Scanned :=
  match Lexeme.quotedBody quote line cs with
  | none => .error (.unterminatedQuote line quote)
  | some quoted => .ok ⟨make (String.ofList quoted.value), quoted.line, quoted.rest⟩

/-- The token of a single character. -/
def punctuation : Char → Token
  | '(' => .leftParen
  | ')' => .rightParen
  | ',' => .comma
  | '.' => .dot
  | '=' => .equals
  | '@' => .at
  | '-' => .minus
  | '+' => .plus
  | ';' => .semicolon
  | c => .symbol c

/-- Whether `c` is the mark of a bit or hexadecimal literal in quotes. -/
def marksBits (c : Char) : Bool :=
  c == 'b' || c == 'B' || c == 'x' || c == 'X'

/-- The token that begins with `c` and goes on with `cs`. -/
def ofCharacters (line : Nat) (c : Char) (cs : List Char) : Except SyntaxError Scanned :=
  if c = '\'' ∨ c = '"' then
    ofQuoted line c .text cs
  else if c = '\x60' then
    ofQuoted line c .quoted cs
  else if marksBits c ∧ cs.head? = some '\'' then
    ofQuoted line '\'' (fun body => .bits (String.ofList [c.toLower] ++ "'" ++ body ++ "'"))
      (cs.drop 1)
  else if c = '0' ∧ (cs.head? = some 'x' ∨ cs.head? = some 'X') then
    let digits := cs.drop 1
    .ok ⟨.bits ("0x" ++ String.ofList (digits.takeWhile Text.isHexDigit)), line,
      digits.dropWhile Text.isHexDigit⟩
  else if c.isDigit then
    let (tail, rest) := Lexeme.numberTail c cs
    .ok ⟨.number (String.ofList (c :: tail)), line, rest⟩
  else if Lexeme.startsWord c then
    .ok ⟨.word (String.ofList (c :: cs.takeWhile Lexeme.continuesWord)), line,
      cs.dropWhile Lexeme.continuesWord⟩
  else
    .ok ⟨punctuation c, line, cs⟩

theorem ofQuoted_length {line : Nat} {quote : Char} {make : String → Token} {cs : List Char}
    {scanned : Scanned} (h : ofQuoted line quote make cs = .ok scanned) :
    scanned.rest.length < cs.length := by
  unfold ofQuoted at h
  split at h
  · simp at h
  · next quoted hquoted =>
      cases h
      exact Lexeme.quotedBody_length hquoted

theorem ofCharacters_length {line : Nat} {c : Char} {cs : List Char} {scanned : Scanned}
    (h : ofCharacters line c cs = .ok scanned) : scanned.rest.length ≤ cs.length := by
  unfold ofCharacters at h
  have hdrop : (cs.drop 1).length ≤ cs.length := by simp
  split at h
  · exact Nat.le_of_lt (ofQuoted_length h)
  split at h
  · exact Nat.le_of_lt (ofQuoted_length h)
  split at h
  · exact Nat.le_trans (Nat.le_of_lt (ofQuoted_length h)) hdrop
  split at h
  · cases h
    exact Nat.le_trans ((List.dropWhile_suffix _).length_le) hdrop
  split at h
  · cases h
    exact Lexeme.numberTail_length c cs
  split at h
  · cases h
    exact (List.dropWhile_suffix _).length_le
  · cases h
    exact Nat.le_refl _

end Scanned

/-- Whether a comment that ends with its line begins with `c` and `cs`. -/
def beginsLineComment (c : Char) (cs : List Char) : Bool :=
  c == '#' || (c == '-' && cs.head? == some '-')

/-- Whether a comment in marks begins with `c` and `cs`. -/
def beginsBlockComment (c : Char) (cs : List Char) : Bool :=
  c == '/' && cs.head? == some '*'

/-- The tokens of a text that begins on line `line`. -/
def scan (line : Nat) (text : List Char) : Except SyntaxError (List Token) :=
  match text with
  | [] => .ok []
  | c :: cs =>
      if Text.isWhite c then
        scan (Lexeme.lineAfter line c) cs
      else if beginsLineComment c cs then
        have := (List.dropWhile_suffix (l := cs) (· != '\n')).length_le
        scan line (Lexeme.afterLineComment cs)
      else if beginsBlockComment c cs then
        match h : Lexeme.afterBlockComment line (cs.drop 1) with
        | (last, none) => .error (.unterminatedComment last)
        | (line', some rest) =>
            have : rest.length ≤ cs.length := by
              have := Lexeme.afterBlockComment_length h
              simp only [List.length_drop] at this
              omega
            scan line' rest
      else
        match h : Scanned.ofCharacters line c cs with
        | .error error => .error error
        | .ok scanned =>
            have := Scanned.ofCharacters_length h
            (scan scanned.line scanned.rest).map (scanned.token :: ·)
termination_by text.length
decreasing_by
  all_goals simp_all only [List.length_cons, Lexeme.afterLineComment]; omega

/-- The tokens of a statement that begins on line `line`. -/
def tokenize (line : Nat) (statement : String) : Except SyntaxError (List Token) :=
  scan line statement.toList

end Sql
end SchemaLint
