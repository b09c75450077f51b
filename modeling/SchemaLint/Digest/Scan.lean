import SchemaLint.Digest.Token

/-!
# Scanning digests

The tokens of a digest.  White space and comments are dropped.
-/

namespace SchemaLint
namespace Digest

/-- A token that has been read and the rest of the text. -/
structure Scanned where
  token : Token
  rest : List Char

namespace Scanned

/-- The token that begins with `c` and goes on with `cs`. -/
def ofCharacters? (c : Char) (cs : List Char) : Option Scanned :=
  if c = '\'' ∨ c = '"' then
    (Token.quotedBody c true cs).map fun found => ⟨.text c (String.ofList found.1), found.2⟩
  else if c = '\x60' then
    (Token.quotedBody c false cs).map fun found => ⟨.quoted (String.ofList found.1), found.2⟩
  else if Token.marksLiteral c cs then
    (Token.quotedBody ((cs.head?).getD c) (c != 'b' && c != 'B') (cs.drop 1)).map fun found =>
      ⟨Token.ofMark c, found.2⟩
  else if c.isDigit ∨ c = '.' then
    let (token, length) := Token.numeral (c :: cs)
    some ⟨token, cs.drop (length - 1)⟩
  else if c = '?' then
    let isNumber (d : Char) : Bool := d.isDigit || Text.Ranges.contains Text.Ranges.numeric d.toNat
    some ⟨.placeholder, cs.dropWhile isNumber⟩
  else if c = '@' then
    match Token.atName? cs with
    | some name => some ⟨.word (String.ofList (c :: name)), cs.drop name.length⟩
    | none => some ⟨.operator "@", cs⟩
  else if Token.startsName c then
    some ⟨.word (String.ofList (c :: cs.takeWhile Token.continuesName)),
      cs.dropWhile Token.continuesName⟩
  else
    match Token.single c with
    | some token => some ⟨token, cs⟩
    | none =>
        let symbols := Token.operatorText c cs
        some ⟨.operator symbols, cs.drop (symbols.length - 1)⟩

theorem ofCharacters?_length {c : Char} {cs : List Char} {scanned : Scanned}
    (h : ofCharacters? c cs = some scanned) : scanned.rest.length ≤ cs.length := by
  unfold ofCharacters? at h
  have hdrop (n : Nat) : (cs.drop n).length ≤ cs.length := by simp
  split at h
  · obtain ⟨found, hfound, rfl⟩ := Option.map_eq_some_iff.1 h
    exact Nat.le_of_lt (Token.quotedBody_length hfound)
  split at h
  · obtain ⟨found, hfound, rfl⟩ := Option.map_eq_some_iff.1 h
    exact Nat.le_of_lt (Token.quotedBody_length hfound)
  split at h
  · obtain ⟨found, hfound, rfl⟩ := Option.map_eq_some_iff.1 h
    exact Nat.le_trans (Nat.le_of_lt (Token.quotedBody_length hfound)) (hdrop 1)
  split at h
  · cases h
    exact hdrop _
  split at h
  · cases h
    exact (List.dropWhile_suffix _).length_le
  split at h
  · split at h
    · cases h
      exact hdrop _
    · cases h
      exact Nat.le_refl _
  split at h
  · cases h
    exact (List.dropWhile_suffix _).length_le
  split at h
  · cases h
    exact Nat.le_refl _
  · cases h
    exact hdrop _

end Scanned

/-- Whether a comment that ends with its line begins with `c` and `cs`. -/
def beginsLineComment (c : Char) (cs : List Char) : Bool :=
  c == '#' || (c == '-' && cs.head? == some '-')

/-- The tokens of a text, or nothing when a quote or comment does not end. -/
def scan (text : List Char) : Option (List Token) :=
  match text with
  | [] => some []
  | c :: cs =>
      if Token.isSpace c then
        scan cs
      else if beginsLineComment c cs then
        have := (List.dropWhile_suffix (l := cs) (· != '\n')).length_le
        scan (cs.dropWhile (· != '\n'))
      else if c = '/' ∧ cs.head? = some '*' then
        match h : Token.afterComment ' ' 0 (cs.drop 1) with
        | none => none
        | some rest =>
            have :=
              Nat.lt_of_lt_of_le (Token.afterComment_length h) (List.drop_suffix 1 cs).length_le
            scan rest
      else
        match h : Scanned.ofCharacters? c cs with
        | none => none
        | some scanned =>
            have := Scanned.ofCharacters?_length h
            (scan scanned.rest).map (scanned.token :: ·)
termination_by text.length
decreasing_by
  · exact Nat.lt_succ_self _
  · exact Nat.lt_succ_of_le this
  · exact Nat.lt_succ_of_lt this
  · exact Nat.lt_succ_of_le this

end Digest
end SchemaLint
