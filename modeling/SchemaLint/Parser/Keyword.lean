import SchemaLint.Parser

/-!
# Keywords

Parsers that look for keywords, for every type of tokens that knows which tokens are keywords.
A sequence of keywords is read as a whole or not at all.
-/

namespace SchemaLint

/-- Tokens of which some are keywords. -/
class HasKeywords (τ : Type) where
  /-- Whether a token is this keyword. -/
  isKeyword : String → τ → Bool

namespace Parser

variable {τ ε κ : Type} [HasKeywords τ]

open HasKeywords

/-- Whether the tokens begin with these keywords. -/
def startsWith : List String → List τ → Bool
  | [], _ => true
  | _ :: _, [] => false
  | keyword :: keywords, token :: tokens =>
      isKeyword keyword token && startsWith keywords tokens

/-- Whether the next token is this keyword. -/
def ahead (keyword : String) : Parser τ ε Bool :=
  return (← peek).any (isKeyword keyword)

/-- Whether the next token is one of these keywords. -/
def aheadAny (keywords : List String) : Parser τ ε Bool :=
  return (← peek).any fun token => keywords.any (isKeyword · token)

/-- Reads these keywords if all of them follow, and says whether they do. -/
def optionalKeywords (keywords : List String) : Parser τ ε Bool :=
  scan
    (fun tokens =>
      if startsWith keywords tokens then (true, tokens.drop keywords.length)
      else (false, tokens))
    (fun tokens => by
      split
      · exact List.drop_suffix _ _
      · exact List.suffix_refl _)

/-- Reads this keyword if it follows, and says whether it does. -/
def optionalKeyword (keyword : String) : Parser τ ε Bool :=
  optionalKeywords [keyword]

/-- The first entry whose keywords begin the tokens, for a table of heads of clauses. -/
def keywordHead (table : List (String × List String × κ)) (token : τ) (rest : List τ) :
    Option (κ × Nat) :=
  (table.find? fun entry => isKeyword entry.1 token && startsWith entry.2.1 rest).map
    fun entry => (entry.2.2, entry.2.1.length)

end Parser
end SchemaLint
