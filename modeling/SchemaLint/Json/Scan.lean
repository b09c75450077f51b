import SchemaLint.Json.Token

/-!
# Scanning JSON text

The list of tokens of a JSON text.  The scanner ends because every token, and every space
between tokens, takes at least one character.
-/

namespace SchemaLint
namespace Json
namespace Token

/-- The tokens of a text, or nothing when some part of it is no token. -/
def scan (cs : List Char) : Option (List Token) :=
  match cs with
  | [] => some []
  | '[' :: rest => (scan rest).map (.beginArray :: ·)
  | ']' :: rest => (scan rest).map (.endArray :: ·)
  | '\x7b' :: rest => (scan rest).map (.beginObject :: ·)
  | '\x7d' :: rest => (scan rest).map (.endObject :: ·)
  | ',' :: rest => (scan rest).map (.comma :: ·)
  | ':' :: rest => (scan rest).map (.colon :: ·)
  | 'n' :: 'u' :: 'l' :: 'l' :: rest => (scan rest).map (.null :: ·)
  | 't' :: 'r' :: 'u' :: 'e' :: rest => (scan rest).map (.boolean true :: ·)
  | 'f' :: 'a' :: 'l' :: 's' :: 'e' :: rest => (scan rest).map (.boolean false :: ·)
  | '"' :: rest =>
      match h : stringBody rest with
      | some (value, rest') =>
          have := stringBody_length h
          (scan rest').map (.text (String.ofList value) :: ·)
      | none =>
          match h : afterString rest with
          | none => none
          | some rest' =>
              have := afterString_length h
              (scan rest').map (.illegible :: ·)
  | c :: rest =>
      if isSpace c then
        scan rest
      else if isNumberPart c then
        match number? (c :: rest.takeWhile isNumberPart) with
        | none => none
        | some n =>
            have := (List.dropWhile_suffix (l := rest) isNumberPart).length_le
            (scan (rest.dropWhile isNumberPart)).map (.number n :: ·)
      else
        none
termination_by cs.length
decreasing_by
  all_goals simp_all only [List.length_cons]; omega

end Token
end Json
end SchemaLint
