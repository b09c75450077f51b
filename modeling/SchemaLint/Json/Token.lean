import SchemaLint.Json.Basic
import SchemaLint.Number.Decimal
import SchemaLint.Number.Radix

/-!
# JSON tokens

The tokens of a JSON text.  Strings are decoded and numbers are given their value; white space
between tokens is dropped.  Of a string that cannot be decoded only the end is looked for.  The
scanner consumes at least one character for each token.
-/

namespace SchemaLint
namespace Json

/-- A token of a JSON text. -/
inductive Token where
  | beginArray
  | endArray
  | beginObject
  | endObject
  | comma
  | colon
  | null
  | boolean (value : Bool)
  | number (value : Number)
  | text (value : String)
  /-- A string with half of a surrogate pair. -/
  | illegible

namespace Token

/-- White space between tokens. -/
def isSpace (c : Char) : Bool :=
  c == ' ' || c == '\n' || c == '\t' || c == '\r'

/-- The value of four hexadecimal digits. -/
def hexUnit? (a b c d : Char) : Option Nat :=
  Radix.value? 16 [a, b, c, d]

/-- The character that a backslash and one more character stand for. -/
def escaped? : Char → Option Char
  | '"' => some '"'
  | '\\' => some '\\'
  | '/' => some '/'
  | 'b' => some '\x08'
  | 'f' => some '\x0c'
  | 'n' => some '\n'
  | 'r' => some '\r'
  | 't' => some '\t'
  | _ => none

/-- Puts a character in front of a scanned string. -/
def push (c : Char) : List Char × List Char → List Char × List Char
  | (value, rest) => (c :: value, rest)

/-- The contents of a string up to its closing quote, and what follows the quote.  A unit escape
in the high half of the surrogate range takes the low half that must follow it. -/
def stringBody : List Char → Option (List Char × List Char)
  | [] => none
  | '"' :: rest => some ([], rest)
  | '\\' :: 'u' :: a :: b :: c :: d :: rest =>
      match hexUnit? a b c d with
      | none => none
      | some unit =>
          if 0xD800 ≤ unit ∧ unit < 0xDC00 then
            match rest with
            | '\\' :: 'u' :: e :: f :: g :: h :: rest =>
                match hexUnit? e f g h with
                | none => none
                | some low =>
                    if 0xDC00 ≤ low ∧ low < 0xE000 then
                      (stringBody rest).map
                        (push (Char.ofNat (0x10000 + (unit - 0xD800) * 0x400 + (low - 0xDC00))))
                    else
                      none
            | _ => none
          else if 0xDC00 ≤ unit ∧ unit < 0xE000 then
            none
          else
            (stringBody rest).map (push (Char.ofNat unit))
  | '\\' :: c :: rest =>
      match escaped? c with
      | none => none
      | some d => (stringBody rest).map (push d)
  | c :: rest => if c.toNat < 32 then none else (stringBody rest).map (push c)

/-- What follows the closing quote of a string with well-formed escapes, whatever they stand
for. -/
def afterString : List Char → Option (List Char)
  | [] => none
  | '"' :: rest => some rest
  | '\\' :: 'u' :: a :: b :: c :: d :: rest =>
      if (hexUnit? a b c d).isSome then afterString rest else none
  | '\\' :: c :: rest => if (escaped? c).isSome then afterString rest else none
  | c :: rest => if c.toNat < 32 then none else afterString rest

/-- A character that may occur in a number. -/
def isNumberPart (c : Char) : Bool :=
  c.isDigit || c == '-' || c == '+' || c == '.' || c == 'e' || c == 'E'

/-- The exponent part of a number: a mark, an optional sign and digits; or nothing at all. -/
def exponent? : List Char → Option (Option Int)
  | [] => some none
  | mark :: rest =>
      if mark == 'e' || mark == 'E' then
        match rest with
        | '-' :: ds => (Decimal.natural? ds).map fun n => some (-(n : Int))
        | '+' :: ds => (Decimal.natural? ds).map fun n => some (n : Int)
        | ds => (Decimal.natural? ds).map fun n => some (n : Int)
      else
        none

/-- The fraction and exponent of a number after its integral digits. -/
def tail? (cs : List Char) : Option (List Char × Option Int) :=
  match cs with
  | '.' :: rest =>
      let places := rest.takeWhile Char.isDigit
      if places = [] then none
      else (exponent? (rest.dropWhile Char.isDigit)).map fun e => (places, e)
  | rest => (exponent? rest).map fun e => ([], e)

/-- The value of a number without its sign. -/
def unsigned? (isNegative : Bool) (cs : List Char) : Option Number := do
  let whole := cs.takeWhile Char.isDigit
  let rest := cs.dropWhile Char.isDigit
  if whole = [] ∨ (1 < whole.length ∧ whole.head? = some '0') then none
  else
    let (places, exponent) ← tail? rest
    let digits := Decimal.value (whole ++ places)
    let real := Decimal.scientific digits (exponent.getD 0 - places.length)
    let fraction := Number.fraction (if isNegative then -real else real)
    if places = [] ∧ exponent = none then
      if isNegative then
        if 0 < digits ∧ 2 * digits ≤ UInt64.size then some (.negative (Int64.ofInt (-digits)))
        else some fraction
      else if digits < UInt64.size then some (.natural (UInt64.ofNat digits))
      else some fraction
    else
      some fraction

/-- The value of a number. -/
def number? : List Char → Option Number
  | '-' :: cs => unsigned? true cs
  | cs => unsigned? false cs

/-- What is left behind a body is left behind it with one more character in front. -/
theorem exists_of_map_push {c : Char} {body : Option (List Char × List Char)}
    {value rest : List Char} (h : body.map (push c) = some (value, rest)) :
    ∃ chars, body = some (chars, rest) := by
  obtain ⟨⟨chars, left⟩, hbody, hpush⟩ := Option.map_eq_some_iff.1 h
  obtain ⟨-, rfl⟩ := Prod.mk.inj hpush
  exact ⟨chars, hbody⟩

theorem stringBody_length {cs value rest : List Char} (h : stringBody cs = some (value, rest)) :
    rest.length < cs.length := by
  fun_induction stringBody cs generalizing value rest with
  | case2 =>
      cases h
      exact Nat.lt_succ_self _
  -- a character is read, or an escape of one, and the rest of the body after it
  | case5 | case9 | case11 | case13 =>
      rename_i ih
      obtain ⟨chars, hbody⟩ := exists_of_map_push h
      have hrest := ih hbody
      simp only [List.length_cons]
      omega
  | _ => cases h

theorem afterString_length {cs rest : List Char} (h : afterString cs = some rest) :
    rest.length < cs.length := by
  fun_induction afterString cs with
  | case2 =>
      cases h
      exact Nat.lt_succ_self _
  -- an escape or a character is passed over, and then the rest
  | case3 | case5 | case8 =>
      rename_i ih
      have hrest := ih h
      simp only [List.length_cons]
      omega
  | _ => cases h

end Token
end Json
end SchemaLint
