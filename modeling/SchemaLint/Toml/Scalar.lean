import SchemaLint.Calendar.Date
import SchemaLint.Number.Radix
import SchemaLint.Text.Basic
import SchemaLint.Toml.Basic

/-!
# Values of one word

Numbers, truth values, dates and times of TOML texts.
-/

namespace SchemaLint
namespace Toml
namespace Scalar

/-- The digits of groups with one underscore between every two of them. -/
def grouped? (isDigit : Char → Bool) (cs : List Char) : Option (List Char) :=
  let groups := Text.splitList '_' cs
  if groups.all fun group => !group.isEmpty && group.all isDigit then some groups.flatten
  else none

/-- The digits of a whole number, which begins with a zero only if it is zero. -/
def whole? (cs : List Char) : Option (List Char) :=
  (grouped? Char.isDigit cs).filter fun digits => digits.length = 1 || digits.head? ≠ some '0'

/-- Whether a number has a minus sign, and what follows its sign. -/
def splitSign : List Char → Bool × List Char
  | '-' :: rest => (true, rest)
  | '+' :: rest => (false, rest)
  | cs => (false, cs)

/-- A natural number in a base, with groups of digits. -/
def inBase? (base : Nat) (cs : List Char) : Option Int := do
  let digits ← grouped? (fun c => (Radix.digitValue? base c).isSome) cs
  return (← Radix.value? base digits : Nat)

/-- A whole number in decimal notation. -/
def decimal? (cs : List Char) : Option Int := do
  let (negative, rest) := splitSign cs
  let n : Int := Decimal.value (← whole? rest)
  return if negative then -n else n

/-- A whole number of 64 bits, in decimal notation or another base. -/
def integer? (cs : List Char) : Option Int :=
  let number :=
    match cs with
    | '0' :: 'x' :: digits => inBase? 16 digits
    | '0' :: 'o' :: digits => inBase? 8 digits
    | '0' :: 'b' :: digits => inBase? 2 digits
    | cs => decimal? cs
  number.filter fun n => Int64.minValue.toInt ≤ n && n ≤ Int64.maxValue.toInt

/-- A digit or an underscore between digits. -/
def isDigitPart (c : Char) : Bool :=
  c.isDigit || c == '_'

/-- The exponent of a number after its mark. -/
def exponent? (cs : List Char) : Option Int := do
  let (negative, rest) := splitSign cs
  let n : Int := Decimal.value (← grouped? Char.isDigit rest)
  return if negative then -n else n

/-- The places and the exponent of a number; one of them must be there. -/
def places? : List Char → Option (List Char × Int)
  | '.' :: rest => do
      let places ← grouped? Char.isDigit (rest.takeWhile isDigitPart)
      match rest.dropWhile isDigitPart with
      | [] => return (places, 0)
      | mark :: rest =>
          guard (mark == 'e' || mark == 'E')
          return (places, ← exponent? rest)
  | mark :: rest => do
      guard (mark == 'e' || mark == 'E')
      return ([], ← exponent? rest)
  | [] => none

/-- A floating point number without its sign. -/
def magnitude? (cs : List Char) : Option Float := do
  let whole ← whole? (cs.takeWhile isDigitPart)
  let (places, exponent) ← places? (cs.dropWhile isDigitPart)
  return Decimal.scientific (Decimal.value (whole ++ places)) (exponent - places.length)

/-- An infinite number. -/
def infinity : Float := 1.0 / 0.0

/-- A floating point number.  One that is written in digits must not be too large. -/
def real? (cs : List Char) : Option Float :=
  let (negative, rest) := splitSign cs
  let sign (x : Float) : Float := if negative then -x else x
  match rest with
  | ['i', 'n', 'f'] => some (sign infinity)
  | ['n', 'a', 'n'] => some (sign (0.0 / 0.0))
  | rest => ((magnitude? rest).map sign).filter (· != infinity)

/-! ## Dates and times -/

/-- Whether digits denote a number up to a bound. -/
def upTo (greatest : Nat) (digits : List Char) : Bool :=
  digits.all Char.isDigit && Decimal.value digits ≤ greatest

/-- Whether a text is a date. -/
def isDate : List Char → Bool
  | [a, b, c, d, '-', e, f, '-', g, h] =>
      [a, b, c, d, e, f, g, h].all Char.isDigit &&
        (⟨Decimal.value [a, b, c, d], Decimal.value [e, f], Decimal.value [g, h]⟩ : Date).isValid
  | _ => false

/-- The digits of a fraction of a second that count: up to nine, without zeros at the end. -/
def fractionDigits (digits : List Char) : List Char :=
  ((digits.take 9).reverse.dropWhile (· == '0')).reverse

/-- A time of day in its normal form, and what follows it. -/
def time? : List Char → Option (List Char × List Char)
  | a :: b :: ':' :: c :: d :: ':' :: e :: f :: rest => do
      guard (upTo 23 [a, b] && upTo 59 [c, d] && upTo 60 [e, f])
      let clock := [a, b, ':', c, d, ':', e, f]
      match rest with
      | '.' :: rest =>
          let digits := rest.takeWhile Char.isDigit
          guard (digits ≠ [])
          let counted := fractionDigits digits
          return (if counted = [] then clock else clock ++ '.' :: counted,
            rest.dropWhile Char.isDigit)
      | rest => return (clock, rest)
  | _ => none

/-- The offset of a clock in its normal form, if it is given. -/
def offset? : List Char → Option (List Char)
  | [] => some []
  | ['Z'] | ['z'] => some ['Z']
  | [sign, a, b, ':', c, d] =>
      if (sign == '+' || sign == '-') && upTo 23 [a, b] && upTo 59 [c, d] then
        let sign := if [a, b, c, d].all (· == '0') then '+' else sign
        some [sign, a, b, ':', c, d]
      else
        none
  | _ => none

/-- What may stand between a date and a time. -/
def isTimeMark (c : Char) : Bool :=
  c == 'T' || c == 't' || c == ' '

/-- A date, a time or both in normal form. -/
def moment? (cs : List Char) : Option (List Char) :=
  let date := cs.take 10
  if isDate date then
    match cs.drop 10 with
    | [] => some date
    | mark :: rest => do
        guard (isTimeMark mark)
        let (time, rest) ← time? rest
        return date ++ 'T' :: time ++ (← offset? rest)
  else do
    let (time, rest) ← time? cs
    guard (rest = [])
    return time

end Scalar

/-- The value of a word. -/
def ofWord? (cs : List Char) : Option Toml :=
  match cs with
  | ['t', 'r', 'u', 'e'] => some (.boolean true)
  | ['f', 'a', 'l', 's', 'e'] => some (.boolean false)
  | cs =>
      match Scalar.integer? cs, Scalar.real? cs, Scalar.moment? cs with
      | some n, _, _ => some (.integer n)
      | none, some x, _ => some (.real x)
      | none, none, some cs => some (.moment (String.ofList cs))
      | none, none, none => none

end Toml
end SchemaLint
