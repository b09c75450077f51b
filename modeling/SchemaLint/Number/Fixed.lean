import SchemaLint.Number.Binary
import SchemaLint.Number.Decimal

/-!
# Fixed places

Floating point numbers written with a fixed number of places.  The exact binary value is
rounded, and a half goes to the even neighbour.
-/

namespace SchemaLint
namespace Fixed

/-- The text of `n / Nat.pow 10 places`. -/
def ofScaled (places n : Nat) : String :=
  let whole := Decimal.text (n / Nat.pow 10 places)
  if places = 0 then
    whole
  else
    let fraction := Decimal.digits (n % Nat.pow 10 places)
    whole ++ "." ++ String.ofList (List.replicate (places - fraction.length) '0' ++ fraction)

/-- The text of a ratio with a fixed number of places. -/
def ofRatio (places : Nat) (r : Ratio) : String :=
  ofScaled places (Ratio.scale 10 places r).roundEven

/-- The text of a number with a fixed number of places. -/
def text (places : Nat) (x : Float) : String :=
  match BinaryFraction.ofFloat? x with
  | none => if x.isNaN then "NaN" else if x < 0 then "-inf" else "inf"
  | some b => (if b.negative then "-" else "") ++ ofRatio places b.ratio

end Fixed
end SchemaLint
