import SchemaLint.Number.Binary
import SchemaLint.Number.Decimal

/-!
# Shortest decimals

The decimal with the fewest digits that reads back as a given floating point number, and of
those the nearest to it; and the text of such a decimal in a given layout.
-/

namespace SchemaLint

/-- The number `digits * 10 ^ exponent`. -/
structure ShortDecimal where
  digits : Nat
  exponent : Int
deriving DecidableEq, Repr

namespace ShortDecimal

/-- The power of ten of the leading digit of a positive ratio. -/
def leadingPower (r : Ratio) : Int :=
  if r.denominator ≤ r.numerator then
    (Decimal.digits (r.numerator / r.denominator)).length - 1
  else
    -((Decimal.digits ((r.denominator - 1) / r.numerator)).length : Int)

/-- The decimal as a ratio. -/
def ratio (d : ShortDecimal) : Ratio :=
  Ratio.scale 10 d.exponent ⟨d.digits, 1⟩

/-- The two multiples of a power of ten next to `r`, the nearer first and the even one of two
equally near ones. -/
def neighbours (r : Ratio) (exponent : Int) : List ShortDecimal :=
  let scaled := Ratio.scale 10 (-exponent) r
  let below := scaled.numerator / scaled.denominator
  let nearest := scaled.roundEven
  let other := if nearest = below then below + 1 else below
  [⟨nearest, exponent⟩, ⟨other, exponent⟩]

/-- Tries ever finer grids, `count` of them, until a neighbour reads back. -/
def search (b : BinaryFraction) (finest : Int) : Nat → ShortDecimal
  | 0 => ⟨(Ratio.scale 10 (-finest) b.ratio).roundEven, finest⟩
  | count + 1 =>
      match (neighbours b.ratio (finest + (count + 1 : Nat))).find? (b.accepts ·.ratio) with
      | some d => d
      | none => search b finest count

/-- The decimal without zeros at its end. -/
def strip (d : ShortDecimal) : ShortDecimal :=
  if d.digits = 0 then
    ⟨0, 0⟩
  else if d.digits % 10 = 0 then
    strip ⟨d.digits / 10, d.exponent + 1⟩
  else
    d
termination_by d.digits
decreasing_by
  all_goals omega

/-- The shortest decimal of a positive magnitude.  Seventeen digits always suffice. -/
def ofBinary (b : BinaryFraction) : ShortDecimal :=
  strip (search b (leadingPower b.ratio - 16) 16)

end ShortDecimal

/-- How a decimal is laid out: the exponents between which positional notation is used, the mark
of the exponent, and what follows an integral number. -/
structure DecimalLayout where
  /-- The least position of the point, relative to the digits, in positional notation. -/
  leastPoint : Int
  /-- The greatest position of the point in positional notation. -/
  greatestPoint : Int
  exponentMark : String
  integralEnding : String

namespace DecimalLayout

/-- The text of an integer. -/
def integer (n : Int) : String :=
  if n < 0 then "-" ++ Decimal.text n.natAbs else Decimal.text n.natAbs

/-- The text of a decimal whose digits do not end in zero. -/
def write (layout : DecimalLayout) (d : ShortDecimal) : String :=
  let ds := Decimal.digits d.digits
  let point : Int := ds.length + d.exponent
  if 0 ≤ d.exponent ∧ point ≤ layout.greatestPoint then
    String.ofList (ds ++ List.replicate d.exponent.toNat '0') ++ layout.integralEnding
  else if 0 < point ∧ point ≤ layout.greatestPoint then
    String.ofList (ds.take point.toNat ++ '.' :: ds.drop point.toNat)
  else if layout.leastPoint ≤ point ∧ point ≤ 0 then
    "0." ++ String.ofList (List.replicate (-point).toNat '0' ++ ds)
  else
    let significand := if ds.length = 1 then ds else ds.take 1 ++ '.' :: ds.drop 1
    String.ofList significand ++ layout.exponentMark ++ integer (point - 1)

/-- The text of a finite floating point number, or nothing for the others. -/
def float? (layout : DecimalLayout) (x : Float) : Option String :=
  (BinaryFraction.ofFloat? x).map fun b =>
    let magnitude :=
      if b.significand = 0 then "0" ++ layout.integralEnding
      else layout.write (ShortDecimal.ofBinary b)
    if b.negative then "-" ++ magnitude else magnitude

end DecimalLayout
end SchemaLint
