/-!
# Binary fractions

A finite floating point number taken apart into a natural significand and a power of two, and
the interval of numbers that round to it.  All arithmetic on the parts is exact.
-/

namespace SchemaLint

/-- The magnitude `significand * 2 ^ exponent` of a finite floating point number. -/
structure BinaryFraction where
  significand : Nat
  exponent : Int
  negative : Bool
deriving DecidableEq, Repr

/-- A non-negative fraction of two naturals. -/
structure Ratio where
  numerator : Nat
  denominator : Nat
deriving DecidableEq, Repr

namespace Ratio

/-- The ratio times a power of `base`. -/
def scale (base : Nat) (power : Int) (r : Ratio) : Ratio :=
  if 0 ≤ power then
    { r with numerator := r.numerator * Nat.pow base power.toNat }
  else
    { r with denominator := r.denominator * Nat.pow base (-power).toNat }

/-- Comparison by cross multiplication. -/
def lt (a b : Ratio) : Bool :=
  a.numerator * b.denominator < b.numerator * a.denominator

/-- Comparison by cross multiplication. -/
def le (a b : Ratio) : Bool :=
  a.numerator * b.denominator ≤ b.numerator * a.denominator

/-- The nearest natural number; a half goes to the even neighbour. -/
def roundEven (r : Ratio) : Nat :=
  let quotient := r.numerator / r.denominator
  let twice := 2 * (r.numerator % r.denominator)
  if twice > r.denominator ∨ (twice = r.denominator ∧ quotient % 2 = 1) then
    quotient + 1
  else
    quotient

end Ratio

namespace BinaryFraction

/-- The leading bit of a significand, which is not stored. -/
def hiddenBit : Nat := Nat.pow 2 52

/-- The parts of a floating point number, or nothing for infinities and not-a-number. -/
def ofFloat? (x : Float) : Option BinaryFraction :=
  let bits := x.toBits.toNat
  let fraction : Nat := bits % hiddenBit
  let biased : Nat := bits / hiddenBit % 2048
  let negative : Bool := 2048 * hiddenBit ≤ bits
  if biased = 2047 then
    none
  else if biased = 0 then
    some { significand := fraction, exponent := -1074, negative }
  else
    some { significand := hiddenBit + fraction, exponent := (biased : Int) - 1075, negative }

/-- The magnitude as a ratio. -/
def ratio (b : BinaryFraction) : Ratio :=
  Ratio.scale 2 b.exponent ⟨b.significand, 1⟩

/-- The upper end of the interval that rounds to the magnitude. -/
def upper (b : BinaryFraction) : Ratio :=
  Ratio.scale 2 (b.exponent - 2) ⟨4 * b.significand + 2, 1⟩

/-- The lower end of the interval; the neighbour below a power of two is twice as near. -/
def lower (b : BinaryFraction) : Ratio :=
  let gap := if b.significand = hiddenBit ∧ b.exponent ≠ -1074 then 1 else 2
  Ratio.scale 2 (b.exponent - 2) ⟨4 * b.significand - gap, 1⟩

/-- Whether `r` rounds to the magnitude: the ends of the interval do so for an even
significand only. -/
def accepts (b : BinaryFraction) (r : Ratio) : Bool :=
  if b.significand % 2 = 0 then
    b.lower.le r && r.le b.upper
  else
    b.lower.lt r && r.lt b.upper

end BinaryFraction
end SchemaLint
