/-!
# Decimal numerals

Writing and reading natural numbers in decimal notation.  Reading inverts writing
(`value_digits`), so two numbers with the same numeral are equal.
-/

namespace SchemaLint
namespace Decimal

/-- The character of a digit below ten. -/
def digitChar (d : Nat) : Char :=
  Char.ofNat (48 + d)

/-- The value of a digit character. -/
def digitValue (c : Char) : Nat :=
  c.toNat - 48

/-- The numeral of `n`, most significant digit first. -/
def digits (n : Nat) : List Char :=
  if n < 10 then [digitChar n] else digits (n / 10) ++ [digitChar (n % 10)]

/-- The numeral of `n` as a string. -/
def text (n : Nat) : String :=
  String.ofList (digits n)

/-- The number that a run of digits denotes. -/
def value (cs : List Char) : Nat :=
  cs.foldl (fun n c => 10 * n + digitValue c) 0

/-- Reads a non-empty run of digits. -/
def natural? (cs : List Char) : Option Nat :=
  if cs ≠ [] ∧ cs.all Char.isDigit then some (value cs) else none

/-- Reads a run of digits, after an optional plus sign, that denotes a number below `bound`. -/
def below? (bound : Nat) (s : String) : Option Nat :=
  let number :=
    match s.toList with
    | '+' :: cs => natural? cs
    | cs => natural? cs
  number.filter (· < bound)

/-- Reads a number that fits 64 bits. -/
def word64? (s : String) : Option UInt64 :=
  (below? UInt64.size s).map UInt64.ofNat

/-- Reads a number that fits 32 bits. -/
def word32? (s : String) : Option UInt32 :=
  (below? UInt32.size s).map UInt32.ofNat

/-- The numeral of a 64 bit word. -/
def text64 (n : UInt64) : String :=
  text n.toNat

/-- The number `digits * 10 ^ exponent` as a floating point number.  Beyond four hundred places
the result no longer depends on the exponent. -/
def scientific (digits : Nat) (exponent : Int) : Float :=
  if exponent < 0 then
    Float.ofScientific digits true (min exponent.natAbs (400 + (Decimal.digits digits).length))
  else
    Float.ofScientific digits false (min exponent.natAbs 400)

theorem digitValue_digitChar : ∀ d, d < 10 → digitValue (digitChar d) = d := by decide

theorem isDigit_digitChar : ∀ d, d < 10 → (digitChar d).isDigit = true := by decide

theorem value_append_singleton (cs : List Char) (c : Char) :
    value (cs ++ [c]) = 10 * value cs + digitValue c := by
  simp [value]

theorem value_digits (n : Nat) : value (digits n) = n := by
  induction n using Nat.strongRecOn with
  | _ n ih =>
      rw [digits]
      split
      · next h => simp [value, digitValue_digitChar n h]
      · next h =>
          rw [value_append_singleton, ih (n / 10) (by omega),
            digitValue_digitChar (n % 10) (by omega)]
          omega

theorem digits_ne_nil (n : Nat) : digits n ≠ [] := by
  rw [digits]
  split <;> simp

theorem all_isDigit_digits (n : Nat) : (digits n).all Char.isDigit = true := by
  induction n using Nat.strongRecOn with
  | _ n ih =>
      rw [digits]
      split
      · next h => simp [isDigit_digitChar n h]
      · next h => simp [ih (n / 10) (by omega), isDigit_digitChar (n % 10) (by omega)]

theorem natural?_digits (n : Nat) : natural? (digits n) = some n := by
  simp only [natural?, digits_ne_nil, ne_eq, not_false_eq_true, all_isDigit_digits, and_self,
    if_true, value_digits]

theorem digits_injective {m n : Nat} (h : digits m = digits n) : m = n := by
  rw [← value_digits m, ← value_digits n, h]

end Decimal
end SchemaLint
