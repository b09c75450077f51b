/-!
# Words

Sums and products of words of 64 bits.  One that needs more bits is not cut short: there is no
result, and whatever was being worked out comes to nothing.
-/

namespace SchemaLint

/-- Arithmetic that leaves 64 bits. -/
inductive Overflow where
  | addition
  | multiplication
deriving DecidableEq, Repr

namespace Overflow

/-- The text shown to the user. -/
def message : Overflow → String
  | .addition => "attempt to add with overflow"
  | .multiplication => "attempt to multiply with overflow"

end Overflow

namespace Word

/-- The sum of two words, if it is a word. -/
def plus (a b : UInt64) : Except Overflow UInt64 :=
  if a.toNat + b.toNat < UInt64.size then .ok (a + b) else .error .addition

/-- The product of two words, if it is a word. -/
def times (a b : UInt64) : Except Overflow UInt64 :=
  if a.toNat * b.toNat < UInt64.size then .ok (a * b) else .error .multiplication

/-- The number of items, if it is a word. -/
def count {α : Type} (items : List α) : Except Overflow UInt64 :=
  if items.length < UInt64.size then .ok (UInt64.ofNat items.length) else .error .addition

end Word
end SchemaLint
