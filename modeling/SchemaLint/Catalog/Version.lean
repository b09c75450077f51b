import SchemaLint.Number.Decimal
import SchemaLint.Text.Basic

/-!
# Server versions

A version of three numbers, read from the beginning of a text: blanks before it and anything
after its digits and dots are ignored.
-/

namespace SchemaLint

/-- A server version. -/
structure Version where
  major : UInt32
  minor : UInt32
  patch : UInt32
deriving DecidableEq, Repr

namespace Version

/-- The nonempty pieces of the digits and dots that a text begins with. -/
def numerals (s : String) : List String :=
  let numeric := (Text.trim s).toList.takeWhile fun c => c.isDigit || c == '.'
  ((Text.splitList '.' numeric).filter (· ≠ [])).map String.ofList

/-- Reads a version.  The first two numbers must be there; a third that is missing or too large
counts as zero. -/
def parse? (s : String) : Option Version :=
  match numerals s with
  | major :: minor :: rest => do
      let major ← Decimal.word32? major
      let minor ← Decimal.word32? minor
      let patch := (rest.head?.bind Decimal.word32?).getD 0
      return { major, minor, patch }
  | _ => none

/-- The numbers with dots between them. -/
def text (version : Version) : String :=
  Decimal.text version.major.toNat ++ "." ++ Decimal.text version.minor.toNat ++ "." ++
    Decimal.text version.patch.toNat

/-- The order of releases. -/
def le (a b : Version) : Bool :=
  a.major < b.major || (a.major == b.major &&
    (a.minor < b.minor || (a.minor == b.minor && a.patch ≤ b.patch)))

end Version
end SchemaLint
