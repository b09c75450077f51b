import SchemaLint.Number.Decimal
import SchemaLint.Number.Word
import SchemaLint.Text.Basic

/-!
# The world of the program

What the program may do: read and write files, and print.  The program is written for any monad
in which it can do so, so that it runs in the same way on files and on a model of them.
-/

namespace SchemaLint
namespace CommandLine

/-- Why a file cannot be read or written. -/
inductive FileError where
  | absent
  | other (reason : String)
deriving DecidableEq, Repr

namespace FileError

/-- The text shown to the user. -/
def message : FileError → String
  | .absent => "No such file or directory (os error 2)"
  | .other reason => reason

end FileError

/-- What the program may do. -/
structure World (m : Type → Type) where
  read : String → m (Except FileError String)
  write : String → String → m (Except FileError Unit)
  /-- Prints a line for the reader of reports. -/
  printLine : String → m Unit
  /-- Prints a line for the user of the program. -/
  noteLine : String → m Unit

/-- Why the program stops early: what it was doing, and the causes, each with the next as its own
cause. -/
structure Failure where
  doing : String
  causes : List String
deriving DecidableEq, Repr

namespace Failure

/-- A cause; its lines are indented behind its number. -/
def numberedCause (number : Nat) (cause : String) : String :=
  "\n" ++ Text.padLeft 5 (Decimal.text number) ++ ": " ++ Text.replace "\n" "\n       " cause

/-- A cause that is the only one. -/
def onlyCause (cause : String) : String :=
  "\n    " ++ Text.replace "\n" "\n    " cause

/-- The causes. -/
def causesText : List String → String
  | [cause] => onlyCause cause
  | causes => Text.join "" (causes.zipIdx.map fun entry => numberedCause entry.2 entry.1)

/-- The text shown to the user. -/
def text (failure : Failure) : String :=
  "Error: " ++ failure.doing ++ "\n\nCaused by:" ++ causesText failure.causes

end Failure

/-- How the program stops early. -/
inductive Stop where
  /-- It says why it cannot go on. -/
  | failed (failure : Failure)
  /-- Arithmetic breaks off. -/
  | overflowed (cause : Overflow)
deriving DecidableEq, Repr

namespace Stop

/-- The text shown to the user. -/
def text : Stop → String
  | .failed failure => failure.text
  | .overflowed cause => "thread 'main' panicked: " ++ cause.message

/-- The exit code of the program. -/
def exitCode : Stop → UInt32
  | .failed _ => 1
  | .overflowed _ => 101

end Stop
end CommandLine
end SchemaLint
