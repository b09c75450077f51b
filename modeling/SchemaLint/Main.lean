import SchemaLint.CommandLine.Run
import SchemaLint.Digest.Grammar
import Std.Time.DateTime

/-!
# The program

Runs the command line on the files and the clock of the machine.
-/

namespace SchemaLint
namespace Main

open CommandLine

/-- The reason of a failure of the machine. -/
def fileError : IO.Error → FileError
  | .noFileOrDirectory _ _ _ => .absent
  | error => .other (toString error)

/-- The result of an action on a file. -/
def attemptFile {α : Type} (action : IO α) : IO (Except FileError α) := do
  try
    return .ok (← action)
  catch error =>
    return .error (fileError error)

/-- The world of the machine. -/
def machine : World IO where
  read path := attemptFile (IO.FS.readFile path)
  write path text := attemptFile (IO.FS.writeFile path text)
  printLine := IO.println
  noteLine := IO.eprintln

/-- The day in universal time. -/
def currentDay : IO Date := do
  let now ← Std.Time.Timestamp.now
  let day := Std.Time.PlainDate.ofEpochDay now.toDaysSinceUnixEpoch
  return ⟨day.year.toInt, day.month.toNat, day.day.toNat⟩

end Main
end SchemaLint

/-- Runs the program. -/
def main (args : List String) : IO UInt32 := do
  let day ← SchemaLint.Main.currentDay
  SchemaLint.CommandLine.run SchemaLint.Main.machine SchemaLint.Digest.parse? day args
