import SchemaLint.Text.Basic

/-!
# Command line options

The arguments of the program: options, which may stand before or after the name of a command, the
command and its file.  An option that stands in both places means what it says after the command.
-/

namespace SchemaLint
namespace CommandLine

/-- How a report is printed. -/
inductive Format where
  | table
  | json
deriving DecidableEq, Repr

namespace Format

/-- The format of a name. -/
def ofName? : String → Option Format
  | "table" => some .table
  | "json" => some .json
  | _ => none

end Format

/-- What the program is asked to do. -/
inductive Command where
  /-- Inspect the catalog that a script builds. -/
  | check (path : String)
  /-- Inspect the catalog of a snapshot. -/
  | snapshot (path : String)
  /-- List the rules. -/
  | listRules
deriving DecidableEq, Repr

/-- An option that takes a value. -/
inductive Setting where
  | config
  | format
  | output
deriving DecidableEq, Repr

namespace Setting

/-- The letter of an option. -/
def letter : Setting → Char
  | .config => 'c'
  | .format => 'f'
  | .output => 'o'

/-- The name of an option. -/
def name : Setting → String
  | .config => "config"
  | .format => "format"
  | .output => "output"

/-- All options that take a value. -/
def all : List Setting := [.config, .format, .output]

end Setting

/-- An argument by its part in the command line. -/
inductive Argument where
  | verbose
  | setting (setting : Setting) (value : String)
  | word (text : String)
deriving DecidableEq, Repr

/-- What an argument that begins with a hyphen gives: a number of times the option without value,
and an option whose value may be attached. -/
structure Switches where
  verbose : Nat := 0
  setting : Option (Setting × Option String) := none

/-- The options of a run of letters after one hyphen. -/
def switches? : List Char → Option Switches
  | [] => some {}
  | 'v' :: rest => (switches? rest).map fun s => { s with verbose := s.verbose + 1 }
  | c :: rest => do
      let setting ← Setting.all.find? (·.letter == c)
      let value :=
        match rest with
        | [] => none
        | '=' :: value => some (String.ofList value)
        | value => some (String.ofList value)
      return { setting := some (setting, value) }

/-- The option of a name after two hyphens, with the value after an equals sign. -/
def longSwitch? (cs : List Char) : Option Switches :=
  let name := String.ofList (cs.takeWhile (· ≠ '='))
  let value :=
    match cs.dropWhile (· ≠ '=') with
    | [] => none
    | _ :: value => some (String.ofList value)
  if name = "verbose" ∧ value = none then
    some { verbose := 1 }
  else
    (Setting.all.find? (·.name == name)).map fun setting => { setting := some (setting, value) }

/-- Whether an argument is made of options; a hyphen alone is a word. -/
def isSwitch (argument : String) : Bool :=
  match argument.toList with
  | '-' :: _ :: _ => true
  | _ => false

/-- The options of an argument. -/
def switchesOf? (argument : String) : Option Switches :=
  match argument.toList with
  | '-' :: '-' :: cs => longSwitch? cs
  | '-' :: cs => switches? cs
  | _ => none

/-- The arguments by their parts.  Two hyphens end the options. -/
def arguments? : List String → Option (List Argument)
  | [] => some []
  | "--" :: rest => some (rest.map .word)
  | argument :: rest =>
      if isSwitch argument then
        match switchesOf? argument with
        | none => none
        | some switches =>
            let verbose := List.replicate switches.verbose Argument.verbose
            match switches.setting with
            | none => (arguments? rest).map (verbose ++ ·)
            | some (setting, some value) =>
                (arguments? rest).map fun more => verbose ++ .setting setting value :: more
            | some (setting, none) =>
                match rest with
                | [] => none
                | value :: rest =>
                    if isSwitch value then none
                    else
                      (arguments? rest).map fun more => verbose ++ .setting setting value :: more
      else
        (arguments? rest).map (.word argument :: ·)

/-- The options on one side of the command. -/
structure Side where
  verbose : Bool := false
  config : Option String := none
  format : Option Format := none
  output : Option String := none
  words : List String := []

namespace Side

/-- The options with one more argument.  No option is given twice on one side, and no value is
empty. -/
def add (side : Side) : Argument → Option Side
  | .verbose => if side.verbose then none else some { side with verbose := true }
  | .setting .config value =>
      if side.config.isSome || value = "" then none else some { side with config := some value }
  | .setting .format value => do
      guard side.format.isNone
      return { side with format := some (← Format.ofName? value) }
  | .setting .output value =>
      if side.output.isSome || value = "" then none else some { side with output := some value }
  | .word text => some { side with words := side.words ++ [text] }

/-- The options of a list of arguments. -/
def ofArguments? (arguments : List Argument) : Option Side :=
  arguments.foldlM add {}

end Side

/-- What the program is asked to do, and how. -/
structure Options where
  config : Option String
  verbose : Bool
  format : Format
  output : Option String
  command : Command
deriving DecidableEq, Repr

namespace Options

/-- The command of a name and its files. -/
def command? (name : String) (files : List String) : Option Command :=
  match name, files with
  | "check", [path] => if path = "" then none else some (.check path)
  | "snapshot", [path] => if path = "" then none else some (.snapshot path)
  | "list-checks", [] => some .listRules
  | _, _ => none

/-- Whether an argument is a word. -/
def isWord : Argument → Bool
  | .word _ => true
  | _ => false

/-- Reads the arguments of the program. -/
def parse? (args : List String) : Option Options := do
  let arguments ← arguments? args
  let before ← Side.ofArguments? (arguments.takeWhile (!isWord ·))
  match arguments.dropWhile (!isWord ·) with
  | .word name :: rest =>
      let after ← Side.ofArguments? rest
      return {
        config := after.config <|> before.config
        verbose := after.verbose || before.verbose
        format := (after.format <|> before.format).getD .table
        output := after.output <|> before.output
        command := ← command? name after.words }
  | _ => none

end Options

/-- What is said of arguments that are not understood. -/
def usage : String :=
  "Usage: schemalint [-c FILE] [-v] [-f table|json] [-o FILE] " ++
    "<check FILE | snapshot FILE | list-checks>"

end CommandLine
end SchemaLint
