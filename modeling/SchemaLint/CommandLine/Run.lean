import SchemaLint.CommandLine.Options
import SchemaLint.CommandLine.World
import SchemaLint.Inspection
import SchemaLint.Report
import SchemaLint.Session
import SchemaLint.Settings.Text
import SchemaLint.Snapshot

/-!
# Running the program

The program reads its settings, builds or loads a catalog, inspects it and prints a report.  Its
exit code is one after a failure, and also if any finding is critical; it is another one if the
arithmetic of a rule breaks off.
-/

namespace SchemaLint
namespace CommandLine

/-! ## Steps without effects -/

/-- Applies the statements of a script in order. -/
def applyAll (source : String) (session : Session) :
    List Sql.ScriptStatement → Except Failure Session
  | [] => .ok session
  | statement :: rest =>
      match session.applyAt statement with
      | (session, .ok ()) => applyAll source session rest
      | (_, .error error) =>
          .error {
            doing := source ++ ":" ++ Decimal.text statement.line ++ ": " ++
              Text.firstLine statement.text
            causes := [error.message] }

/-- The catalog that a script builds. -/
def catalogOfScript (settings : Settings) (source script : String) : Except Failure Catalog :=
  match Sql.parseScript script with
  | .error error => .error { doing := "Failed to parse " ++ source, causes := [error.message] }
  | .ok statements => do
      let start := Session.start (settings.seed { name := source })
      let session ← applyAll source start statements
      return session.finish.deriveFacts

/-- The messages of an error about a snapshot and of its cause. -/
def snapshotCauses (error : SnapshotError) : List String :=
  match error with
  | .unreadable reason => [error.message, reason]
  | .malformed => [error.message]
  | .invalid cause => [error.message, cause.message]

/-- What is said of a snapshot that cannot be loaded. -/
def snapshotFailure (source : String) (error : SnapshotError) : Failure where
  doing := "Failed to load snapshot " ++ source
  causes := snapshotCauses error

/-- The catalog of a snapshot, which is named for its file if it has no name. -/
def catalogOfSnapshot (parse : Digest.StatementParser) (settings : Settings)
    (source text : String) : Except Failure Catalog :=
  match Snapshot.load parse text with
  | .error error => .error (snapshotFailure source error)
  | .ok snapshot =>
      let catalog := snapshot.catalog
      let name := if catalog.name = "" then source else catalog.name
      .ok (settings.fill { catalog with name })

/-- The report on a catalog. -/
def reportOn (today : Date) (settings : Settings) (catalog : Catalog) : Except Stop Report :=
  let rules := Inspection.without settings.disabledRules (Inspection.rules today)
  match (Inspection.run [] () rules (Subject.ofCatalog catalog)).2 with
  | .error (.overflow cause) => .error (.overflowed cause)
  | .error error => .error (.failed { doing := "Check run aborted", causes := [error.message] })
  | .ok findings => .ok (Report.of settings catalog.name findings)

/-- The line of a rule in the list of rules. -/
def ruleLine (settings : Settings) (rule : Rule) : String :=
  Text.padRight 26 rule.name ++ " " ++
    (if settings.disables rule.name then "disabled" else "enabled")

/-- The JSON text of a report, with the members of objects in ascending order. -/
def jsonText (report : Report) : String :=
  report.toJson.sorted.pretty

/-- The file of the settings, if no other is named. -/
def defaultSettingsFile : String := "schemasmell.toml"

/-- The settings of a text that was read. -/
def settingsOf (doing : String) (text : Except FileError String) : Except Failure Settings :=
  let settings : Except SettingsError Settings :=
    match text with
    | .error error => .error (.missing error.message)
    | .ok text => Settings.parse text
  settings.mapError fun error => { doing, causes := [error.message] }

/-! ## Steps with effects -/

variable {m : Type → Type} [Monad m]

/-- A part of the program, which may be its end. -/
abbrev Task (m : Type → Type) := ExceptT Stop m

/-- The end of the program with a failure. -/
def fail {α : Type} (failure : Failure) : Task m α :=
  throw (.failed failure)

/-- A step without effects as a part of the program. -/
def attempt {α : Type} (result : Except Failure α) : Task m α :=
  ExceptT.mk (pure (result.mapError .failed))

/-- Reads the settings; without a file the user gets the usual ones. -/
def loadSettings (world : World m) (options : Options) : Task m Settings := do
  match options.config with
  | some path => attempt (settingsOf ("Failed to load config " ++ path) (← world.read path))
  | none =>
      match ← world.read defaultSettingsFile with
      | .error .absent =>
          if options.verbose then
            world.noteLine "No config file found, using defaults"
          return {}
      | text => attempt (settingsOf ("Failed to load " ++ defaultSettingsFile) text)

/-- Builds the catalog of a script. -/
def readScript (world : World m) (settings : Settings) (path : String) : Task m Catalog := do
  match ← world.read path with
  | .error error => fail { doing := "Failed to read " ++ path, causes := [error.message] }
  | .ok script => attempt (catalogOfScript settings path script)

/-- Loads the catalog of a snapshot. -/
def readSnapshot (world : World m) (parse : Digest.StatementParser) (settings : Settings)
    (path : String) : Task m Catalog := do
  match ← world.read path with
  | .error error => fail (snapshotFailure path (.unreadable error.message))
  | .ok text => attempt (catalogOfSnapshot parse settings path text)

/-- Writes the report to a file. -/
def save (world : World m) (verbose : Bool) (report : Report) (path : String) : Task m Unit := do
  match ← world.write path (jsonText report) with
  | .error error => fail { doing := "Failed to write " ++ path, causes := [error.message] }
  | .ok () =>
      if verbose then
        world.noteLine ("Report saved to: " ++ path)

/-- Saves and prints the report on a catalog. -/
def present (world : World m) (options : Options) (report : Report) : Task m UInt32 := do
  if let some path := options.output then
    save world options.verbose report path
  match options.format with
  | .table => report.lines.forM fun line => liftM (world.printLine line)
  | .json => world.printLine (jsonText report)
  return if report.isCritical then 1 else 0

/-- Does what the options ask for. -/
def perform (world : World m) (parse : Digest.StatementParser) (today : Date) (options : Options) :
    Task m UInt32 := do
  let settings ← loadSettings world options
  match options.command with
  | .listRules =>
      (Inspection.rules today).forM fun rule => liftM (world.printLine (ruleLine settings rule))
      return 0
  | .check path =>
      let catalog ← readScript world settings path
      present world options (← ExceptT.mk (pure (reportOn today settings catalog)))
  | .snapshot path =>
      let catalog ← readSnapshot world parse settings path
      present world options (← ExceptT.mk (pure (reportOn today settings catalog)))

/-- Runs the program on a day, with a parser for the digests of snapshots; the result is its exit
code. -/
def run (world : World m) (parse : Digest.StatementParser) (today : Date) (args : List String) :
    m UInt32 := do
  match Options.parse? args with
  | none =>
      world.noteLine usage
      return 2
  | some options =>
      match ← (perform world parse today options).run with
      | .ok code => return code
      | .error stop =>
          world.noteLine stop.text
          return stop.exitCode

end CommandLine
end SchemaLint
