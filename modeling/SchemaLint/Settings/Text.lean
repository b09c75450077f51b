import SchemaLint.Json.Printer
import SchemaLint.Settings.Basic
import SchemaLint.Toml.Document

/-!
# Settings as text

Settings are kept in a TOML document.  Every setting may be missing, and keys that are not known
are ignored.
-/

namespace SchemaLint

/-- Why settings cannot be used. -/
inductive SettingsError where
  /-- The text cannot be obtained. -/
  | missing (reason : String)
  | malformed
deriving DecidableEq, Repr

namespace SettingsError

/-- The text shown to the user. -/
def message : SettingsError → String
  | .missing reason => "IO error: " ++ reason
  | .malformed => "Parse error: malformed settings"

end SettingsError

namespace Settings

/-- The key under which a date or a time is found where a table should be. -/
def momentKey : String := "$__toml_private_datetime"

/-- The entries of a table. -/
def entries? : Toml → Option Toml.Entries
  | .table _ entries => some entries
  | .moment text => some [(momentKey, .text text)]
  | _ => none

/-- A string. -/
def text? : Toml → Option String
  | .text value => some value
  | _ => none

/-- A map from names. -/
def map? {α : Type} (decode : Toml → Option α) (value : Toml) : Option (NameMap α) := do
  let entries ← entries? value
  let decoded ← entries.mapM fun entry => (decode entry.2).map fun value => (entry.1, value)
  return NameMap.ofList decoded

/-- A list of strings. -/
def texts? : Toml → Option (List String)
  | .array items => items.mapM text?
  | _ => none

/-- Whether a value is a container that holds nothing. -/
def isEmptyContainer : Toml → Bool
  | .array [] | .table _ [] => true
  | _ => false

/-- A severity: its name, or a table in which its name is the only key and has nothing in it. -/
def severity? : Toml → Option Severity
  | .text name => Severity.ofName? name
  | .table _ [(name, value)] => if isEmptyContainer value then Severity.ofName? name else none
  | _ => none

/-- A setting of a section, or what stands in for it if it is missing. -/
def setting? {α : Type} (entries : Toml.Entries) (key : String) (missing : α)
    (decode : Toml → Option α) : Option α :=
  match Toml.Entries.find? entries key with
  | none => some missing
  | some value => decode value

/-- The section of severities: a table with a key for them, or an array that begins with them. -/
def severities? (value : Toml) : Option (NameMap Severity) :=
  match value with
  | .array [] => some NameMap.empty
  | .array (first :: _) => map? severity? first
  | .tables (first :: _) => map? severity? (.table .header first)
  | value => do setting? (← entries? value) "overrides" NameMap.empty (map? severity?)

/-- The settings that a document holds. -/
def ofEntries? (entries : Toml.Entries) : Option Settings := do
  return {
    sessionVariables := ← setting? entries "variables" NameMap.empty (map? text?)
    disabledRules := ← setting? entries "disabled_checks" [] texts?
    leastSeverity := ← setting? entries "min_severity" .info severity?
    severities := ← setting? entries "severity" NameMap.empty severities? }

/-- Reads settings. -/
def parse (text : String) : Except SettingsError Settings :=
  match (Toml.parse? text).bind ofEntries? with
  | some settings => .ok settings
  | none => .error .malformed

/-- A character inside a quoted string. -/
def escape (c : Char) : List Char :=
  if c == '"' || c == '\\' then ['\\', c]
  else if c.toNat < 32 || c.toNat = 127 then
    ['\\', 'u', '0', '0', Json.hexDigit (c.toNat / 16), Json.hexDigit (c.toNat % 16)]
  else [c]

/-- A quoted string. -/
def quote (s : String) : String :=
  "\"" ++ Text.substitute escape s ++ "\""

/-- A line with a key and a string. -/
def line (key value : String) : String :=
  quote key ++ " = " ++ quote value ++ "\n"

/-- The text of settings. -/
def text (settings : Settings) : String :=
  "disabled_checks = [" ++ Text.join ", " (settings.disabledRules.map quote) ++ "]\n" ++
    line "min_severity" settings.leastSeverity.name ++
    "\n[variables]\n" ++
    Text.join "" (settings.sessionVariables.entries.map fun entry => line entry.1 entry.2) ++
    "\n[severity.overrides]\n" ++
    Text.join "" (settings.severities.entries.map fun entry => line entry.1 entry.2.name)

end Settings
end SchemaLint
