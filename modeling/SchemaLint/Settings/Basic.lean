import SchemaLint.Catalog.Basic
import SchemaLint.Finding

/-!
# Settings

What the user may choose: session variables that stand in for those of a server, rules that are
not applied, severities in place of those that rules find, and the least severity that is shown.
-/

namespace SchemaLint

/-- The choices of the user. -/
structure Settings where
  sessionVariables : NameMap String := NameMap.empty
  disabledRules : List String := []
  leastSeverity : Severity := .info
  /-- Severities by the names of rules. -/
  severities : NameMap Severity := NameMap.empty
deriving DecidableEq

namespace Settings

/-- Whether a rule is not applied. -/
def disables (settings : Settings) (rule : String) : Bool :=
  settings.disabledRules.contains rule

/-- The severity of what a rule finds. -/
def severityOf (settings : Settings) (rule : String) (found : Severity) : Severity :=
  (settings.severities.get? rule).getD found

/-- The finding with the chosen severity. -/
def adjust (settings : Settings) (finding : Finding) : Finding :=
  finding.withSeverity (settings.severityOf finding.rule finding.severity)

/-- Whether a finding is shown. -/
def shows (settings : Settings) (finding : Finding) : Bool :=
  settings.leastSeverity.atLeast finding.severity

/-- The catalog with all chosen session variables. -/
def seed (settings : Settings) (catalog : Catalog) : Catalog :=
  settings.sessionVariables.entries.foldl (fun catalog entry => catalog.setVariable entry.1 entry.2)
    catalog

/-- The catalog with the chosen session variables that it lacks. -/
def fill (settings : Settings) (catalog : Catalog) : Catalog :=
  settings.sessionVariables.entries.foldl
    (fun catalog entry =>
      if (catalog.variableValue? entry.1).isSome then catalog
      else catalog.setVariable entry.1 entry.2)
    catalog

/-- The JSON form of settings. -/
def toJson (settings : Settings) : Json := .object [
  ("variables", Json.ofMap .text settings.sessionVariables),
  ("disabled_checks", Json.texts settings.disabledRules),
  ("min_severity", .text settings.leastSeverity.name),
  ("severity", .object [
    ("overrides", Json.ofMap (fun severity => .text severity.name) settings.severities)])]

end Settings
end SchemaLint
