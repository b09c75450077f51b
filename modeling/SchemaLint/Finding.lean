import SchemaLint.Json.Members
import SchemaLint.Severity
import SchemaLint.Subject

/-!
# Findings

What a rule found out about a subject: a severity, messages and data.  A finding is written as a
JSON object without its data if there are none.
-/

namespace SchemaLint

/-- What a rule found out about a subject. -/
structure Finding where
  rule : String
  subject : SubjectName
  severity : Severity
  messages : List String := []
  data : NameMap Json := NameMap.empty

namespace Finding

/-- The finding with another severity. -/
def withSeverity (finding : Finding) (severity : Severity) : Finding :=
  { finding with severity }

/-- The finding with one more datum, in place of one of the same name. -/
def withDatum (finding : Finding) (name : String) (value : Json) : Finding :=
  { finding with data := finding.data.insert name value }

/-- The JSON form of the name of a subject. -/
def subjectJson (subject : SubjectName) : Json := .object [
  ("kind", .text subject.kind.label),
  ("name", .text subject.name)]

/-- The JSON form of a finding. -/
def toJson (finding : Finding) : Json :=
  .object ([
    ("check", .text finding.rule),
    ("entity", subjectJson finding.subject),
    ("status", .text finding.severity.name),
    ("messages", Json.texts finding.messages)] ++
    (if finding.data.isEmpty then [] else [("data", Json.ofMap id finding.data)]))

end Finding

/-- How many findings there are of each severity. -/
structure Tally where
  ok : Nat := 0
  info : Nat := 0
  concern : Nat := 0
  warning : Nat := 0
  critical : Nat := 0
deriving DecidableEq, Repr

namespace Tally

/-- The tally with one more finding. -/
def add (tally : Tally) : Severity → Tally
  | .ok => { tally with ok := tally.ok + 1 }
  | .info => { tally with info := tally.info + 1 }
  | .concern => { tally with concern := tally.concern + 1 }
  | .warning => { tally with warning := tally.warning + 1 }
  | .critical => { tally with critical := tally.critical + 1 }

/-- The number of findings of a severity. -/
def count (tally : Tally) : Severity → Nat
  | .ok => tally.ok
  | .info => tally.info
  | .concern => tally.concern
  | .warning => tally.warning
  | .critical => tally.critical

/-- The number of all findings. -/
def total (tally : Tally) : Nat :=
  tally.ok + tally.info + tally.concern + tally.warning + tally.critical

/-- The tally of a list of findings. -/
def ofFindings (findings : List Finding) : Tally :=
  findings.foldl (fun tally finding => tally.add finding.severity) {}

/-- The worst severity of which there is a finding. -/
def worst? (tally : Tally) : Option Severity :=
  Severity.all.reverse.find? (tally.count · ≠ 0)

/-- The JSON form of a tally. -/
def toJson (tally : Tally) : Json := .object [
  ("total", Json.count tally.total),
  ("ok", Json.count tally.ok),
  ("info", Json.count tally.info),
  ("concern", Json.count tally.concern),
  ("warning", Json.count tally.warning),
  ("critical", Json.count tally.critical)]

end Tally
end SchemaLint
