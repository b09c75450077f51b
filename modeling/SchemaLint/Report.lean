import SchemaLint.Settings.Basic

/-!
# Reports

A report on a catalog: how many findings there are of each severity, and those findings that the
settings show.  It is written as text or as a JSON document.
-/

namespace SchemaLint

/-- A report on a catalog. -/
structure Report where
  /-- Where the catalog comes from. -/
  source : String
  tally : Tally
  findings : List Finding

namespace Report

/-- The report on findings under settings. -/
def of (settings : Settings) (source : String) (findings : List Finding) : Report :=
  let adjusted := findings.map settings.adjust
  { source
    tally := Tally.ofFindings adjusted
    findings := adjusted.filter settings.shows }

/-- Whether there is a critical finding, shown or not. -/
def isCritical (report : Report) : Bool :=
  report.tally.critical ≠ 0

/-- The JSON form of a report. -/
def toJson (report : Report) : Json := .object [
  ("source", .text report.source),
  ("summary", report.tally.toJson),
  ("reports", .array (report.findings.map Finding.toJson))]

/-- A rule across the page. -/
def ruler : String :=
  String.ofList (List.replicate 60 '=')

/-- The line of the number of findings of a severity. -/
def tallyLine (tally : Tally) (severity : Severity) : String :=
  "  " ++ Text.padRight 9 (severity.label ++ ":") ++ " " ++
    Decimal.text (tally.count severity)

/-- The lines of a finding. -/
def findingLines (finding : Finding) : List String :=
  ("  [" ++ Text.padRight 8 (Text.upper finding.severity.label) ++ "] " ++ finding.rule ++ " " ++
      finding.subject.text) ::
    finding.messages.map ("      " ++ ·)

/-- The lines of all findings. -/
def findingsLines (findings : List Finding) : List String :=
  if findings.isEmpty then
    ["✓ No smells found!"]
  else
    "Reports:" :: findings.flatMap findingLines

/-- The lines of a report. -/
def lines (report : Report) : List String :=
  ["", ruler, "Schema Smell Report", ruler, "", "Source: " ++ report.source, "", "Summary:",
    "  Total reports: " ++ Decimal.text report.tally.total] ++
    Severity.all.reverse.map (tallyLine report.tally) ++
    [""] ++ findingsLines report.findings

end Report
end SchemaLint
