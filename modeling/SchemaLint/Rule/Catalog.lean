import SchemaLint.Calendar.Date
import SchemaLint.Rule.Basic

/-!
# Rules about servers

Whether invalid data is refused, and whether the release of the server is still supported.
-/

namespace SchemaLint
namespace Rule

/-- The modes in which invalid data is an error. -/
def strictModes : List String := ["STRICT_ALL_TABLES", "STRICT_TRANS_TABLES"]

/-- The modes that a server starts with. -/
def defaultModes : String :=
  "ONLY_FULL_GROUP_BY,STRICT_TRANS_TABLES,NO_ZERO_IN_DATE,NO_ZERO_DATE," ++
    "ERROR_FOR_DIVISION_BY_ZERO,NO_ENGINE_SUBSTITUTION"

/-- The modes of a list with commas, in capitals and ascending order, each once. -/
def sqlModes (text : String) : List String :=
  let modes := (Text.split ',' text).map fun mode =>
    Text.upper (Text.trimChar '\'' (Text.trim mode))
  (NameSet.ofNames (modes.filter (· ≠ ""))).names

/-- A warning unless invalid data is an error. -/
def strictMode : Rule :=
  onCatalog "strict_mode" (fun catalog => catalog.version?.any (8 ≤ ·.major)) fun catalog =>
    let modes := sqlModes ((catalog.variableValue? "sql_mode").getD defaultModes)
    let verdict : Verdict :=
      if modes.any strictModes.contains then {}
      else .saying .warning ("sql_mode has neither STRICT_TRANS_TABLES nor STRICT_ALL_TABLES; " ++
        "invalid values are silently adjusted")
    .ok (some (verdict.datum "sql_mode" (.text (Text.join "," modes))))

/-- The releases and the days on which their support ends. -/
def supportEnds : List ((UInt32 × UInt32) × Date) := [
  ((5, 5), ⟨2018, 12, 3⟩),
  ((5, 6), ⟨2021, 2, 5⟩),
  ((5, 7), ⟨2023, 10, 21⟩),
  ((8, 0), ⟨2026, 4, 30⟩),
  ((8, 4), ⟨2032, 4, 30⟩)]

/-- The day on which the support of a version ends. -/
def supportEnd? (version : Version) : Option Date :=
  (supportEnds.find? (·.1 == (version.major, version.minor))).map Prod.snd

/-- The number of months before the end of support in which it is warned of. -/
def warningMonths : Nat := 6

/-- What is said on a day of a version whose support ends on another. -/
def supportVerdict (today lastDay : Date) (version : Version) : Verdict :=
  if lastDay.lt today then
    .saying .critical ("MySQL " ++ version.text ++ " reached end of life on " ++ lastDay.text)
  else if today.lt (lastDay.monthsBefore warningMonths) then
    {}
  else
    .saying .warning ("MySQL " ++ version.text ++ " reaches end of life on " ++ lastDay.text)

/-- Whether the version of the server is supported on a day. -/
def versionSupport (today : Date) : Rule :=
  onCatalog "version_support" (fun _ => true) fun catalog =>
    match catalog.version? with
    | none => .ok (some (.saying .concern "Server version is unknown"))
    | some version =>
        let verdict : Verdict :=
          match supportEnd? version with
          | none => .saying .concern ("No support information for MySQL " ++ version.text)
          | some lastDay =>
              (supportVerdict today lastDay version).datum "end_of_life" (.text lastDay.text)
        .ok (some (verdict.datum "version" (.text version.text)))

end Rule
end SchemaLint
