import SchemaLint.Finding
import SchemaLint.Metadata.Storage

/-!
# Rules

A rule says for each subject that it applies to what it found out, if anything.  It fails rather
than find nothing when a fact that it needs was never gathered.
-/

namespace SchemaLint

/-- Why a rule cannot be applied to a subject. -/
inductive RuleError where
  /-- A fact that was never gathered. -/
  | unavailable (rule subject fact : String)
  | metadata (error : MetadataError)
  /-- Sizes or costs that are no words.  This is not reported: it ends the program. -/
  | overflow (cause : Overflow)
deriving DecidableEq, Repr

namespace RuleError

/-- The text shown to the user. -/
def message : RuleError → String
  | .unavailable rule subject fact => rule ++ ": " ++ fact ++ " not available for " ++ subject
  | .metadata error => error.message
  | .overflow cause => cause.message

/-- Why a rule that needs a size cannot be applied. -/
def ofStorage : StorageError → RuleError
  | .metadata error => .metadata error
  | .overflow cause => .overflow cause

end RuleError

/-- What a rule says of a subject. -/
structure Verdict where
  severity : Severity := .ok
  messages : List String := []
  data : NameMap Json := NameMap.empty

namespace Verdict

/-- A verdict with one message. -/
def saying (severity : Severity) (message : String) : Verdict :=
  { severity, messages := [message] }

/-- The verdict with one more datum, in place of one of the same name. -/
def datum (verdict : Verdict) (name : String) (value : Json) : Verdict :=
  { verdict with data := verdict.data.insert name value }

end Verdict

/-- The answer of a rule: a verdict, nothing at all, or a failure. -/
abbrev Answer := Except RuleError (Option Verdict)

/-- A rule with its name, the subjects that it applies to, and its answers for them. -/
structure Rule where
  name : String
  applies : Subject → Bool
  answer : Subject → Answer

namespace Rule

/-- A rule about catalogs. -/
def onCatalog (name : String) (applies : Catalog → Bool) (answer : Catalog → Answer) : Rule where
  name
  applies
    | .catalog catalog => applies catalog
    | _ => false
  answer
    | .catalog catalog => answer catalog
    | _ => .ok none

/-- A rule about accounts. -/
def onAccount (name : String) (applies : Account → Bool) (answer : Account → Answer) : Rule where
  name
  applies
    | .account account => applies account
    | _ => false
  answer
    | .account account => answer account
    | _ => .ok none

/-- A rule about tables. -/
def onTable (name : String) (applies : Table → Bool) (answer : Table → Answer) : Rule where
  name
  applies
    | .table table => applies table
    | _ => false
  answer
    | .table table => answer table
    | _ => .ok none

/-- A rule about columns and their tables. -/
def onColumn (name : String) (applies : Table → Column → Bool)
    (answer : Table → Column → Answer) : Rule where
  name
  applies
    | .column table column => applies table column
    | _ => false
  answer
    | .column table column => answer table column
    | _ => .ok none

/-- A rule about queries. -/
def onQuery (name : String) (applies : Query → Bool) (answer : Query → Answer) : Rule where
  name
  applies
    | .query query => applies query
    | _ => false
  answer
    | .query query => answer query
    | _ => .ok none

/-- The finding of a verdict. -/
def findingOf (rule : Rule) (subject : Subject) (verdict : Verdict) : Finding where
  rule := rule.name
  subject := subject.subjectName
  severity := verdict.severity
  messages := verdict.messages
  data := verdict.data

/-- What a rule finds out about a subject that it applies to. -/
def found (rule : Rule) (subject : Subject) : Except RuleError (Option Finding) :=
  (rule.answer subject).map fun verdict => verdict.map (rule.findingOf subject)

/-- What a rule finds out about a subject; nothing, if it does not apply. -/
def find (rule : Rule) (subject : Subject) : Except RuleError (Option Finding) :=
  if rule.applies subject then rule.found subject else .ok none

end Rule
end SchemaLint
