import SchemaLint.Number.Decimal
import SchemaLint.Text.Basic

/-!
# Severities

The five severities of a finding, from harmless to critical, with the levels and labels by which
they are written.
-/

namespace SchemaLint

/-- How bad a finding is. -/
inductive Severity where
  | ok
  | info
  | concern
  | warning
  | critical
deriving DecidableEq, Repr

namespace Severity

/-- All severities, the lowest first. -/
def all : List Severity := [.ok, .info, .concern, .warning, .critical]

/-- The level of a severity, from one to five. -/
def level : Severity → Nat
  | .ok => 1
  | .info => 2
  | .concern => 3
  | .warning => 4
  | .critical => 5

/-- The severity of a level. -/
def ofLevel? (level : Nat) : Option Severity :=
  all.find? (·.level == level)

/-- What is said of a number that is no level. -/
def levelMessage (level : Nat) : String :=
  "Invalid status level " ++ Decimal.text level ++ ", expected 1..=5"

/-- The label shown to the user. -/
def label : Severity → String
  | .ok => "Ok"
  | .info => "Info"
  | .concern => "Concern"
  | .warning => "Warning"
  | .critical => "Critical"

/-- The severity with a label, in any case and with white space around it. -/
def ofLabel? (label : String) : Option Severity :=
  all.find? fun severity => Text.sameLetters severity.label (Text.trim label)

/-- The name by which a severity is stored. -/
def name (severity : Severity) : String :=
  Text.lower severity.label

/-- The severity with a stored name. -/
def ofName? (name : String) : Option Severity :=
  all.find? (·.name == name)

/-- Whether a severity is at least as bad as another. -/
def atLeast (least severity : Severity) : Bool :=
  least.level ≤ severity.level

/-- The worse of two severities. -/
def worse (a b : Severity) : Severity :=
  if a.level < b.level then b else a

/-- The better of two severities. -/
def better (a b : Severity) : Severity :=
  if b.level < a.level then b else a

theorem ofLevel?_level (severity : Severity) : ofLevel? severity.level = some severity := by
  cases severity <;> rfl

theorem level_injective {a b : Severity} (h : a.level = b.level) : a = b := by
  cases a <;> cases b <;> first | rfl | cases h

end Severity
end SchemaLint
