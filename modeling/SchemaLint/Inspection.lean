import SchemaLint.Rule.Account
import SchemaLint.Rule.Catalog
import SchemaLint.Rule.Column
import SchemaLint.Rule.Query
import SchemaLint.Rule.Table

/-!
# Inspections

An inspection applies rules to subjects: all rules to the first subject, then all rules to the
second, and so on, up to the first rule that fails.  Observers are told of every finding before
the next one is made.
-/

namespace SchemaLint
namespace Inspection

/-- All rules in order, with those about time as of a day. -/
def rules (today : Date) : List Rule := [
  Rule.strictMode,
  Rule.versionSupport today,
  Rule.superPrivilege,
  Rule.passwordlessAccount,
  Rule.primaryKey,
  Rule.autoIncrementCapacity,
  Rule.redundantIndexes,
  Rule.saneInnoDBPrimaryKey,
  Rule.emptyTable,
  Rule.tableEncoding,
  Rule.lowCardinalityStorage,
  Rule.indexPrefix,
  Rule.uuidStorage,
  Rule.queryInefficiency]

/-- The rules without those of some names. -/
def without (names : List String) (rules : List Rule) : List Rule :=
  rules.filter fun rule => !names.contains rule.name

/-- Every subject with every rule, in order. -/
def pairs {α κ : Type} (rules : List κ) (subjects : List α) : List (α × κ) :=
  subjects.flatMap fun subject => rules.map fun rule => (subject, rule)

/-- Goes through pairs of a subject and a rule.  A rule that applies is asked for what it finds,
and the observers are told of it before the next pair.  The first failure ends it.  Asking and
telling may have any effects. -/
def conduct {m : Type → Type} [Monad m] {α κ φ ε : Type} (applies : κ → α → Bool)
    (ask : κ → α → m (Except ε (Option φ))) (observers : List (φ → m Unit)) :
    List (α × κ) → m (Except ε (List φ))
  | [] => return .ok []
  | (subject, rule) :: rest => do
      if applies rule subject then
        match ← ask rule subject with
        | .error error => return .error error
        | .ok none => conduct applies ask observers rest
        | .ok (some finding) =>
            forM observers fun observer => observer finding
            return (← conduct applies ask observers rest).map (finding :: ·)
      else
        conduct applies ask observers rest

/-- One who is told of findings and remembers something about them. -/
abbrev Observer (σ : Type) := Finding → σ → σ

/-- Applies rules to subjects and tells observers of the findings.  Of all effects only what the
observers remember is left. -/
def run {σ : Type} (observers : List (Observer σ)) (state : σ) (rules : List Rule)
    (subjects : List Subject) : σ × Except RuleError (List Finding) :=
  let inspection : StateM σ (Except RuleError (List Finding)) :=
    conduct Rule.applies (fun rule subject => pure (rule.found subject))
      (observers.map fun observer finding => modify (observer finding)) (pairs rules subjects)
  let ended := inspection.run state
  (ended.2, ended.1)

end Inspection
end SchemaLint
