import SchemaLint.Session

/-!
# Logs of runs

A run that goes on after errors, as the list of its statements, each with the session that it was
applied to.  What a statement did and how it ended can be read off its event.
-/

namespace SchemaLint

open Sql

namespace Session

/-- A statement of a run, with the session that it is applied to. -/
structure Event where
  before : Session
  statement : Statement
deriving DecidableEq

namespace Event

/-- The session after the statement. -/
def after (event : Event) : Session :=
  (event.before.apply event.statement).1

/-- How the statement ended. -/
def outcome (event : Event) : Outcome :=
  (event.before.apply event.statement).2

end Event

/-- The events of a run; a statement that fails does not end it. -/
def log (session : Session) : List Statement → List Event
  | [] => []
  | statement :: statements =>
      ⟨session, statement⟩ :: log (session.apply statement).1 statements

/-- A change of a table leaves the current schema alone. -/
theorem schema_changeTable (session : Session) (name : ObjectName)
    (change : Table → Table × Outcome) :
    (session.changeTable name change).1.schema = session.schema := by
  simp only [changeTable]
  split <;> rfl

theorem schema_foldl_dropTable (names : List ObjectName) (session : Session) :
    (names.foldl dropTable session).schema = session.schema := by
  induction names generalizing session with
  | nil => rfl
  | cons name names ih => exact ih (session.dropTable name)

end Session

namespace Sql

/-- The schema that is current after a statement: the one that it uses, or none if it drops the
current one. -/
def Statement.schemaAfter (schema : String) : Statement → String
  | .use name => name
  | .dropDatabase name _ => if name = schema then Session.unnamedSchema else schema
  | _ => schema

end Sql

namespace Session

/-- No other statement changes the current schema, whether it succeeds or fails. -/
theorem schema_apply (session : Session) (statement : Statement) :
    (session.apply statement).1.schema = statement.schemaAfter session.schema := by
  cases statement with
  | createTable spec =>
      simp only [apply, createTable]
      split
      · rfl
      · split <;> rfl
  | dropTable names _ => exact schema_foldl_dropTable names session
  | alterTable table actions => exact schema_changeTable session table _
  | createIndex table key => exact schema_changeTable session table _
  | grant grant =>
      simp only [apply, grantPrivileges]
      split <;> rfl
  | _ => rfl

end Session
end SchemaLint
