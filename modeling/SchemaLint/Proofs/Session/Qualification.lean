import Mathlib.Data.List.Forall2
import SchemaLint.Proofs.Session.Failure
import SchemaLint.Proofs.Session.Log

/-!
# Qualified names

The current schema stands for the schema of names that have none, and for nothing else.  A run can
do without it: drop the statements that choose a schema, write the schema that was current in front
of every name that has none, and the catalog and the outcomes are the same
(`Session.qualified_agrees`).  The one difference is the wording of an error that quotes the name
of a table.
-/

namespace SchemaLint
namespace Sql

/-- The name with its schema, which is `schema` if it has none. -/
def ObjectName.qualify (schema : String) (name : ObjectName) : ObjectName :=
  { name with schema := some (name.schema.getD schema) }

namespace Statement

/-- The statement with all object names in it qualified. -/
def qualify (schema : String) : Statement → Statement
  | .createTable spec => .createTable { spec with name := spec.name.qualify schema }
  | .createView name => .createView (name.qualify schema)
  | .dropTable names ifExists => .dropTable (names.map (·.qualify schema)) ifExists
  | .alterTable table actions => .alterTable (table.qualify schema) actions
  | .createIndex table key => .createIndex (table.qualify schema) key
  | statement => statement

/-- Whether the statement only chooses the current schema. -/
def isUse : Statement → Bool
  | .use _ => true
  | _ => false

/-- The statements without those that choose a schema, and with the schema that is current at each
place written in front of the names. -/
def qualifyAll (schema : String) : List Statement → List Statement
  | [] => []
  | statement :: statements =>
      if statement.isUse then qualifyAll (statement.schemaAfter schema) statements
      else statement.qualify schema :: qualifyAll (statement.schemaAfter schema) statements

end Statement
end Sql

open Sql

namespace Session

/-- The outcomes of a statement and of the statement with qualified names: they are the same, or
the statement is an alteration that fails at an action that is not supported, and the error quotes
the name as it is written. -/
inductive SameOutcome (schema : String) : Statement → Outcome → Outcome → Prop
  | same (statement : Statement) (outcome : Outcome) : SameOutcome schema statement outcome outcome
  | reworded (name : ObjectName) {actions : List AlterAction} (line : Nat) {text : String}
      (h : .unsupported text ∈ actions) :
      SameOutcome schema (.alterTable name actions)
        (.error (.unreadable line ("ALTER TABLE " ++ name.text ++ " " ++ text)))
        (.error (.unreadable line
          ("ALTER TABLE " ++ (name.qualify schema).text ++ " " ++ text)))

/-- Two sessions that differ in the current schema only. -/
structure InStep (session qualified : Session) : Prop where
  catalog : qualified.catalog = session.catalog
  line : qualified.line = session.line

variable {session qualified : Session}

/-- A qualified name is in the same schema whatever the current one is. -/
theorem schemaOf_qualify (session qualified : Session) (name : ObjectName) :
    qualified.schemaOf (name.qualify session.schema) = session.schemaOf name := by
  simp [schemaOf, ObjectName.qualify]

theorem InStep.withCatalog (h : InStep session qualified) (catalog : Catalog) :
    InStep (session.withCatalog catalog) (qualified.withCatalog catalog) :=
  ⟨rfl, h.line⟩

theorem InStep.foldl_dropTable (h : InStep session qualified) (names : List ObjectName) :
    InStep (names.foldl dropTable session)
      ((names.map (·.qualify session.schema)).foldl dropTable qualified) := by
  induction names generalizing session qualified with
  | nil => exact h
  | cons name names ih =>
      rw [List.map_cons, List.foldl_cons, List.foldl_cons]
      have hnext : InStep (session.dropTable name)
          (qualified.dropTable (name.qualify session.schema)) := by
        rw [dropTable, dropTable, schemaOf_qualify, h.catalog]
        exact h.withCatalog _
      exact ih hnext

/-- A change finds the same table under the qualified name, and if the two changes leave the same
table, they leave the same catalog. -/
theorem InStep.changeTable (h : InStep session qualified) (name : ObjectName)
    {first second : Table → Table × Outcome} {same : Outcome → Outcome → Prop}
    (hrefl : ∀ outcome, same outcome outcome)
    (hchange : ∀ table, (second table).1 = (first table).1 ∧
      same (first table).2 (second table).2) :
    InStep (session.changeTable name first).1
        (qualified.changeTable (name.qualify session.schema) second).1 ∧
      same (session.changeTable name first).2
        (qualified.changeTable (name.qualify session.schema) second).2 := by
  have hfind : qualified.catalog.table? (qualified.schemaOf (name.qualify session.schema))
      (name.qualify session.schema).name =
        session.catalog.table? (session.schemaOf name) name.name := by
    rw [schemaOf_qualify, h.catalog]
    rfl
  cases hfound : session.catalog.table? (session.schemaOf name) name.name with
  | none =>
      rw [changeTable_of_missing hfound, changeTable_of_missing (hfind.trans hfound),
        schemaOf_qualify]
      exact ⟨h, hrefl _⟩
  | some table =>
      obtain ⟨htable, houtcome⟩ := hchange table
      rw [changeTable_of_found hfound, changeTable_of_found (hfind.trans hfound),
        schemaOf_qualify, h.catalog, htable]
      exact ⟨h.withCatalog _, houtcome⟩

/-- An action does the same under either name, and only the error of an action that is not
supported depends on the name. -/
theorem alter_qualify (line : Nat) (schema : String) (name : ObjectName) (table : Table)
    {action : AlterAction} (haction : ∀ text, action ≠ .unsupported text) :
    alter line (name.qualify schema) table action = alter line name table action := by
  cases action with
  | unsupported text => exact absurd rfl (haction text)
  | addColumn spec => rfl
  | addKey key => rfl

theorem runAll_alter_qualify (line : Nat) (schema : String) (name : ObjectName)
    {all : List AlterAction} (actions : List AlterAction) (hactions : actions ⊆ all)
    (table : Table) :
    (Outcome.runAll (alter line (name.qualify schema)) table actions).1 =
        (Outcome.runAll (alter line name) table actions).1 ∧
      SameOutcome schema (.alterTable name all)
        (Outcome.runAll (alter line name) table actions).2
        (Outcome.runAll (alter line (name.qualify schema)) table actions).2 := by
  induction actions generalizing table with
  | nil => exact ⟨rfl, .same _ _⟩
  | cons action actions ih =>
      obtain ⟨haction, hrest⟩ := List.cons_subset.1 hactions
      rw [Outcome.runAll, Outcome.runAll]
      by_cases hunsupported : ∃ text, action = .unsupported text
      · obtain ⟨text, rfl⟩ := hunsupported
        exact ⟨rfl, .reworded name line haction⟩
      · rw [alter_qualify line schema name table fun text heq => hunsupported ⟨text, heq⟩]
        split
        · exact ⟨rfl, .same _ _⟩
        · exact ih hrest _

/-- One statement and its qualified form, applied in step, stay in step and end alike. -/
theorem InStep.apply (h : InStep session qualified) (statement : Statement) :
    InStep (session.apply statement).1 (qualified.apply (statement.qualify session.schema)).1 ∧
      SameOutcome session.schema statement (session.apply statement).2
        (qualified.apply (statement.qualify session.schema)).2 := by
  cases statement with
  | createDatabase name _ =>
      simp only [Statement.qualify, Session.apply, h.catalog]
      exact ⟨h.withCatalog _, .same _ _⟩
  | use name => exact ⟨⟨h.catalog, h.line⟩, .same _ _⟩
  | dropDatabase name _ =>
      simp only [Statement.qualify, Session.apply, dropSchema, h.catalog]
      exact ⟨⟨rfl, h.line⟩, .same _ _⟩
  | createTable spec =>
      have hname : (spec.name.qualify session.schema).name = spec.name.name := rfl
      -- of the name only its last part gets into the table
      have htable : ∀ schema, Definition.table schema
          { spec with name := spec.name.qualify session.schema } = Definition.table schema spec :=
        fun _ => rfl
      simp only [Statement.qualify, Session.apply, createTable, schemaOf_qualify, h.catalog, hname,
        htable]
      split
      · exact ⟨h, .same _ _⟩
      · split
        · exact ⟨h, .same _ _⟩
        · exact ⟨h.withCatalog _, .same _ _⟩
  | createView name =>
      have hname : (name.qualify session.schema).name = name.name := rfl
      simp only [Statement.qualify, Session.apply, createView, schemaOf_qualify, h.catalog, hname]
      exact ⟨h.withCatalog _, .same _ _⟩
  | dropTable names _ => exact ⟨h.foldl_dropTable names, .same _ _⟩
  | alterTable table actions =>
      refine h.changeTable table (.same _) fun target => ?_
      rw [h.line]
      exact runAll_alter_qualify session.line session.schema table actions
        (List.Subset.refl actions) target
  | createIndex table key =>
      -- the addition of a key does not depend on the name or the line
      exact h.changeTable table (.same _) fun target => ⟨rfl, .same _ _⟩
  | createUser creation =>
      simp only [Statement.qualify, Session.apply, createUser, h.catalog]
      exact ⟨h.withCatalog _, .same _ _⟩
  | grant grant =>
      simp only [Statement.qualify, Session.apply, grantPrivileges, h.catalog]
      split
      · exact ⟨h.withCatalog _, .same _ _⟩
      · exact ⟨h, .same _ _⟩
  | inert _ => exact ⟨h, .same _ _⟩
  | unsupported text =>
      simp only [Statement.qualify, Session.apply, h.line]
      exact ⟨h, .same _ _⟩

/-- An event and the event of the qualified statement: the catalog after them is the same, and they
end alike. -/
structure Agrees (event qualified : Event) : Prop where
  statement : qualified.statement = event.statement.qualify event.before.schema
  catalog : qualified.after.catalog = event.after.catalog
  outcome : SameOutcome event.before.schema event.statement event.outcome qualified.outcome

theorem InStep.log (h : InStep session qualified) (statements : List Statement) :
    List.Forall₂ Agrees
      ((session.log statements).filter fun event => !event.statement.isUse)
      (qualified.log (Statement.qualifyAll session.schema statements)) := by
  induction statements generalizing session qualified with
  | nil => exact .nil
  | cons statement statements ih =>
      obtain ⟨hnext, houtcome⟩ := h.apply statement
      have hschema := session.schema_apply statement
      rw [Session.log, Statement.qualifyAll, ← hschema]
      by_cases huse : statement.isUse = true
      -- only the current schema changes, which the other run does not have
      · have hstep : InStep (session.apply statement).1 qualified := by
          cases statement with
          | use name => exact ⟨h.catalog, h.line⟩
          | _ => cases huse
        rw [if_pos huse, List.filter_cons_of_neg (by simp [huse])]
        exact ih hstep
      · rw [if_neg huse, List.filter_cons_of_pos (by simpa using huse), Session.log]
        exact .cons ⟨rfl, hnext.catalog, houtcome⟩ (ih hnext)

/-- A run and the run of its qualified statements from the same catalog agree statement by
statement, except for those that choose a schema, which the second run does not have. -/
theorem qualified_agrees (catalog : Catalog) (statements : List Statement) :
    List.Forall₂ Agrees
      (((start catalog).log statements).filter fun event => !event.statement.isUse)
      ((start catalog).log (Statement.qualifyAll unnamedSchema statements)) :=
  InStep.log ⟨rfl, rfl⟩ statements

/-- The schema that is dropped is no longer current, also if it never existed. -/
example : Statement.qualifyAll unnamedSchema [
    .use "shop", .createView { name := "a" }, .dropDatabase "shop" true,
    .dropTable [{ name := "a" }, { schema := some "crm", name := "b" }] false] = [
      .createView { schema := some "shop", name := "a" }, .dropDatabase "shop" true,
      .dropTable [{ schema := some "__unnamed__", name := "a" },
        { schema := some "crm", name := "b" }] false] := by
  decide

end Session
end SchemaLint
