import SchemaLint.Catalog.Basic
import SchemaLint.Definition.Table
import SchemaLint.Sql.Grammar

/-!
# Sessions

A session applies statements to a catalog in order.  Names without a schema are in the current
schema.  A statement that fails changes nothing, but an alteration keeps the actions before the
one that fails.
-/

namespace SchemaLint

open Sql

namespace Outcome

/-- Applies steps one after another up to the first one that fails, and keeps what the steps
before it did. -/
def runAll {σ α : Type} (step : σ → α → σ × Outcome) : σ → List α → σ × Outcome
  | state, [] => (state, .ok ())
  | state, item :: items =>
      match step state item with
      | (state, .error error) => (state, .error error)
      | (state, .ok ()) => runAll step state items

end Outcome

/-- A catalog with the current schema and the line of the statement that is applied. -/
structure Session where
  catalog : Catalog
  schema : String
  line : Nat
deriving DecidableEq

namespace Session

/-- The schema of tables that are created before a schema is chosen. -/
def unnamedSchema : String := "__unnamed__"

/-- A session on a catalog, with no schema chosen. -/
def start (catalog : Catalog) : Session where
  catalog
  schema := unnamedSchema
  line := 0

/-- The schema of a name. -/
def schemaOf (session : Session) (name : ObjectName) : String :=
  name.schema.getD session.schema

/-- The session with a changed catalog. -/
def withCatalog (session : Session) (catalog : Catalog) : Session :=
  { session with catalog }

/-- Drops a schema; a current schema that is dropped is no longer chosen. -/
def dropSchema (session : Session) (name : String) : Session :=
  { session with
    catalog := session.catalog.removeSchema name
    schema := if name = session.schema then unnamedSchema else session.schema }

/-- The catalog with a table in a schema, which is appended if it is not there. -/
def addTable (catalog : Catalog) (schema : String) (table : Table) : Catalog :=
  (catalog.ensureSchema schema).modifySchema schema (·.addTable table)

/-- Creates a table, unless there is one of that name. -/
def createTable (session : Session) (spec : TableSpec) : Session × Outcome :=
  let schema := session.schemaOf spec.name
  if (session.catalog.table? schema spec.name.name).isSome then
    (session, .ok ())
  else
    match Definition.table schema spec with
    | .error error => (session, .error error)
    | .ok table => (session.withCatalog (addTable session.catalog schema table), .ok ())

/-- Creates a view, unless there is a table of that name. -/
def createView (session : Session) (name : ObjectName) : Session :=
  let schema := session.schemaOf name
  session.withCatalog (addTable session.catalog schema (Definition.view schema name.name))

/-- Drops a table, if it is there. -/
def dropTable (session : Session) (name : ObjectName) : Session :=
  session.withCatalog
    (session.catalog.modifySchema (session.schemaOf name) (·.removeTable name.name))

/-- One action on a table. -/
def edit (line : Nat) (name : ObjectName) : AlterAction → TableEdit Unit
  | .addColumn spec => do
      match Encoding.ofTable (← get) with
      | .error error => throw (.metadata error)
      | .ok encoding => TableEdit.addColumn encoding spec
  | .addKey key => TableEdit.addKey key
  | .unsupported text => throw (.unreadable line ("ALTER TABLE " ++ name.text ++ " " ++ text))

/-- What is left of a table after an action on it, whether the action went through or not. -/
def alter (line : Nat) (name : ObjectName) (table : Table) (action : AlterAction) :
    Table × Outcome :=
  (edit line name action).apply table

/-- Runs a change of a table that may fail part of the way. -/
def changeTable (session : Session) (name : ObjectName) (change : Table → Table × Outcome) :
    Session × Outcome :=
  let schema := session.schemaOf name
  match session.catalog.table? schema name.name with
  | none => (session, .error (.missingTable (schema ++ "." ++ name.name)))
  | some table =>
      let (changed, outcome) := change table
      (session.withCatalog (session.catalog.modifyTable schema name.name fun _ => changed), outcome)

/-- Alters a table by actions in order. -/
def alterTable (session : Session) (name : ObjectName) (actions : List AlterAction) :
    Session × Outcome :=
  session.changeTable name fun table => Outcome.runAll (alter session.line name) table actions

/-- Adds an index to a table. -/
def createIndex (session : Session) (name : ObjectName) (key : KeyClause) : Session × Outcome :=
  session.changeTable name fun table => alter session.line name table (.addKey key)

/-- The account of a definition. -/
def accountOf (creation : UserCreation) (spec : UserSpec) : Account where
  user := spec.user
  host := spec.host
  hasPassword := spec.password.any (· ≠ "")
  plugin := spec.plugin
  locked := creation.accountLock == some true
  passwordExpired := creation.passwordExpire

/-- The catalog with a new account, or the same catalog if the account may be and is there. -/
def addUser (creation : UserCreation) (catalog : Catalog) (spec : UserSpec) : Catalog :=
  if creation.ifNotExists && (catalog.account? spec.user spec.host).isSome then
    catalog
  else
    catalog.addAccount (accountOf creation spec)

/-- Creates accounts. -/
def createUser (session : Session) (creation : UserCreation) : Session :=
  session.withCatalog (creation.users.foldl (addUser creation) session.catalog)

/-- The privileges that a grant gives. -/
def grantedPrivileges (grant : Grant) : List String :=
  grant.privileges ++ (if grant.withGrantOption then ["GRANT OPTION"] else [])

/-- Grants privileges for all schemas; other grants, and those to unknown accounts, are
ignored. -/
def grantPrivileges (session : Session) (grant : Grant) : Session :=
  if grant.isGlobal then
    session.withCatalog (grant.grantees.foldl
      (fun catalog grantee => catalog.modifyAccount grantee.1 grantee.2 fun account =>
        (grantedPrivileges grant).foldl Account.grant account)
      session.catalog)
  else
    session

/-- Applies a statement. -/
def apply (session : Session) : Statement → Session × Outcome
  | .createDatabase name _ => (session.withCatalog (session.catalog.ensureSchema name), .ok ())
  | .use name => ({ session with schema := name }, .ok ())
  | .dropDatabase name _ => (session.dropSchema name, .ok ())
  | .createTable spec => session.createTable spec
  | .createView name => (session.createView name, .ok ())
  | .dropTable names _ => (names.foldl dropTable session, .ok ())
  | .alterTable table actions => session.alterTable table actions
  | .createIndex table key => session.createIndex table key
  | .createUser creation => (session.createUser creation, .ok ())
  | .grant grant => (session.grantPrivileges grant, .ok ())
  | .inert _ => (session, .ok ())
  | .unsupported text => (session, .error (.unreadable session.line text))

/-- Applies a statement of a script, whose line is remembered. -/
def applyAt (session : Session) (statement : ScriptStatement) : Session × Outcome :=
  apply { session with line := statement.line } statement.statement

/-- Applies the statements of a script.  If one of them cannot be read, none is applied. -/
def run (session : Session) (script : String) : Session × Outcome :=
  match parseScript script with
  | .error error => (session, .error (.ofSyntax error))
  | .ok statements => Outcome.runAll applyAt session statements

/-- The catalog at the end of a session; the schema of unnamed tables is left out if empty. -/
def finish (session : Session) : Catalog :=
  session.catalog.retainSchemas fun schema => schema.name != unnamedSchema || !schema.isEmpty

end Session
end SchemaLint
