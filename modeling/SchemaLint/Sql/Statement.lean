import SchemaLint.Text.Basic

/-!
# Statements

The statements of a script: those that define the catalog in full, the others by their kind.
-/

namespace SchemaLint
namespace Sql

/-- A name that may be qualified by a schema. -/
structure ObjectName where
  schema : Option String := none
  name : String
deriving DecidableEq, Repr

namespace ObjectName

/-- The name with its schema in front, if it has one. -/
def text (object : ObjectName) : String :=
  match object.schema with
  | some schema => schema ++ "." ++ object.name
  | none => object.name

end ObjectName

/-- The declared type of a column. -/
structure TypeSpec where
  /-- The name of the type in small letters. -/
  name : String := ""
  length : Option UInt64 := none
  scale : Option UInt64 := none
  unsigned : Bool := false
  zerofill : Bool := false
  /-- The members of an enumeration or a set. -/
  members : List String := []
deriving DecidableEq, Repr

/-- The default of a column. -/
inductive DefaultValue where
  | null
  | literal (text : String)
  | currentTimestamp
  | expression (text : String)
deriving DecidableEq, Repr

/-- How a column is computed. -/
structure Generation where
  expression : String
  stored : Bool
deriving DecidableEq, Repr

/-- The definition of a column. -/
structure ColumnSpec where
  name : String
  type : TypeSpec := {}
  nullable : Option Bool := none
  default : Option DefaultValue := none
  autoIncrement : Bool := false
  primaryKey : Bool := false
  unique : Bool := false
  onUpdateCurrentTimestamp : Bool := false
  charset : Option String := none
  collation : Option String := none
  comment : Option String := none
  generation : Option Generation := none
deriving DecidableEq, Repr

/-- The kind of a key. -/
inductive KeyKind where
  | primary
  | unique
  | index
  | fulltext
  | spatial
deriving DecidableEq, Repr

/-- A column of a key clause. -/
structure KeyPart where
  column : String
  /-- The number of leading characters that are indexed, if not all. -/
  length : Option UInt64 := none
deriving DecidableEq, Repr

/-- A key clause of a table, an alteration or an index statement. -/
structure KeyClause where
  kind : KeyKind
  name : Option String := none
  columns : List KeyPart := []
  /-- The index method in capitals. -/
  method : Option String := none
  /-- The text of the clause. -/
  text : String := ""
deriving DecidableEq, Repr

/-- The definition of a table. -/
structure TableSpec where
  name : ObjectName
  ifNotExists : Bool := false
  temporary : Bool := false
  columns : List ColumnSpec := []
  keys : List KeyClause := []
  /-- The options in order, with their names in capitals. -/
  options : List (String × String) := []
deriving DecidableEq, Repr

namespace TableSpec

/-- The last value of an option, whose name is found up to the case of ASCII letters. -/
def option? (spec : TableSpec) (name : String) : Option String :=
  (spec.options.reverse.find? fun option => Text.sameLetters option.1 name).map Prod.snd

end TableSpec

/-- An action of an alteration. -/
inductive AlterAction where
  | addColumn (column : ColumnSpec)
  | addKey (key : KeyClause)
  | unsupported (text : String)
deriving DecidableEq, Repr

/-- An account to be created. -/
structure UserSpec where
  user : String
  host : String
  password : Option String := none
  plugin : Option String := none
deriving DecidableEq, Repr

/-- The creation of accounts, with options that hold for all of them. -/
structure UserCreation where
  ifNotExists : Bool := false
  users : List UserSpec
  /-- Whether the accounts are locked, if the statement says so. -/
  accountLock : Option Bool := none
  passwordExpire : Bool := false
deriving DecidableEq, Repr

/-- A grant of privileges, on a target unless it is a grant of roles. -/
structure Grant where
  privileges : List String
  target : Option String
  grantees : List (String × String)
  withGrantOption : Bool := false
deriving DecidableEq, Repr

namespace Grant

/-- Whether the grant is for all schemas. -/
def isGlobal (grant : Grant) : Bool :=
  grant.target == some "*.*"

end Grant

/-- A kind of statement that does not change the catalog. -/
inductive Inert where
  | set
  | createProcedure
  | dropProcedure
  | createFunction
  | dropFunction
  | createTrigger
  | dropTrigger
  | describe
  | insert
  | select
  | update
  | delete
  | lockTables
  | unlockTables
  | transaction
deriving DecidableEq, Repr

/-- A statement. -/
inductive Statement where
  | createDatabase (name : String) (ifNotExists : Bool)
  | use (name : String)
  | dropDatabase (name : String) (ifExists : Bool)
  | createTable (spec : TableSpec)
  | createView (name : ObjectName)
  | dropTable (names : List ObjectName) (ifExists : Bool)
  | alterTable (table : ObjectName) (actions : List AlterAction)
  | createIndex (table : ObjectName) (key : KeyClause)
  | createUser (creation : UserCreation)
  | grant (grant : Grant)
  | inert (kind : Inert)
  | unsupported (text : String)
deriving DecidableEq, Repr

end Sql
end SchemaLint
