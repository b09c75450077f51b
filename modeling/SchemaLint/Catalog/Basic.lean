import SchemaLint.Catalog.Account
import SchemaLint.Catalog.Query
import SchemaLint.Catalog.Schema
import SchemaLint.Catalog.Version

/-!
# Catalogs

The catalog of a server: its session variables, accounts, schemas and query digests.
-/

namespace SchemaLint

/-- The catalog of a server. -/
structure Catalog where
  /-- Where the catalog comes from. -/
  name : String := ""
  sessionVariables : NameMap String := NameMap.empty
  accounts : NameMap Account := NameMap.empty
  schemas : List Schema := []
  queries : List Query := []
deriving DecidableEq

namespace Catalog

/-- The first schema of this name. -/
def schema? (catalog : Catalog) (name : String) : Option Schema :=
  catalog.schemas.find? (·.name == name)

/-- The catalog with a schema of this name, appended if there was none. -/
def ensureSchema (catalog : Catalog) (name : String) : Catalog :=
  match catalog.schema? name with
  | some _ => catalog
  | none => { catalog with schemas := catalog.schemas ++ [{ name }] }

/-- The catalog without the first schema of this name. -/
def removeSchema (catalog : Catalog) (name : String) : Catalog :=
  { catalog with schemas := catalog.schemas.eraseP (·.name == name) }

/-- The catalog with only the schemas that satisfy `keep`. -/
def retainSchemas (catalog : Catalog) (keep : Schema → Bool) : Catalog :=
  { catalog with schemas := catalog.schemas.filter keep }

/-- The catalog with the first schema of this name changed. -/
def modifySchema (catalog : Catalog) (name : String) (f : Schema → Schema) : Catalog :=
  { catalog with schemas := Table.modifyFirst (·.name == name) f catalog.schemas }

/-- A table of a schema. -/
def table? (catalog : Catalog) (schema table : String) : Option Table :=
  (catalog.schema? schema).bind (·.table? table)

/-- The catalog with a table of a schema changed. -/
def modifyTable (catalog : Catalog) (schema table : String) (f : Table → Table) : Catalog :=
  catalog.modifySchema schema (·.modifyTable table f)

/-- The tables of all schemas. -/
def tables (catalog : Catalog) : List Table :=
  catalog.schemas.flatMap Schema.tables

/-- The account of a user at a host. -/
def account? (catalog : Catalog) (user host : String) : Option Account :=
  catalog.accounts.get? (Account.keyOf user host)

/-- The catalog with an account, in place of one with the same key. -/
def addAccount (catalog : Catalog) (account : Account) : Catalog :=
  { catalog with
    accounts := catalog.accounts.insert account.key { account with catalogName := catalog.name } }

/-- The catalog with the account of a user at a host changed. -/
def modifyAccount (catalog : Catalog) (user host : String) (f : Account → Account) : Catalog :=
  { catalog with accounts := catalog.accounts.modify (Account.keyOf user host) f }

/-- The value of a session variable, whose name may be in any case. -/
def variableValue? (catalog : Catalog) (name : String) : Option String :=
  catalog.sessionVariables.get? (Text.lower name)

/-- The catalog with a session variable set. -/
def setVariable (catalog : Catalog) (name value : String) : Catalog :=
  { catalog with sessionVariables := catalog.sessionVariables.insert (Text.lower name) value }

/-- The version of the server. -/
def version? (catalog : Catalog) : Option Version :=
  (catalog.variableValue? "version").bind Version.parse?

/-- The catalog with the names of owners repeated in all it holds. -/
def relink (catalog : Catalog) : Catalog :=
  { catalog with
    schemas := catalog.schemas.map Schema.relink
    accounts := catalog.accounts.mapValues fun account =>
      { account with catalogName := catalog.name } }

end Catalog
end SchemaLint
