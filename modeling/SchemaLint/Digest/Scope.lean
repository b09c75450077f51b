import SchemaLint.Catalog.Query

/-!
# Tables of digests

The tables that the statements of a digest read, under the names by which the digest calls them.
The names of named queries are no tables; a name counts as such from its definition on.  How the
statements themselves are read is left open: any parser of statements will do.
-/

namespace SchemaLint
namespace Digest

namespace Identifier

/-- The text of a quoted identifier after the character `previous`.  A quote is doubled, unless
it is doubled already or follows a backslash. -/
def doubleQuotes (quote previous : Char) : List Char → List Char
  | [] => []
  | [c] => if c = quote ∧ previous ≠ '\\' then [c, c] else [c]
  | c :: d :: rest =>
      if c = quote then
        if previous = '\\' then c :: doubleQuotes quote previous (d :: rest)
        else if d = quote then c :: d :: doubleQuotes quote c rest
        else c :: c :: doubleQuotes quote c (d :: rest)
      else
        c :: doubleQuotes quote c (d :: rest)

/-- The text of an identifier as it may be written in a statement. -/
def text (identifier : Identifier) : String :=
  match identifier.quote with
  | none => identifier.value
  | some quote =>
      String.ofList (quote :: doubleQuotes quote '\x00' identifier.value.toList ++ [quote])

end Identifier

/-- The tables found so far, and the names of the named queries. -/
structure Scope where
  /-- The names of named queries in small letters. -/
  named : NameSet := NameMap.empty
  tables : NameMap TableReference := NameMap.empty

namespace Scope

/-- Whether a name is that of a named query, in any case. -/
def isNamed (scope : Scope) (name : String) : Bool :=
  scope.named.contains (Text.lower name)

/-- The scope with one more named query. -/
def define (scope : Scope) (name : String) : Scope :=
  { scope with named := NameSet.add scope.named (Text.lower name) }

/-- A part of the name of a table without quotes. -/
def unquoted (part : String) : String :=
  Text.trimChar '"' (Text.trimChar '\x60' part)

/-- The parts of the name of a table. -/
def nameParts (name : List Identifier) : List String :=
  (Text.split '.' (Text.join "." (name.map Identifier.text))).map unquoted

/-- The table that a name refers to: its last part, in the schema of the part before it. -/
def reference? (name : List Identifier) : Option TableReference :=
  match (nameParts name).reverse with
  | [] => none
  | [table] => some { table }
  | table :: schema :: _ => some { schema := some schema, table }

/-- Whether a reference is one to a named query, which has no schema. -/
def isToNamed (scope : Scope) (reference : TableReference) : Bool :=
  reference.schema.isNone && scope.isNamed reference.table

/-- The scope with the table of a name, unless that is a named query. -/
def addTable (scope : Scope) (name : List Identifier) (alternative : Option String) : Scope :=
  match reference? name with
  | none => scope
  | some reference =>
      if scope.isToNamed reference then
        scope
      else
        { scope with
          tables := scope.tables.insert (alternative.getD reference.table) reference }

mutual

/-- The scope with the tables of a query. -/
def addQuery (scope : Scope) : Query → Scope
  | .mk _ definitions body => (scope.addDefinitions definitions).addBody body
termination_by structural query => query

/-- The scope with named queries and the tables that they read. -/
def addDefinitions (scope : Scope) : Definitions → Scope
  | .nil => scope
  | .cons name query rest => ((scope.define name).addQuery query).addDefinitions rest
termination_by structural definitions => definitions

/-- The scope with the tables of a body. -/
def addBody (scope : Scope) : Body → Scope
  | .select sources => scope.addSources sources
  | .parenthesized query => scope.addQuery query
  | .combine left right => (scope.addBody left).addBody right
  | .update _ | .insert _ | .rows => scope
termination_by structural body => body

/-- The scope with the tables of a list of sources. -/
def addSources (scope : Scope) : Sources → Scope
  | .nil => scope
  | .cons source rest => (scope.addSource source).addSources rest
termination_by structural sources => sources

/-- The scope with the tables of a source. -/
def addSource (scope : Scope) : Source → Scope
  | .table name alternative => scope.addTable name alternative
  | .derived query => scope.addQuery query
  | .nested sources => scope.addSources sources
  | .other => scope
termination_by structural source => source

end

/-- The scope with the tables of a statement. -/
def addStatement (scope : Scope) : Statement → Scope
  | .query query => scope.addQuery query
  | .update target => scope.addSources target
  | .insert _ | .delete _ | .other => scope

/-- The scope of several statements, one after another. -/
def ofStatements (statements : List Statement) : Scope :=
  statements.foldl addStatement {}

end Scope

/-- A digest with its marks of omitted lists written as placeholders. -/
def withPlaceholders (digest : String) : String :=
  Text.replace "..." "?" (Text.replace "(...)" "(?)" digest)

end Digest

namespace Query

/-- The query with its digest read: its statements and the tables they read, or neither when the
digest cannot be read. -/
def resolve (parse : Digest.StatementParser) (query : Query) : Query :=
  match parse (Digest.withPlaceholders query.digestText) with
  | none => { query with statements := [], tables := NameMap.empty }
  | some statements =>
      { query with statements, tables := (Digest.Scope.ofStatements statements).tables }

end Query
end SchemaLint
