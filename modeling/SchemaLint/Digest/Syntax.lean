/-!
# Syntax of query digests

What a statement digest says about tables: its queries with their named definitions, the sources
they read from, and the sources of changes of rows.  Expressions are not kept.
-/

namespace SchemaLint
namespace Digest

/-- An identifier and the quote it was written in. -/
structure Identifier where
  value : String
  quote : Option Char
deriving DecidableEq, Repr

mutual

/-- A query: named definitions, which may be recursive, and a body. -/
inductive Query where
  | mk (recursive : Bool) (definitions : Definitions) (body : Body)

/-- Named queries that stand in front of a query. -/
inductive Definitions where
  | nil
  | cons (name : String) (query : Query) (rest : Definitions)

/-- The body of a query. -/
inductive Body where
  | select (sources : Sources)
  | parenthesized (query : Query)
  | combine (left right : Body)
  /-- An update behind named queries. -/
  | update (target : Sources)
  /-- An insertion of what a query gives, behind named queries. -/
  | insert (rows : Query)
  /-- A body that reads from no source, such as a list of rows. -/
  | rows

/-- The sources of a selection, those that are joined and those that are listed alike. -/
inductive Sources where
  | nil
  | cons (source : Source) (rest : Sources)

/-- A source of a selection. -/
inductive Source where
  | table (name : List Identifier) (alternative : Option String)
  | derived (query : Query)
  | nested (sources : Sources)
  /-- A source that is no table, such as a table function. -/
  | other

end

deriving instance DecidableEq for Query, Definitions, Body, Sources, Source

namespace Sources

/-- The sources of two lists, one after the other. -/
def append : Sources → Sources → Sources
  | .nil, others => others
  | .cons source rest, others => .cons source (rest.append others)
termination_by structural sources => sources

end Sources

/-- A statement of a digest. -/
inductive Statement where
  | query (query : Query)
  | update (target : Sources)
  /-- An insertion of what a query gives. -/
  | insert (rows : Query)
  | delete (sources : Sources)
  | other
deriving DecidableEq

/-- A way to read statements: those that a text holds, or nothing if it cannot be read. -/
abbrev StatementParser := String → Option (List Statement)

end Digest
end SchemaLint
