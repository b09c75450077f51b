import SchemaLint.Catalog.Basic

/-!
# Subjects

The parts of a catalog that rules are about.  Columns and indexes come with their tables.
-/

namespace SchemaLint

/-- The kind of a subject. -/
inductive SubjectKind where
  | catalog
  | schema
  | table
  | column
  | index
  | account
  | query
deriving DecidableEq, Repr

namespace SubjectKind

/-- All kinds. -/
def all : List SubjectKind := [.catalog, .schema, .table, .column, .index, .account, .query]

/-- The label of a kind. -/
def label : SubjectKind → String
  | .catalog => "database"
  | .schema => "schema"
  | .table => "table"
  | .column => "column"
  | .index => "index"
  | .account => "account"
  | .query => "query"

/-- The kind with a label. -/
def ofLabel? (label : String) : Option SubjectKind :=
  all.find? (·.label == label)

end SubjectKind

/-- The kind and name of a subject. -/
structure SubjectName where
  kind : SubjectKind
  name : String
deriving DecidableEq, Repr

namespace SubjectName

/-- The kind and name as one text. -/
def text (subject : SubjectName) : String :=
  subject.kind.label ++ " " ++ subject.name

end SubjectName

/-- A part of a catalog that rules are about. -/
inductive Subject where
  | catalog (catalog : Catalog)
  | schema (schema : Schema)
  | table (table : Table)
  | column (table : Table) (column : Column)
  | index (table : Table) (index : Index)
  | account (account : Account)
  | query (query : Query)
deriving DecidableEq

namespace Subject

/-- The kind of a subject. -/
def kind : Subject → SubjectKind
  | .catalog _ => .catalog
  | .schema _ => .schema
  | .table _ => .table
  | .column _ _ => .column
  | .index _ _ => .index
  | .account _ => .account
  | .query _ => .query

/-- The name of a subject, qualified by the names of what it is part of. -/
def name : Subject → String
  | .catalog c => c.name
  | .schema s => s.name
  | .table t => t.qualifiedName
  | .column _ c => c.qualifiedName
  | .index _ i => i.qualifiedName
  | .account a => a.key
  | .query q => q.digest.getD (q.shortText 60)

/-- The kind and name of a subject. -/
def subjectName (subject : Subject) : SubjectName :=
  ⟨subject.kind, subject.name⟩

/-- Whether a subject takes no storage: a view or part of one, or a column that is computed when
it is read. -/
def isVirtual : Subject → Bool
  | .table t => t.isVirtual
  | .column t c => t.isVirtual || c.isVirtual
  | .index t _ => t.isVirtual
  | _ => false

/-- All subjects of a catalog: the catalog, its accounts, schemas, tables, columns, indexes and
queries, each kind in the order of the catalog. -/
def ofCatalog (source : Catalog) : List Subject :=
  .catalog source :: source.accounts.values.map .account ++ source.schemas.map .schema ++
    source.tables.map .table ++
    source.tables.flatMap (fun t => t.columns.map (.column t)) ++
    source.tables.flatMap (fun t => t.indexes.map (.index t)) ++
    source.queries.map .query

end Subject
end SchemaLint
