import SchemaLint.Catalog.Error
import SchemaLint.Catalog.Table

/-!
# Changes of tables

Tables are changed in place.  A change may break off with an error, and nothing takes back what it
has done to the table by then.
-/

namespace SchemaLint

/-- A change of a table in place, which may break off and else has a result. -/
abbrev TableEdit (α : Type) := ExceptT CatalogError (StateM Table) α

namespace TableEdit

/-- The table that a change leaves behind, and whether the change went through. -/
def apply (edit : TableEdit Unit) (table : Table) : Table × Outcome :=
  let ended := edit.run.run table
  (ended.2, ended.1)

/-- The table after a change that went through. -/
def result (edit : TableEdit Unit) (table : Table) : Except CatalogError Table :=
  match edit.apply table with
  | (changed, .ok ()) => .ok changed
  | (_, .error error) => .error error

end TableEdit
end SchemaLint
