import SchemaLint.Definition.Edit
import SchemaLint.Sql.Statement

/-!
# Indexes from key clauses

How the index of a key clause is added to a table, and the marks that the index leaves on the
columns.  The first column of an index is marked; a stronger mark is not replaced by a weaker one.
All that can fail is looked up before a column is marked.
-/

namespace SchemaLint

open Sql

namespace Definition

/-- Whether `c` is the letter of a keyword, in any case that Unicode knows. -/
def sameLetter (letter c : Char) : Bool :=
  c.toLower == letter || (letter == 'k' && c == '\u212A') || (letter == 's' && c == '\u017F')

/-- The rest of a text after a keyword in small letters that it begins with. -/
def afterKeyword? : List Char → List Char → Option (List Char)
  | [], cs => some cs
  | _ :: _, [] => none
  | letter :: letters, c :: cs => if sameLetter letter c then afterKeyword? letters cs else none

/-- The rest of a text after the white space that it begins with, of which there must be some. -/
def afterSpace? (cs : List Char) : Option (List Char) :=
  if cs.head?.any Text.isWhite then some (cs.dropWhile Text.isWhite) else none

/-- Whether a text begins with the two words of a primary key. -/
def beginsPrimaryKey (cs : List Char) : Bool :=
  let rest := do
    let afterFirst ← afterKeyword? "primary".toList cs
    let second ← afterSpace? afterFirst
    afterKeyword? "key".toList second
  rest.any fun rest => !rest.head?.any Text.isWordPart

/-- The rest of a text after a word without white space and the white space after it. -/
def afterWord? (cs : List Char) : Option (List Char) :=
  afterSpace? (cs.dropWhile (!Text.isWhite ·))

/-- Whether the text of a key clause begins as that of a primary key does, after the name of a
constraint or without one. -/
def declaresPrimaryKey (text : String) : Bool :=
  let cs := text.toList.dropWhile Text.isWhite
  let constraint := do
    let afterFirst ← afterKeyword? "constraint".toList cs
    afterSpace? afterFirst
  beginsPrimaryKey cs ||
    constraint.any fun rest => beginsPrimaryKey rest || (afterWord? rest).any beginsPrimaryKey

/-- Whether a key clause is for the primary key: because of its kind, or because it has no other
name than that of a primary key and its text declares one. -/
def isPrimaryClause (key : KeyClause) : Bool :=
  key.kind == .primary ||
    (key.kind == .index && key.name.all (Text.sameLetters · Index.primaryName) &&
      declaresPrimaryKey key.text)

/-- The name of an index without one. -/
def unnamedIndex : String := "unknown_index"

/-- The names that are tried in turn for an index: `base`, then `base` with a number. -/
def nameCandidates (base : String) (count : Nat) : List String :=
  base :: (List.range count).map fun n => base ++ "_" ++ Decimal.text (n + 2)

/-- The first candidate that no index of the table has.  There is one among the first, because
there are more of them than indexes. -/
def freeIndexName (table : Table) (base : String) : String :=
  ((nameCandidates base table.indexes.length).find? fun name => (table.index? name).isNone).getD
    base

/-- The column of a key part as the table spells it. -/
def resolvePart (table : Table) (part : KeyPart) :
    Except CatalogError (String × Option UInt64) :=
  match table.column? part.column with
  | some column => .ok (column.name, part.length)
  | none => .error (.missingColumn table.qualifiedName part.column)

/-- The columns of key parts. -/
def resolveParts (table : Table) (parts : List KeyPart) :
    Except CatalogError (List (String × Option UInt64)) :=
  parts.mapM (resolvePart table)

/-- A column as part of the primary key, which makes it refuse nulls. -/
def markPrimary (column : Column) : Column :=
  { column with info := { column.info with columnKey := .primary, isNullable := false } }

/-- The mark of the first column of an index, over the mark that it has. -/
def strongerKey (unique : Bool) : ColumnKey → ColumnKey
  | .primary => .primary
  | .unique => .unique
  | .none | .multiple => if unique then .unique else .multiple

/-- A column as the first one of an index. -/
def markFirst (unique : Bool) (column : Column) : Column :=
  { column with info := { column.info with columnKey := strongerKey unique column.info.columnKey } }

/-- The type of the index of a key clause. -/
def indexType (key : KeyClause) : String :=
  match key.kind with
  | .fulltext => "FULLTEXT"
  | .spatial => "SPATIAL"
  | _ => key.method.getD "BTREE"

end Definition

namespace TableEdit

open Definition

/-- Marks the columns of a primary key one after another, and puts each into its index. -/
def markPrimaryKey (columns : List (String × Option UInt64)) : TableEdit Index :=
  columns.foldlM (fun index column => do
    modify (·.modifyColumn column.1 markPrimary)
    return index.pushColumn column.1 column.2) { name := Index.primaryName, unique := true }

/-- Adds a primary key. -/
def addPrimaryKey (parts : List KeyPart) : TableEdit Unit := do
  let table ← get
  if (table.index? Index.primaryName).isSome then
    throw (.existingIndex table.qualifiedName Index.primaryName)
  else
    let columns ← resolveParts table parts
    let index ← markPrimaryKey columns
    modify (·.pushIndex index)

/-- Marks the first column of an index. -/
def markLeading (unique : Bool) : List (String × Option UInt64) → TableEdit Unit
  | [] => return
  | first :: _ => modify (·.modifyColumn first.1 (markFirst unique))

/-- Adds an index of some name that is not the primary key. -/
def addSecondaryIndex (name : String) (key : KeyClause) : TableEdit Unit := do
  let table ← get
  if (table.index? name).isSome then
    throw (.existingIndex table.qualifiedName name)
  else
    let columns ← resolveParts table key.columns
    let unique := key.kind == .unique
    markLeading unique columns
    modify (·.pushIndex
      (({ name, unique, indexType := indexType key } : Index).pushColumns columns))

/-- Adds the index of a key clause. -/
def addKey (key : KeyClause) : TableEdit Unit := do
  if isPrimaryClause key then
    addPrimaryKey key.columns
  else
    addSecondaryIndex (key.name.getD (freeIndexName (← get) unnamedIndex)) key

end TableEdit
end SchemaLint
