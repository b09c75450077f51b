import SchemaLint.Sql.Grammar.Name

/-!
# Columns in statements

The definition of a column: its name, its type and its attributes in any order.  An attribute
that occurs again replaces the earlier one.
-/

namespace SchemaLint
namespace Sql
namespace Grammar

open SchemaLint.Parser Reader

/-- The words that may follow a type name and belong to it. -/
def continuations (name : String) : List String :=
  match name with
  | "double" => ["precision"]
  | "character" | "char" | "national char" | "national character" => ["varying"]
  | "national" => ["char", "character", "varchar"]
  | "long" => ["varchar", "varbinary"]
  | _ => []

/-- The longest type name that begins with `name` and goes on with the tokens. -/
def typeNameFrom (name : String) : List Token → String × List Token
  | [] => (name, [])
  | token :: rest =>
      match (continuations name).find? token.isKeyword with
      | some word => typeNameFrom (name ++ " " ++ word) rest
      | none => (name, token :: rest)

theorem typeNameFrom_suffix (name : String) (tokens : List Token) :
    (typeNameFrom name tokens).2 <:+ tokens := by
  fun_induction typeNameFrom name tokens with
  | case1 => exact List.suffix_refl _
  | case2 _ _ rest _ _ ih => exact ih.trans (List.suffix_cons _ _)
  | case3 => exact List.suffix_refl _

/-- A word in small letters. -/
def lowerWord? : Token → Option String
  | .word w => some (Text.lower w)
  | _ => none

/-- The name of a type, which may be of several words. -/
def typeName : Reader String := do
  let first ← token lowerWord? "data type"
  scan (typeNameFrom first) (typeNameFrom_suffix first)

/-- The arguments of a type after the opening parenthesis. -/
def typeArguments (type : TypeSpec) : Reader TypeSpec := do
  if type.name = "enum" ∨ type.name = "set" then
    return { type with members := ← separated .comma text }
  else
    let length ← integer
    if ← optionalToken .comma then
      return { type with length := some length, scale := some (← integer) }
    else
      return { type with length := some length }

/-- A word after a type that says something about its sign. -/
inductive SignWord where
  | unsigned
  | zerofill
  | signed

/-- The words about signs. -/
def signWords : List (String × List String × SignWord) := [
  ("UNSIGNED", [], .unsigned),
  ("ZEROFILL", [], .zerofill),
  ("SIGNED", [], .signed)]

/-- A type after one more word about its sign.  Filling with zeros leaves no sign. -/
def applySign (word : SignWord) (type : TypeSpec) : TypeSpec :=
  match word with
  | .unsigned => { type with unsigned := true }
  | .zerofill => { type with zerofill := true, unsigned := true }
  | .signed => type

/-- A column type. -/
def columnType : Reader TypeSpec := do
  let mut type : TypeSpec := { name := ← typeName }
  if ← optionalToken .leftParen then
    type ← typeArguments type
    expectToken .rightParen ")"
  clauses (keywordHead signWords) (fun word type => return applySign word type) type

/-- The names of the current time. -/
def currentTimeNames : List String :=
  ["CURRENT_TIMESTAMP", "NOW", "LOCALTIME", "LOCALTIMESTAMP"]

/-- The current time, as a name or a call. -/
def currentTime : Reader Unit := do
  if ← aheadAny currentTimeNames then
    let _ ← next
    optionalGroup
  else
    fail "CURRENT_TIMESTAMP"

/-- A default that begins with a word, which has been read. -/
def wordDefault (word : String) : Reader DefaultValue := do
  if Text.sameLetters word "NULL" then
    return .null
  else if Text.sameLetters word "TRUE" then
    return .literal "1"
  else if Text.sameLetters word "FALSE" then
    return .literal "0"
  else if currentTimeNames.any (Text.sameLetters word) then
    optionalGroup
    return .currentTimestamp
  else
    match ← peek with
    | some (.text value) =>
        if word.toList.head? = some '_' then
          let _ ← next
          return .literal value
        else
          return .expression word
    | some .leftParen => return .expression (word ++ "(" ++ (← group) ++ ")")
    | _ => return .expression word

/-- A default value.  A word that begins with an underscore may stand in front of a text. -/
def defaultValue : Reader DefaultValue := do
  match ← peek with
  | some (.word word) =>
      let _ ← next
      wordDefault word
  | some (.text value) | some (.number value) | some (.bits value) =>
      let _ ← next
      return .literal value
  | some .minus =>
      let _ ← next
      return .literal ("-" ++ (← numeral))
  | some .plus =>
      let _ ← next
      return .literal (← numeral)
  | some .leftParen => return .expression (← group)
  | _ => fail "default value"

/-- The first keyword of an attribute, up to attributes that are read alike. -/
inductive AttributeHead where
  | not
  | null
  | default
  | autoIncrement
  | unique
  | primary
  | key
  | comment
  | collate
  | character
  | charset
  | on
  | generated
  | computed
  | virtual
  | stored
  | references
  | check
  | constraint
  | oneToken
  | oneValue
  | after
  | bare

/-- The keywords of attributes. -/
def attributeHeads : List (String × List String × AttributeHead) := [
  ("NOT", [], .not),
  ("NULL", [], .null),
  ("DEFAULT", [], .default),
  ("AUTO_INCREMENT", [], .autoIncrement),
  ("UNIQUE", [], .unique),
  ("PRIMARY", [], .primary),
  ("KEY", [], .key),
  ("COMMENT", [], .comment),
  ("COLLATE", [], .collate),
  ("CHARACTER", [], .character),
  ("CHARSET", [], .charset),
  ("ON", [], .on),
  ("GENERATED", [], .generated),
  ("AS", [], .computed),
  ("VIRTUAL", [], .virtual),
  ("STORED", [], .stored),
  ("PERSISTENT", [], .stored),
  ("REFERENCES", [], .references),
  ("CHECK", [], .check),
  ("CONSTRAINT", [], .constraint),
  ("COLUMN_FORMAT", [], .oneToken),
  ("STORAGE", [], .oneToken),
  ("SRID", [], .oneToken),
  ("ENGINE_ATTRIBUTE", [], .oneValue),
  ("SECONDARY_ENGINE_ATTRIBUTE", [], .oneValue),
  ("AFTER", [], .after),
  ("VISIBLE", [], .bare),
  ("INVISIBLE", [], .bare),
  ("FIRST", [], .bare),
  ("BINARY", [], .bare),
  ("ASCII", [], .bare),
  ("UNICODE", [], .bare)]

/-- A column whose computed values, if any, are stored or not. -/
def setStored (stored : Bool) (column : ColumnSpec) : ColumnSpec :=
  { column with generation := column.generation.map ({ · with stored }) }

/-- A column whose values are computed by the group that follows, and not stored. -/
def computedBy (column : ColumnSpec) : Reader ColumnSpec := do
  return { column with generation := some { expression := ← group, stored := false } }

/-- The rest of an attribute, added to a column. -/
def columnAttribute (head : AttributeHead) (column : ColumnSpec) : Reader ColumnSpec := do
  match head with
  | .not =>
      expectKeyword "NULL"
      return { column with nullable := some false }
  | .null => return { column with nullable := some true }
  | .default => return { column with default := some (← defaultValue) }
  | .autoIncrement => return { column with autoIncrement := true }
  | .unique =>
      let _ ← optionalKeyword "KEY"
      return { column with unique := true }
  | .primary =>
      expectKeyword "KEY"
      return { column with primaryKey := true }
  | .key => return { column with primaryKey := true }
  | .comment => return { column with comment := some (← text) }
  | .collate =>
      optionalEquals
      return { column with collation := some (← nameOrText) }
  | .character =>
      expectKeyword "SET"
      return { column with charset := some (← nameOrText) }
  | .charset => return { column with charset := some (← nameOrText) }
  | .on =>
      expectKeyword "UPDATE"
      currentTime
      return { column with onUpdateCurrentTimestamp := true }
  | .generated =>
      expectKeyword "ALWAYS"
      expectKeyword "AS"
      computedBy column
  | .computed => computedBy column
  | .virtual => return setStored false column
  | .stored => return setStored true column
  | .references =>
      skipClause
      return column
  | .check =>
      let _ ← group
      return column
  | .constraint =>
      unless ← ahead "CHECK" do
        let _ ← identifier
      expectKeyword "CHECK"
      let _ ← group
      return column
  | .oneToken =>
      let _ ← next
      return column
  | .oneValue =>
      anyValue
      return column
  | .after =>
      let _ ← identifier
      return column
  | .bare => return column

/-- The definition of a column, which ends before a comma, a closing parenthesis or the end. -/
def column : Reader ColumnSpec := do
  let name ← identifier
  let type ← columnType
  let column ← clauses (keywordHead attributeHeads) columnAttribute { name, type }
  match ← peek with
  | none | some .comma | some .rightParen => return column
  | some _ => fail "column attribute"

end Grammar
end Sql
end SchemaLint
