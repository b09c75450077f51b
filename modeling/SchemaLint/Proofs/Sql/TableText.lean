import SchemaLint.Proofs.Sql.Quotation

/-!
# Written tables

The text of a table definition in canonical form, from its columns and keys: names in backticks,
texts in quotes, attributes in a fixed order.  Beside the text of each part stand its tokens, and
`reads` says that the text is read as them.
-/

namespace SchemaLint
namespace Sql

open Lexeme Script
open Text (Stops)

namespace Parted

variable {first rest : List Char} {c : Char}

theorem cons (h : c ∈ separators) (rest : List Char) : Parted (c :: rest) :=
  Text.stops_cons (by simpa using h)

theorem append (hfirst : Parted first) (hrest : Parted rest) : Parted (first ++ rest) := by
  cases first with
  | nil => exact hrest
  | cons c first => exact Text.stops_cons (hfirst c rfl)

end Parted

/-- A text of items with commas between them is read as their tokens with commas between them. -/
theorem Reads.join {α : Type} {text : α → String} {tokens : α → List Token} {rest : List Char}
    (hrest : Parted rest)
    (hreads : ∀ a rest, Parted rest → Reads (text a).toList (tokens a) rest) :
    ∀ {items : List α}, items ≠ [] →
      Reads (Text.join ", " (items.map text)).toList
        ([Token.comma].intercalate (items.map tokens)) rest
  | [], hitems => absurd rfl hitems
  | [a], _ => by
      have htext : Text.join ", " [text a] = text a := String.intercalate_singleton
      rw [List.map_singleton, List.map_singleton, htext, List.intercalate_singleton]
      exact hreads a rest hrest
  | a :: b :: items, _ => by
      have htext : (Text.join ", " ((a :: b :: items).map text)).toList =
          (text a).toList ++ ([','] ++ ([' '] ++
            (Text.join ", " ((b :: items).map text)).toList)) := by
        simp [Text.join, String.intercalate_cons_cons]
      have htokens : [Token.comma].intercalate ((a :: b :: items).map tokens) =
          tokens a ++ ([.comma] ++ ([] ++
            [Token.comma].intercalate ((b :: items).map tokens))) := by
        simp [List.intercalate_cons_cons]
      have hitems := Reads.join hrest hreads (List.cons_ne_nil b items)
      rw [htext, htokens]
      exact (hreads a _ (.cons (by decide) _)).append
        ((Reads.mark ',' (by decide) _).append ((Reads.space _).append hitems))

/-- One number or two in parentheses, or nothing. -/
def numbersText : Option (UInt64 × Option UInt64) → String
  | none => ""
  | some (first, none) => "(" ++ Decimal.text64 first ++ ")"
  | some (first, some second) =>
      "(" ++ Decimal.text64 first ++ "," ++ Decimal.text64 second ++ ")"

/-- The tokens of such numbers. -/
def numbersTokens : Option (UInt64 × Option UInt64) → List Token
  | none => []
  | some (first, none) => [.leftParen, .number (Decimal.text64 first), .rightParen]
  | some (first, some second) =>
      [.leftParen, .number (Decimal.text64 first), .comma, .number (Decimal.text64 second),
        .rightParen]

theorem parted_numbersText (numbers : Option (UInt64 × Option UInt64)) :
    Parted (numbersText numbers).toList := by
  match numbers with
  | none => exact Text.stops_nil
  | some (first, none) =>
      simp only [numbersText, String.toList_append, List.append_assoc]
      exact .cons (by decide) _
  | some (first, some second) =>
      simp only [numbersText, String.toList_append, List.append_assoc]
      exact .cons (by decide) _

theorem reads_numbers (numbers : Option (UInt64 × Option UInt64)) (rest : List Char) :
    Reads (numbersText numbers).toList (numbersTokens numbers) rest := by
  match numbers with
  | none => exact .nil rest
  | some (first, none) =>
      have hreads := (Reads.mark '(' (by decide) _).append
        ((Reads.numeral first.toNat (.cons (by decide) _)).append (Reads.mark ')' (by decide) rest))
      simp only [numbersText, String.toList_append, List.append_assoc]
      exact hreads
  | some (first, some second) =>
      have hsecond := (Reads.numeral second.toNat (.cons (by decide) _)).append
        (Reads.mark ')' (by decide) rest)
      have hreads := (Reads.mark '(' (by decide) _).append
        ((Reads.numeral first.toNat (.cons (by decide) _)).append
          ((Reads.mark ',' (by decide) _).append hsecond))
      simp only [numbersText, String.toList_append, List.append_assoc]
      exact hreads

/-- A type as it is written: one word other than the names of types with members, with one or two
numbers, and perhaps without a sign. -/
structure WrittenType where
  word : String
  isWord_word : isWord word = true
  not_members : Text.lower word ≠ "enum" ∧ Text.lower word ≠ "set"
  arguments : Option (UInt64 × Option UInt64) := none
  unsigned : Bool := false

namespace WrittenType

/-- The word about the sign, with a space in front. -/
def signText (unsigned : Bool) : String :=
  if unsigned then " UNSIGNED" else ""

def signTokens (unsigned : Bool) : List Token :=
  if unsigned then [.word "UNSIGNED"] else []

/-- The text of a type. -/
def text (type : WrittenType) : String :=
  type.word ++ numbersText type.arguments ++ signText type.unsigned

/-- The tokens of a type. -/
def tokens (type : WrittenType) : List Token :=
  .word type.word :: (numbersTokens type.arguments ++ signTokens type.unsigned)

/-- What a type says; its name is in small letters. -/
def spec (type : WrittenType) : TypeSpec where
  name := Text.lower type.word
  length := type.arguments.map Prod.fst
  scale := type.arguments.bind Prod.snd
  unsigned := type.unsigned

theorem parted_signText (unsigned : Bool) : Parted (signText unsigned).toList := by
  cases unsigned with
  | false => exact Text.stops_nil
  | true => exact .cons (by decide) _

theorem reads_sign (unsigned : Bool) {rest : List Char} (hrest : Parted rest) :
    Reads (signText unsigned).toList (signTokens unsigned) rest := by
  cases unsigned with
  | false => exact .nil rest
  | true => exact (Reads.space _).append (Reads.word "UNSIGNED" (by decide) hrest)

theorem reads (type : WrittenType) {rest : List Char} (hrest : Parted rest) :
    Reads type.text.toList type.tokens rest := by
  have hword := Reads.word type.word type.isWord_word
    ((parted_numbersText type.arguments).append ((parted_signText type.unsigned).append hrest))
  have hreads := (hword.append (reads_numbers type.arguments _)).append
    (reads_sign type.unsigned hrest)
  rw [text, String.toList_append, String.toList_append]
  exact hreads

end WrittenType

/-- An attribute of a column. -/
inductive WrittenAttribute where
  | nullable (allowed : Bool)
  | default (text : String)
  | autoIncrement
  | comment (text : String)

namespace WrittenAttribute

/-- The words of an attribute. -/
def words : WrittenAttribute → String
  | nullable true => "NULL"
  | nullable false => "NOT NULL"
  | default text => "DEFAULT " ++ quotedText text
  | autoIncrement => "AUTO_INCREMENT"
  | comment text => "COMMENT " ++ quotedText text

/-- The text of an attribute, with a space in front. -/
def text (attr : WrittenAttribute) : String :=
  " " ++ attr.words

/-- The tokens of an attribute. -/
def tokens : WrittenAttribute → List Token
  | nullable true => [.word "NULL"]
  | nullable false => [.word "NOT", .word "NULL"]
  | default text => [.word "DEFAULT", .text text]
  | autoIncrement => [.word "AUTO_INCREMENT"]
  | comment text => [.word "COMMENT", .text text]

/-- A column with one more attribute. -/
def add (column : ColumnSpec) : WrittenAttribute → ColumnSpec
  | nullable allowed => { column with nullable := some allowed }
  | default text => { column with default := some (.literal text) }
  | autoIncrement => { column with autoIncrement := true }
  | comment text => { column with comment := some text }

theorem reads_words (attr : WrittenAttribute) {rest : List Char} (hrest : Parted rest) :
    Reads attr.words.toList attr.tokens rest := by
  -- an attribute with a text
  have htext : ∀ (word text : String), isWord word = true →
      Reads (word ++ " " ++ quotedText text).toList [.word word, .text text] rest := by
    intro word text hword
    rw [String.toList_append]
    exact (Reads.keyword word hword _).append
      (Reads.quotedText text (hrest.stops (by decide)))
  cases attr with
  | nullable allowed =>
      cases allowed with
      | true => exact Reads.word "NULL" (by decide) hrest
      | false =>
          exact (Reads.keyword "NOT" (by decide) _).append (Reads.word "NULL" (by decide) hrest)
  | default text => exact htext "DEFAULT" text (by decide)
  | autoIncrement => exact Reads.word "AUTO_INCREMENT" (by decide) hrest
  | comment text => exact htext "COMMENT" text (by decide)

theorem reads (attr : WrittenAttribute) {rest : List Char} (hrest : Parted rest) :
    Reads attr.text.toList attr.tokens rest := by
  rw [text, String.toList_append]
  exact (Reads.space _).append (attr.reads_words hrest)

theorem parted_text (attr : WrittenAttribute) : Parted attr.text.toList := by
  rw [text, String.toList_append]
  exact .cons (by decide) attr.words.toList

theorem parted_all : ∀ attributes : List WrittenAttribute,
    Parted (attributes.flatMap (·.text.toList))
  | [] => Text.stops_nil
  | attr :: attributes => by
      rw [List.flatMap_cons]
      exact attr.parted_text.append (parted_all attributes)

theorem reads_all {rest : List Char} (hrest : Parted rest) :
    ∀ attributes : List WrittenAttribute,
      Reads (attributes.flatMap (·.text.toList)) (attributes.flatMap tokens) rest
  | [] => .nil rest
  | attr :: attributes => by
      rw [List.flatMap_cons, List.flatMap_cons]
      exact (attr.reads ((parted_all attributes).append hrest)).append
        (reads_all hrest attributes)

end WrittenAttribute

/-- A column as it is written. -/
structure WrittenColumn where
  name : String
  type : WrittenType
  nullable : Option Bool := none
  default : Option String := none
  autoIncrement : Bool := false
  comment : Option String := none

namespace WrittenColumn

/-- The attributes of a column in their order. -/
def attributes (column : WrittenColumn) : List WrittenAttribute :=
  (column.nullable.map .nullable).toList ++ (column.default.map .default).toList ++
    (if column.autoIncrement then [.autoIncrement] else []) ++
    (column.comment.map .comment).toList

/-- The text of a column. -/
def text (column : WrittenColumn) : String :=
  quotedName column.name ++ " " ++ column.type.text ++
    String.join (column.attributes.map WrittenAttribute.text)

/-- The tokens of a column. -/
def tokens (column : WrittenColumn) : List Token :=
  .quoted column.name :: (column.type.tokens ++
    column.attributes.flatMap WrittenAttribute.tokens)

/-- What a column says. -/
def spec (column : WrittenColumn) : ColumnSpec where
  name := column.name
  type := column.type.spec
  nullable := column.nullable
  default := column.default.map .literal
  autoIncrement := column.autoIncrement
  comment := column.comment

/-- The attributes of a column, added one after another, make what it says. -/
theorem foldl_add_attributes (column : WrittenColumn) :
    column.attributes.foldl WrittenAttribute.add { name := column.name, type := column.type.spec } =
      column.spec := by
  obtain ⟨name, type, nullable, default, autoIncrement, comment⟩ := column
  cases nullable <;> cases default <;> cases autoIncrement <;> cases comment <;> rfl

theorem reads (column : WrittenColumn) {rest : List Char} (hrest : Parted rest) :
    Reads column.text.toList column.tokens rest := by
  have hattributes := WrittenAttribute.parted_all column.attributes
  have hname := (Reads.quotedName column.name (Text.stops_cons (by decide))).append
    (Reads.space (column.type.text.toList ++
      (column.attributes.flatMap (·.text.toList) ++ rest)))
  have hreads := (hname.append (column.type.reads (hattributes.append hrest))).append
    (WrittenAttribute.reads_all hrest column.attributes)
  have htext : column.text.toList = (((quotedName column.name).toList ++ [' ']) ++
      column.type.text.toList) ++ column.attributes.flatMap (·.text.toList) := by
    simp [text, String.toList_join, List.flatMap_map]
  rw [htext]
  exact hreads

end WrittenColumn

/-- The kind of a key as it is written, and its name. -/
inductive WrittenKeyHead where
  | primary
  | unique (name : String)
  | index (name : String)

namespace WrittenKeyHead

/-- The words before the columns of a key. -/
def words : WrittenKeyHead → String
  | primary => "PRIMARY KEY"
  | unique name => "UNIQUE KEY " ++ quotedName name
  | index name => "KEY " ++ quotedName name

/-- The tokens before the columns of a key. -/
def tokens : WrittenKeyHead → List Token
  | primary => [.word "PRIMARY", .word "KEY"]
  | unique name => [.word "UNIQUE", .word "KEY", .quoted name]
  | index name => [.word "KEY", .quoted name]

def kind : WrittenKeyHead → KeyKind
  | primary => .primary
  | unique _ => .unique
  | index _ => .index

def name? : WrittenKeyHead → Option String
  | primary => none
  | unique name => some name
  | index name => some name

theorem reads (head : WrittenKeyHead) {rest : List Char} (hrest : Parted rest) :
    Reads head.words.toList head.tokens rest := by
  cases head with
  | primary =>
      exact (Reads.keyword "PRIMARY" (by decide) _).append (Reads.word "KEY" (by decide) hrest)
  | unique name =>
      have hname := (Reads.keyword "KEY" (by decide) _).append
        (Reads.quotedName name (hrest.stops (by decide)))
      have hreads := (Reads.keyword "UNIQUE" (by decide) _).append hname
      have htext : (unique name).words.toList =
          ("UNIQUE" ++ " ").toList ++ (("KEY" ++ " ").toList ++ (quotedName name).toList) := by
        simp [words]
      rw [htext]
      exact hreads
  | index name =>
      have hreads := (Reads.keyword "KEY" (by decide) _).append
        (Reads.quotedName name (hrest.stops (by decide)))
      rw [words, String.toList_append]
      exact hreads

end WrittenKeyHead

/-- A key as it is written.  There is one column at least, since the language has no key without. -/
structure WrittenKey where
  head : WrittenKeyHead
  parts : List KeyPart
  parts_ne_nil : parts ≠ []

namespace WrittenKey

/-- The text of a column of a key. -/
def partText (part : KeyPart) : String :=
  quotedName part.column ++ numbersText (part.length.map (·, none))

def partTokens (part : KeyPart) : List Token :=
  .quoted part.column :: numbersTokens (part.length.map (·, none))

/-- The text of a key. -/
def text (key : WrittenKey) : String :=
  key.head.words ++ " (" ++ Text.join ", " (key.parts.map partText) ++ ")"

/-- The tokens of a key. -/
def tokens (key : WrittenKey) : List Token :=
  key.head.tokens ++
    .leftParen :: ([Token.comma].intercalate (key.parts.map partTokens) ++ [.rightParen])

/-- What a key says; its text has single spaces between the tokens. -/
def spec (key : WrittenKey) : KeyClause where
  kind := key.head.kind
  name := key.head.name?
  columns := key.parts
  text := Token.displayAll key.tokens

theorem reads_part (part : KeyPart) {rest : List Char} (hrest : Parted rest) :
    Reads (partText part).toList (partTokens part) rest := by
  have hstops := ((parted_numbersText (part.length.map (·, none))).append hrest).stops
    (p := (· == '\x60')) (by decide)
  rw [partText, String.toList_append]
  exact (Reads.quotedName part.column hstops).append (reads_numbers _ rest)

theorem reads (key : WrittenKey) (rest : List Char) : Reads key.text.toList key.tokens rest := by
  have hparts := (Reads.join (.cons (by decide) rest) (fun part _ => reads_part part)
    key.parts_ne_nil).append (Reads.mark ')' (by decide) rest)
  have hreads := (key.head.reads (.cons (by decide) _)).append
    ((Reads.space _).append ((Reads.mark '(' (by decide) _).append hparts))
  have htext : key.text.toList = key.head.words.toList ++ ([' '] ++ (['('] ++
      ((Text.join ", " (key.parts.map partText)).toList ++ [')']))) := by
    simp [text]
  rw [htext]
  exact hreads

end WrittenKey

/-- An element of a table as it is written. -/
inductive WrittenElement where
  | column (written : WrittenColumn)
  | key (written : WrittenKey)

namespace WrittenElement

/-- The text of an element. -/
def text : WrittenElement → String
  | column written => written.text
  | key written => written.text

def tokens : WrittenElement → List Token
  | column written => written.tokens
  | key written => written.tokens

/-- A table definition with one more element. -/
def add (table : TableSpec) : WrittenElement → TableSpec
  | column written => { table with columns := table.columns ++ [written.spec] }
  | key written => { table with keys := table.keys ++ [written.spec] }

theorem reads (element : WrittenElement) {rest : List Char} (hrest : Parted rest) :
    Reads element.text.toList element.tokens rest := by
  cases element with
  | column written => exact written.reads hrest
  | key written => exact written.reads rest

end WrittenElement

/-- A table definition as it is written: one column at least, and then keys. -/
structure WrittenTable where
  schema : String
  name : String
  columns : List WrittenColumn
  columns_ne_nil : columns ≠ []
  keys : List WrittenKey := []

namespace WrittenTable

/-- The elements in order: the columns and then the keys. -/
def elements (table : WrittenTable) : List WrittenElement :=
  table.columns.map .column ++ table.keys.map .key

/-- The text of a table definition. -/
def text (table : WrittenTable) : String :=
  "CREATE TABLE " ++ quotedName table.schema ++ "." ++ quotedName table.name ++ " (" ++
    Text.join ", " (table.elements.map WrittenElement.text) ++ ")"

/-- The tokens of a table definition. -/
def tokens (table : WrittenTable) : List Token :=
  [.word "CREATE", .word "TABLE", .quoted table.schema, .dot, .quoted table.name, .leftParen] ++
    ([Token.comma].intercalate (table.elements.map WrittenElement.tokens) ++ [.rightParen])

/-- What a table definition says. -/
def spec (table : WrittenTable) : TableSpec where
  name := { schema := some table.schema, name := table.name }
  columns := table.columns.map WrittenColumn.spec
  keys := table.keys.map WrittenKey.spec

theorem elements_ne_nil (table : WrittenTable) : table.elements ≠ [] := by
  simp [elements, table.columns_ne_nil]

/-- The elements of a table, added one after another, make what it says. -/
theorem foldl_add_elements (table : WrittenTable) :
    table.elements.foldl WrittenElement.add
        { name := { schema := some table.schema, name := table.name } } =
      table.spec := by
  have hcolumns : ∀ (columns : List WrittenColumn) (start : TableSpec),
      (columns.map WrittenElement.column).foldl WrittenElement.add start =
        { start with columns := start.columns ++ columns.map WrittenColumn.spec } := by
    intro columns
    induction columns with
    | nil => simp
    | cons column columns ih => simp [ih, WrittenElement.add]
  have hkeys : ∀ (keys : List WrittenKey) (start : TableSpec),
      (keys.map WrittenElement.key).foldl WrittenElement.add start =
        { start with keys := start.keys ++ keys.map WrittenKey.spec } := by
    intro keys
    induction keys with
    | nil => simp
    | cons key keys ih => simp [ih, WrittenElement.add]
  rw [elements, List.foldl_append, hcolumns, hkeys]
  rfl

theorem text_eq (table : WrittenTable) : table.text =
    "CREATE TABLE " ++ quotedName table.schema ++ "." ++ quotedName table.name ++ " (" ++
      Text.join ", " (table.elements.map WrittenElement.text) ++ ")" := rfl

theorem reads (table : WrittenTable) (rest : List Char) :
    Reads table.text.toList table.tokens rest := by
  have helements := (Reads.join (.cons (by decide) rest)
    (fun element _ => WrittenElement.reads element) table.elements_ne_nil).append
      (Reads.mark ')' (by decide) rest)
  have hname := (Reads.quotedName table.name (Text.stops_cons (by decide))).append
    ((Reads.space _).append ((Reads.mark '(' (by decide) _).append helements))
  have hschema := (Reads.quotedName table.schema (Text.stops_cons (by decide))).append
    ((Reads.mark '.' (by decide) _).append hname)
  have hreads := (Reads.keyword "CREATE" (by decide) _).append
    ((Reads.keyword "TABLE" (by decide) _).append hschema)
  have htext : table.text.toList = ("CREATE" ++ " ").toList ++ (("TABLE" ++ " ").toList ++
      ((quotedName table.schema).toList ++ (['.'] ++ ((quotedName table.name).toList ++
        ([' '] ++ (['('] ++ ((Text.join ", " (table.elements.map WrittenElement.text)).toList ++
          [')']))))))) := by
    simp [text_eq]
  rw [htext]
  exact hreads

/-- The text of a table definition is one statement. -/
theorem isStatementText (table : WrittenTable) : IsStatementText table.text table.tokens where
  reads := fun {rest} _ => table.reads rest
  begins := by
    refine ⟨"CREATE", ("TABLE " ++ quotedName table.schema ++ "." ++ quotedName table.name ++
      " (" ++ Text.join ", " (table.elements.map WrittenElement.text) ++ ")").toList, ?_,
      by decide, by decide⟩
    simp [text_eq]
  ends := by
    rw [text_eq, String.toList_append]
    exact List.rdropWhile_concat_neg _ _ _ (by decide)

end WrittenTable

end Sql
end SchemaLint
