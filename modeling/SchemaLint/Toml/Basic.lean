/-!
# TOML values

Values of the TOML data format, and the rules by which keys and headers extend a table.  A table
remembers what brought it about: a table that is complete may not be extended, and no key is
given a value twice.
-/

namespace SchemaLint
namespace Toml

/-- What brought a table about. -/
inductive Origin where
  /-- Its own header. -/
  | header
  /-- The header of a table inside it. -/
  | implied
  /-- A dotted key. -/
  | dotted
  /-- Braces. -/
  | inline
deriving DecidableEq, Repr

end Toml

/-- A TOML value.  Dates and times are kept as text. -/
inductive Toml where
  | text (value : String)
  | integer (value : Int)
  | real (value : Float)
  | boolean (value : Bool)
  | moment (text : String)
  | array (items : List Toml)
  | table (origin : Toml.Origin) (entries : List (String × Toml))
  /-- An array of tables, each with a header of its own. -/
  | tables (elements : List (List (String × Toml)))

namespace Toml

instance : Inhabited Toml := ⟨.boolean false⟩

/-- The contents of a table. -/
abbrev Entries := List (String × Toml)

/-- Whether a path on which missing tables come about as `new` ones may lead through a table:
nothing extends braces, and dotted keys do not extend what has a header. -/
def Origin.extends (new existing : Origin) : Bool :=
  existing ≠ .inline && !(new = .dotted && existing = .header)

namespace Entries

/-- The value of a key. -/
def find? (entries : Entries) (key : String) : Option Toml :=
  (List.find? (·.1 == key) entries).map Prod.snd

/-- The entries with a value for a key, in place of the one that it has. -/
def replace (entries : Entries) (key : String) (value : Toml) : Entries :=
  entries.map fun entry => if entry.1 == key then (key, value) else entry

/-- Changes the table at the end of a path.  The tables of the path that are missing come about as
`new` ones.  Of an array of tables the last one is meant. -/
def changeAt (new : Origin) (change : Origin → Entries → Option Entries) :
    List String → Origin → Entries → Option Entries
  | [], origin, entries => change origin entries
  | key :: path, _, entries =>
      match find? entries key with
      | none => do
          let inner ← changeAt new change path new []
          return entries ++ [(key, .table new inner)]
      | some (.table origin inner) => do
          guard (new.extends origin)
          let inner ← changeAt new change path origin inner
          return replace entries key (.table origin inner)
      | some (.tables elements) => do
          let inner ← changeAt new change path .header (← elements.getLast?)
          return replace entries key (.tables (elements.dropLast ++ [inner]))
      | some _ => none

/-- The entries with one more key; it must not have a value yet. -/
def add (entries : Entries) (key : String) (value : Toml) : Option Entries :=
  if (find? entries key).isNone then some (entries ++ [(key, value)]) else none

/-- The entries with a value for a dotted key.  Only tables that dotted keys brought about get
new entries in this way. -/
def addDotted (entries : Entries) (key : List String) (value : Toml) : Option Entries :=
  let path := key.dropLast
  changeAt .dotted
    (fun origin entries => do
      guard (path.isEmpty || origin = .dotted)
      add entries (← key.getLast?) value)
    path .header entries

/-- The entries after the header of a table: the table is new, or only implied so far. -/
def openTable (entries : Entries) (header : List String) : Option Entries :=
  changeAt .implied
    (fun _ entries => do
      let key ← header.getLast?
      match find? entries key with
      | none => add entries key (.table .header [])
      | some (.table .implied inner) => return replace entries key (.table .header inner)
      | some _ => none)
    header.dropLast .header entries

/-- The entries after the header of one more element of an array of tables. -/
def openElement (entries : Entries) (header : List String) : Option Entries :=
  changeAt .implied
    (fun _ entries => do
      let key ← header.getLast?
      match find? entries key with
      | none => add entries key (.tables [[]])
      | some (.tables elements) => return replace entries key (.tables (elements ++ [[]]))
      | some _ => none)
    header.dropLast .header entries

end Entries
end Toml
end SchemaLint
