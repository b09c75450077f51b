/-!
# JSON values

Values of the JSON data format.  Numbers keep the form in which they were written: a natural
number of 64 bits, a negative number of 64 bits, or a floating point number.  Objects keep the
order of their members, and a name may occur more than once.  Half of a surrogate pair stands for no
character: a string in which one is escaped is illegible, and so is an object with such a name.
-/

namespace SchemaLint

namespace Json

/-- A number of a JSON text. -/
inductive Number where
  | natural (n : UInt64)
  | negative (n : Int64)
  | fraction (x : Float)

end Json

/-- A JSON value. -/
inductive Json where
  | null
  | boolean (value : Bool)
  | number (value : Json.Number)
  | text (value : String)
  | array (items : List Json)
  | object (members : List (String × Json))
  /-- A string or object that can be passed over and not read. -/
  | illegible

namespace Json

instance : Inhabited Json := ⟨.null⟩

/-- A natural number of 64 bits. -/
def natural (n : UInt64) : Json := .number (.natural n)

/-- A count. -/
def count (n : Nat) : Json := .number (.natural (UInt64.ofNat n))

/-- A floating point number. -/
def fraction (x : Float) : Json := .number (.fraction x)

/-- An array of strings. -/
def texts (items : List String) : Json := .array (items.map .text)

/-- A value that may be absent; absence is written `null`. -/
def optional {α : Type} (encode : α → Json) : Option α → Json
  | none => .null
  | some value => encode value

/-- The value under a name: the last one, when the name occurs more than once. -/
def get? (name : String) : Json → Option Json
  | .object members => (members.reverse.find? (·.1 == name)).map Prod.snd
  | _ => none

/-- Inserts a member at its place in a list in ascending order of names. -/
def insertMember (name : String) (value : Json) : List (String × Json) → List (String × Json)
  | [] => [(name, value)]
  | (other, old) :: rest =>
      if name < other then
        (name, value) :: (other, old) :: rest
      else if name = other then
        (name, value) :: rest
      else
        (other, old) :: insertMember name value rest

mutual

/-- The value with the members of every object in ascending order of names; of two members with
one name the later stays. -/
def sorted : Json → Json
  | .array items => .array (sortedItems items)
  | .object members => .object (sortedMembers members [])
  | value => value
termination_by structural value => value

/-- The sorted forms of a list of values. -/
def sortedItems : List Json → List Json
  | [] => []
  | item :: items => item.sorted :: sortedItems items
termination_by structural items => items

/-- Inserts the sorted forms of members into an ascending list. -/
def sortedMembers : List (String × Json) → List (String × Json) → List (String × Json)
  | [], done => done
  | (name, value) :: rest, done => sortedMembers rest (insertMember name value.sorted done)
termination_by structural members => members

end

end Json
end SchemaLint
