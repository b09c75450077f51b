import SchemaLint.Json.Basic
import SchemaLint.NameMap

/-!
# Decoding records

Decoders from JSON values.  A record may be written as an object, in which a known member occurs
at most once and unknown members are ignored, or as an array of its members by position, of
which the last ones may be missing.
-/

namespace SchemaLint
namespace Json

/-- A decoder of JSON values. -/
abbrev Decoder (α : Type) := Json → Option α

/-- A string. -/
def text? : Decoder String
  | .text s => some s
  | _ => none

/-- A truth value. -/
def boolean? : Decoder Bool
  | .boolean b => some b
  | _ => none

/-- A natural number of 64 bits, written without fraction or exponent. -/
def word64? : Decoder UInt64
  | .number (.natural n) => some n
  | _ => none

/-- A natural number of 32 bits. -/
def word32? : Decoder UInt32
  | .number (.natural n) => if n.toNat < UInt32.size then some n.toUInt32 else none
  | _ => none

/-- A value that may be absent. -/
def nullable? {α : Type} (decode : Decoder α) : Decoder (Option α)
  | .null => some none
  | value => (decode value).map some

/-- A list of values. -/
def list? {α : Type} (decode : Decoder α) : Decoder (List α)
  | .array items => items.mapM decode
  | _ => none

/-- A map from names; the last of several members of one name stays. -/
def map? {α : Type} (decode : Decoder α) : Decoder (NameMap α)
  | .object members =>
      (members.mapM fun member => (decode member.2).map fun value => (member.1, value)).map
        NameMap.ofList
  | _ => none

/-- A set of names. -/
def names? (value : Json) : Option NameSet :=
  (list? text? value).map NameSet.ofNames

/-- One of several labels: written as a string, or as an object whose only member has that name
and no value. -/
def label? : Decoder String
  | .text s => some s
  | .object [(name, .null)] => some name
  | _ => none

/-- The members of a record that are present. -/
structure Members where
  present : List (String × Json)

/-- The members of a record whose members have the names `fields`, in this order. -/
def record? (fields : List String) : Decoder Members
  | .object members =>
      let known := members.filter fun member => fields.contains member.1
      if (known.map Prod.fst).Nodup then some ⟨known⟩ else none
  | .array items => if items.length ≤ fields.length then some ⟨fields.zip items⟩ else none
  | _ => none

namespace Members

/-- The value of a member. -/
def find? (members : Members) (name : String) : Option Json :=
  (members.present.find? (·.1 == name)).map Prod.snd

/-- A member that must be present. -/
def required {α : Type} (members : Members) (name : String) (decode : Decoder α) : Option α :=
  (members.find? name).bind decode

/-- A member with a value that stands in for it when it is missing. -/
def orElse {α : Type} (members : Members) (name : String) (missing : α) (decode : Decoder α) :
    Option α :=
  match members.find? name with
  | none => some missing
  | some value => decode value

end Members

/-- The object of a map. -/
def ofMap {α : Type} (encode : α → Json) (map : NameMap α) : Json :=
  .object (map.entries.map fun entry => (entry.1, encode entry.2))

end Json
end SchemaLint
