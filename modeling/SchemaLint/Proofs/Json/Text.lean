import SchemaLint.Json.Printer
import SchemaLint.Json.Reader

/-!
# Printed JSON text

The text of a value over several lines, as a list of characters, and the tokens that it is made
of.  The scanner finds these tokens again, whatever follows the text, as long as a number at its
end cannot go on.
-/

namespace SchemaLint
namespace Json

/-- A value whose numbers are natural, and of which nothing is illegible. -/
inductive Plain : Json → Prop
  | null : Plain .null
  | boolean (b : Bool) : Plain (.boolean b)
  | natural (n : UInt64) : Plain (.number (.natural n))
  | text (s : String) : Plain (.text s)
  | array {items : List Json} (h : ∀ item ∈ items, item.Plain) : Plain (.array items)
  | object {members : List (String × Json)} (h : ∀ member ∈ members, member.2.Plain) :
      Plain (.object members)

mutual

/-- The characters of `writePretty`. -/
def prettyChars (depth : Nat) : Json → List Char
  | .null => "null".toList
  | .boolean b => if b then "true".toList else "false".toList
  | .number n => n.text.toList
  | .text s => (quote s).toList
  | .illegible => "null".toList
  | .array [] => ['[', ']']
  | .array items => '[' :: itemChars (depth + 1) items ++ (newLine depth).toList ++ [']']
  | .object [] => ['\x7b', '\x7d']
  | .object members =>
      '\x7b' :: memberChars (depth + 1) members ++ (newLine depth).toList ++ ['\x7d']
termination_by structural value => value

/-- The characters of `writePrettyItems`. -/
def itemChars (depth : Nat) : List Json → List Char
  | [] => []
  | item :: items =>
      (newLine depth).toList ++ prettyChars depth item ++ (if items.isEmpty then [] else [',']) ++
        itemChars depth items
termination_by structural items => items

/-- The characters of `writePrettyMembers`. -/
def memberChars (depth : Nat) : List (String × Json) → List Char
  | [] => []
  | (name, value) :: members =>
      (newLine depth).toList ++ (quote name).toList ++ [':', ' '] ++ prettyChars depth value ++
        (if members.isEmpty then [] else [',']) ++ memberChars depth members
termination_by structural members => members

end

mutual

/-- The tokens of a value. -/
def tokens : Json → List Token
  | .null => [.null]
  | .boolean b => [.boolean b]
  | .number n => [.number n]
  | .text s => [.text s]
  | .illegible => [.illegible]
  | .array items => .beginArray :: itemTokens items ++ [.endArray]
  | .object members => .beginObject :: memberTokens members ++ [.endObject]
termination_by structural value => value

/-- The tokens of the items of an array. -/
def itemTokens : List Json → List Token
  | [] => []
  | item :: items => item.tokens ++ (if items.isEmpty then [] else [.comma]) ++ itemTokens items
termination_by structural items => items

/-- The tokens of the members of an object. -/
def memberTokens : List (String × Json) → List Token
  | [] => []
  | (name, value) :: members =>
      .text name :: .colon :: value.tokens ++ (if members.isEmpty then [] else [.comma]) ++
        memberTokens members
termination_by structural members => members

end

mutual

theorem toList_writePretty (depth : Nat) (out : String) :
    ∀ value : Json, (writePretty depth out value).toList = out.toList ++ prettyChars depth value
  | .null => by simp [writePretty, prettyChars]
  | .boolean b => by cases b <;> simp [writePretty, prettyChars]
  | .number n => by simp [writePretty, prettyChars]
  | .text s => by simp [writePretty, prettyChars]
  | .illegible => by simp [writePretty, prettyChars]
  | .array [] => by simp [writePretty, prettyChars]
  | .array (item :: items) => by
      simp [writePretty, prettyChars, toList_writePrettyItems (depth + 1) _ (item :: items)]
  | .object [] => by simp [writePretty, prettyChars]
  | .object (member :: members) => by
      simp [writePretty, prettyChars, toList_writePrettyMembers (depth + 1) _ (member :: members)]

theorem toList_writePrettyItems (depth : Nat) (out : String) :
    ∀ items : List Json,
      (writePrettyItems depth out items).toList = out.toList ++ itemChars depth items
  | [] => by simp [writePrettyItems, itemChars]
  | item :: items => by
      rw [writePrettyItems, toList_writePrettyItems depth _ items, itemChars]
      cases items <;> simp [toList_writePretty depth _ item]

theorem toList_writePrettyMembers (depth : Nat) (out : String) :
    ∀ members : List (String × Json),
      (writePrettyMembers depth out members).toList = out.toList ++ memberChars depth members
  | [] => by simp [writePrettyMembers, memberChars]
  | (name, value) :: members => by
      rw [writePrettyMembers, toList_writePrettyMembers depth _ members, memberChars]
      cases members <;> simp [toList_writePretty depth _ value]

end

theorem toList_pretty (value : Json) : value.pretty.toList = prettyChars 0 value := by
  rw [pretty, toList_writePretty]
  rfl

end Json
end SchemaLint
