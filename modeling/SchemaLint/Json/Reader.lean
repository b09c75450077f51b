import SchemaLint.Json.Scan

/-!
# Reading JSON text

The reader is a fold over the tokens.  Its state is the stack of containers that are open and
what may come next; reading a value puts it into the innermost open container.
-/

namespace SchemaLint
namespace Json

/-- A container that is open, with what it holds so far in reverse.  An object holds nothing any
more once one of its names was illegible. -/
inductive Container where
  | array (items : List Json)
  | object (members : Option (List (String × Json)))
  /-- A member whose name has been read and whose value has not. -/
  | member (name : Option String) (members : Option (List (String × Json)))

/-- What may come next. -/
inductive Place where
  /-- A value. -/
  | value
  /-- A value, or the end of the array that has just begun. -/
  | firstItem
  /-- A name. -/
  | name
  /-- A name, or the end of the object that has just begun. -/
  | firstName
  /-- The colon after a name. -/
  | colon
  /-- A comma or the end of the innermost container. -/
  | next
  /-- Nothing but the end of the text. -/
  | finished (result : Json)

/-- The state of the reader. -/
structure ReaderState where
  stack : List Container
  place : Place

namespace ReaderState

/-- The state at the beginning of a text. -/
def start : ReaderState := ⟨[], .value⟩

/-- The state after a whole value has been read. -/
def put (stack : List Container) (value : Json) : Option ReaderState :=
  match stack with
  | [] => some ⟨[], .finished value⟩
  | .array items :: outer => some ⟨.array (value :: items) :: outer, .next⟩
  | .member name members :: outer =>
      some ⟨.object (do return (← name, value) :: (← members)) :: outer, .next⟩
  | .object _ :: _ => none

/-- Begins a value at a place where one may stand. -/
def beginValue (stack : List Container) : Token → Option ReaderState
  | .null => put stack .null
  | .boolean b => put stack (.boolean b)
  | .number n => put stack (.number n)
  | .text s => put stack (.text s)
  | .illegible => put stack .illegible
  | .beginArray => some ⟨.array [] :: stack, .firstItem⟩
  | .beginObject => some ⟨.object (some []) :: stack, .firstName⟩
  | _ => none

/-- Ends the innermost container. -/
def close (stack : List Container) (token : Token) : Option ReaderState :=
  match stack, token with
  | .array items :: outer, .endArray => put outer (.array items.reverse)
  | .object members :: outer, .endObject =>
      put outer (members.elim .illegible fun members => .object members.reverse)
  | _, _ => none

/-- The state after one more token. -/
def step (state : ReaderState) (token : Token) : Option ReaderState :=
  match state.place with
  | .value => beginValue state.stack token
  | .firstItem =>
      match token with
      | .endArray => close state.stack token
      | _ => beginValue state.stack token
  | .name | .firstName =>
      match state.stack, token with
      | .object members :: outer, .text name => some ⟨.member (some name) members :: outer, .colon⟩
      | .object members :: outer, .illegible => some ⟨.member none members :: outer, .colon⟩
      | stack, .endObject =>
          match state.place with
          | .firstName => close stack token
          | _ => none
      | _, _ => none
  | .colon =>
      match token with
      | .colon => some ⟨state.stack, .value⟩
      | _ => none
  | .next =>
      match state.stack, token with
      | .array _ :: _, .comma => some ⟨state.stack, .value⟩
      | .object _ :: _, .comma => some ⟨state.stack, .name⟩
      | stack, token => close stack token
  | .finished _ => none

/-- The value of a text that has been read to its end. -/
def result? (state : ReaderState) : Option Json :=
  match state.place with
  | .finished value => some value
  | _ => none

end ReaderState

/-- The value that a list of tokens denotes. -/
def ofTokens? (tokens : List Token) : Option Json :=
  (tokens.foldlM ReaderState.step ReaderState.start).bind ReaderState.result?

/-- The value of a JSON text, or nothing when the text is malformed. -/
def parse? (s : String) : Option Json :=
  (Token.scan s.toList).bind ofTokens?

end Json
end SchemaLint
