import SchemaLint.Proofs.Sql.Stepper.Group
import SchemaLint.Sql.Grammar.Key

/-!
# Keys by positions

The first keyword of a key clause is passed without a second look, so a clause is tracked only
where that keyword is next.  Its text is that between the position where it begins, which is kept,
and the one behind its options.
-/

namespace SchemaLint
namespace Sql
namespace Stepper

open Grammar (KeyOptionHead keyKindOf? keyOptionHeads)

variable {tokens rest front : List Token} {start mark : Nat} {next : Token}

/-- A column of a key. -/
def keyPart : Stepper KeyPart := do
  if (← look) = some .leftParen then
    fail "column name (expression key parts are not supported)"
  else
    let column ← identifier
    let mut length : Option UInt64 := none
    if ← consume .leftParen then
      length := some (← integer)
      expectToken .rightParen ")"
    optionalEither "ASC" "DESC"
    return { column, length }

/-- The columns of a key. -/
def keyParts : Stepper (List KeyPart) := do
  expectToken .leftParen "("
  let parts ← list keyPart
  expectToken .rightParen "\x60,\x60 or \x60)\x60"
  return parts

/-- An index method, in capitals. -/
def keyMethod : Stepper String :=
  return Text.upper (← identifier)

/-- An index method if the keyword for it follows. -/
def optionalMethod : Stepper (Option String) := do
  if ← consumeKeyword "USING" then
    return some (← keyMethod)
  else
    return none

/-- The rest of an index option. -/
def keyOption (head : KeyOptionHead) (method : Option String) : Stepper (Option String) := do
  match head with
  | .method => return some (← keyMethod)
  | .comment =>
      let _ ← text
      return method
  | .value =>
      anyValue
      return method
  | .tokenizer =>
      let _ ← identifier
      return method
  | .visibility => return method

/-- The options after the columns of an index. -/
def keyOptions (method : Option String) : Stepper (Option String) :=
  keywordClauses keyOptionHeads keyOption method

/-- The keywords at the beginning of a key clause, of which the first is known to be next. -/
def keyHead (kind : KeyKind) : Stepper Unit := do
  match kind with
  | .primary =>
      expectKeyword "PRIMARY"
      expectKeyword "KEY"
  | .index => advance
  | .unique | .fulltext | .spatial =>
      advance
      optionalEither "INDEX" "KEY"

/-- The name of a key, if one follows. -/
def optionalKeyName : Stepper (Option String) := do
  match ← look with
  | some (.word word) =>
      if Token.isKeyword "USING" (.word word) then
        return none
      else
        return some (← identifier)
  | some (.quoted _) => return some (← identifier)
  | _ => return none

/-- The text since a position. -/
def textSince (mark : Nat) : Stepper String := do
  textBetween mark (← position)

/-- A key clause, whose text begins at a position. -/
def keyClause (kind : KeyKind) (mark : Nat) : Stepper KeyClause := do
  keyHead kind
  let name ← optionalKeyName
  let method ← optionalMethod
  let columns ← keyParts
  let method ← keyOptions method
  return { kind, name, columns, method, text := ← textSince mark }

/-- The name of a constraint, which may be left out before these keywords. -/
def constraintName : Stepper Unit := do
  unless ← anyKeywordAhead ["PRIMARY", "UNIQUE", "FOREIGN", "CHECK"] do
    let _ ← identifier

namespace Tracks

protected theorem keyPart : Tracks tokens start keyPart Grammar.keyPart := by
  refine .bind .look_peek fun next => .ite (.fail _) (.bind .identifier fun column => ?_)
  have hend : ∀ length : Option UInt64, Tracks tokens start
      (optionalEither "ASC" "DESC" >>= fun _ => pure { column, length : KeyPart })
      (Grammar.optionalEither "ASC" "DESC" >>= fun _ => pure { column, length : KeyPart }) :=
    fun _ => .bind (.optionalEither _ _) fun _ => .pure _
  exact .bind (.consume _) fun _ => .ite
    (.bind .integer fun length => .bind (.expectToken _ _) fun _ => hend (some length))
    (hend none)

protected theorem keyParts : Tracks tokens start keyParts Grammar.keyParts :=
  .bind (.expectToken _ _) fun _ => .bind (.list .keyPart) fun _ =>
    .bind (.expectToken _ _) fun _ => .pure _

protected theorem keyMethod : Tracks tokens start keyMethod Grammar.keyMethod :=
  .bind .identifier fun _ => .pure _

protected theorem optionalMethod :
    Tracks tokens start optionalMethod Grammar.optionalMethod :=
  .bind (.consumeKeyword _) fun _ => .ite (.bind .keyMethod fun _ => .pure _) (.pure _)

protected theorem keyOption (head : KeyOptionHead) (method : Option String) :
    Tracks tokens start (keyOption head method) (Grammar.keyOption head method) := by
  cases head with
  | method => exact .bind .keyMethod fun _ => .pure _
  | comment => exact .bind .text fun _ => .pure _
  | value => exact .bind .anyValue fun _ => .pure _
  | tokenizer => exact .bind .identifier fun _ => .pure _
  | visibility => exact .pure _

protected theorem keyOptions (method : Option String) :
    Tracks tokens start (keyOptions method) (Grammar.keyOptions method) :=
  .keywordClauses .keyOption method

protected theorem optionalKeyName :
    Tracks tokens start optionalKeyName Grammar.optionalKeyName := by
  refine .look_bind (.pure _) fun token => ?_
  cases token with
  | word word =>
      dsimp only [Grammar.nameOf?]
      by_cases husing : Token.isKeyword "USING" (.word word) = true
      · rw [if_pos husing, if_pos husing]
        exact (Tracks.pure _).before
      · rw [if_neg husing, if_neg husing]
        have hname : Grammar.nameOf? (.word word) = some word := rfl
        refine .token_next hname ?_
        exact .pure _
  | quoted name =>
      have hname : Grammar.nameOf? (.quoted name) = some name := rfl
      refine .token_next hname ?_
      exact .pure _
  | _ => exact (Tracks.pure _).before

protected theorem constraintName :
    Tracks tokens start constraintName Grammar.constraintName := by
  refine .bind (.anyKeywordAhead _) fun ahead => ?_
  cases ahead with
  | true => exact .pure _
  | false => exact .bind .identifier fun _ => .pure _

end Tracks

namespace TracksBefore

protected theorem keyHead (kind : KeyKind) :
    TracksBefore tokens start next (keyHead kind) (Grammar.keyHead kind) := by
  have hwords : TracksBefore tokens start next
      (advance >>= fun _ => optionalEither "INDEX" "KEY")
      (Parser.next >>= fun _ => Grammar.optionalEither "INDEX" "KEY") :=
    .advance_next (.optionalEither _ _)
  cases kind with
  | primary => exact (Tracks.bind (.expectKeyword _) fun _ => .expectKeyword _).before
  | index =>
      have hadvance : TracksBefore tokens start next (advance >>= pure)
          (Parser.next >>= fun _ => pure ()) := .advance_next (.pure ())
      rw [bind_pure] at hadvance
      exact hadvance
  | unique => exact hwords
  | fulltext => exact hwords
  | spatial => exact hwords

protected theorem keyClause (kind : KeyKind) (hmark : StandsAt tokens mark front)
    (hle : mark ≤ start) :
    TracksBefore tokens start next (keyClause kind mark) (Grammar.keyClause kind front) :=
  .bind (.keyHead kind) fun _ => .bind .optionalKeyName fun _ => .bind .optionalMethod fun _ =>
    .bind .keyParts fun _ => .bind (.keyOptions _) fun _ =>
      .bind (.textSince hmark hle) fun _ => .pure _

end TracksBefore

end Stepper
end Sql
end SchemaLint
