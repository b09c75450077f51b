import SchemaLint.Proofs.Sql.Stepper.Group
import SchemaLint.Sql.Grammar.Column

/-!
# Columns by positions

A type name grows by one word in each turn.  The word of an attribute is passed before it is
known; if it is none, the position is moved back to it.  So is the token of a default value that
is no value, and the parenthesis of one that is a group.
-/

namespace SchemaLint
namespace Sql
namespace Stepper

open Grammar (SignWord AttributeHead applySign signWords attributeHeads continuations setStored
  currentTimeNames typeNameFrom)

variable {tokens rest : List Token} {start pos : Nat} {token : Token}

section ColumnType

/-- Passes a word that belongs to the name of a type. -/
def typeNameTurn (name : String) : Stepper (Turn String String) := do
  match (← look).bind fun token => (continuations name).find? token.isKeyword with
  | some word =>
      advance
      return .again (name ++ " " ++ word)
  | none => return .leave name

/-- The name of a type, which may be of several words. -/
def typeName : Stepper String := do
  let first ← Stepper.token Grammar.lowerWord? "data type"
  loop typeNameTurn first

/-- The arguments of a type after the opening parenthesis. -/
def typeArguments (type : TypeSpec) : Stepper TypeSpec := do
  if type.name = "enum" ∨ type.name = "set" then
    return { type with members := ← list text }
  else
    let length ← integer
    if ← consume .comma then
      return { type with length := some length, scale := some (← integer) }
    else
      return { type with length := some length }

/-- A column type. -/
def columnType : Stepper TypeSpec := do
  let mut type : TypeSpec := { name := ← typeName }
  if ← consume .leftParen then
    type ← typeArguments type
    expectToken .rightParen ")"
  keywordClauses signWords (fun word type => return applySign word type) type

theorem run_typeNameTurns (hpos : StandsAt tokens pos rest) (name : String) :
    (loop typeNameTurn name).run tokens pos = landing tokens (.ok (typeNameFrom name rest)) := by
  induction rest generalizing pos name with
  | nil =>
      have hturn : (typeNameTurn name).run tokens pos = .ok (.leave name, pos) := by
        rw [typeNameTurn, run_bind (run_look hpos)]
        rfl
      rw [run_loop_of_leave hturn, typeNameFrom, landing_ok hpos]
  | cons token rest ih =>
      rw [typeNameFrom]
      cases hword : (continuations name).find? token.isKeyword with
      | some word =>
          have hturn : (typeNameTurn name).run tokens pos =
              .ok (.again (name ++ " " ++ word), pos + 1) := by
            rw [typeNameTurn, run_bind (run_look hpos), List.head?_cons, Option.bind_some, hword]
            exact run_bind (TracksBefore.run_advance hpos) _
          rw [run_loop_of_again hturn (Nat.lt_succ_self pos) hpos.tail.le]
          exact ih hpos.tail _
      | none =>
          have hturn : (typeNameTurn name).run tokens pos = .ok (.leave name, pos) := by
            rw [typeNameTurn, run_bind (run_look hpos), List.head?_cons, Option.bind_some, hword]
            rfl
          rw [run_loop_of_leave hturn]
          exact (landing_ok hpos name).symm

namespace Tracks

protected theorem typeName : Tracks tokens start typeName Grammar.typeName :=
  .bind (.token _ _) fun first _ _ _ hpos => run_typeNameTurns hpos first

protected theorem typeArguments (type : TypeSpec) :
    Tracks tokens start (typeArguments type) (Grammar.typeArguments type) :=
  .ite (.bind (.list .text) fun _ => .pure _)
    (.bind .integer fun _ => .bind (.consume _) fun _ =>
      .ite (.bind .integer fun _ => .pure _) (.pure _))

protected theorem columnType : Tracks tokens start columnType Grammar.columnType :=
  .bind .typeName fun _ => .bind (.consume _) fun _ => .ite
    (.bind (.typeArguments _) fun type => .bind (.expectToken _ _) fun _ =>
      .keywordClauses (fun _ _ => .pure _) type)
    (.keywordClauses (fun _ _ => .pure _) _)

end Tracks

end ColumnType

section Default

/-- The current time, as a name or a call. -/
def currentTime : Stepper Unit := do
  if ← anyKeywordAhead currentTimeNames then
    advance
    optionalGroup
  else
    fail "CURRENT_TIMESTAMP"

/-- A default that begins with a word, which has been passed. -/
def wordDefault (word : String) : Stepper DefaultValue := do
  if Text.sameLetters word "NULL" then
    return .null
  else if Text.sameLetters word "TRUE" then
    return .literal "1"
  else if Text.sameLetters word "FALSE" then
    return .literal "0"
  else if currentTimeNames.any (Text.sameLetters word) then
    optionalGroup
    return .currentTimestamp
  else
    let next ← look
    if word.toList.head? = some '_' ∧ (next.bind Grammar.textOf?).isSome then
      return .literal (← text)
    else if next = some .leftParen then
      return .expression (word ++ "(" ++ (← group) ++ ")")
    else
      return .expression word

/-- A default value. -/
def defaultValue : Stepper DefaultValue := do
  match ← take with
  | none => fail "default value"
  | some (.word word) => wordDefault word
  | some (.text value) | some (.number value) | some (.bits value) => return .literal value
  | some .minus => return .literal ("-" ++ (← numeral))
  | some .plus => return .literal (← numeral)
  | some .leftParen =>
      stepBack
      return .expression (← group)
  | some _ =>
      stepBack
      fail "default value"

namespace Tracks

protected theorem currentTime : Tracks tokens start currentTime Grammar.currentTime :=
  .anyKeywordAhead_bind (.fail _) fun _ => .advance_next .optionalGroup

protected theorem wordDefault (word : String) :
    Tracks tokens start (wordDefault word) (Grammar.wordDefault word) := by
  refine .ite (.pure _) (.ite (.pure _) (.ite (.pure _)
    (.ite (.bind .optionalGroup fun _ => .pure _) ?_)))
  refine .look_bind ?_ fun token => ?_
  · rw [if_neg fun h => Bool.false_ne_true h.2, if_neg (by simp)]
    exact .pure _
  cases token with
  | text value =>
      dsimp only
      by_cases hword : word.toList.head? = some '_'
      · rw [if_pos ⟨hword, rfl⟩, if_pos hword]
        have hvalue : Grammar.textOf? (.text value) = some value := rfl
        refine .token_next hvalue ?_
        exact .pure _
      · rw [if_neg fun h => hword h.1, if_neg (by simp), if_neg hword]
        exact (Tracks.pure _).before
  | leftParen =>
      rw [if_neg fun h => Bool.false_ne_true h.2, if_pos rfl]
      exact (Tracks.group.bind fun _ => .pure _).before
  | _ =>
      rw [if_neg fun h => Bool.false_ne_true h.2, if_neg (by simp)]
      exact (Tracks.pure _).before

/-- A token that no default value begins with is given back. -/
protected theorem defaultValue : Tracks tokens start defaultValue Grammar.defaultValue := by
  refine .of_before (.take_left (.fail rfl)) fun token => .peek_right ?_
  cases token with
  | word word => exact .take_next (.wordDefault word)
  | text value => exact .take_next (.pure _)
  | number value => exact .take_next (.pure _)
  | bits value => exact .take_next (.pure _)
  | minus => exact .take_next (.bind .numeral fun _ => .pure _)
  | plus => exact .take_next (.bind .numeral fun _ => .pure _)
  | leftParen => exact .take_stepBack rfl (Tracks.group.bind fun _ => .pure _).before
  | _ => exact .take_stepBack rfl (Tracks.fail _).before

end Tracks

end Default

section Attribute

/-- A column whose values are computed by the group that follows, and not stored. -/
def computedBy (column : ColumnSpec) : Stepper ColumnSpec := do
  return { column with generation := some { expression := ← group, stored := false } }

/-- The rest of an attribute, added to a column. -/
def attributeRest (head : AttributeHead) (column : ColumnSpec) : Stepper ColumnSpec := do
  match head with
  | .not =>
      expectKeyword "NULL"
      return { column with nullable := some false }
  | .null => return { column with nullable := some true }
  | .default => return { column with default := some (← defaultValue) }
  | .autoIncrement => return { column with autoIncrement := true }
  | .unique =>
      let _ ← consumeKeyword "KEY"
      return { column with unique := true }
  | .primary =>
      expectKeyword "KEY"
      return { column with primaryKey := true }
  | .key => return { column with primaryKey := true }
  | .comment => return { column with comment := some (← text) }
  | .collate =>
      optionalEquals
      return { column with collation := some (← nameOrText) }
  | .character =>
      expectKeyword "SET"
      return { column with charset := some (← nameOrText) }
  | .charset => return { column with charset := some (← nameOrText) }
  | .on =>
      expectKeyword "UPDATE"
      currentTime
      return { column with onUpdateCurrentTimestamp := true }
  | .generated =>
      expectKeyword "ALWAYS"
      expectKeyword "AS"
      computedBy column
  | .computed => computedBy column
  | .virtual => return setStored false column
  | .stored => return setStored true column
  | .references =>
      skipClause
      return column
  | .check =>
      let _ ← group
      return column
  | .constraint =>
      unless ← keywordAhead "CHECK" do
        let _ ← identifier
      expectKeyword "CHECK"
      let _ ← group
      return column
  | .oneToken =>
      let _ ← take
      return column
  | .oneValue =>
      anyValue
      return column
  | .after =>
      let _ ← identifier
      return column
  | .bare => return column

/-- An attribute, added to a column; a word that begins none is given back. -/
def anyAttribute (column : ColumnSpec) : Stepper ColumnSpec := do
  match ← look with
  | some (.word word) =>
      advance
      match keywordKind? attributeHeads (.word word) with
      | some head => attributeRest head column
      | none =>
          stepBack
          fail "column attribute"
  | _ => fail "column attribute"

/-- Passes an attribute, unless the column ends. -/
def attributeTurn (column : ColumnSpec) : Stepper (Turn ColumnSpec ColumnSpec) := do
  match ← look with
  | none | some .comma | some .rightParen => return .leave column
  | some _ => return .again (← anyAttribute column)

/-- The definition of a column. -/
def column : Stepper ColumnSpec := do
  let name ← identifier
  let type ← columnType
  loop attributeTurn { name, type }

namespace Tracks

protected theorem computedBy (column : ColumnSpec) :
    Tracks tokens start (computedBy column) (Grammar.computedBy column) :=
  .bind .group fun _ => .pure _

protected theorem attributeRest (head : AttributeHead) (column : ColumnSpec) :
    Tracks tokens start (attributeRest head column) (Grammar.columnAttribute head column) := by
  cases head with
  | not => exact .bind (.expectKeyword _) fun _ => .pure _
  | default => exact .bind .defaultValue fun _ => .pure _
  | unique => exact .bind (.consumeKeyword _) fun _ => .pure _
  | primary => exact .bind (.expectKeyword _) fun _ => .pure _
  | comment => exact .bind .text fun _ => .pure _
  | collate => exact .bind .optionalEquals fun _ => .bind .nameOrText fun _ => .pure _
  | character => exact .bind (.expectKeyword _) fun _ => .bind .nameOrText fun _ => .pure _
  | charset => exact .bind .nameOrText fun _ => .pure _
  | on =>
      exact .bind (.expectKeyword _) fun _ => .bind .currentTime fun _ => .pure _
  | generated =>
      exact .bind (.expectKeyword _) fun _ => .bind (.expectKeyword _) fun _ => .computedBy column
  | computed => exact .computedBy column
  | references => exact .bind .skipClause fun _ => .pure _
  | check => exact .bind .group fun _ => .pure _
  | constraint =>
      refine .bind (.keywordAhead _) fun ahead => ?_
      have hcheck : Tracks tokens start
          (expectKeyword "CHECK" >>= fun _ => group >>= fun _ => pure column)
          (Reader.expectKeyword "CHECK" >>= fun _ => Grammar.group >>= fun _ => pure column) :=
        .bind (.expectKeyword _) fun _ => .bind .group fun _ => .pure _
      cases ahead with
      | true => exact hcheck
      | false => exact .bind .identifier fun _ => hcheck
  | oneToken => exact .bind .take fun _ => .pure _
  | oneValue => exact .bind .anyValue fun _ => .pure _
  | after => exact .bind .identifier fun _ => .pure _
  | _ => exact .pure _

/-- An attribute is passed in a turn, or the column ends or fails. -/
protected theorem attributeTurn (column : ColumnSpec) :
    Tracks tokens start (attributeTurn column)
      (clauseTurn (Parser.keywordHead attributeHeads) Grammar.columnAttribute (fun column => do
        match ← Parser.peek with
        | none | some .comma | some .rightParen => return column
        | some _ => Reader.fail "column attribute") column) := by
  have hsingle : ∀ entry ∈ attributeHeads, entry.2.1 = [] := by decide
  refine .clauseTurn_of_look (.pure rfl) fun token => ?_
  cases token with
  | comma => exact .last_right (Parser.keywordHead_eq_none fun _ _ => rfl) (.pure fun _ => rfl)
  | rightParen => exact .last_right (Parser.keywordHead_eq_none fun _ _ => rfl) (.pure fun _ => rfl)
  | word word =>
      have hhead := keywordHead_eq_map hsingle (.word word)
      dsimp only
      rw [anyAttribute, bind_assoc]
      refine .look_left ?_
      dsimp only
      rw [bind_assoc]
      cases hkind : keywordKind? attributeHeads (.word word) with
      | none =>
          rw [hkind] at hhead
          refine .last_right hhead ?_
          simp only [bind_assoc, fail_bind]
          exact .advance_stepBack (.fail fun _ => rfl)
      | some head =>
          rw [hkind] at hhead
          refine .clause_right hhead (.advance_next ?_)
          exact .bind (.attributeRest head column) fun _ => .pure _
  | _ =>
      refine .last_right (Parser.keywordHead_eq_none fun _ _ => rfl) ?_
      dsimp only
      rw [anyAttribute, bind_assoc]
      exact .look_left (.fail fun _ => rfl)

protected theorem column : Tracks tokens start column Grammar.column :=
  .bind .identifier fun _ => .bind .columnType fun _ => .clauses .attributeTurn _

end Tracks

end Attribute

end Stepper
end Sql
end SchemaLint
