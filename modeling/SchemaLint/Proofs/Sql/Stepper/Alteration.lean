import SchemaLint.Proofs.Sql.Stepper.Table

/-!
# Alterations by positions

The text of an action that is not understood begins where the action does, that of a key where its
clause does.  The turn of an action reads the comma behind it; without one the action has to reach
the end, so the next turn is the last.  An action may read nothing, where a comma or a parenthesis
is next, but such a turn reads the comma or fails.
-/

namespace SchemaLint
namespace Sql
namespace Stepper

open Grammar (keyKindOf? keyWords)

variable {tokens rest front : List Token} {start mark : Nat}

/-- One column, or several in parentheses. -/
def addedColumns : Stepper (List ColumnSpec) := do
  if ← consume .leftParen then
    let columns ← list column
    expectToken .rightParen ")"
    return columns
  else
    return [← column]

/-- An action that is passed over, with its text since a position. -/
def unsupportedAction (mark : Nat) : Stepper (List AlterAction) := do
  skipClause
  return [.unsupported (← textSince mark)]

/-- What an action adds that began at a position, after its first keyword. -/
def addition (mark : Nat) : Stepper (List AlterAction) := do
  let keyAhead ← anyKeywordAhead keyWords
  let columnKeyword ← consumeKeyword "COLUMN"
  if columnKeyword || !keyAhead then
    return (← addedColumns).map .addColumn
  else
    let clause ← position
    if ← consumeKeyword "CONSTRAINT" then
      constraintName
    match (← look).bind keyKindOf? with
    | some kind => return [.addKey (← keyClause kind clause)]
    | none => unsupportedAction mark

/-- One alteration of a table, which may add several columns. -/
def alterAction : Stepper (List AlterAction) := do
  let mark ← position
  if ← consumeKeyword "ADD" then
    addition mark
  else
    unsupportedAction mark

/-- Passes an alteration and the comma behind it. -/
def actionTurn (actions : List AlterAction) :
    Stepper (Turn (List AlterAction) (List AlterAction)) := do
  if ← atEnd then
    return .leave actions
  else
    let actions := actions ++ (← alterAction)
    if ← consume .comma then
      return .again actions
    else if ← atEnd then
      return .again actions
    else
      fail "\x60,\x60 between ALTER TABLE actions"

/-- The alterations of a table, to the end of the statement. -/
def alterActions : Stepper (List AlterAction) :=
  loop actionTurn []

/-- The kind of a new index. -/
def indexKind : Stepper KeyKind := do
  if ← consumeKeyword "UNIQUE" then return .unique
  else if ← consumeKeyword "FULLTEXT" then return .fulltext
  else if ← consumeKeyword "SPATIAL" then return .spatial
  else return .index

/-- A new index, after the first keyword of its statement. -/
def createIndex : Stepper Statement := do
  let mark ← position
  let kind ← indexKind
  expectKeyword "INDEX"
  let name ← identifier
  let method ← optionalMethod
  expectKeyword "ON"
  let table ← objectName
  let columns ← keyParts
  let method ← keyOptions method
  return .createIndex table { kind, name := some name, columns, method, text := ← textSince mark }

/-- A turn of the alterations of a table. -/
def readActionTurn (actions : List AlterAction) :
    Reader (Turn (List AlterAction) (List AlterAction)) := do
  if ← Parser.atEnd then
    return .leave actions
  else
    let actions := actions ++ (← Grammar.alterAction)
    if ← Parser.optionalToken .comma then
      return .again actions
    else if ← Parser.atEnd then
      return .again actions
    else
      Reader.fail "\x60,\x60 between ALTER TABLE actions"

/-- The alterations that follow those that have been read. -/
def readActions (actions : List AlterAction) : Reader (List AlterAction) := do
  if ← Parser.atEnd then
    return actions
  else
    let actions ← Parser.separatedFold .comma true
      (fun actions => return actions ++ (← Grammar.alterAction)) actions
    if ← Parser.atEnd then
      return actions
    else
      Reader.fail "\x60,\x60 between ALTER TABLE actions"

theorem readActions_eq (actions : List AlterAction) :
    readActions actions = readActionTurn actions >>= Turn.goOn readActions := by
  rw [readActions, readActionTurn, Parser.bind_assoc]
  refine congrArg _ (funext fun ended => ?_)
  cases ended with
  | true => rfl
  | false =>
      rw [if_neg Bool.false_ne_true, if_neg Bool.false_ne_true, Parser.separatedFold_eq_bind]
      simp only [Parser.bind_assoc, Parser.pure_bind]
      refine congrArg _ (funext fun read => congrArg _ (funext fun found => ?_))
      refine Parser.ext fun rest => ?_
      cases found with
      | true => cases rest <;> rfl
      | false => cases rest <;> rfl

theorem length_lt_of_readActionTurn {actions next : List AlterAction} {left : List Token}
    (h : (readActionTurn actions).run rest = .ok (.again next, left)) :
    left.length < rest.length := by
  obtain ⟨ended, middle, hended, hturn⟩ := Parser.run_bind_eq_ok.1 h
  cases hended
  cases rest with
  | nil => cases hturn
  | cons token rest =>
      obtain ⟨read, behind, haction, hturn⟩ := Parser.run_bind_eq_ok.1 hturn
      obtain ⟨found, last, hcomma, hturn⟩ := Parser.run_bind_eq_ok.1 hturn
      cases found with
      | true =>
          cases hturn
          exact Nat.lt_of_lt_of_le (Parser.length_lt_of_optionalToken hcomma)
            (Grammar.alterAction.length_le haction)
      | false =>
          cases last with
          | nil =>
              cases hturn
              exact Nat.zero_lt_succ _
          | cons other last => cases hturn

namespace Tracks

protected theorem addedColumns : Tracks tokens start addedColumns Grammar.addedColumns :=
  .bind (.consume _) fun _ => .ite
    (.bind (.list .column) fun _ => .bind (.expectToken _ _) fun _ => .pure _)
    (.bind .column fun _ => .pure _)

protected theorem unsupportedAction (hmark : StandsAt tokens mark front) (hle : mark ≤ start) :
    Tracks tokens start (unsupportedAction mark) (Grammar.unsupportedAction front) :=
  .bind .skipClause fun _ => .bind (.textSince hmark hle) fun _ => .pure _

protected theorem addition (hmark : StandsAt tokens mark front) (hle : mark ≤ start) :
    Tracks tokens start (addition mark) (Grammar.addition front) := by
  refine .bind (.anyKeywordAhead _) fun keyAhead => .bind (.consumeKeyword _) fun _ =>
    .ite (.bind .addedColumns fun _ => .pure _) ?_
  refine .position_bind fun clause behind hclause hbehind => ?_
  have hskipped := Tracks.unsupportedAction hmark (Nat.le_trans hle hclause)
  have hkey : Tracks tokens clause
      (look >>= fun next => match next.bind keyKindOf? with
        | some kind => return [.addKey (← keyClause kind clause)]
        | none => unsupportedAction mark)
      (Parser.peek >>= fun next => match next.bind keyKindOf? with
        | some kind => return [.addKey (← Grammar.keyClause kind behind)]
        | none => Grammar.unsupportedAction front) := by
    refine .look_bind hskipped fun token => ?_
    rw [Option.bind_some]
    cases keyKindOf? token with
    | none => exact hskipped.before
    | some kind => exact .bind (.keyClause kind hbehind (Nat.le_refl clause)) fun _ => .pure _
  exact .bind (.consumeKeyword _) fun _ => .ite (.bind .constraintName fun _ => hkey) hkey

protected theorem alterAction : Tracks tokens start alterAction Grammar.alterAction :=
  .position_bind fun mark _ _ hmark => .bind (.consumeKeyword _) fun _ =>
    .ite (.addition hmark (Nat.le_refl mark)) (.unsupportedAction hmark (Nat.le_refl mark))

protected theorem actionTurn (actions : List AlterAction) :
    Tracks tokens start (actionTurn actions) (readActionTurn actions) :=
  .bind .atEnd_atEnd fun _ => .ite (.pure _) <| .bind .alterAction fun _ =>
    .bind (.consume _) fun _ => .ite (.pure _) <|
    .bind .atEnd_atEnd fun _ => .ite (.pure _) (.fail _)

protected theorem alterActions : Tracks tokens start alterActions Grammar.alterActions :=
  Tracks.loop (p := readActions) .actionTurn readActions_eq
    (fun _ _ _ _ => length_lt_of_readActionTurn) []

protected theorem indexKind : Tracks tokens start indexKind Grammar.indexKind :=
  .bind (.consumeKeyword _) fun _ => .ite (.pure _) <|
    .bind (.consumeKeyword _) fun _ => .ite (.pure _) <|
    .bind (.consumeKeyword _) fun _ => .ite (.pure _) (.pure _)

protected theorem createIndex : Tracks tokens start createIndex Grammar.createIndex :=
  .position_bind fun mark _ _ hmark => .bind .indexKind fun _ => .bind (.expectKeyword _) fun _ =>
    .bind .identifier fun _ => .bind .optionalMethod fun _ => .bind (.expectKeyword _) fun _ =>
    .bind .objectName fun _ => .bind .keyParts fun _ => .bind (.keyOptions _) fun _ =>
    .bind (.textSince hmark (Nat.le_refl mark)) fun _ => .pure _

end Tracks

end Stepper
end Sql
end SchemaLint
