import SchemaLint.Proofs.Sql.Stepper.Group
import SchemaLint.Sql.Grammar.Account

/-!
# Accounts by positions

The options of new accounts pass every token: one that begins no option is passed in a turn of its
own.  Privileges end in front of a keyword, which has to come, and the target of a grant ends in
front of a keyword or at the end.  There each part is taken, and given back if it is none.
-/

namespace SchemaLint
namespace Sql
namespace Stepper

open Grammar (UserOption userOptions PrivilegeList endsPrivileges)

variable {tokens rest : List Token} {start pos : Nat} {next : Token}

section Users

/-- A password: a literal, the hash of one, or one that the server chooses. -/
def password : Stepper String := do
  if ← consumeKeywords ["RANDOM", "PASSWORD"] then
    return "<random>"
  else
    let _ ← consumeKeyword "PASSWORD"
    text

/-- The authentication of an account, after its first keyword. -/
def authentication (user : UserSpec) : Stepper UserSpec := do
  let mut plugin : Option String := none
  if ← consumeKeyword "WITH" then
    plugin := some (← nameOrText)
  if ← consumeKeyword "BY" then
    return { user with plugin, password := some (← password) }
  else if ← consumeKeyword "AS" then
    return { user with plugin, password := some (← text) }
  else
    return { user with plugin }

/-- An account to be created. -/
def userSpec : Stepper UserSpec := do
  let (user, host) ← accountName
  if ← consumeKeyword "IDENTIFIED" then
    authentication { user, host }
  else
    return { user, host }

/-- Whether passwords expire at once. -/
def expiresAtOnce : Stepper Bool := do
  if ← consumeKeyword "INTERVAL" then
    let _ ← take
    let _ ← consumeKeyword "DAY"
    return false
  else if ← consumeKeyword "NEVER" then
    return false
  else if ← consumeKeyword "DEFAULT" then
    return false
  else
    return true

/-- The rest of an option, added to the creation. -/
def userOption (option : UserOption) (creation : UserCreation) : Stepper UserCreation := do
  match option with
  | .lock => return { creation with accountLock := some true }
  | .unlock => return { creation with accountLock := some false }
  | .expire =>
      let atOnce ← expiresAtOnce
      return { creation with passwordExpire := creation.passwordExpire || atOnce }
  | .other => return creation

/-- Passes an option, or a token that begins none. -/
def userOptionTurn (creation : UserCreation) : Stepper (Turn UserCreation UserCreation) := do
  if ← atEnd then
    return .leave creation
  else
    match ← consumeHead userOptions with
    | some option => return .again (← userOption option creation)
    | none =>
        advance
        return .again creation

/-- New accounts, after the keywords. -/
def createUser (ifNotExists : Bool) : Stepper Statement := do
  let users ← list userSpec
  let creation ← loop userOptionTurn { ifNotExists, users }
  return .createUser creation

namespace Tracks

protected theorem password : Tracks tokens start password Grammar.password :=
  .bind (.consumeKeywords _) fun _ => .ite (.pure _) (.bind (.consumeKeyword _) fun _ => .text)

protected theorem authentication (user : UserSpec) :
    Tracks tokens start (authentication user) (Grammar.authentication user) := by
  have hrest : ∀ plugin : Option String, Tracks tokens start
      (consumeKeyword "BY" >>= fun by_ => if by_ then do
          return { user with plugin, password := some (← password) }
        else consumeKeyword "AS" >>= fun as_ => if as_ then do
          return { user with plugin, password := some (← text) }
        else return { user with plugin })
      (Parser.optionalKeyword "BY" >>= fun by_ => if by_ then do
          return { user with plugin, password := some (← Grammar.password) }
        else Parser.optionalKeyword "AS" >>= fun as_ => if as_ then do
          return { user with plugin, password := some (← Grammar.text) }
        else return { user with plugin }) :=
    fun _ => .bind (.consumeKeyword _) fun _ => .ite (.bind .password fun _ => .pure _) <|
      .bind (.consumeKeyword _) fun _ => .ite (.bind .text fun _ => .pure _) (.pure _)
  exact .bind (.consumeKeyword _) fun _ => .ite (.bind .nameOrText fun _ => hrest _) (hrest none)

protected theorem userSpec : Tracks tokens start userSpec Grammar.userSpec :=
  .bind .accountName fun _ => .bind (.consumeKeyword _) fun _ => .ite (.authentication _) (.pure _)

protected theorem expiresAtOnce : Tracks tokens start expiresAtOnce Grammar.expiresAtOnce :=
  .bind (.consumeKeyword _) fun _ => .ite
    (.bind .take fun _ => .bind (.consumeKeyword _) fun _ => .pure _) <|
    .bind (.consumeKeyword _) fun _ => .ite (.pure _) <|
    .bind (.consumeKeyword _) fun _ => .ite (.pure _) (.pure _)

protected theorem userOption (option : UserOption) (creation : UserCreation) :
    Tracks tokens start (userOption option creation) (Grammar.userOption option creation) := by
  cases option with
  | expire => exact .bind .expiresAtOnce fun _ => .pure _
  | _ => exact .pure _

/-- A token that begins no option is there to be passed, since the end has been looked for. -/
protected theorem userOptionTurn (creation : UserCreation) :
    Tracks tokens start (userOptionTurn creation)
      (clauseTurn Grammar.userOptionHead Grammar.userOption pure creation) := by
  refine .of_before (.atEnd_left (.pure rfl)) fun token => .atEnd_left ?_
  intro pos rest hstart hpos
  have hrun := Tracks.consumeHead userOptions pos _ (Nat.le_refl pos) hpos
  rw [if_neg Bool.false_ne_true]
  cases hfound : Parser.keywordHead userOptions token rest with
  | some found =>
      obtain ⟨option, more⟩ := found
      have hhead : Grammar.userOptionHead token rest = some (option, more) := by
        rw [Grammar.userOptionHead, hfound, Option.getD_some]
      rw [Parser.run_clauseHead_of_some hfound] at hrun
      have hsuffix := (List.drop_suffix more rest).trans (List.suffix_cons token rest)
      rw [run_bind hrun, clauseTurn, Parser.run_bind (Parser.run_clauseHead_of_some hhead)]
      exact Tracks.bind (.userOption option creation) (fun _ => .pure _) _ _
        (hpos.le_of_suffix hsuffix) (hpos.of_suffix hsuffix)
  | none =>
      have hhead : Grammar.userOptionHead token rest = some (.other, 0) := by
        rw [Grammar.userOptionHead, hfound, Option.getD_none]
      rw [Parser.run_clauseHead_of_none hfound, landing_ok hpos] at hrun
      rw [run_bind hrun, clauseTurn, Parser.run_bind (Parser.run_clauseHead_of_some hhead),
        run_bind (TracksBefore.run_advance hpos)]
      exact (landing_ok hpos.tail _).symm

protected theorem createUser (ifNotExists : Bool) :
    Tracks tokens start (createUser ifNotExists) (Grammar.createUser ifNotExists) := by
  refine .bind (.list .userSpec) fun users => .bind ?_ fun _ => .pure _
  rw [← Parser.bind_pure (Parser.clauses _ _ _)]
  exact .clauses .userOptionTurn _

end Tracks

end Users

section Grants

/-- Passes a part of a list of privileges. -/
def privilegeTurn (list : PrivilegeList) : Stepper (Turn PrivilegeList (List String)) := do
  match ← look with
  | none => fail "ON or TO"
  | some token =>
      if endsPrivileges token then
        return .leave list.all
      else
        match token with
        | .comma =>
            advance
            return .again list.close
        | .leftParen =>
            let _ ← group
            return .again list
        | .word text | .quoted text =>
            advance
            return .again { list with words := list.words ++ [Text.upper text] }
        | _ => fail "privilege"

/-- A list of privileges in capitals, which ends before a keyword. -/
def privileges : Stepper (List String) :=
  loop privilegeTurn {}

/-- Takes a part of a target. -/
def targetTurn (target : String) : Stepper (Turn String String) := do
  if (← atEnd) || (← keywordAhead "TO") then
    return .leave target
  else
    match ← take with
    | some (.word part) | some (.quoted part) => return .again (target ++ part)
    | some (.symbol '*') => return .again (target ++ "*")
    | some .dot => return .again (target ++ ".")
    | _ =>
        stepBack
        fail "grant target"

/-- What is read behind the parts of a target. -/
def readTargetEnd (target : String) : Reader String := do
  if (← Parser.atEnd) || (← Parser.ahead "TO") then
    return target
  else
    Reader.fail "grant target"

/-- The target of a grant, its parts written without spaces. -/
def grantTarget : Stepper String := do
  let target ← loop targetTurn ""
  if target = "" then
    fail "grant target"
  else
    return target

/-- A keyword for the kind of object that a grant is on. -/
def optionalObjectKind : Stepper Unit := do
  unless ← consumeKeyword "TABLE" do
    optionalEither "FUNCTION" "PROCEDURE"

/-- A grant, after its first keyword. -/
def grant : Stepper Statement := do
  let privileges ← privileges
  let mut target : Option String := none
  if ← consumeKeyword "ON" then
    optionalObjectKind
    target := some (← grantTarget)
  expectKeyword "TO"
  let grantees ← listFromFirst accountName
  let withGrantOption ← consumeKeywords ["WITH", "GRANT", "OPTION"]
  return .grant { privileges, target, grantees, withGrantOption }

namespace Tracks

protected theorem privilegeTurn (list : PrivilegeList) :
    Tracks tokens start (privilegeTurn list)
      (clauseTurn (fun token _ => (Grammar.privilegePart? token).map (·, 0)) Grammar.privilege
        (fun list => do
          match ← Parser.peek with
          | none => Reader.fail "ON or TO"
          | some token =>
              if endsPrivileges token then return list.all else Reader.fail "privilege")
        list) := by
  refine .clauseTurn_of_look (.fail rfl) fun token => ?_
  cases hends : endsPrivileges token with
  | true =>
      have hpart : Grammar.privilegePart? token = none := by
        simp only [Grammar.privilegePart?, hends, if_true]
      refine .last_right (fun _ => by rw [hpart]; rfl) ?_
      rw [Parser.bind_assoc]
      refine .peek_right ?_
      dsimp only
      rw [if_pos hends, if_pos hends]
      exact (Tracks.pure _).before
  | false =>
      dsimp only
      rw [if_neg (by simp [hends])]
      cases token with
      | comma => exact .clause_right (fun _ => rfl) (.advance_next (.pure _))
      | leftParen =>
          refine .clause_right (fun _ => rfl) ?_
          simp only [group, Grammar.privilege, bind_assoc, Parser.bind_assoc, Parser.pure_bind]
          exact .expectToken_next (.bind .groupRest fun _ => .pure _)
      | word w =>
          have hpart : Grammar.privilegePart? (.word w) = some (.word w) := by
            simp only [Grammar.privilegePart?, hends]
            rfl
          exact .clause_right (fun _ => by rw [hpart]; rfl) (.advance_next (.pure _))
      | quoted name => exact .clause_right (fun _ => rfl) (.advance_next (.pure _))
      | _ =>
          refine .last_right (fun _ => rfl) ?_
          exact .fail fun _ => rfl

protected theorem privileges : Tracks tokens start privileges Grammar.privileges :=
  .clauses .privilegeTurn _

protected theorem targetTurn (target : String) :
    Tracks tokens start (targetTurn target)
      (clauseTurn (fun token _ => (Grammar.targetPart? token).map (·, 0))
        (fun part target => return target ++ part) readTargetEnd target) := by
  refine .of_before (.atEnd_left (.keywordAhead_left (.pure rfl))) fun token =>
    .atEnd_left (.keywordAhead_left ?_)
  rw [Bool.false_or]
  cases hto : token.isKeyword "TO" with
  | true =>
      have hpart : Grammar.targetPart? token = none := by
        simp only [Grammar.targetPart?, hto, if_true]
      rw [if_pos rfl]
      refine .last_right (fun _ => by rw [hpart]; rfl) (.pure fun rest => ?_)
      have hahead : (Parser.ahead "TO" : Reader Bool).run (token :: rest) =
          .ok (token.isKeyword "TO", token :: rest) := rfl
      have hend : (readTargetEnd target).run (token :: rest) = .ok (target, token :: rest) := by
        rw [hto] at hahead
        rw [readTargetEnd, Parser.run_bind (a := false) rfl, Parser.run_bind hahead]
        rfl
      rw [Parser.run_bind hend]
      rfl
  | false =>
      rw [if_neg Bool.false_ne_true]
      cases token with
      | word part =>
          have hpart : Grammar.targetPart? (.word part) = some part := by
            simp only [Grammar.targetPart?, hto]
            rfl
          exact .clause_right (fun _ => by rw [hpart]; rfl) (.take_next (.pure _))
      | quoted part => exact .clause_right (fun _ => rfl) (.take_next (.pure _))
      | dot => exact .clause_right (fun _ => rfl) (.take_next (.pure _))
      | symbol c =>
          by_cases hstar : c = '*'
          · subst hstar
            exact .clause_right (fun _ => rfl) (.take_next (.pure _))
          · have hpart : Grammar.targetPart? (.symbol c) = none := by
              rw [Grammar.targetPart?.eq_def]
              simp [hto, hstar, Grammar.nameOf?]
            refine .last_right (fun _ => by rw [hpart]; rfl) ?_
            refine .take_stepBack (g := fun _ => fail "grant target") (by simp [hstar]) ?_
            exact .fail fun _ => rfl
      | _ => exact .last_right (fun _ => rfl) (.take_stepBack rfl (.fail fun _ => rfl))

/-- The reader of targets, which looks at once whether it is finished and whether it has read
anything. -/
theorem grantTarget_eq : Grammar.grantTarget =
    Parser.clauses (fun token _ => (Grammar.targetPart? token).map (·, 0))
      (fun part target => return target ++ part) "" >>= readTargetEnd >>= fun target =>
        if target = "" then Reader.fail "grant target" else pure target := by
  rw [Grammar.grantTarget, Parser.bind_assoc]
  refine congrArg _ (funext fun target => ?_)
  rw [readTargetEnd]
  simp only [Parser.bind_assoc]
  refine congrArg _ (funext fun ended => congrArg _ (funext fun ahead => ?_))
  cases ended || ahead with
  | false => rfl
  | true =>
      rw [if_pos rfl, Parser.pure_bind, Bool.true_and]
      by_cases hempty : target = ""
      · rw [if_pos hempty, if_neg (by simpa using hempty)]
      · rw [if_neg hempty, if_pos (decide_eq_true hempty)]

protected theorem grantTarget : Tracks tokens start grantTarget Grammar.grantTarget := by
  rw [grantTarget_eq]
  exact .bind (.clauses .targetTurn "") fun target => .ite (.fail _) (.pure target)

protected theorem optionalObjectKind :
    Tracks tokens start optionalObjectKind Grammar.optionalObjectKind := by
  refine .bind (.consumeKeyword _) fun found => ?_
  cases found with
  | true => exact .pure _
  | false => exact .optionalEither _ _

protected theorem grant : Tracks tokens start grant Grammar.grant := by
  refine .bind .privileges fun privileges => ?_
  have hrest : ∀ target : Option String, Tracks tokens start
      (do
        expectKeyword "TO"
        let grantees ← listFromFirst accountName
        let withGrantOption ← consumeKeywords ["WITH", "GRANT", "OPTION"]
        return Statement.grant { privileges, target, grantees, withGrantOption })
      (do
        Reader.expectKeyword "TO"
        let grantees ← Parser.separated .comma Grammar.accountName
        let withGrantOption ← Parser.optionalKeywords ["WITH", "GRANT", "OPTION"]
        return Statement.grant { privileges, target, grantees, withGrantOption }) :=
    fun _ => .bind (.expectKeyword _) fun _ => .bind (.listFromFirst .accountName) fun _ =>
      .bind (.consumeKeywords _) fun _ => .pure _
  exact .bind (.consumeKeyword _) fun _ => .ite
    (.bind .optionalObjectKind fun _ => .bind .grantTarget fun _ => hrest _) (hrest none)

end Tracks

end Grants

end Stepper
end Sql
end SchemaLint
