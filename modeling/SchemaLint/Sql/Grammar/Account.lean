import SchemaLint.Sql.Grammar.Name

/-!
# Accounts in statements

New accounts with their passwords and options, and grants of privileges.
-/

namespace SchemaLint
namespace Sql
namespace Grammar

open SchemaLint.Parser Reader

/-- A password: a literal, the hash of one, or one that the server chooses. -/
def password : Reader String := do
  if ← optionalKeywords ["RANDOM", "PASSWORD"] then
    return "<random>"
  else
    let _ ← optionalKeyword "PASSWORD"
    text

/-- The authentication of an account, after its first keyword. -/
def authentication (user : UserSpec) : Reader UserSpec := do
  let mut plugin : Option String := none
  if ← optionalKeyword "WITH" then
    plugin := some (← nameOrText)
  if ← optionalKeyword "BY" then
    return { user with plugin, password := some (← password) }
  else if ← optionalKeyword "AS" then
    return { user with plugin, password := some (← text) }
  else
    return { user with plugin }

/-- An account to be created. -/
def userSpec : Reader UserSpec := do
  let (user, host) ← accountName
  if ← optionalKeyword "IDENTIFIED" then
    authentication { user, host }
  else
    return { user, host }

/-- An option that holds for all accounts of a statement. -/
inductive UserOption where
  | lock
  | unlock
  | expire
  | other

/-- The options that matter. -/
def userOptions : List (String × List String × UserOption) := [
  ("ACCOUNT", ["LOCK"], .lock),
  ("ACCOUNT", ["UNLOCK"], .unlock),
  ("PASSWORD", ["EXPIRE"], .expire)]

/-- The option that a token and those after it are; any other token is passed over. -/
def userOptionHead (token : Token) (rest : List Token) : Option (UserOption × Nat) :=
  some ((keywordHead userOptions token rest).getD (.other, 0))

/-- Whether passwords expire at once; an interval may follow, or a word against it. -/
def expiresAtOnce : Reader Bool := do
  if ← optionalKeyword "INTERVAL" then
    let _ ← next
    let _ ← optionalKeyword "DAY"
    return false
  else if ← optionalKeyword "NEVER" then
    return false
  else if ← optionalKeyword "DEFAULT" then
    return false
  else
    return true

/-- The rest of an option, added to the creation. -/
def userOption (option : UserOption) (creation : UserCreation) : Reader UserCreation := do
  match option with
  | .lock => return { creation with accountLock := some true }
  | .unlock => return { creation with accountLock := some false }
  | .expire =>
      let atOnce ← expiresAtOnce
      return { creation with passwordExpire := creation.passwordExpire || atOnce }
  | .other => return creation

/-- New accounts, after the keywords. -/
def createUser (ifNotExists : Bool) : Reader Statement := do
  let users ← separated .comma userSpec
  let creation ← clauses userOptionHead userOption { ifNotExists, users }
  return .createUser creation

/-- The privileges read so far, and the words of the one that is being read. -/
structure PrivilegeList where
  privileges : List String := []
  words : List String := []

namespace PrivilegeList

/-- The list with the privilege that is being read. -/
def close (list : PrivilegeList) : PrivilegeList :=
  { privileges := list.privileges ++ [Text.join " " list.words] }

/-- All privileges of the list. -/
def all (list : PrivilegeList) : List String :=
  if list.words.isEmpty then list.privileges else list.close.privileges

end PrivilegeList

/-- A part of a list of privileges. -/
inductive PrivilegePart where
  | separator
  | columns
  | word (text : String)

/-- The keywords that end a list of privileges. -/
def endsPrivileges (token : Token) : Bool :=
  token.isKeyword "ON" || token.isKeyword "TO"

/-- The part that a token begins. -/
def privilegePart? (token : Token) : Option PrivilegePart :=
  if endsPrivileges token then
    none
  else
    match token with
    | .comma => some .separator
    | .leftParen => some .columns
    | token => (nameOf? token).map .word

/-- The rest of a part of a list of privileges; the columns that a privilege is for are passed
over. -/
def privilege (part : PrivilegePart) (list : PrivilegeList) : Reader PrivilegeList := do
  match part with
  | .separator => return list.close
  | .columns =>
      let _ ← groupRest
      return list
  | .word text => return { list with words := list.words ++ [Text.upper text] }

/-- A list of privileges in capitals, which ends before a keyword. -/
def privileges : Reader (List String) := do
  let list ← clauses (fun token _ => (privilegePart? token).map (·, 0)) privilege {}
  match ← peek with
  | none => fail "ON or TO"
  | some token => if endsPrivileges token then return list.all else fail "privilege"

/-- The text of a part of a target. -/
def targetPart? (token : Token) : Option String :=
  if token.isKeyword "TO" then
    none
  else
    match token with
    | .symbol '*' => some "*"
    | .dot => some "."
    | token => nameOf? token

/-- The target of a grant, its parts written without spaces. -/
def grantTarget : Reader String := do
  let target ← clauses (fun token _ => (targetPart? token).map (·, 0))
    (fun part target => return target ++ part) ""
  let finished := (← atEnd) || (← ahead "TO")
  if finished && target ≠ "" then
    return target
  else
    fail "grant target"

/-- A keyword for the kind of object that a grant is on. -/
def optionalObjectKind : Reader Unit := do
  unless ← optionalKeyword "TABLE" do
    optionalEither "FUNCTION" "PROCEDURE"

/-- A grant, after its first keyword. -/
def grant : Reader Statement := do
  let privileges ← privileges
  let mut target : Option String := none
  if ← optionalKeyword "ON" then
    optionalObjectKind
    target := some (← grantTarget)
  expectKeyword "TO"
  let grantees ← separated .comma accountName
  let withGrantOption ← optionalKeywords ["WITH", "GRANT", "OPTION"]
  return .grant { privileges, target, grantees, withGrantOption }

end Grammar
end Sql
end SchemaLint
