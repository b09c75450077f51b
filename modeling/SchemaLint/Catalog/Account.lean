import SchemaLint.NameMap
import SchemaLint.Text.Basic

/-!
# Accounts

An account is a user and a host, with the global privileges that were granted to it.
-/

namespace SchemaLint

/-- An account.  The name of its catalog is repeated in it. -/
structure Account where
  user : String
  host : String
  catalogName : String := ""
  /-- Global privileges in capitals. -/
  privileges : NameSet := NameMap.empty
  hasPassword : Bool := false
  plugin : Option String := none
  locked : Bool := false
  passwordExpired : Bool := false
  maxConnections : UInt64 := 0
  currentConnections : UInt64 := 0
  totalConnections : UInt64 := 0
deriving DecidableEq

namespace Account

/-- The privilege that implies every other. -/
def allPrivileges : String := "ALL PRIVILEGES"

/-- The text by which a user at a host is known. -/
def keyOf (user host : String) : String :=
  user ++ "@" ++ host

/-- The text by which an account is known. -/
def key (account : Account) : String :=
  keyOf account.user account.host

/-- The account with one more privilege. -/
def grant (account : Account) (privilege : String) : Account :=
  let privilege := Text.upper (Text.trim privilege)
  { account with
    privileges := NameSet.add account.privileges
      (if privilege = "ALL" then allPrivileges else privilege) }

/-- Whether the account holds a privilege, by itself or through all privileges. -/
def hasPrivilege (account : Account) (privilege : String) : Bool :=
  account.privileges.contains allPrivileges ||
    account.privileges.contains (Text.upper (Text.trim privilege))

end Account
end SchemaLint
