import SchemaLint.Rule.Basic

/-!
# Rules about accounts

Accounts with too much power or without a password.
-/

namespace SchemaLint
namespace Rule

/-- Accounts of the server itself, which hold every privilege. -/
def reservedAccounts : List (String × String) := [
  ("root", "localhost"),
  ("mysql.session", "localhost"),
  ("mysql.sys", "localhost"),
  ("mysql.infoschema", "localhost")]

/-- Whether an account is one of the server itself. -/
def isReserved (account : Account) : Bool :=
  reservedAccounts.any fun entry =>
    account.user == entry.1 && Text.sameLetters account.host entry.2

/-- A concern for every other account with the privilege to do anything. -/
def superPrivilege : Rule :=
  onAccount "super_privilege" (·.hasPrivilege "SUPER") fun account =>
    .ok (some (if isReserved account then {}
      else .saying .concern ("Account " ++ account.key ++ " has the SUPER privilege")))

/-- Hosts from which only local connections come. -/
def localHosts : List String := ["localhost", "127.0.0.1"]

/-- Plugins that take the word of the operating system. -/
def socketPlugins : List String := ["auth_socket", "unix_socket"]

/-- Whether an account does not need a password. -/
def needsNoPassword (account : Account) : Bool :=
  account.locked || account.plugin.any fun plugin => socketPlugins.any (Text.sameLetters plugin)

/-- A warning for local accounts without a password; remote ones are critical. -/
def passwordlessAccount : Rule :=
  onAccount "passwordless_account" (fun _ => true) fun account =>
    let saying (severity : Severity) (reach : String) : Verdict :=
      .saying severity ("Account " ++ account.key ++ " has no password and can connect " ++ reach)
    .ok (some (
      if account.hasPassword || needsNoPassword account then {}
      else if localHosts.any (Text.sameLetters account.host) then saying .warning "locally"
      else saying .critical "remotely"))

end Rule
end SchemaLint
