import SchemaLint.Proofs.Session.History

/-!
# Accounts by user and host

An account is kept under its key, the text `user@host`.  The key names the pair of user and host
as long as neither of them holds the separator, and no longer: `a@b` at `c` and `a` at `b@c` have
one key, and so they are one account.

* `Catalog.AccountsChanged` - what a change does to accounts, by their keys.
* `Session.accountsChanged_apply` - one statement, and `accountsChanged_applyEach`, a run.
* `Session.accountsIdentified_iff` - when accounts are those of their pairs.
-/

namespace SchemaLint

open Sql

namespace NameMap

variable {α : Type}

theorem get?_modify (map : NameMap α) (name other : String) (f : α → α) :
    (map.modify name f).get? other =
      (map.get? other).map fun value => if other = name then f value else value := by
  simp only [get?, modify]
  generalize map.entries = entries
  induction entries with
  | nil => rfl
  | cons head rest ih =>
      by_cases hhead : head.1 = other
      · simp [hhead]
      · simpa [List.find?_cons, hhead] using ih

end NameMap

namespace Account

/-- Neither the user nor the host holds the separator of keys. -/
def HasPlainNames (names : String × String) : Prop :=
  '@' ∉ names.1.toList ∧ '@' ∉ names.2.toList

theorem toList_keyOf (user host : String) :
    (keyOf user host).toList = user.toList ++ '@' :: host.toList := by
  simp [keyOf]

/-- The key of plain names is that of no other pair. -/
theorem eq_of_keyOf_eq {names others : String × String} (hplain : HasPlainNames names)
    (h : keyOf names.1 names.2 = keyOf others.1 others.2) : names = others := by
  have hlist := congrArg String.toList h
  rw [toList_keyOf, toList_keyOf, List.append_cons_inj_of_notMem hplain.1 hplain.2] at hlist
  exact Prod.ext (String.toList_inj.1 hlist.1) (String.toList_inj.1 hlist.2.2)

/-- If one of the names holds the separator, the key can be taken apart there as well. -/
theorem exists_keyOf_eq {names : String × String} (h : ¬ HasPlainNames names) :
    ∃ others : String × String, others ≠ names ∧
      keyOf others.1 others.2 = keyOf names.1 names.2 := by
  obtain ⟨user, host⟩ := names
  rw [HasPlainNames, not_and_or, not_not, not_not] at h
  rcases h with huser | hhost
  · obtain ⟨before, after, hsplit⟩ := List.append_of_mem huser
    refine ⟨(String.ofList before, String.ofList after ++ "@" ++ host), ?_, ?_⟩
    · intro hsame
      have hlength := congrArg (fun names => names.1.toList.length) hsame
      simp [hsplit] at hlength
    · rw [← String.toList_inj, toList_keyOf, toList_keyOf]
      simp [hsplit]
  · obtain ⟨before, after, hsplit⟩ := List.append_of_mem hhost
    refine ⟨(user ++ "@" ++ String.ofList before, String.ofList after), ?_, ?_⟩
    · intro hsame
      have hlength := congrArg (fun names => names.2.toList.length) hsame
      simp [hsplit] at hlength
      omega
    · rw [← String.toList_inj, toList_keyOf, toList_keyOf]
      simp [hsplit]

end Account

namespace Sql

/-- The users and hosts that a statement creates accounts for. -/
def Statement.createdAccounts : Statement → List (String × String)
  | .createUser creation => creation.users.map fun spec => (spec.user, spec.host)
  | _ => []

/-- The users and hosts that a statement names, to create their accounts or to grant to them. -/
def Statement.namedAccounts : Statement → List (String × String)
  | .createUser creation => creation.users.map fun spec => (spec.user, spec.host)
  | .grant granted => granted.grantees
  | _ => []

theorem Statement.createdAccounts_subset (statement : Statement) :
    statement.createdAccounts ⊆ statement.namedAccounts := by
  cases statement with
  | createUser creation => exact fun _ hmem => hmem
  | _ => exact List.nil_subset _

end Sql

namespace Catalog

open Account (keyOf)

variable {first second third : Catalog} {user host : String}

/-- Every account is kept under its own key. -/
def AccountsKeyed (catalog : Catalog) : Prop :=
  ∀ user host account, catalog.account? user host = some account →
    account.key = keyOf user host

theorem account?_addAccount (catalog : Catalog) (account : Account) :
    (catalog.addAccount account).account? user host =
      if keyOf user host = account.key then some { account with catalogName := catalog.name }
      else catalog.account? user host := by
  by_cases hkey : keyOf user host = account.key
  · rw [if_pos hkey, account?, hkey]
    exact NameMap.get?_insert_self _ _ _
  · rw [if_neg hkey]
    exact NameMap.get?_insert_of_ne _ _ hkey

theorem account?_modifyAccount (catalog : Catalog) (otherUser otherHost : String)
    (f : Account → Account) :
    (catalog.modifyAccount otherUser otherHost f).account? user host =
      (catalog.account? user host).map fun account =>
        if keyOf user host = keyOf otherUser otherHost then f account else account :=
  NameMap.get?_modify _ _ _ f

/-- What a change that names some accounts, and creates some of them, does to the accounts. -/
structure AccountsChanged (named created : List (String × String))
    (first second : Catalog) : Prop where
  /-- Under the keys of other names all is as before. -/
  kept : ∀ user host, (∀ names ∈ named, keyOf names.1 names.2 ≠ keyOf user host) →
    second.account? user host = first.account? user host
  /-- Under the key of names that are created there is an account, and none is lost. -/
  isSome_iff : ∀ user host, (second.account? user host).isSome = true ↔
    (first.account? user host).isSome = true ∨
      ∃ names ∈ created, keyOf names.1 names.2 = keyOf user host
  keyed : first.AccountsKeyed → second.AccountsKeyed

theorem AccountsChanged.of_accounts_eq (named : List (String × String))
    (h : second.accounts = first.accounts) : AccountsChanged named [] first second := by
  have hsame : ∀ user host, second.account? user host = first.account? user host :=
    fun user host => by rw [account?, account?, h]
  refine ⟨fun user host _ => hsame user host, fun user host => by simp [hsame], ?_⟩
  intro hkeyed user host account hfound
  exact hkeyed user host account ((hsame user host).symm.trans hfound)

theorem AccountsChanged.trans {named named' created created' : List (String × String)}
    (h₁ : AccountsChanged named created first second)
    (h₂ : AccountsChanged named' created' second third) :
    AccountsChanged (named ++ named') (created ++ created') first third where
  kept := by
    intro user host hother
    rw [h₂.kept user host fun names hnames => hother names (List.mem_append_right _ hnames),
      h₁.kept user host fun names hnames => hother names (List.mem_append_left _ hnames)]
  isSome_iff := by
    intro user host
    rw [h₂.isSome_iff, h₁.isSome_iff, or_assoc]
    simp only [List.mem_append, or_and_right, exists_or]
  keyed := fun hkeyed => h₂.keyed (h₁.keyed hkeyed)

/-- Changes one after another name and create what each of them does. -/
theorem accountsChanged_foldl {α : Type} {step : Catalog → α → Catalog}
    {named created : α → List (String × String)}
    (hstep : ∀ catalog item,
      AccountsChanged (named item) (created item) catalog (step catalog item))
    (items : List α) (catalog : Catalog) :
    AccountsChanged (items.flatMap named) (items.flatMap created) catalog
      (items.foldl step catalog) := by
  induction items generalizing catalog with
  | nil => exact .of_accounts_eq [] rfl
  | cons item items ih => exact (hstep catalog item).trans (ih (step catalog item))

theorem accountsChanged_addUser (creation : UserCreation) (catalog : Catalog)
    (spec : UserSpec) :
    AccountsChanged [(spec.user, spec.host)] [(spec.user, spec.host)] catalog
      (Session.addUser creation catalog spec) := by
  unfold Session.addUser
  split
  · next hthere =>
      -- the account may be there, and it is
      have hfound : (catalog.account? spec.user spec.host).isSome = true :=
        (Bool.and_eq_true_iff.1 hthere).2
      refine ⟨fun _ _ _ => rfl, fun user host => ⟨.inl, ?_⟩, id⟩
      rintro (hsome | ⟨names, hnames, hkey⟩)
      · exact hsome
      · obtain rfl := List.mem_singleton.1 hnames
        rwa [account?, ← hkey]
  · refine ⟨fun user host hother => ?_, fun user host => ?_, fun hkeyed user host account => ?_⟩
    · rw [account?_addAccount, if_neg]
      exact fun hkey => hother _ List.mem_cons_self hkey.symm
    · rw [account?_addAccount]
      by_cases hkey : keyOf user host = keyOf spec.user spec.host
      · simp [Account.key, Session.accountOf, hkey]
      · simp [Account.key, Session.accountOf, hkey, Ne.symm hkey]
    · rw [account?_addAccount]
      split
      · next hkey =>
          rintro ⟨⟩
          exact hkey.symm
      · exact hkeyed user host account

/-- A grant leaves the names of accounts alone. -/
theorem key_foldl_grant (privileges : List String) (account : Account) :
    (privileges.foldl Account.grant account).key = account.key :=
  List.foldlRecOn (motive := fun other : Account => other.key = account.key) privileges
    Account.grant rfl fun _ hother _ _ => hother

theorem accountsChanged_modifyAccount (catalog : Catalog) (names : String × String)
    (privileges : List String) :
    AccountsChanged [names] [] catalog
      (catalog.modifyAccount names.1 names.2 fun account =>
        privileges.foldl Account.grant account) := by
  refine ⟨fun user host hother => ?_, fun user host => ?_, fun hkeyed user host account => ?_⟩
  · have hkey : keyOf user host ≠ keyOf names.1 names.2 :=
      (hother names List.mem_cons_self).symm
    rw [account?_modifyAccount]
    simp [hkey]
  · rw [account?_modifyAccount]
    simp
  · rw [account?_modifyAccount, Option.map_eq_some_iff]
    rintro ⟨old, hold, rfl⟩
    split
    · rw [key_foldl_grant, hkeyed user host old hold]
    · exact hkeyed user host old hold

end Catalog

namespace Session

open Account (keyOf)
open Catalog (AccountsChanged)

theorem accounts_addTable (catalog : Catalog) (schema : String) (table : Table) :
    (addTable catalog schema table).accounts = catalog.accounts := by
  rw [addTable, Catalog.ensureSchema_eq]
  rfl

theorem accounts_foldl_dropTable (names : List ObjectName) (session : Session) :
    (names.foldl dropTable session).catalog.accounts = session.catalog.accounts :=
  List.foldlRecOn
    (motive := fun other : Session => other.catalog.accounts = session.catalog.accounts)
    names dropTable rfl fun _ hother _ _ => hother

theorem accounts_changeTable (session : Session) (name : ObjectName)
    (change : Table → Table × Outcome) :
    (session.changeTable name change).1.catalog.accounts = session.catalog.accounts := by
  rw [catalog_changeTable]
  rfl

/-- Accounts change only by being created and by grants for all schemas. -/
theorem accounts_apply (session : Session) {statement : Statement}
    (hcreate : ∀ creation, statement ≠ .createUser creation)
    (hgrant : ∀ granted, statement = .grant granted → granted.isGlobal = false) :
    (session.apply statement).1.catalog.accounts = session.catalog.accounts := by
  cases statement with
  | createDatabase name _ =>
      change (session.catalog.ensureSchema name).accounts = session.catalog.accounts
      rw [Catalog.ensureSchema_eq]
  | createTable spec =>
      change (session.createTable spec).1.catalog.accounts = _
      rcases createTable_cases session spec with ⟨-, hdone⟩ | ⟨error, hdone⟩ |
        ⟨table, -, -, hdone⟩
      · rw [hdone]
      · rw [hdone]
      · rw [hdone]
        exact accounts_addTable session.catalog (session.schemaOf spec.name) table
  | createView name => exact accounts_addTable _ _ _
  | dropTable names _ => exact accounts_foldl_dropTable names session
  | alterTable table actions => exact accounts_changeTable session table _
  | createIndex table key => exact accounts_changeTable session table _
  | createUser creation => exact absurd rfl (hcreate creation)
  | grant granted => simp [apply, grantPrivileges, hgrant granted rfl]
  | _ => rfl

/-- What a statement does to accounts, whether it succeeds or fails. -/
theorem accountsChanged_apply (session : Session) (statement : Statement) :
    AccountsChanged statement.namedAccounts statement.createdAccounts session.catalog
      (session.apply statement).1.catalog := by
  cases statement with
  | createUser creation =>
      have hchanged := Catalog.accountsChanged_foldl
        (Catalog.accountsChanged_addUser creation) creation.users session.catalog
      rw [← List.map_eq_flatMap] at hchanged
      exact hchanged
  | grant granted =>
      simp only [apply, grantPrivileges]
      split
      · have hchanged := Catalog.accountsChanged_foldl
          (fun catalog names =>
            Catalog.accountsChanged_modifyAccount catalog names (grantedPrivileges granted))
          granted.grantees session.catalog
        have hnone : granted.grantees.flatMap (fun _ => ([] : List (String × String))) = [] := by
          simp
        rw [List.flatMap_singleton', hnone] at hchanged
        exact hchanged
      · exact .of_accounts_eq _ rfl
  | _ => exact .of_accounts_eq [] (accounts_apply session (by simp) (by simp))

/-- What a run does to accounts. -/
theorem accountsChanged_applyEach (statements : List Statement) (session : Session) :
    AccountsChanged (statements.flatMap Statement.namedAccounts)
      (statements.flatMap Statement.createdAccounts) session.catalog
      (session.applyEach statements).catalog := by
  induction statements generalizing session with
  | nil => exact .of_accounts_eq [] rfl
  | cons statement statements ih =>
      exact (accountsChanged_apply session statement).trans (ih (session.apply statement).1)

section Runs

variable {session : Session} {statements : List Statement} {user host : String}

/-- By keys, the accounts after a run are those that it creates. -/
theorem isSome_account?_applyEach (hempty : session.catalog.accounts = .empty) :
    ((session.applyEach statements).catalog.account? user host).isSome = true ↔
      ∃ statement ∈ statements, ∃ names ∈ statement.createdAccounts,
        keyOf names.1 names.2 = keyOf user host := by
  have hnone : session.catalog.account? user host = none := by
    rw [Catalog.account?, hempty]
    rfl
  rw [(accountsChanged_applyEach statements session).isSome_iff, hnone]
  constructor
  · rintro (hsome | ⟨names, hnames, hkey⟩)
    · cases hsome
    · obtain ⟨statement, hstatement, hnames⟩ := List.mem_flatMap.1 hnames
      exact ⟨statement, hstatement, names, hnames, hkey⟩
  · rintro ⟨statement, hstatement, names, hnames, hkey⟩
    exact .inr ⟨names, List.mem_flatMap.2 ⟨statement, hstatement, hnames⟩, hkey⟩

/-- The names of all accounts that statements create are plain. -/
def CreatePlainNames (statements : List Statement) : Prop :=
  ∀ statement ∈ statements, ∀ names ∈ statement.createdAccounts, Account.HasPlainNames names

/-- If the names that a run creates are plain, an account is found only for names that it
creates. -/
theorem exists_creator (hempty : session.catalog.accounts = .empty)
    (hplain : CreatePlainNames statements)
    (hsome : ((session.applyEach statements).catalog.account? user host).isSome = true) :
    ∃ statement ∈ statements, (user, host) ∈ statement.createdAccounts := by
  obtain ⟨statement, hstatement, names, hnames, hkey⟩ :=
    (isSome_account?_applyEach hempty).1 hsome
  have hsame : names = (user, host) :=
    Account.eq_of_keyOf_eq (hplain statement hstatement names hnames) hkey
  exact ⟨statement, hstatement, hsame ▸ hnames⟩

/-- Such a run finds the account of the user and host that are asked for. -/
theorem names_of_account? (hempty : session.catalog.accounts = .empty)
    (hplain : CreatePlainNames statements) {account : Account}
    (hfound : (session.applyEach statements).catalog.account? user host = some account) :
    account.user = user ∧ account.host = host := by
  have hstart : session.catalog.AccountsKeyed := fun user host account hfound => by
    rw [Catalog.account?, hempty] at hfound
    cases hfound
  have hkey := (accountsChanged_applyEach statements session).keyed hstart user host account hfound
  obtain ⟨statement, hstatement, hnames⟩ :=
    exists_creator hempty hplain (Option.isSome_of_eq_some hfound)
  have hsame : (user, host) = (account.user, account.host) :=
    Account.eq_of_keyOf_eq (hplain statement hstatement _ hnames) hkey.symm
  exact ⟨(congrArg Prod.fst hsame).symm, (congrArg Prod.snd hsame).symm⟩

/-- In such a run a statement leaves the accounts of names that it does not name alone. -/
theorem account?_concat_of_unnamed (hempty : session.catalog.accounts = .empty)
    {statement : Statement} (hplain : CreatePlainNames (statements ++ [statement]))
    (hunnamed : (user, host) ∉ statement.namedAccounts) :
    (session.applyEach (statements ++ [statement])).catalog.account? user host =
      (session.applyEach statements).catalog.account? user host := by
  have hearlier : CreatePlainNames statements := fun creator hcreator =>
    hplain creator (List.mem_append_left _ hcreator)
  cases hbefore : (session.applyEach statements).catalog.account? user host with
  | some account =>
      -- these names have been created, so no others have their key
      obtain ⟨creator, hcreator, hnames⟩ :=
        exists_creator hempty hearlier (Option.isSome_of_eq_some hbefore)
      have hkept := (accountsChanged_apply (session.applyEach statements) statement).kept user host
      rw [applyEach_append, ← hbefore]
      refine hkept fun names hnamed hkey => ?_
      have hsame := Account.eq_of_keyOf_eq (hearlier creator hcreator _ hnames) hkey.symm
      exact hunnamed (hsame ▸ hnamed)
  | none =>
      rw [← Option.not_isSome_iff_eq_none]
      intro hsome
      obtain ⟨creator, hcreator, hnames⟩ := exists_creator hempty hplain hsome
      rcases List.mem_append.1 hcreator with hcreator | hcreator
      · have hthere := (isSome_account?_applyEach hempty).2 ⟨creator, hcreator, _, hnames, rfl⟩
        rw [hbefore] at hthere
        cases hthere
      · obtain rfl := List.mem_singleton.1 hcreator
        exact hunnamed (creator.createdAccounts_subset hnames)

end Runs

/-- Accounts are those of their users and hosts at the end of a run, and each statement leaves the
accounts of others alone. -/
structure AccountsIdentified (session : Session) (statements : List Statement) : Prop where
  /-- The account that is found has the user and the host that are asked for. -/
  own : ∀ user host account,
    (session.applyEach statements).catalog.account? user host = some account →
      account.user = user ∧ account.host = host
  /-- There is one exactly if a statement of the run creates it. -/
  created_iff : ∀ user host,
    ((session.applyEach statements).catalog.account? user host).isSome = true ↔
      ∃ statement ∈ statements, (user, host) ∈ statement.createdAccounts
  /-- A statement that does not name a user and host leaves their account alone. -/
  untouched : ∀ earlier statement later, statements = earlier ++ statement :: later →
    ∀ user host, (user, host) ∉ statement.namedAccounts →
      (session.applyEach (earlier ++ [statement])).catalog.account? user host =
        (session.applyEach earlier).catalog.account? user host

/-- In a run that starts without accounts, accounts are those of their users and hosts exactly if
no statement creates an account with the separator of keys in its user or host. -/
theorem accountsIdentified_iff (catalog : Catalog) (statements : List Statement) :
    (start { catalog with accounts := .empty }).AccountsIdentified statements ↔
      CreatePlainNames statements := by
  have hempty : (start { catalog with accounts := .empty }).catalog.accounts = .empty := rfl
  generalize start { catalog with accounts := .empty } = session at hempty
  constructor
  · intro h statement hstatement names hnames
    by_contra hplain
    obtain ⟨others, hne, hkey⟩ := Account.exists_keyOf_eq hplain
    obtain ⟨account, hfound⟩ := Option.isSome_iff_exists.1
      ((h.created_iff names.1 names.2).2 ⟨statement, hstatement, hnames⟩)
    -- the account of these names is found for the others as well
    have hother : (session.applyEach statements).catalog.account? others.1 others.2 =
        some account := by
      rw [← hfound, Catalog.account?, Catalog.account?, hkey]
    obtain ⟨huser, hhost⟩ := h.own _ _ _ hfound
    obtain ⟨huser', hhost'⟩ := h.own _ _ _ hother
    exact hne (Prod.ext (huser'.symm.trans huser) (hhost'.symm.trans hhost))
  · intro hplain
    constructor
    case own => exact fun user host account hfound => names_of_account? hempty hplain hfound
    case created_iff =>
      refine fun user host => ⟨exists_creator hempty hplain, ?_⟩
      rintro ⟨statement, hstatement, hnames⟩
      exact (isSome_account?_applyEach hempty).2 ⟨statement, hstatement, _, hnames, rfl⟩
    case untouched =>
      rintro earlier statement later rfl user host hunnamed
      have hpart : earlier ++ [statement] ⊆ earlier ++ statement :: later := by simp
      exact account?_concat_of_unnamed hempty
        (fun creator hcreator => hplain creator (hpart hcreator)) hunnamed

/-- A grant to `a` at `b@c` goes to the account of `a@b` at `c`. -/
theorem not_accountsIdentified_of_separator :
    ¬ (start { name := "d" }).AccountsIdentified [
        .createUser { users := [{ user := "a@b", host := "c" }] },
        .grant {
          privileges := ["SUPER"], target := some "*.*", grantees := [("a", "b@c")] }] := by
  intro h
  have hkept := h.untouched [.createUser { users := [{ user := "a@b", host := "c" }] }]
    (.grant { privileges := ["SUPER"], target := some "*.*", grantees := [("a", "b@c")] }) []
    rfl "a@b" "c" (by decide)
  revert hkept
  decide +kernel

end Session
end SchemaLint
