import SchemaLint.Proofs.Catalog.Frame
import SchemaLint.Proofs.Session.Accounts
import SchemaLint.Proofs.Session.Failure

/-!
# Statements touch only what they name

A statement leaves the tables that it does not name as they are and in their order, and so it does
with the rest of the catalog.  Alterations of different tables can change places.

Accounts are an exception: the key of an account does not tell where the user ends, so a statement
about one user and host can change the account of others.

* `Session.filter_tables_apply` - the tables that are not named.
* `Session.changeTable_comm` - two changes of different tables.
* `Session.touchesOnlyNamed_iff` - which statements touch nothing else in any session.
-/

namespace SchemaLint

open Account (keyOf)

theorem NameMap.isEmpty_insert {α : Type} (map : NameMap α) (name : String) (value : α) :
    (map.insert name value).isEmpty = false := by
  have hfound := map.get?_insert_self name value
  rw [NameMap.isEmpty, List.isEmpty_eq_false_iff]
  intro hempty
  simp [NameMap.get?, hempty] at hfound

namespace Sql

/-- The names of tables and views in a statement. -/
def Statement.objects : Statement → List ObjectName
  | .createTable spec => [spec.name]
  | .createView name => [name]
  | .dropTable names _ => names
  | .alterTable table _ => [table]
  | .createIndex table _ => [table]
  | _ => []

/-- The schema that a statement drops. -/
def Statement.droppedSchema? : Statement → Option String
  | .dropDatabase name _ => some name
  | _ => none

/-- The table that a statement alters. -/
def Statement.altered? : Statement → Option ObjectName
  | .alterTable table _ => some table
  | .createIndex table _ => some table
  | _ => none

/-- The users and hosts that a statement creates accounts for, or grants some privilege for all
schemas. -/
def Statement.changedAccounts : Statement → List (String × String)
  | .createUser creation => creation.users.map fun spec => (spec.user, spec.host)
  | .grant granted =>
      if granted.isGlobal && !(Session.grantedPrivileges granted).isEmpty then granted.grantees
      else []
  | _ => []

/-- Whoever has the key of one of these users and hosts is one of them too. -/
def Statement.ChangesByName (statement : Statement) : Prop :=
  ∀ names ∈ statement.changedAccounts, ∀ others : String × String,
    keyOf others.1 others.2 = keyOf names.1 names.2 → others ∈ statement.changedAccounts

/-- So it is if the names are plain. -/
theorem Statement.changesByName_of_plain {statement : Statement}
    (h : ∀ names ∈ statement.changedAccounts, Account.HasPlainNames names) :
    statement.ChangesByName := by
  intro names hnames others hkey
  rwa [← Account.eq_of_keyOf_eq (h names hnames) hkey.symm]

end Sql

open Sql

namespace Session

/-- Whether a table is none of those that a statement names, and in no schema that it drops. -/
def spares (session : Session) (statement : Statement) (table : Table) : Bool :=
  !statement.objects.any (session.addresses table.schemaName table.name) &&
    statement.droppedSchema? != some table.schemaName

section Tables

variable {session : Session} {statement : Statement} {object : ObjectName}

/-- A table that is addressed by a name of the statement is not spared. -/
theorem spares_eq_false (hobject : object ∈ statement.objects) {table : Table}
    (hschema : table.schemaName = session.schemaOf object) (hname : table.name = object.name) :
    session.spares statement table = false := by
  have haddresses : session.addresses table.schemaName table.name object = true :=
    addresses_iff.2 ⟨hschema.symm, hname.symm⟩
  have hany : statement.objects.any (session.addresses table.schemaName table.name) = true :=
    List.any_eq_true.2 ⟨object, hobject, haddresses⟩
  rw [spares, hany]
  rfl

/-- Whether a table is spared depends on its names only. -/
theorem spares_congr {table other : Table} (h : table.SameHeading other) :
    session.spares statement other = session.spares statement table := by
  rw [spares, spares, h.name_eq, h.schemaName_eq]

theorem filter_tables_addNamed (hobject : object ∈ statement.objects) {table : Table}
    (hname : table.name = object.name) :
    (addTable session.catalog (session.schemaOf object) table).tables.filter
        (session.spares statement) =
      session.catalog.tables.filter (session.spares statement) :=
  Catalog.filter_tables_addTable fun _ howner => spares_eq_false hobject howner hname

theorem filter_tables_changeNamed (harranged : session.catalog.Arranged)
    (hobject : object ∈ statement.objects) {change : Table → Table × Outcome}
    (hchange : ∀ table : Table, table.SameHeading (change table).1) :
    (session.changeTable object change).1.catalog.tables.filter (session.spares statement) =
      session.catalog.tables.filter (session.spares statement) := by
  rw [catalog_changeTable]
  exact Catalog.filter_tables_modifyTable harranged (fun table => spares_congr (hchange table))
    fun _ hschema hname => spares_eq_false hobject hschema hname

theorem filter_tables_dropNamed {names : List ObjectName}
    (hnames : names ⊆ statement.objects) {dropped : Session} (harranged : dropped.catalog.Arranged)
    (hschema : dropped.schema = session.schema) :
    (names.foldl dropTable dropped).catalog.tables.filter (session.spares statement) =
      dropped.catalog.tables.filter (session.spares statement) := by
  induction names generalizing dropped with
  | nil => rfl
  | cons object names ih =>
      obtain ⟨hobject, hrest⟩ := List.cons_subset.1 hnames
      have howner : dropped.schemaOf object = session.schemaOf object := by
        rw [schemaOf, schemaOf, hschema]
      rw [List.foldl_cons, ih hrest (arranged_dropTable harranged object) hschema]
      exact Catalog.filter_tables_removeTable harranged fun _ hschema hname =>
        spares_eq_false hobject (hschema.trans howner) hname

/-- The tables that a statement does not name are as before and in their order, whether the
statement succeeds or fails. -/
theorem filter_tables_apply (harranged : session.catalog.Arranged) (statement : Statement) :
    (session.apply statement).1.catalog.tables.filter (session.spares statement) =
      session.catalog.tables.filter (session.spares statement) := by
  cases statement with
  | createDatabase name _ =>
      change (session.catalog.ensureSchema name).tables.filter _ = _
      rw [Catalog.tables_ensureSchema]
  | dropDatabase name _ =>
      refine Catalog.filter_tables_removeSchema harranged fun table htable => ?_
      simp [spares, Statement.droppedSchema?, htable]
  | createTable spec =>
      change (session.createTable spec).1.catalog.tables.filter _ = _
      rcases createTable_cases session spec with ⟨-, hdone⟩ | ⟨error, hdone⟩ |
        ⟨table, -, hbuilt, hdone⟩
      · rw [hdone]
      · rw [hdone]
      · rw [hdone]
        exact filter_tables_addNamed List.mem_cons_self (Definition.table_heading hbuilt).1
  | createView name =>
      exact filter_tables_addNamed (List.mem_singleton_self name) rfl
  | dropTable names _ => exact filter_tables_dropNamed (List.Subset.refl names) harranged rfl
  | alterTable object actions =>
      exact filter_tables_changeNamed harranged List.mem_cons_self
        (runAll_alter_heading session.line object actions)
  | createIndex object key =>
      exact filter_tables_changeNamed harranged List.mem_cons_self fun table =>
        alter_heading session.line object table (.addKey key)
  | createUser creation =>
      rw [Catalog.tables, Catalog.tables, apply, schemas_createUser]
  | grant granted =>
      rw [Catalog.tables, Catalog.tables, apply, schemas_grantPrivileges]
  | _ => rfl

end Tables

section Changes

/-- A change of a table leaves a session whose catalog is edited, and fails if there is no such
table. -/
theorem changeTable_eq (session : Session) (object : ObjectName)
    (change : Table → Table × Outcome) :
    session.changeTable object change =
      (session.withCatalog (session.catalog.modifyTable (session.schemaOf object) object.name
          fun table => (change table).1),
        match session.catalog.table? (session.schemaOf object) object.name with
        | none => .error (.missingTable (session.schemaOf object ++ "." ++ object.name))
        | some table => (change table).2) := by
  refine Prod.ext ?_ ?_
  · rw [← catalog_changeTable]
    simp only [changeTable]
    split <;> rfl
  · cases hfound : session.catalog.table? (session.schemaOf object) object.name with
    | none => rw [changeTable_of_missing hfound]
    | some table => rw [changeTable_of_found hfound]

/-- Changes of different tables can change places, and each ends as it would without the other. -/
theorem changeTable_comm (session : Session) {object other : ObjectName}
    (hne : (session.schemaOf object, object.name) ≠ (session.schemaOf other, other.name))
    {first second : Table → Table × Outcome} (hfirst : ∀ table, (first table).1.name = table.name)
    (hsecond : ∀ table, (second table).1.name = table.name) :
    ((session.changeTable object first).1.changeTable other second).1 =
        ((session.changeTable other second).1.changeTable object first).1 ∧
      ((session.changeTable object first).1.changeTable other second).2 =
        (session.changeTable other second).2 := by
  have hschema : ∀ name, (session.changeTable object first).1.schemaOf name =
      session.schemaOf name := fun name => by
    rw [schemaOf, schemaOf, schema_changeTable]
  constructor
  · simp only [changeTable_eq]
    exact congrArg session.withCatalog
      (session.catalog.modifyTable_comm hne hfirst hsecond)
  · -- the second change finds the table that it would find without the first
    have hother : session.addresses (session.schemaOf other) other.name object = false := by
      rw [Bool.eq_false_iff]
      intro haddresses
      obtain ⟨howner, hname⟩ := addresses_iff.1 haddresses
      exact hne (by rw [howner, hname])
    have hfound : (session.changeTable object first).1.catalog.table? (session.schemaOf other)
        other.name = _ := table?_changeTable session object hfirst
    simp only [hother, Bool.false_eq_true, if_false, Option.map_id'] at hfound
    rw [changeTable_eq, changeTable_eq session other, hschema, hfound]

/-- An alteration is a change of the table that it names, which depends on the line of the
statement only and does not rename the table. -/
theorem exists_change {statement : Statement} {object : ObjectName}
    (h : statement.altered? = some object) :
    ∃ change : Nat → Table → Table × Outcome,
      (∀ session : Session, session.apply statement =
        session.changeTable object (change session.line)) ∧
      ∀ line table, (change line table).1.name = table.name := by
  cases statement with
  | alterTable table actions =>
      cases h
      exact ⟨fun line table => Outcome.runAll (alter line object) table actions, fun _ => rfl,
        fun line table => (runAll_alter_heading line object actions table).name_eq⟩
  | createIndex table key =>
      cases h
      exact ⟨fun line table => alter line object table (.addKey key), fun _ => rfl,
        fun line table => (alter_heading line object table (.addKey key)).name_eq⟩
  | _ => cases h

end Changes

section Accounts

variable {session : Session} {statement : Statement} {key : String}

/-- A grant leaves at least one privilege in the account. -/
theorem privileges_ne_empty_of_grant (privilege : String) :
    ∀ (privileges : List String) (account : Account),
      ((privilege :: privileges).foldl Account.grant account).privileges.isEmpty = false := by
  have hgrant : ∀ (account : Account) (privilege : String),
      (account.grant privilege).privileges.isEmpty = false := fun account privilege =>
    NameMap.isEmpty_insert account.privileges _ ()
  intro privileges account
  exact List.foldlRecOn (motive := fun account : Account => account.privileges.isEmpty = false)
    privileges Account.grant (hgrant account privilege) fun account _ privilege _ =>
      hgrant account privilege

/-- Under the keys of other users and hosts all is as before. -/
theorem get?_accounts_apply (session : Session)
    (h : ∀ names ∈ statement.changedAccounts, keyOf names.1 names.2 ≠ key) :
    (session.apply statement).1.catalog.accounts.get? key =
      session.catalog.accounts.get? key := by
  cases statement with
  | createUser creation =>
      refine List.foldlRecOn
        (motive := fun catalog : Catalog =>
          catalog.accounts.get? key = session.catalog.accounts.get? key)
        creation.users (addUser creation) rfl fun catalog hcatalog spec hspec => ?_
      rw [← hcatalog, addUser]
      split
      · rfl
      · exact NameMap.get?_insert_of_ne _ _
          (h (spec.user, spec.host) (List.mem_map.2 ⟨spec, hspec, rfl⟩)).symm
  | grant granted =>
      simp only [apply, grantPrivileges]
      split
      · next hglobal =>
          refine List.foldlRecOn
            (motive := fun catalog : Catalog =>
              catalog.accounts.get? key = session.catalog.accounts.get? key)
            granted.grantees _ rfl fun catalog hcatalog names hnames => ?_
          refine (NameMap.get?_modify _ _ _ _).trans ?_
          cases hprivileges : grantedPrivileges granted with
          | nil => simpa using hcatalog
          | cons privilege privileges =>
              have hchanged : names ∈ Statement.changedAccounts (.grant granted) := by
                simpa [Statement.changedAccounts, hglobal, hprivileges] using hnames
              simpa [(h names hchanged).symm] using hcatalog
      · rfl
  | _ => rw [accounts_apply session (by simp) (by simp)]

/-- A grant of some privilege reaches every account that it names. -/
theorem exists_granted {granted : Grant} {names : String × String}
    (hnames : names ∈ granted.grantees) (hprivileges : grantedPrivileges granted ≠ [])
    (hglobal : granted.isGlobal = true)
    (hsome : (session.catalog.account? names.1 names.2).isSome = true) :
    ∃ account, (session.apply (.grant granted)).1.catalog.account? names.1 names.2 =
      some account ∧ account.privileges.isEmpty = false := by
  obtain ⟨privilege, privileges, hlist⟩ := List.exists_cons_of_ne_nil hprivileges
  have hstep := fun (catalog : Catalog) (grantee : String × String) =>
    @Catalog.account?_modifyAccount names.1 names.2 catalog grantee.1 grantee.2
      fun account => (grantedPrivileges granted).foldl Account.grant account
  obtain ⟨above, below, hgrantees⟩ := List.append_of_mem hnames
  simp only [apply, grantPrivileges, hglobal, if_true, withCatalog]
  rw [hgrantees, List.foldl_append, List.foldl_cons]
  -- the account is there until its turn comes
  have hbefore : ((above.foldl (fun catalog grantee => catalog.modifyAccount grantee.1 grantee.2
      fun account => (grantedPrivileges granted).foldl Account.grant account)
        session.catalog).account? names.1 names.2).isSome = true := by
    refine List.foldlRecOn
      (motive := fun catalog : Catalog => (catalog.account? names.1 names.2).isSome = true)
      above _ hsome fun catalog hcatalog grantee _ => ?_
    rwa [hstep, Option.isSome_map]
  -- and has a privilege from then on
  refine List.foldlRecOn
    (motive := fun catalog : Catalog => ∃ account,
      catalog.account? names.1 names.2 = some account ∧ account.privileges.isEmpty = false)
    below _ ?_ fun catalog hcatalog grantee _ => ?_
  · obtain ⟨account, haccount⟩ := Option.isSome_iff_exists.1 hbefore
    refine ⟨(grantedPrivileges granted).foldl Account.grant account, ?_, ?_⟩
    · rw [hstep, haccount]
      simp
    · rw [hlist]
      exact privileges_ne_empty_of_grant privilege privileges account
  · obtain ⟨account, haccount, hheld⟩ := hcatalog
    rw [hstep, haccount, Option.map_some]
    refine ⟨_, rfl, ?_⟩
    split
    · rw [hlist]
      exact privileges_ne_empty_of_grant privilege privileges account
    · exact hheld

/-- The accounts that a statement is said to change do change in some session. -/
theorem exists_changed {names : String × String} (h : names ∈ statement.changedAccounts) :
    ∃ session : Session, session.catalog.WellFormed ∧
      (session.apply statement).1.catalog.account? names.1 names.2 ≠
        session.catalog.account? names.1 names.2 := by
  cases statement with
  | createUser creation =>
      -- the account is new where there are none
      refine ⟨start {}, Catalog.wellFormed_of_schemas_eq_nil rfl, fun hkept => ?_⟩
      have hnew := ((accountsChanged_apply (start {}) (.createUser creation)).isSome_iff
        names.1 names.2).2 (.inr ⟨names, h, rfl⟩)
      rw [hkept] at hnew
      cases hnew
  | grant granted =>
      -- the account has privileges where it had none
      have hgranted : (granted.isGlobal = true ∧ grantedPrivileges granted ≠ []) ∧
          names ∈ granted.grantees := by
        simpa [Statement.changedAccounts] using h
      obtain ⟨⟨hglobal, hprivileges⟩, hgrantee⟩ := hgranted
      let account : Account := { user := names.1, host := names.2 }
      let session := start (({} : Catalog).addAccount account)
      have hfound : session.catalog.account? names.1 names.2 = some account :=
        (({} : Catalog).account?_addAccount account).trans (if_pos rfl)
      have hsome : (session.catalog.account? names.1 names.2).isSome = true := by
        rw [hfound]
        rfl
      obtain ⟨after, hafter, hheld⟩ := exists_granted hgrantee hprivileges hglobal hsome
      refine ⟨session, Catalog.wellFormed_of_schemas_eq_nil rfl, fun hkept => ?_⟩
      rw [hafter, hfound] at hkept
      cases hkept
      cases hheld
  | _ => cases h

end Accounts

/-- Two statements leave the same session in either order, and each ends as it would alone. -/
def Commute (session : Session) (first second : Statement) : Prop :=
  ((session.apply first).1.apply second).1 = ((session.apply second).1.apply first).1 ∧
    ((session.apply first).1.apply second).2 = (session.apply second).2 ∧
    ((session.apply second).1.apply first).2 = (session.apply first).2

/-- A statement touches only what it names. -/
structure TouchesOnlyNamed (session : Session) (statement : Statement) : Prop where
  /-- The tables that it does not name, and whose schema it does not drop, are as before and in
  their order. -/
  tables : (session.apply statement).1.catalog.tables.filter (session.spares statement) =
    session.catalog.tables.filter (session.spares statement)
  name : (session.apply statement).1.catalog.name = session.catalog.name
  sessionVariables : (session.apply statement).1.catalog.sessionVariables =
    session.catalog.sessionVariables
  queries : (session.apply statement).1.catalog.queries = session.catalog.queries
  /-- Accounts change only by being created and by grants for all schemas, and only those of users
  and hosts that the statement names. -/
  accounts : ∀ user host, (user, host) ∉ statement.changedAccounts →
    (session.apply statement).1.catalog.account? user host = session.catalog.account? user host
  /-- What is kept under a key that is none of theirs is as before as well. -/
  otherKeys : ∀ key, (∀ names ∈ statement.changedAccounts, keyOf names.1 names.2 ≠ key) →
    (session.apply statement).1.catalog.accounts.get? key = session.catalog.accounts.get? key
  schema : (∀ name, statement ≠ .use name) →
    (∀ name ifExists, statement ≠ .dropDatabase name ifExists) →
      (session.apply statement).1.schema = session.schema
  /-- If it alters a table, it can change places with an alteration of another table. -/
  commutes : ∀ other object object', statement.altered? = some object →
    other.altered? = some object' →
    (session.schemaOf object, object.name) ≠ (session.schemaOf object', object'.name) →
      session.Commute statement other

/-- Alterations of different tables can change places. -/
theorem commute_of_altered (session : Session) {statement other : Statement}
    {object object' : ObjectName}
    (haltered : statement.altered? = some object) (haltered' : other.altered? = some object')
    (hne : (session.schemaOf object, object.name) ≠ (session.schemaOf object', object'.name)) :
    session.Commute statement other := by
  obtain ⟨first, hfirst, hfirstName⟩ := exists_change haltered
  obtain ⟨second, hsecond, hsecondName⟩ := exists_change haltered'
  have hline : ∀ (object : ObjectName) (change : Table → Table × Outcome),
      (session.changeTable object change).1.line = session.line := fun object change => by
    rw [changeTable_eq]
    rfl
  simp only [Commute, hfirst, hsecond, hline]
  obtain ⟨hsame, hlater⟩ := session.changeTable_comm hne
    (hfirstName session.line) (hsecondName session.line)
  obtain ⟨-, hearlier⟩ := session.changeTable_comm hne.symm
    (hsecondName session.line) (hfirstName session.line)
  exact ⟨hsame, hlater, hearlier⟩

/-- A statement touches only what it names in every well-formed session, exactly if the accounts
that it changes do not share their keys with those of other users and hosts. -/
theorem touchesOnlyNamed_iff (statement : Statement) :
    (∀ session : Session, session.catalog.WellFormed → session.TouchesOnlyNamed statement) ↔
      statement.ChangesByName := by
  constructor
  · intro h names hnames others hkey
    by_contra hother
    obtain ⟨session, hwf, hchanged⟩ := exists_changed hnames
    have hkept := (h session hwf).accounts others.1 others.2 hother
    rw [Catalog.account?, Catalog.account?, hkey] at hkept
    exact hchanged hkept
  · intro hbyName session hwf
    have hedit : Catalog.Edited (fun _ => True) session.catalog
        (session.apply statement).1.catalog := edited_apply session statement fun _ _ => trivial
    have hframe := hedit.frame
    constructor
    case tables => exact filter_tables_apply hwf.toArranged statement
    case name => exact hframe.1
    case sessionVariables => exact hframe.2.1
    case queries => exact hframe.2.2
    case accounts =>
      exact fun user host hother => get?_accounts_apply session fun names hnames hkey =>
        hother (hbyName names hnames (user, host) hkey.symm)
    case otherKeys => exact fun key hkey => get?_accounts_apply session hkey
    case schema =>
      intro huse hdrop
      rw [schema_apply]
      cases statement with
      | use name => exact absurd rfl (huse name)
      | dropDatabase name ifExists => exact absurd rfl (hdrop name ifExists)
      | _ => rfl
    case commutes => exact fun other object object' => session.commute_of_altered

/-- A grant to `a` at `b@c` changes the account of `a@b` at `c`, which it does not name. -/
theorem not_touchesOnlyNamed_of_separator :
    ∃ session : Session, session.catalog.WellFormed ∧
      ¬ session.TouchesOnlyNamed (.grant {
        privileges := ["SUPER"], target := some "*.*", grantees := [("a", "b@c")] }) := by
  refine ⟨((start { name := "d" }).apply
    (.createUser { users := [{ user := "a@b", host := "c", password := some "p" }] })).1,
      Catalog.wellFormed_of_schemas_eq_nil rfl, fun h => ?_⟩
  have hkept := h.accounts "a@b" "c" (by decide)
  revert hkept
  decide +kernel

end Session
end SchemaLint
