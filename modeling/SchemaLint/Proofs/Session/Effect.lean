import SchemaLint.Proofs.Catalog.Lookup
import SchemaLint.Proofs.Session.ColumnAddition
import SchemaLint.Proofs.Session.Log

/-!
# The effect of one statement

What a statement does to one table and to one schema: it creates it, drops it, alters it or leaves
it alone.  An event knows the current schema, so it knows which table each name is for.
-/

namespace SchemaLint

open Sql

namespace Session

/-- Whether a name is that of this table. -/
def addresses (session : Session) (schema name : String) (object : ObjectName) : Bool :=
  session.schemaOf object == schema && object.name == name

theorem addresses_iff {session : Session} {schema name : String} {object : ObjectName} :
    session.addresses schema name object = true ↔
      session.schemaOf object = schema ∧ object.name = name := by
  simp [addresses]

namespace Event

/-- The name of the table or view that the statement creates. -/
def created? (event : Event) : Option ObjectName :=
  match event.statement with
  | .createTable spec => some spec.name
  | .createView name => some name
  | _ => none

/-- Whether the event is a successful creation of this table.  It is one also if the table is there
already. -/
def creates (schema name : String) (event : Event) : Bool :=
  event.created?.any (event.before.addresses schema name) && event.outcome.isOk

/-- Whether the event drops this table, or the schema that it is in. -/
def drops (schema name : String) (event : Event) : Bool :=
  match event.statement with
  | .dropTable names _ => names.any (event.before.addresses schema name)
  | .dropDatabase dropped _ => dropped == schema
  | _ => false

/-- The table that the statement defines. -/
def defined? (schema : String) (event : Event) : Option Table :=
  match event.statement with
  | .createTable spec => (Definition.table schema spec).toOption
  | .createView name => some (Definition.view schema name.name)
  | _ => none

/-- The type of the table that the statement defines. -/
def tableType (event : Event) : String :=
  match event.statement with
  | .createView _ => "VIEW"
  | _ => "BASE TABLE"

/-- This table after the event, if it is neither created nor dropped. -/
def altered (schema name : String) (table : Table) (event : Event) : Table :=
  match event.statement with
  | .alterTable object actions =>
      if event.before.addresses schema name object then
        (Outcome.runAll (alter event.before.line object) table actions).1
      else
        table
  | .createIndex object key =>
      if event.before.addresses schema name object then
        (alter event.before.line object table (.addKey key)).1
      else
        table
  | _ => table

/-- Whether the event creates this schema, by itself or for a table in it. -/
def createsSchema (schema : String) (event : Event) : Bool :=
  match event.statement with
  | .createDatabase name _ => name == schema
  | _ => event.created?.any (event.before.schemaOf · == schema) && event.outcome.isOk

/-- Whether the event drops this schema. -/
def dropsSchema (schema : String) (event : Event) : Bool :=
  match event.statement with
  | .dropDatabase name _ => name == schema
  | _ => false

end Event

variable {schema name : String}

section Tables

variable (catalog : Catalog) (owner : String) (table : Table)

theorem table?_addTable_eq : (addTable catalog owner table).table? schema name =
    ((catalog.ensureSchema owner).schema? schema).bind fun found =>
      (if schema = owner then found.addTable table else found).table? name :=
  Catalog.table?_modifySchema (catalog.ensureSchema owner) owner schema name
    fun found => found.name_addTable table

/-- A table that is added is found, unless there was one of its name, which is found then. -/
theorem table?_addTable_self : (addTable catalog owner table).table? owner table.name =
    some ((catalog.table? owner table.name).getD
      ({ table with schemaName := owner } : Table).relink) := by
  rw [table?_addTable_eq, Catalog.schema?_ensureSchema, Catalog.table?]
  simp only [if_true, Option.bind_some]
  rw [Schema.table?_addTable_self]
  cases hfound : catalog.schema? owner with
  | none => rfl
  | some found =>
      have howner : found.name = owner := by simpa using List.find?_some hfound
      rw [Option.getD_some, howner]
      rfl

/-- Other tables are found as before. -/
theorem table?_addTable_of_ne (h : ¬ (owner = schema ∧ table.name = name)) :
    (addTable catalog owner table).table? schema name = catalog.table? schema name := by
  rw [table?_addTable_eq, ← Catalog.table?_ensureSchema catalog owner, Catalog.table?]
  by_cases hsame : schema = owner
  · have hother : name ≠ table.name := fun heq => h ⟨hsame.symm, heq.symm⟩
    simp only [hsame, if_true, Schema.table?_addTable_of_ne _ hother]
  · simp only [hsame, if_false]

theorem isSome_schema?_addTable (schema : String) :
    ((addTable catalog owner table).schema? schema).isSome =
      (owner == schema || (catalog.schema? schema).isSome) := by
  rw [addTable, Catalog.isSome_schema?_modifySchema _ _ _ fun found => found.name_addTable table,
    Catalog.isSome_schema?_ensureSchema]

end Tables

/-- An alteration changes columns and indexes only. -/
theorem Event.altered_heading (schema name : String) (table : Table) (event : Event) :
    table.SameHeading (event.altered schema name table) := by
  obtain ⟨before, statement⟩ := event
  cases statement with
  | alterTable object actions =>
      simp only [altered]
      split
      · exact runAll_alter_heading before.line object actions table
      · exact .refl table
  | createIndex object key =>
      simp only [altered]
      split
      · exact alter_heading before.line object table (.addKey key)
      · exact .refl table
  | _ => exact .refl table

/-- A table that is dropped is gone, and others are found as before. -/
theorem table?_dropTable {session : Session} (h : session.catalog.Arranged) (object : ObjectName) :
    (session.dropTable object).catalog.table? schema name =
      if session.addresses schema name object then none
      else session.catalog.table? schema name := by
  have hfind := Catalog.table?_modifySchema session.catalog (session.schemaOf object) schema name
    (f := (·.removeTable object.name)) fun _ => rfl
  refine hfind.trans ?_
  rw [Catalog.table?]
  cases hfound : session.catalog.schema? schema with
  | none => simp
  | some owner =>
      rw [Option.bind_some, Option.bind_some]
      by_cases hschema : schema = session.schemaOf object
      · rw [if_pos hschema]
        by_cases hname : name = object.name
        · rw [if_pos (addresses_iff.2 ⟨hschema.symm, hname.symm⟩), hname]
          exact Schema.table?_removeTable_self (h.schema hfound).1 object.name
        · rw [if_neg fun haddresses => hname (addresses_iff.1 haddresses).2.symm]
          exact Schema.table?_removeTable_of_ne owner hname
      · rw [if_neg hschema, if_neg fun haddresses => hschema (addresses_iff.1 haddresses).1.symm]

theorem arranged_dropTable {session : Session} (h : session.catalog.Arranged)
    (object : ObjectName) : (session.dropTable object).catalog.Arranged :=
  h.modifySchema _ (fun _ => rfl) fun _ howner => howner.removeTable object.name

theorem table?_dropTables {session : Session} (h : session.catalog.Arranged)
    (objects : List ObjectName) :
    (objects.foldl dropTable session).catalog.table? schema name =
      if objects.any (session.addresses schema name) then none
      else session.catalog.table? schema name := by
  induction objects generalizing session with
  | nil => rfl
  | cons object objects ih =>
      -- the next names are for the same tables, since the current schema stays
      have hrest : (session.dropTable object).addresses schema name =
          session.addresses schema name := rfl
      rw [List.foldl_cons, ih (arranged_dropTable h object), hrest, table?_dropTable h,
        List.any_cons]
      cases session.addresses schema name object <;>
        cases objects.any (session.addresses schema name) <;> rfl

/-- A schema stays when tables are dropped. -/
theorem isSome_schema?_dropTables (session : Session) (objects : List ObjectName) :
    ((objects.foldl dropTable session).catalog.schema? schema).isSome =
      (session.catalog.schema? schema).isSome := by
  refine List.foldlRecOn
    (motive := fun dropped : Session => (dropped.catalog.schema? schema).isSome =
      (session.catalog.schema? schema).isSome)
    objects dropTable rfl fun dropped hdropped object _ => ?_
  rw [← hdropped]
  exact Catalog.isSome_schema?_modifySchema _ _ _ fun _ => rfl

/-- A change that is for this table replaces it, and any other change leaves it alone. -/
theorem table?_changeTable (session : Session) (object : ObjectName)
    {change : Table → Table × Outcome} (hchange : ∀ table, (change table).1.name = table.name) :
    (session.changeTable object change).1.catalog.table? schema name =
      (session.catalog.table? schema name).map fun table =>
        if session.addresses schema name object then (change table).1 else table := by
  rw [catalog_changeTable]
  by_cases haddresses : session.addresses schema name object = true
  · obtain ⟨rfl, rfl⟩ := addresses_iff.1 haddresses
    rw [Catalog.table?_modifyTable _ _ _ fun table htable => (hchange table).trans htable]
    simp [haddresses]
  · have hfind := Catalog.table?_modifySchema session.catalog (session.schemaOf object) schema name
      (f := (·.modifyTable object.name fun table => (change table).1)) fun _ => rfl
    have hsame : (session.catalog.table? schema name).map (fun table =>
        if session.addresses schema name object then (change table).1 else table) =
          session.catalog.table? schema name := by
      simp [haddresses]
    rw [hsame]
    refine hfind.trans ?_
    rw [Catalog.table?]
    cases session.catalog.schema? schema with
    | none => rfl
    | some owner =>
        rw [Option.bind_some, Option.bind_some]
        by_cases hschema : schema = session.schemaOf object
        · have hname : name ≠ object.name := fun heq =>
            haddresses (addresses_iff.2 ⟨hschema.symm, heq.symm⟩)
          rw [if_pos hschema]
          exact Schema.table?_modifyTable_of_ne owner hname hchange
        · rw [if_neg hschema]

theorem isSome_schema?_changeTable (session : Session) (object : ObjectName)
    (change : Table → Table × Outcome) :
    ((session.changeTable object change).1.catalog.schema? schema).isSome =
      (session.catalog.schema? schema).isSome := by
  rw [catalog_changeTable]
  exact Catalog.isSome_schema?_modifySchema _ _ _ fun _ => rfl

theorem schemas_createUser (session : Session) (creation : UserCreation) :
    (session.createUser creation).catalog.schemas = session.catalog.schemas := by
  refine List.foldlRecOn
    (motive := fun catalog : Catalog => catalog.schemas = session.catalog.schemas)
    creation.users (addUser creation) rfl fun catalog hcatalog spec _ => ?_
  rw [← hcatalog, addUser]
  split <;> rfl

theorem schemas_grantPrivileges (session : Session) (grant : Grant) :
    (session.grantPrivileges grant).catalog.schemas = session.catalog.schemas := by
  unfold grantPrivileges
  split
  · exact List.foldlRecOn
      (motive := fun catalog : Catalog => catalog.schemas = session.catalog.schemas)
      grant.grantees _ rfl fun catalog hcatalog grantee _ => hcatalog
  · rfl

namespace Event

/-- No event both creates and drops a table. -/
theorem drops_eq_false {event : Event} (h : event.creates schema name = true) :
    event.drops schema name = false := by
  obtain ⟨before, statement⟩ := event
  cases statement with
  | createTable spec => rfl
  | createView object => rfl
  | _ => cases h

/-- What becomes of this table in an event. -/
def step (schema name : String) (found : Option Table) (event : Event) : Option Table :=
  if event.drops schema name then
    none
  else
    match found with
    | some table => some (event.altered schema name table)
    | none => if event.creates schema name then event.defined? schema else none

/-- An event that neither drops nor creates the table can only alter it. -/
theorem step_of_lasts {event : Event} (hdrops : event.drops schema name = false)
    (hcreates : event.creates schema name = false) (found : Option Table) :
    event.step schema name found = found.map fun table => event.altered schema name table := by
  cases found <;> simp [step, hdrops, hcreates]

/-- An event that neither creates nor alters the table can only drop it. -/
theorem step_of_unaltered {event : Event} (hcreates : event.creates schema name = false)
    (haltered : ∀ table, event.altered schema name table = table) (found : Option Table) :
    event.step schema name found = if event.drops schema name then none else found := by
  cases found <;> simp [step, hcreates, haltered]

/-- An event that does none of this leaves things as they are. -/
theorem step_of_keeps {event : Event} (hdrops : event.drops schema name = false)
    (hcreates : event.creates schema name = false)
    (haltered : ∀ table, event.altered schema name table = table) (found : Option Table) :
    event.step schema name found = found := by
  rw [step_of_unaltered hcreates haltered, hdrops, if_neg Bool.false_ne_true]

end Event

theorem isSome_schema?_congr {catalog other : Catalog} (h : other.schemas = catalog.schemas) :
    (other.schema? schema).isSome = (catalog.schema? schema).isSome := by
  rw [Catalog.schema?, Catalog.schema?, h]

/-- A creation finds the table that is there, or else makes the one that it defines. -/
theorem Event.step_of_created {event : Event} {object : ObjectName}
    (h : event.created? = some object) (found : Option Table) :
    event.step schema name found =
      (found <|> if event.before.addresses schema name object && event.outcome.isOk then
        event.defined? schema else none) := by
  obtain ⟨before, statement⟩ := event
  cases statement with
  | createTable spec =>
      cases h
      cases found <;> rfl
  | createView name =>
      cases h
      cases found <;> rfl
  | _ => cases h

/-- What is found depends on the schemas only. -/
theorem table?_congr {catalog other : Catalog} (h : other.schemas = catalog.schemas) :
    other.table? schema name = catalog.table? schema name := by
  rw [Catalog.table?, Catalog.table?, Catalog.schema?, Catalog.schema?, h]

/-- A table definition finds the table there, fails, or adds the table. -/
theorem createTable_cases (session : Session) (spec : TableSpec) :
    ((session.catalog.table? (session.schemaOf spec.name) spec.name.name).isSome = true ∧
      session.createTable spec = (session, .ok ())) ∨
    (∃ error, session.createTable spec = (session, .error error)) ∨
    (∃ table, session.catalog.table? (session.schemaOf spec.name) spec.name.name = none ∧
      Definition.table (session.schemaOf spec.name) spec = .ok table ∧
      session.createTable spec =
        (session.withCatalog (addTable session.catalog (session.schemaOf spec.name) table),
          .ok ())) := by
  by_cases hexists :
      (session.catalog.table? (session.schemaOf spec.name) spec.name.name).isSome = true
  · refine .inl ⟨hexists, ?_⟩
    simp [createTable, hexists]
  · have hnone : session.catalog.table? (session.schemaOf spec.name) spec.name.name = none := by
      simpa using hexists
    cases hbuilt : Definition.table (session.schemaOf spec.name) spec with
    | error error =>
        refine .inr (.inl ⟨error, ?_⟩)
        simp [createTable, hexists, hbuilt]
    | ok table =>
        refine .inr (.inr ⟨table, hnone, rfl, ?_⟩)
        simp [createTable, hexists, hbuilt]

theorem table?_createTable (session : Session) (spec : TableSpec) :
    (session.createTable spec).1.catalog.table? schema name =
      Event.step schema name (session.catalog.table? schema name)
        ⟨session, .createTable spec⟩ := by
  rw [Event.step_of_created rfl]
  change _ = (_ <|> if _ && (session.createTable spec).2.isOk then
    (Definition.table schema spec).toOption else none)
  rcases createTable_cases session spec with ⟨hexists, hcreated⟩ | ⟨error, hcreated⟩ |
    ⟨table, hnone, hbuilt, hcreated⟩
  · rw [hcreated]
    cases hfound : session.catalog.table? schema name with
    | some table => rfl
    | none =>
        -- the table that is there is another one
        have hother : ¬ session.addresses schema name spec.name = true := by
          intro haddresses
          obtain ⟨rfl, rfl⟩ := addresses_iff.1 haddresses
          simp [hfound] at hexists
        simp [hother]
  · rw [hcreated]
    simp [Except.isOk, Except.toBool]
  · obtain ⟨hname, hschema⟩ := Definition.table_heading hbuilt
    rw [hcreated]
    change (addTable _ _ _).table? schema name = _
    by_cases haddresses : session.addresses schema name spec.name = true
    · obtain ⟨rfl, rfl⟩ := addresses_iff.1 haddresses
      have hwf : table.WellFormed :=
        tableInvariant_wellFormed.table (fun _ _ => trivial) hbuilt
      have hlinked : ({ table with schemaName := session.schemaOf spec.name } : Table).relink =
          table := by
        rw [← hschema]
        exact hwf.relink_eq
      have hself := table?_addTable_self session.catalog (session.schemaOf spec.name) table
      rw [hlinked, hname, hnone, Option.getD_none] at hself
      rw [hself, hnone, hbuilt]
      simp [haddresses, Except.isOk, Except.toBool, Except.toOption]
    · rw [table?_addTable_of_ne _ _ _ fun h => haddresses (addresses_iff.2 (hname ▸ h))]
      simp [haddresses]

theorem table?_createView (session : Session) (object : ObjectName) :
    (session.apply (.createView object)).1.catalog.table? schema name =
      Event.step schema name (session.catalog.table? schema name)
        ⟨session, .createView object⟩ := by
  rw [Event.step_of_created rfl]
  change (addTable session.catalog (session.schemaOf object)
    (Definition.view (session.schemaOf object) object.name)).table? schema name = _
  by_cases haddresses : session.addresses schema name object = true
  · obtain ⟨rfl, rfl⟩ := addresses_iff.1 haddresses
    have hself : (addTable session.catalog (session.schemaOf object)
        (Definition.view (session.schemaOf object) object.name)).table?
          (session.schemaOf object) object.name =
        some ((session.catalog.table? (session.schemaOf object) object.name).getD
          (Definition.view (session.schemaOf object) object.name)) :=
      table?_addTable_self _ _ (Definition.view (session.schemaOf object) object.name)
    have hok : (Event.outcome ⟨session, .createView object⟩).isOk = true := rfl
    rw [hself, hok, haddresses]
    cases session.catalog.table? (session.schemaOf object) object.name <;> rfl
  · rw [table?_addTable_of_ne _ _ _ fun h => haddresses (addresses_iff.2 h)]
    simp [haddresses]

/-- A statement does to a table what its event says. -/
theorem table?_apply {session : Session} (h : session.catalog.WellFormed) (statement : Statement)
    (schema name : String) :
    (session.apply statement).1.catalog.table? schema name =
      Event.step schema name (session.catalog.table? schema name) ⟨session, statement⟩ := by
  cases statement with
  | createDatabase created _ =>
      rw [Event.step_of_keeps rfl rfl fun _ => rfl]
      exact Catalog.table?_ensureSchema session.catalog created schema name
  | dropDatabase dropped _ =>
      rw [Event.step_of_unaltered rfl fun _ => rfl]
      exact Catalog.table?_removeSchema h.toArranged dropped schema name
  | createTable spec => exact table?_createTable session spec
  | createView object => exact table?_createView session object
  | dropTable names _ =>
      rw [Event.step_of_unaltered rfl fun _ => rfl]
      exact table?_dropTables h.toArranged names
  | alterTable object actions =>
      rw [Event.step_of_lasts rfl rfl]
      exact table?_changeTable session object fun table =>
        (runAll_alter_heading session.line object actions table).name_eq
  | createIndex object key =>
      rw [Event.step_of_lasts rfl rfl]
      exact table?_changeTable session object fun table =>
        (alter_heading session.line object table (.addKey key)).name_eq
  | createUser creation =>
      rw [Event.step_of_keeps rfl rfl fun _ => rfl]
      exact table?_congr (schemas_createUser session creation)
  | grant grant =>
      rw [Event.step_of_keeps rfl rfl fun _ => rfl]
      exact table?_congr (schemas_grantPrivileges session grant)
  | use _ => exact (Event.step_of_keeps rfl rfl (fun _ => rfl) _).symm
  | inert _ => exact (Event.step_of_keeps rfl rfl (fun _ => rfl) _).symm
  | unsupported _ => exact (Event.step_of_keeps rfl rfl (fun _ => rfl) _).symm

/-- A table definition that succeeds leaves the schema of the table, with the table or without. -/
theorem isSome_schema?_createTable (session : Session) (spec : TableSpec) :
    ((session.createTable spec).1.catalog.schema? schema).isSome =
      ((session.schemaOf spec.name == schema && (session.createTable spec).2.isOk) ||
        (session.catalog.schema? schema).isSome) := by
  rcases createTable_cases session spec with ⟨hexists, hcreated⟩ | ⟨error, hcreated⟩ |
    ⟨table, -, -, hcreated⟩
  · rw [hcreated]
    by_cases hsame : session.schemaOf spec.name = schema
    · -- the schema of the table that is there
      subst hsame
      simp [Catalog.isSome_schema?_of_isSome_table? hexists]
    · simp [hsame]
  · rw [hcreated]
    simp [Except.isOk, Except.toBool]
  · rw [hcreated]
    change ((addTable _ _ _).schema? schema).isSome = _
    rw [isSome_schema?_addTable]
    simp [Except.isOk, Except.toBool]

/-- A statement does to a schema what its event says. -/
theorem isSome_schema?_apply {session : Session} (h : session.catalog.Arranged)
    (statement : Statement) (schema : String) :
    ((session.apply statement).1.catalog.schema? schema).isSome =
      (Event.createsSchema schema ⟨session, statement⟩ ||
        ((session.catalog.schema? schema).isSome &&
          !Event.dropsSchema schema ⟨session, statement⟩)) := by
  -- statements that neither create nor drop a schema
  have hkept : ∀ found : Bool, (false || (found && !false)) = found := fun found => by
    cases found <;> rfl
  -- statements that create one
  have hcreated : ∀ creates found : Bool, (creates || (found && !false)) = (creates || found) :=
    fun creates found => by rw [Bool.not_false, Bool.and_true]
  cases statement with
  | createDatabase created _ =>
      refine Eq.trans ?_ (hcreated _ _).symm
      exact Catalog.isSome_schema?_ensureSchema session.catalog created schema
  | dropDatabase dropped _ =>
      refine Eq.trans ?_ (Bool.false_or _).symm
      exact Catalog.isSome_schema?_removeSchema h dropped schema
  | createTable spec =>
      exact (isSome_schema?_createTable session spec).trans (hcreated _ _).symm
  | createView object =>
      refine Eq.trans ?_ (hcreated _ _).symm
      change ((addTable _ _ _).schema? schema).isSome =
        ((session.schemaOf object == schema && true) || (session.catalog.schema? schema).isSome)
      rw [isSome_schema?_addTable, Bool.and_true]
  | dropTable names _ => exact (isSome_schema?_dropTables session names).trans (hkept _).symm
  | alterTable object actions => exact (isSome_schema?_changeTable _ _ _).trans (hkept _).symm
  | createIndex object key => exact (isSome_schema?_changeTable _ _ _).trans (hkept _).symm
  | createUser creation =>
      exact (isSome_schema?_congr (schemas_createUser session creation)).trans (hkept _).symm
  | grant grant =>
      exact (isSome_schema?_congr (schemas_grantPrivileges session grant)).trans (hkept _).symm
  | use _ => exact (hkept _).symm
  | inert _ => exact (hkept _).symm
  | unsupported _ => exact (hkept _).symm

end Session
end SchemaLint
