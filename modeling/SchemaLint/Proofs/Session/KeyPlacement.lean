import SchemaLint.Proofs.Catalog.Lookup
import SchemaLint.Proofs.Session.ColumnAddition
import SchemaLint.Proofs.Session.Failure

/-!
# Keys that are added later

The keys of a table can be declared with it, or added by statements of their own: alterations that
add some of them, and definitions of indexes.  All of these add keys by the same step, so the two
ways differ in one point only.  A definition starts the counter of the table after its keys, and
the statements find it started.  This makes no difference, because a key leaves alone what the
counter depends on.

* `addKey_startCounter` - the step of a definition commutes with the start of the counter.
* `completed_apply_keys`, `completed_apply_withTable` - a statement adds its keys to the table that
  is there, which is the table that a definition made.
* `completed_addKeysLater` - the run of all statements leaves what the definition leaves, or fails
  with the same error.
-/

namespace SchemaLint

open Sql

namespace Sql

/-- A statement that adds keys to a table. -/
inductive KeyStatement where
  /-- The alteration of the table by all of these keys. -/
  | alteration (keys : List KeyClause)
  /-- The definition of one index. -/
  | definition (key : KeyClause)

namespace KeyStatement

/-- The keys that the statement adds. -/
def keys : KeyStatement → List KeyClause
  | alteration keys => keys
  | definition key => [key]

/-- The statement on a table. -/
def statement (name : ObjectName) : KeyStatement → Statement
  | alteration keys => .alterTable name (keys.map .addKey)
  | definition key => .createIndex name key

end KeyStatement

/-- The definition of the table without the keys that its clauses declare. -/
def TableSpec.withoutKeys (spec : TableSpec) : TableSpec :=
  { spec with keys := [] }

end Sql

namespace Definition

variable {table result : Table}

theorem markAllPrimary_withInfo (table : Table) (info : TableInfo)
    (columns : List (String × Option UInt64)) :
    markAllPrimary { table with info } columns = { markAllPrimary table columns with info } := by
  unfold markAllPrimary
  induction columns generalizing table with
  | nil => rfl
  | cons column columns ih => exact ih (table.modifyColumn column.1 markPrimary)

/-- The information about a table plays no part in the addition of a key. -/
theorem addKey_withInfo (table : Table) (info : TableInfo) (key : KeyClause) :
    addKey { table with info } key =
      (addKey table key).map fun result => { result with info } := by
  have hparts : ∀ parts, resolveParts { table with info } parts = resolveParts table parts :=
    fun _ => rfl
  have hindex : ∀ name, ({ table with info } : Table).index? name = table.index? name :=
    fun _ => rfl
  rw [addKey_eq, addKey_eq]
  split
  · rw [addPrimaryKey_eq, addPrimaryKey_eq, hindex, hparts]
    split
    · rfl
    · cases resolveParts table key.columns with
      | error error => rfl
      | ok columns =>
          exact congrArg (fun marked : Table => Except.ok (marked.pushIndex _))
            (markAllPrimary_withInfo table info columns)
  · have hname : secondaryName { table with info } key = secondaryName table key := rfl
    rw [addSecondaryIndex_eq, addSecondaryIndex_eq, hname, hindex, hparts]
    split
    · rfl
    · cases resolveParts table key.columns with
      | error error => rfl
      | ok columns => cases columns <;> rfl

/-- A key adds no column that counts up. -/
theorem startCounter_of_addKey {key : KeyClause} (hadd : addKey table key = .ok result) :
    startCounter result = { result with info := (startCounter table).info } := by
  have hcounts := map_columns_addKey (h := Column.isAutoIncrement) (fun _ => rfl)
    (fun _ _ => rfl) hadd
  have hsome : result.autoIncrementColumn?.isSome = table.autoIncrementColumn?.isSome := by
    have hany : ∀ table : Table, table.autoIncrementColumn?.isSome =
        (table.columns.map Column.isAutoIncrement).any id := fun table => by
      rw [Bool.eq_iff_iff]
      simp [Table.autoIncrementColumn?]
    rw [hany, hany, hcounts]
  have hinfo := (addKey_heading hadd).info_eq
  unfold startCounter
  rw [hsome, hinfo]
  split
  · rfl
  · rw [← hinfo]

/-- So the counter may as well be started before the key is added. -/
theorem addKey_startCounter (table : Table) (key : KeyClause) :
    addKey (startCounter table) key = (addKey table key).map startCounter := by
  rw [startCounter_eq, addKey_withInfo]
  cases hadd : addKey table key with
  | error error => rfl
  | ok result => exact congrArg Except.ok (startCounter_of_addKey hadd).symm

/-- The keys of a definition may as well be added to the table that it makes without them. -/
theorem table_eq_foldlM (schemaName : String) (spec : TableSpec) :
    Definition.table schemaName spec =
      Definition.table schemaName spec.withoutKeys >>= fun table =>
        spec.keys.foldlM addKey table := by
  have hcolumned : columned schemaName spec.withoutKeys = columned schemaName spec := rfl
  have hoptions : encodingOfOptions spec.withoutKeys = encodingOfOptions spec := rfl
  rw [table_eq, table_eq, hcolumned, hoptions]
  cases (encodingOfOptions spec).mapError CatalogError.metadata with
  | error error => rfl
  | ok encoding =>
      change columned schemaName spec encoding >>= _ = columned schemaName spec encoding >>= _ >>= _
      cases columned schemaName spec encoding with
      | error error => rfl
      | ok table =>
          exact (foldlM_map (P := fun _ => True) (f := startCounter)
            (fun table key _ _ => addKey_startCounter table key) (fun _ _ _ _ _ _ => trivial)
            trivial).symm

end Definition

namespace Outcome

variable {σ α : Type} {step : σ → α → σ × Outcome}

/-- What is left behind, if all went well. -/
def completed (after : σ × Outcome) : Except CatalogError σ :=
  after.2.map fun _ => after.1

/-- A run that goes well is a fold of steps that go well. -/
theorem completed_runAll : ∀ (items : List α) (state : σ),
    completed (runAll step state items) =
      items.foldlM (fun state item => completed (step state item)) state
  | [], _ => rfl
  | item :: items, state => by
      rw [List.foldlM_cons, runAll]
      cases hstep : step state item with
      | mk next outcome =>
          cases outcome with
          | error error => rfl
          | ok _ => exact completed_runAll items next

end Outcome

namespace Schema

/-- A table that was just added is changed as if the changed table had been added. -/
theorem modifyTable_addTable {schema : Schema} {table changed : Table}
    (hnew : schema.table? table.name = none) (hname : changed.name = table.name)
    (hlinked : ({ changed with schemaName := schema.name } : Table).relink = changed) :
    (schema.addTable table).modifyTable table.name (fun _ => changed) =
      schema.addTable changed := by
  have hfree : schema.contains table.name = false := by
    rw [contains, hnew]
    rfl
  have hfree' : schema.contains changed.name = false := hname ▸ hfree
  have hsplit : Table.modifyFirst (·.name == table.name) (fun _ => changed)
      (schema.tables ++ [({ table with schemaName := schema.name } : Table).relink]) =
        schema.tables ++ [changed] := by
    refine (Table.modifyFirst_append_of_none hnew).trans ?_
    simp [Table.modifyFirst, Table.relink]
  rw [addTable, addTable, addTable?, addTable?, hfree, hfree', hlinked]
  exact congrArg (fun tables => { schema with tables }) hsplit

end Schema

namespace Session

open Outcome

variable {session : Session} {schema : String} {table changed : Table}

/-- So is a table of a catalog. -/
theorem modifyTable_addTable {catalog : Catalog}
    (hnew : catalog.table? schema table.name = none) (hname : changed.name = table.name)
    (hschema : changed.schemaName = schema) (hwf : changed.WellFormed) :
    (addTable catalog schema table).modifyTable schema table.name (fun _ => changed) =
      addTable catalog schema changed := by
  refine (Catalog.modifySchema_modifySchema _ schema fun owner =>
    Schema.name_addTable owner table).trans ?_
  refine congrArg (fun schemas => { catalog.ensureSchema schema with schemas })
    (Table.modifyFirst_congr fun owner howner => ?_)
  have hfound : (catalog.ensureSchema schema).schema? schema = some owner := howner
  have howned : owner.name = schema := by simpa using List.find?_some howner
  have hfree : owner.table? table.name = none := by
    rw [← Catalog.table?_ensureSchema catalog schema, Catalog.table?, hfound] at hnew
    exact hnew
  refine Schema.modifyTable_addTable hfree hname ?_
  rw [howned, ← hschema, hwf.relink_eq]

/-- The session with a table in a schema. -/
def withTable (session : Session) (schema : String) (table : Table) : Session :=
  session.withCatalog (addTable session.catalog schema table)

/-- A definition that succeeds adds its table. -/
theorem completed_createTable {spec : TableSpec} (hnew : session.tableOf? spec.name = none) :
    completed (session.createTable spec) =
      (Definition.table (session.schemaOf spec.name) spec).map
        (session.withTable (session.schemaOf spec.name)) := by
  rw [createTable_eq hnew]
  cases Definition.table (session.schemaOf spec.name) spec <;> rfl

/-- A table that can stand under a name. -/
structure FitsName (session : Session) (name : ObjectName) (table : Table) : Prop where
  name_eq : table.name = name.name
  schemaName_eq : table.schemaName = session.schemaOf name
  wellFormed : table.WellFormed

theorem FitsName.foldlM_addKey {name : ObjectName} (h : session.FitsName name table)
    {keys : List KeyClause} (hkeys : keys.foldlM Definition.addKey table = .ok changed) :
    session.FitsName name changed := by
  refine foldlM_keeps (P := session.FitsName name) ?_ h hkeys
  intro state key result _ hstate hadd
  have hheading := Definition.addKey_heading hadd
  exact ⟨hheading.name_eq.trans hstate.name_eq, hheading.schemaName_eq.trans hstate.schemaName_eq,
    tableInvariant_wellFormed.addKey hstate.wellFormed (fun _ _ => trivial) hadd⟩

theorem completed_alter_addKey (line : Nat) (name : ObjectName) (table : Table)
    (key : KeyClause) :
    completed (alter line name table (.addKey key)) = Definition.addKey table key := by
  rw [alter_eq]
  change completed (TableEdit.orUnchanged table (Definition.addKey table key)) = _
  cases Definition.addKey table key <;> rfl

theorem completed_changeTable {name : ObjectName} (h : session.tableOf? name = some table)
    (change : Table → Table × Outcome) :
    completed (session.changeTable name change) = (completed (change table)).map fun changed =>
      session.withCatalog
        (session.catalog.modifyTable (session.schemaOf name) name.name fun _ => changed) := by
  rw [changeTable_of_found h]
  cases change table with
  | mk changed outcome => cases outcome <;> rfl

/-- A statement adds its keys to the table that is there. -/
theorem completed_apply_keys {name : ObjectName} (h : session.tableOf? name = some table)
    (part : KeyStatement) :
    completed (session.apply (part.statement name)) =
      (part.keys.foldlM Definition.addKey table).map fun changed =>
        session.withCatalog
          (session.catalog.modifyTable (session.schemaOf name) name.name fun _ => changed) := by
  cases part with
  | alteration keys =>
      have hrun : completed (runAll (alter session.line name) table (keys.map .addKey)) =
          keys.foldlM Definition.addKey table := by
        rw [completed_runAll, List.foldlM_map]
        simp only [completed_alter_addKey]
      exact (completed_changeTable h _).trans (congrArg (Except.map _) hrun)
  | definition key =>
      have hone : completed (alter session.line name table (.addKey key)) =
          [key].foldlM Definition.addKey table := by
        rw [completed_alter_addKey, List.foldlM_cons]
        cases Definition.addKey table key <;> rfl
      exact (completed_changeTable h _).trans (congrArg (Except.map _) hone)

/-- So it does to a table that was just added. -/
theorem completed_apply_withTable {name : ObjectName} (hnew : session.tableOf? name = none)
    (hfits : session.FitsName name table) (part : KeyStatement) :
    completed ((session.withTable (session.schemaOf name) table).apply (part.statement name)) =
      (part.keys.foldlM Definition.addKey table).map
        (session.withTable (session.schemaOf name)) := by
  rw [tableOf?, ← hfits.name_eq] at hnew
  have hfound : (session.withTable (session.schemaOf name) table).tableOf? name = some table := by
    change (addTable session.catalog (session.schemaOf name) table).table?
      (session.schemaOf name) name.name = some table
    rw [← hfits.name_eq, table?_addTable hnew, ← hfits.schemaName_eq, hfits.wellFormed.relink_eq]
  rw [completed_apply_keys hfound]
  cases hkeys : part.keys.foldlM Definition.addKey table with
  | error error => rfl
  | ok changed =>
      have hchanged := hfits.foldlM_addKey hkeys
      have hcatalog := modifyTable_addTable hnew (hchanged.name_eq.trans hfits.name_eq.symm)
        hchanged.schemaName_eq hchanged.wellFormed
      rw [hfits.name_eq] at hcatalog
      exact congrArg (fun catalog => Except.ok (session.withCatalog catalog)) hcatalog

/-- Creates a table without the keys that its clauses declare, and adds keys to it by statements
of their own, up to the first that fails. -/
def addKeysLater (session : Session) (spec : TableSpec) (parts : List KeyStatement) :
    Session × Outcome :=
  runAll apply session (.createTable spec.withoutKeys :: parts.map (·.statement spec.name))

/-- The keys of a new table may as well be added by statements of their own, in the same order:
the run of these leaves the session that the definition leaves, or fails with the same error. -/
theorem completed_addKeysLater {spec : TableSpec} {parts : List KeyStatement}
    (hnew : session.tableOf? spec.name = none)
    (hkeys : parts.flatMap KeyStatement.keys = spec.keys) :
    completed (session.addKeysLater spec parts) =
      completed (session.apply (.createTable spec)) := by
  have hcreated : completed (session.apply (.createTable spec.withoutKeys)) =
      (Definition.table (session.schemaOf spec.name) spec.withoutKeys).map
        (session.withTable (session.schemaOf spec.name)) :=
    completed_createTable (by exact hnew)
  have hdeclared : completed (session.apply (.createTable spec)) =
      (Definition.table (session.schemaOf spec.name) spec).map
        (session.withTable (session.schemaOf spec.name)) := completed_createTable hnew
  rw [hdeclared, Definition.table_eq_foldlM, addKeysLater, completed_runAll, List.foldlM_cons,
    hcreated, ← hkeys]
  cases hbuilt : Definition.table (session.schemaOf spec.name) spec.withoutKeys with
  | error error => rfl
  | ok table =>
      obtain ⟨hname, hschema⟩ := Definition.table_heading hbuilt
      have hfits : session.FitsName spec.name table :=
        ⟨hname, hschema, tableInvariant_wellFormed.table (fun _ _ => trivial) hbuilt⟩
      have hparts : parts.foldlM
          (fun session part => completed (session.apply (part.statement spec.name)))
          (session.withTable (session.schemaOf spec.name) table) =
            (parts.foldlM (fun table (part : KeyStatement) =>
              part.keys.foldlM Definition.addKey table) table).map
              (session.withTable (session.schemaOf spec.name)) :=
        foldlM_map (P := session.FitsName spec.name)
          (fun _ part _ hstate => completed_apply_withTable hnew hstate part)
          (fun _ _ _ _ hstate hkeys => hstate.foldlM_addKey hkeys) hfits
      refine (List.foldlM_map ..).trans (hparts.trans ?_)
      exact congrArg (Except.map _) (foldlM_flatMap KeyStatement.keys parts table).symm

/-- Keys without names in front of a primary key and behind it, of a table that counts up: two in
an alteration, one by its definition, and one in an alteration again. -/
theorem completed_addKeysLater_of_unnamed_keys :
    let spec : TableSpec := {
      name := { name := "t" }
      columns := [
        { name := "a", type := { name := "int" }, autoIncrement := true },
        { name := "b", type := { name := "int" }, nullable := some true }]
      keys := [
        { kind := .index, columns := [{ column := "B" }, { column := "a" }] },
        { kind := .primary, columns := [{ column := "b" }] },
        { kind := .unique, columns := [{ column := "A" }] },
        { kind := .index, name := some "i", columns := [{ column := "a" }] }] }
    let parts : List KeyStatement := [
      .alteration (spec.keys.take 2),
      .definition { kind := .unique, columns := [{ column := "A" }] },
      .alteration (spec.keys.drop 3)]
    completed ((start {}).addKeysLater spec parts) =
        completed ((start {}).apply (.createTable spec)) ∧
      (completed ((start {}).addKeysLater spec parts)).map (fun session =>
        session.catalog.tables.map fun table =>
          (table.indexes.map Index.name, table.info.autoIncrement)) =
        .ok [(["unknown_index", "PRIMARY", "unknown_index_2", "i"], some 1)] := by
  intro spec parts
  have hagree : completed ((start {}).addKeysLater spec parts) =
      completed ((start {}).apply (.createTable spec)) :=
    completed_addKeysLater (by decide) (by decide)
  refine ⟨hagree, ?_⟩
  rw [hagree]
  decide +kernel

end Session
end SchemaLint
