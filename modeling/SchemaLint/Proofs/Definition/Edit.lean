import SchemaLint.Proofs.Except
import SchemaLint.Session

/-!
# What changes in place leave behind

A change of a table in place first looks things up, which may fail, and then writes, which may not.
So a change that breaks off has written nothing (`TableEdit.Atomic`), although nothing is ever taken
back.  A change that goes through is known by the table that it makes (`TableEdit.result`), and the
changes one after another are those of their results.

* `TableEdit.ReadsOnly`, `TableEdit.Completes` - the two halves of a change.
* `TableEdit.atomic_addKey`, `TableEdit.atomic_addColumn` - the changes that alterations make.
* `Definition.addColumn`, `Definition.addKey` - the tables that changes make, step by step.
-/

namespace SchemaLint

open Sql

namespace TableEdit

open Definition (markPrimary)

variable {α β : Type} {table : Table}

/-! ### Running -/

theorem run_bind (edit : TableEdit α) (next : α → TableEdit β) (table : Table) :
    (edit >>= next).run.run table =
      match edit.run.run table with
      | (.ok value, changed) => (next value).run.run changed
      | (.error error, changed) => (.error error, changed) := by
  change (match edit.run.run table with
    | (ended, changed) => (ExceptT.bindCont next ended).run changed) = _
  rcases edit.run.run table with ⟨_ | value, changed⟩ <;> rfl

theorem run_bind_of_ok {edit : TableEdit α} {value : α} {changed : Table}
    (h : edit.run.run table = (.ok value, changed)) (next : α → TableEdit β) :
    (edit >>= next).run.run table = (next value).run.run changed := by
  rw [run_bind, h]

/-! ### Reading and writing -/

/-- The table stays as it is, whether there is a result or not. -/
def ReadsOnly (edit : TableEdit α) : Prop :=
  ∀ table, (edit.run.run table).2 = table

/-- There is a result, whatever the table is. -/
def Completes (edit : TableEdit α) : Prop :=
  ∀ table, ∃ value, (edit.run.run table).1 = .ok value

/-- A change that breaks off leaves the table as it was. -/
def Atomic (edit : TableEdit α) : Prop :=
  ∀ table error, (edit.run.run table).1 = .error error → (edit.run.run table).2 = table

theorem ReadsOnly.atomic {edit : TableEdit α} (h : edit.ReadsOnly) : edit.Atomic :=
  fun table _ _ => h table

theorem Completes.atomic {edit : TableEdit α} (h : edit.Completes) : edit.Atomic := by
  intro table error herror
  obtain ⟨value, hvalue⟩ := h table
  cases hvalue.symm.trans herror

/-- What is read does not hurt what follows. -/
theorem Atomic.bind {edit : TableEdit α} {next : α → TableEdit β} (hedit : edit.ReadsOnly)
    (hnext : ∀ value, (next value).Atomic) : (edit >>= next).Atomic := by
  intro table error herror
  have hsame := hedit table
  rw [run_bind] at herror ⊢
  rcases hrun : edit.run.run table with ⟨_ | value, changed⟩
  · rwa [hrun] at hsame
  · rw [hrun] at hsame herror
    cases hsame
    exact hnext value _ error herror

theorem Completes.bind {edit : TableEdit α} {next : α → TableEdit β} (hedit : edit.Completes)
    (hnext : ∀ value, (next value).Completes) : (edit >>= next).Completes := by
  intro table
  obtain ⟨value, hvalue⟩ := hedit table
  rw [run_bind]
  rcases hrun : edit.run.run table with ⟨ended, changed⟩
  rw [hrun] at hvalue
  cases hvalue
  exact hnext value changed

theorem readsOnly_get : ReadsOnly (get : TableEdit Table) :=
  fun _ => rfl

theorem readsOnly_lift (value : Except CatalogError α) :
    ReadsOnly (liftM value : TableEdit α) :=
  fun _ => rfl

theorem atomic_throw (error : CatalogError) : Atomic (throw error : TableEdit α) :=
  fun _ _ _ => rfl

theorem completes_pure (value : α) : Completes (pure value : TableEdit α) :=
  fun _ => ⟨value, rfl⟩

theorem completes_modify (f : Table → Table) : Completes (modify f : TableEdit Unit) :=
  fun _ => ⟨(), rfl⟩

theorem completes_foldlM {step : β → α → TableEdit β}
    (hstep : ∀ state item, (step state item).Completes) :
    ∀ (items : List α) (state : β), Completes (items.foldlM step state)
  | [], state => completes_pure state
  | item :: items, state => by
      rw [List.foldlM_cons]
      exact (hstep state item).bind fun state => completes_foldlM hstep items state

/-! ### The changes of alterations -/

theorem atomic_addColumn (inherited : Encoding) (spec : ColumnSpec) :
    (addColumn inherited spec).Atomic := by
  refine Atomic.bind readsOnly_get fun table => ?_
  split
  · exact atomic_throw _
  · split
    · exact atomic_throw _
    · exact (completes_modify _).atomic

theorem completes_markPrimaryKey (columns : List (String × Option UInt64)) :
    (markPrimaryKey columns).Completes :=
  completes_foldlM (fun _ _ => (completes_modify _).bind fun _ => completes_pure _) columns _

/-- All key parts are resolved before the first column is marked. -/
theorem atomic_addPrimaryKey (parts : List KeyPart) : (addPrimaryKey parts).Atomic := by
  refine Atomic.bind readsOnly_get fun table => ?_
  split
  · exact atomic_throw _
  · refine Atomic.bind (readsOnly_lift _) fun columns => Completes.atomic ?_
    exact (completes_markPrimaryKey columns).bind fun index => completes_modify _

theorem completes_markLeading (unique : Bool) (columns : List (String × Option UInt64)) :
    (markLeading unique columns).Completes := by
  cases columns with
  | nil => exact completes_pure _
  | cons first rest => exact completes_modify _

theorem atomic_addSecondaryIndex (name : String) (key : KeyClause) :
    (addSecondaryIndex name key).Atomic := by
  refine Atomic.bind readsOnly_get fun table => ?_
  split
  · exact atomic_throw _
  · refine Atomic.bind (readsOnly_lift _) fun columns => Completes.atomic ?_
    exact (completes_markLeading _ columns).bind fun _ => completes_modify _

theorem atomic_addKey (key : KeyClause) : (addKey key).Atomic := by
  unfold addKey
  split
  · exact atomic_addPrimaryKey key.columns
  · exact Atomic.bind readsOnly_get fun table => atomic_addSecondaryIndex _ key

/-! ### The tables that changes make -/

/-- The table after a change that went through, and its error otherwise. -/
theorem result_eq (edit : TableEdit Unit) (table : Table) :
    edit.result table = (edit.run.run table).1.map fun _ => (edit.run.run table).2 := by
  unfold result apply
  rcases edit.run.run table with ⟨_ | _, changed⟩ <;> rfl

/-- One change after another makes the table that the second makes of that of the first. -/
theorem result_bind (first second : TableEdit Unit) (table : Table) :
    (first >>= fun _ => second).result table = first.result table >>= second.result := by
  simp only [result_eq, run_bind]
  rcases first.run.run table with ⟨_ | _, changed⟩
  · rfl
  · exact (result_eq second changed).symm

theorem result_get_bind (next : Table → TableEdit Unit) (table : Table) :
    ((get : TableEdit Table) >>= next).result table = (next table).result table := by
  simp only [result_eq, run_bind]
  rfl

theorem result_lift_bind (value : Except CatalogError α) (next : α → TableEdit Unit)
    (table : Table) :
    ((liftM value : TableEdit α) >>= next).result table =
      value >>= fun value => (next value).result table := by
  cases value with
  | error error => rfl
  | ok value =>
      simp only [result_eq, run_bind]
      rfl

theorem result_forM (edit : α → TableEdit Unit) :
    ∀ (items : List α) (table : Table),
      (items.forM edit).result table =
        items.foldlM (fun table item => (edit item).result table) table
  | [], _ => rfl
  | item :: items, table => by
      rw [List.foldlM_cons]
      change ((edit item) >>= fun _ => items.forM edit).result table = _
      rw [result_bind]
      exact congrArg _ (funext (result_forM edit items))

/-- The marks of a primary key and its index are made side by side. -/
theorem run_markPrimaryKey (columns : List (String × Option UInt64)) (table : Table) :
    (markPrimaryKey columns).run.run table =
      (.ok (({ name := Index.primaryName, unique := true } : Index).pushColumns columns),
        columns.foldl (fun table column => table.modifyColumn column.1 markPrimary) table) := by
  unfold markPrimaryKey
  generalize ({ name := Index.primaryName, unique := true } : Index) = index
  induction columns generalizing index table with
  | nil => rfl
  | cons column columns ih =>
      rw [List.foldlM_cons]
      exact ih _ (index.pushColumn column.1 column.2)

/-- A table beside the outcome of a change of it: the new table, or the old one with the error. -/
def orUnchanged (table : Table) : Except CatalogError Table → Table × Outcome
  | .ok changed => (changed, .ok ())
  | .error error => (table, .error error)

/-- A change that breaks off leaves the old table behind, and any other the new one. -/
theorem Atomic.apply_eq {edit : TableEdit Unit} (h : edit.Atomic) (table : Table) :
    edit.apply table = orUnchanged table (edit.result table) := by
  have hkept := h table
  rw [result_eq]
  unfold apply
  rcases hrun : edit.run.run table with ⟨error | _, changed⟩
  · rw [hrun] at hkept
    cases hkept error rfl
    rfl
  · rfl

end TableEdit

namespace Definition

/-! ### Step by step -/

/-- The table with a column at its end. -/
def addColumn (inherited : Encoding) (table : Table) (spec : ColumnSpec) :
    Except CatalogError Table :=
  (TableEdit.addColumn inherited spec).result table

/-- The table with a primary key. -/
def addPrimaryKey (table : Table) (parts : List KeyPart) : Except CatalogError Table :=
  (TableEdit.addPrimaryKey parts).result table

/-- The name of the index of a clause that is not for the primary key. -/
def secondaryName (table : Table) (key : KeyClause) : String :=
  key.name.getD (freeIndexName table unnamedIndex)

/-- The table with an index that is not its primary key. -/
def addSecondaryIndex (table : Table) (key : KeyClause) : Except CatalogError Table :=
  (TableEdit.addSecondaryIndex (secondaryName table key) key).result table

/-- The table with the index of a key clause. -/
def addKey (table : Table) (key : KeyClause) : Except CatalogError Table :=
  (TableEdit.addKey key).result table

/-- The table with the primary key that a column definition declares by itself. -/
def addInlinePrimary (table : Table) (spec : ColumnSpec) : Except CatalogError Table :=
  (TableEdit.addInlinePrimary spec).result table

/-- The table with the unique index that a column definition declares by itself. -/
def addInlineUnique (table : Table) (spec : ColumnSpec) : Except CatalogError Table :=
  (TableEdit.addInlineUnique spec).result table

/-- The table with a column of its definition and the keys that the column declares. -/
def addDeclaredColumn (encoding : Encoding) (table : Table) (spec : ColumnSpec) :
    Except CatalogError Table :=
  (TableEdit.addDeclaredColumn encoding spec).result table

/-- The table with the columns of its primary key marked. -/
def markAllPrimary (table : Table) (columns : List (String × Option UInt64)) : Table :=
  columns.foldl (fun table column => table.modifyColumn column.1 markPrimary) table

/-- The table with the first column of an index marked. -/
def markLeading (unique : Bool) (table : Table) : List (String × Option UInt64) → Table
  | [] => table
  | first :: _ => table.modifyColumn first.1 (markFirst unique)

variable (table : Table)

theorem addColumn_eq (inherited : Encoding) (spec : ColumnSpec) :
    addColumn inherited table spec =
      if (table.column? spec.name).isSome then
        .error (.existingColumn table.qualifiedName spec.name)
      else
        match column spec table.nextOrdinal inherited with
        | .error error => .error (.metadata error)
        | .ok column => .ok (table.pushColumn column) := by
  unfold addColumn TableEdit.addColumn
  rw [TableEdit.result_get_bind]
  split
  · rfl
  · cases column spec table.nextOrdinal inherited <;> rfl

theorem addPrimaryKey_eq (parts : List KeyPart) :
    addPrimaryKey table parts =
      if (table.index? Index.primaryName).isSome then
        .error (.existingIndex table.qualifiedName Index.primaryName)
      else
        (resolveParts table parts).map fun columns =>
          (markAllPrimary table columns).pushIndex
            (({ name := Index.primaryName, unique := true } : Index).pushColumns columns) := by
  unfold addPrimaryKey TableEdit.addPrimaryKey
  rw [TableEdit.result_get_bind]
  split
  · rfl
  · rw [TableEdit.result_lift_bind]
    cases resolveParts table parts with
    | error error => rfl
    | ok columns =>
        change TableEdit.result _ _ = _
        rw [TableEdit.result_eq, TableEdit.run_bind_of_ok (TableEdit.run_markPrimaryKey columns _)]
        rfl

theorem addSecondaryIndex_eq (key : KeyClause) :
    addSecondaryIndex table key =
      if (table.index? (secondaryName table key)).isSome then
        .error (.existingIndex table.qualifiedName (secondaryName table key))
      else
        (resolveParts table key.columns).map fun columns =>
          (markLeading (key.kind == .unique) table columns).pushIndex
            (({ name := secondaryName table key, unique := key.kind == .unique,
                indexType := indexType key } : Index).pushColumns columns) := by
  unfold addSecondaryIndex TableEdit.addSecondaryIndex
  rw [TableEdit.result_get_bind]
  split
  · rfl
  · rw [TableEdit.result_lift_bind]
    cases resolveParts table key.columns with
    | error error => rfl
    | ok columns => cases columns <;> rfl

theorem addKey_eq (key : KeyClause) :
    addKey table key =
      if isPrimaryClause key then addPrimaryKey table key.columns
      else addSecondaryIndex table key := by
  unfold addKey TableEdit.addKey
  split
  · rfl
  · rw [TableEdit.result_get_bind]
    rfl

theorem addInlinePrimary_eq (spec : ColumnSpec) :
    addInlinePrimary table spec =
      if spec.primaryKey then addPrimaryKey table [{ column := spec.name }] else .ok table := by
  unfold addInlinePrimary TableEdit.addInlinePrimary
  split <;> rfl

theorem addInlineUnique_eq (spec : ColumnSpec) :
    addInlineUnique table spec =
      if spec.unique then
        addKey table {
          kind := .unique
          name := some (freeIndexName table spec.name)
          columns := [{ column := spec.name }] }
      else
        .ok table := by
  unfold addInlineUnique TableEdit.addInlineUnique
  split
  · rw [TableEdit.result_get_bind]
    rfl
  · rfl

theorem addDeclaredColumn_eq (encoding : Encoding) (spec : ColumnSpec) :
    addDeclaredColumn encoding table spec = (do
      let table ← addColumn encoding table spec
      let table ← addInlinePrimary table spec
      addInlineUnique table spec) := by
  unfold addDeclaredColumn TableEdit.addDeclaredColumn
  rw [TableEdit.result_bind]
  exact congrArg _ (funext fun table => TableEdit.result_bind _ _ table)

/-- A definition is made from its columns one by one, and then from its keys. -/
theorem table_eq_steps (schemaName : String) (spec : TableSpec) :
    Definition.table schemaName spec =
      match Encoding.resolve (spec.option? "CHARSET") (spec.option? "COLLATE") with
      | .error error => .error (.metadata error)
      | .ok encoding => (do
          let columned ← spec.columns.foldlM (addDeclaredColumn encoding)
            { name := spec.name.name, schemaName, info := tableInfo spec encoding }
          let keyed ← spec.keys.foldlM addKey columned
          return startCounter keyed) := by
  unfold Definition.table
  cases Encoding.resolve (spec.option? "CHARSET") (spec.option? "COLLATE") with
  | error error => rfl
  | ok encoding =>
      simp only [TableEdit.addDeclared, TableEdit.result_bind, TableEdit.result_forM]
      refine congrArg _ (funext fun columned => ?_)
      rw [TableEdit.result_bind, TableEdit.result_forM]
      rfl

end Definition

namespace Session

/-- No action of an alteration writes before all that can fail is behind it. -/
theorem edit_atomic (line : Nat) (name : ObjectName) (action : AlterAction) :
    (edit line name action).Atomic := by
  cases action with
  | addColumn spec =>
      refine TableEdit.Atomic.bind TableEdit.readsOnly_get fun table => ?_
      split
      · exact TableEdit.atomic_throw _
      · exact TableEdit.atomic_addColumn _ spec
  | addKey key => exact TableEdit.atomic_addKey key
  | unsupported text => exact TableEdit.atomic_throw _

/-- An action leaves the new table, or the old one with an error. -/
theorem alter_eq (line : Nat) (name : ObjectName) (table : Table) (action : AlterAction) :
    alter line name table action =
      TableEdit.orUnchanged table ((edit line name action).result table) :=
  (edit_atomic line name action).apply_eq table

theorem alter_of_result_ok {line : Nat} {name : ObjectName} {table changed : Table}
    {action : AlterAction} (h : (edit line name action).result table = .ok changed) :
    alter line name table action = (changed, .ok ()) := by
  rw [alter_eq, h]
  rfl

/-- The outcome of an action is that of its change. -/
theorem snd_alter (line : Nat) (name : ObjectName) (table : Table) (action : AlterAction) :
    (alter line name table action).2 =
      ((edit line name action).result table).map fun _ => () := by
  rw [alter_eq]
  cases (edit line name action).result table <;> rfl

theorem alter_eq_self_or (line : Nat) (name : ObjectName) (table : Table) (action : AlterAction) :
    (alter line name table action).1 = table ∨
      (edit line name action).result table = .ok (alter line name table action).1 := by
  rw [alter_eq]
  cases (edit line name action).result table with
  | error error => exact .inl rfl
  | ok changed => exact .inr rfl

theorem result_edit_addColumn (line : Nat) (name : ObjectName) (spec : ColumnSpec)
    (table : Table) :
    (edit line name (.addColumn spec)).result table =
      match Encoding.ofTable table with
      | .error error => .error (.metadata error)
      | .ok encoding => Definition.addColumn encoding table spec := by
  unfold edit
  rw [TableEdit.result_get_bind]
  cases Encoding.ofTable table <;> rfl

end Session
end SchemaLint
