import SchemaLint.Proofs.Catalog.Edit
import SchemaLint.Session

/-!
# Runs of statements

A run applies statements one after another and goes on after an error.  Whatever the statements
are and however they end, the catalog changes by a few edits only, so a property that every edit
keeps holds after every run (`Session.edited_applyEach`).

The edits carry the names that keys other than the primary key ask for, because some properties
hold only as long as these names satisfy a condition.
-/

namespace SchemaLint

open Sql

namespace Sql

/-- The name that a key clause asks for, unless it is for the primary key. -/
def KeyClause.secondaryName? (key : KeyClause) : Option String :=
  if Definition.isPrimaryClause key then none else key.name

/-- The names that the keys of a table definition ask for, the primary key left out.  A column
that is unique by itself asks for an index of its own name. -/
def TableSpec.secondaryNames (spec : TableSpec) : List String :=
  (spec.columns.filter ColumnSpec.unique).map ColumnSpec.name ++
    spec.keys.filterMap KeyClause.secondaryName?

/-- The name that the key of an action asks for. -/
def AlterAction.secondaryName? : AlterAction → Option String
  | .addKey key => key.secondaryName?
  | .addColumn _ | .unsupported _ => none

/-- The names that the keys of a statement ask for, primary keys left out. -/
def Statement.secondaryNames : Statement → List String
  | .createTable spec => spec.secondaryNames
  | .alterTable _ actions => actions.filterMap AlterAction.secondaryName?
  | .createIndex _ key => key.secondaryName?.toList
  | _ => []

end Sql

namespace Catalog

/-- The changes of a catalog that statements are made of. -/
inductive Edited (Named : String → Prop) : Catalog → Catalog → Prop
  | refl (catalog : Catalog) : Edited Named catalog catalog
  | trans {first second third : Catalog} :
      Edited Named first second → Edited Named second third → Edited Named first third
  | ensureSchema (catalog : Catalog) (name : String) :
      Edited Named catalog (catalog.ensureSchema name)
  | removeSchema (catalog : Catalog) (name : String) :
      Edited Named catalog (catalog.removeSchema name)
  | addView (catalog : Catalog) (schema name : String) :
      Edited Named catalog (Session.addTable catalog schema (Definition.view schema name))
  | addTable (catalog : Catalog) {schema : String} {spec : TableSpec} {table : Table}
      (hnames : ∀ name ∈ spec.secondaryNames, Named name)
      (hbuilt : Definition.table schema spec = .ok table) :
      Edited Named catalog (Session.addTable catalog schema table)
  | removeTable (catalog : Catalog) (schema name : String) :
      Edited Named catalog (catalog.modifySchema schema (·.removeTable name))
  | alterTable (catalog : Catalog) (schema name : String) (line : Nat) (object : ObjectName)
      {actions : List AlterAction}
      (hnames : ∀ name ∈ actions.filterMap AlterAction.secondaryName?, Named name) :
      Edited Named catalog (catalog.modifyTable schema name fun table =>
        (Outcome.runAll (Session.alter line object) table actions).1)
  | addUser (catalog : Catalog) (creation : UserCreation) (spec : UserSpec) :
      Edited Named catalog (Session.addUser creation catalog spec)
  | grant (catalog : Catalog) (user host : String) (privileges : List String) :
      Edited Named catalog (catalog.modifyAccount user host fun account =>
        privileges.foldl Account.grant account)

/-- Edits are about schemas and accounts only. -/
theorem Edited.frame {Named : String → Prop} {first second : Catalog}
    (hedit : Edited Named first second) :
    second.name = first.name ∧ second.sessionVariables = first.sessionVariables ∧
      second.queries = first.queries := by
  induction hedit with
  | refl _ => exact ⟨rfl, rfl, rfl⟩
  | trans _ _ ih₁ ih₂ =>
      exact ⟨ih₂.1.trans ih₁.1, ih₂.2.1.trans ih₁.2.1, ih₂.2.2.trans ih₁.2.2⟩
  | ensureSchema catalog name =>
      rw [ensureSchema_eq]
      exact ⟨rfl, rfl, rfl⟩
  | removeSchema catalog name => exact ⟨rfl, rfl, rfl⟩
  | addView catalog schema name =>
      rw [Session.addTable, ensureSchema_eq]
      exact ⟨rfl, rfl, rfl⟩
  | addTable catalog _ _ =>
      rw [Session.addTable, ensureSchema_eq]
      exact ⟨rfl, rfl, rfl⟩
  | removeTable catalog schema name => exact ⟨rfl, rfl, rfl⟩
  | alterTable catalog schema name line object _ => exact ⟨rfl, rfl, rfl⟩
  | addUser catalog creation spec =>
      unfold Session.addUser
      split <;> exact ⟨rfl, rfl, rfl⟩
  | grant catalog user host privileges => exact ⟨rfl, rfl, rfl⟩

/-- Edits one after another are an edit. -/
theorem edited_foldl {Named : String → Prop} {α : Type} {step : Catalog → α → Catalog}
    (hstep : ∀ catalog item, Edited Named catalog (step catalog item)) (items : List α)
    (catalog : Catalog) : Edited Named catalog (items.foldl step catalog) := by
  induction items generalizing catalog with
  | nil => exact .refl catalog
  | cons item items ih => exact .trans (hstep catalog item) (ih (step catalog item))

end Catalog

namespace Session

open Catalog (Edited)

/-- Applies statements one after another, whether they succeed or fail. -/
def applyEach (session : Session) (statements : List Statement) : Session :=
  statements.foldl (fun session statement => (session.apply statement).1) session

/-- A change of a table changes the table that is addressed, if there is one, and nothing else. -/
theorem catalog_changeTable (session : Session) (name : ObjectName)
    (change : Table → Table × Outcome) :
    (session.changeTable name change).1.catalog =
      session.catalog.modifyTable (session.schemaOf name) name.name fun table =>
        (change table).1 := by
  simp only [changeTable]
  split
  · next hmissing =>
      refine (Catalog.modifyTable_eq_self fun table htable => ?_).symm
      rw [hmissing] at htable
      cases htable
  -- the result was made from the table that is found, which is the one that is replaced
  · next table htable =>
      change session.catalog.modifyTable _ _ (fun _ => (change table).1) = _
      refine Catalog.modifyTable_congr fun other hother => ?_
      rw [htable, Option.some.injEq] at hother
      rw [hother]

theorem runAll_singleton {σ α : Type} (step : σ → α → σ × Outcome) (state : σ) (item : α) :
    Outcome.runAll step state [item] = step state item := by
  rw [Outcome.runAll]
  split
  · next h => exact h.symm
  · next h => exact h.symm

theorem edited_dropTables {Named : String → Prop} (names : List ObjectName) (session : Session) :
    Edited Named session.catalog (names.foldl dropTable session).catalog := by
  induction names generalizing session with
  | nil => exact .refl session.catalog
  | cons name names ih =>
      exact .trans (.removeTable session.catalog (session.schemaOf name) name.name)
        (ih (session.dropTable name))

/-- What a statement does to the catalog, in whatever way it ends. -/
theorem edited_apply {Named : String → Prop} (session : Session) (statement : Statement)
    (hnames : ∀ name ∈ statement.secondaryNames, Named name) :
    Edited Named session.catalog (session.apply statement).1.catalog := by
  cases statement with
  | createDatabase name _ => exact .ensureSchema session.catalog name
  | use _ => exact .refl session.catalog
  | dropDatabase name _ => exact .removeSchema session.catalog name
  | createTable spec =>
      simp only [apply, createTable]
      split
      · exact .refl session.catalog
      · cases hbuilt : Definition.table (session.schemaOf spec.name) spec with
        | error _ => exact .refl session.catalog
        | ok table => exact .addTable session.catalog hnames hbuilt
  | createView name => exact .addView session.catalog (session.schemaOf name) name.name
  | dropTable names _ => exact edited_dropTables names session
  | alterTable table actions =>
      simp only [apply, alterTable, catalog_changeTable]
      exact .alterTable session.catalog _ _ session.line table hnames
  | createIndex table key =>
      simp only [apply, createIndex, catalog_changeTable]
      have hedit : Edited Named session.catalog
          (session.catalog.modifyTable (session.schemaOf table) table.name fun target =>
            (Outcome.runAll (alter session.line table) target [.addKey key]).1) :=
        .alterTable session.catalog _ _ session.line table
          (by simpa [Statement.secondaryNames, AlterAction.secondaryName?] using hnames)
      simpa only [runAll_singleton] using hedit
  | createUser creation =>
      exact Catalog.edited_foldl (fun catalog spec => .addUser catalog creation spec)
        creation.users session.catalog
  | grant grant =>
      simp only [apply, grantPrivileges]
      split
      · exact Catalog.edited_foldl
          (fun catalog grantee =>
            .grant catalog grantee.1 grantee.2 (grantedPrivileges grant))
          grant.grantees session.catalog
      · exact .refl session.catalog
  | inert _ => exact .refl session.catalog
  | unsupported _ => exact .refl session.catalog

/-- What a run does to the catalog. -/
theorem edited_applyEach {Named : String → Prop} (statements : List Statement)
    (hnames : ∀ statement ∈ statements, ∀ name ∈ statement.secondaryNames, Named name)
    (session : Session) :
    Edited Named session.catalog (session.applyEach statements).catalog := by
  induction statements generalizing session with
  | nil => exact .refl session.catalog
  | cons statement statements ih =>
      rw [List.forall_mem_cons] at hnames
      exact .trans (edited_apply session statement hnames.1)
        (ih hnames.2 (session.apply statement).1)

end Session
end SchemaLint
