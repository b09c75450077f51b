import SchemaLint.Proofs.Session.WellFormed

/-!
# What a statement that fails leaves behind

A statement that fails leaves the session as it was, an alteration excepted.  An alteration by
several actions is the run of the alterations by one action each, up to the first that fails, so
it leaves what the actions before that one did (`Session.failsCleanly`).
-/

namespace SchemaLint

open Sql

namespace Outcome

variable {σ α : Type} {step : σ → α → σ × Outcome}

theorem runAll_map {β : Type} (f : β → α) : ∀ (items : List β) (state : σ),
    runAll step state (items.map f) = runAll (fun state item => step state (f item)) state items
  | [], _ => rfl
  | item :: items, state => by
      rw [List.map_cons, runAll, runAll]
      simp only [runAll_map f items]

/-- A run that fails ran all items up to one that fails. -/
theorem exists_of_runAll_eq_error : ∀ {items : List α} {state after : σ} {error : CatalogError},
    runAll step state items = (after, .error error) →
    ∃ done failing rest before, items = done ++ failing :: rest ∧
      runAll step state done = (before, .ok ()) ∧ step before failing = (after, .error error)
  | [], _, _, _, h => by simp [runAll] at h
  | item :: items, state, after, error, h => by
      cases hstep : step state item with
      | mk next outcome =>
          cases outcome with
          | error other =>
              rw [runAll, hstep] at h
              exact ⟨[], item, items, state, rfl, rfl, hstep.trans h⟩
          | ok _ =>
              rw [runAll, hstep] at h
              obtain ⟨done, failing, rest, before, rfl, hdone, hfailing⟩ :=
                exists_of_runAll_eq_error h
              refine ⟨item :: done, failing, rest, before, rfl, ?_, hfailing⟩
              rw [runAll, hstep]
              exact hdone

end Outcome

namespace Session

variable {session : Session} {name : ObjectName}

theorem changeTable_of_missing
    (h : session.catalog.table? (session.schemaOf name) name.name = none)
    (change : Table → Table × Outcome) :
    session.changeTable name change =
      (session, .error (.missingTable (session.schemaOf name ++ "." ++ name.name))) := by
  simp only [changeTable, h]

theorem changeTable_of_found {table : Table}
    (h : session.catalog.table? (session.schemaOf name) name.name = some table)
    (change : Table → Table × Outcome) :
    session.changeTable name change =
      (session.withCatalog (session.catalog.modifyTable (session.schemaOf name) name.name
        fun _ => (change table).1), (change table).2) := by
  simp only [changeTable, h]

/-- A change that fails leaves the session as it was, if it leaves tables so when it fails. -/
theorem changeTable_eq_self_of_error {change : Table → Table × Outcome}
    (hchange : ∀ table error, (change table).2 = .error error → (change table).1 = table)
    {error : CatalogError} (h : (session.changeTable name change).2 = .error error) :
    (session.changeTable name change).1 = session := by
  cases hfound : session.catalog.table? (session.schemaOf name) name.name with
  | none => rw [changeTable_of_missing hfound]
  | some table =>
      rw [changeTable_of_found hfound] at h ⊢
      have hsame : session.catalog.modifyTable (session.schemaOf name) name.name
          (fun _ => (change table).1) = session.catalog := by
        refine Catalog.modifyTable_eq_self fun other hother => ?_
        cases hfound.symm.trans hother
        exact hchange table error h
      exact congrArg session.withCatalog hsame

/-- A change finds the table that the change before it left, and takes its place. -/
theorem changeTable_of_changed {table stepped : Table}
    (h : session.catalog.table? (session.schemaOf name) name.name = some table)
    (hname : stepped.name = table.name) (change : Table → Table × Outcome) :
    (session.withCatalog (session.catalog.modifyTable (session.schemaOf name) name.name
        fun _ => stepped)).changeTable name change =
      (session.withCatalog (session.catalog.modifyTable (session.schemaOf name) name.name
        fun _ => (change stepped).1), (change stepped).2) := by
  have hkept : ∀ other : Table, other.name = name.name → stepped.name = name.name :=
    fun _ _ => hname.trans (Catalog.name_of_table?_eq_some h)
  have hfound := Catalog.table?_modifyTable session.catalog (session.schemaOf name) name.name
    (f := fun _ => stepped) hkept
  rw [h, Option.map_some] at hfound
  refine (@changeTable_of_found (session.withCatalog _) name stepped hfound change).trans ?_
  have hcatalog := Catalog.modifyTable_modifyTable session.catalog (session.schemaOf name)
    name.name (g := fun _ => (change stepped).1) hkept
  exact congrArg (fun catalog => (session.withCatalog catalog, (change stepped).2)) hcatalog

/-- A change in steps is a run of changes by one step each, if no step renames the table. -/
theorem changeTable_runAll {α : Type} {step : Nat → Table → α → Table × Outcome}
    (hname : ∀ line table item, (step line table item).1.name = table.name) (items : List α)
    (item : α) :
    session.changeTable name
        (fun table => Outcome.runAll (step session.line) table (item :: items)) =
      Outcome.runAll
        (fun session item => session.changeTable name fun table => step session.line table item)
        session (item :: items) := by
  induction items generalizing item session with
  | nil => simp only [runAll_singleton]
  | cons next items ih =>
      rw [Outcome.runAll]
      cases hfound : session.catalog.table? (session.schemaOf name) name.name with
      | none => simp only [changeTable_of_missing hfound]
      | some table =>
          have hstepped := hname session.line table item
          rw [changeTable_of_found hfound, changeTable_of_found hfound, Outcome.runAll]
          cases hstep : step session.line table item with
          | mk stepped outcome =>
              rw [hstep] at hstepped
              cases outcome with
              | error error => rfl
              | ok _ => exact (changeTable_of_changed hfound hstepped _).symm.trans (ih next)

/-- An action that fails leaves the table as it was, because all that can fail comes first. -/
theorem alter_eq_self_of_error (line : Nat) (name : ObjectName) (action : AlterAction)
    (table : Table) (error : CatalogError) (h : (alter line name table action).2 = .error error) :
    (alter line name table action).1 = table :=
  edit_atomic line name action table error h

/-- The alterations of a table by one action each. -/
def singleAlterations (name : ObjectName) (actions : List AlterAction) : List Statement :=
  actions.map fun action => .alterTable name [action]

/-- What statements that fail leave behind. -/
structure FailsCleanly (session : Session) : Prop where
  /-- A statement other than an alteration leaves all as it was. -/
  unchanged : ∀ statement error, (∀ name actions, statement ≠ .alterTable name actions) →
    (session.apply statement).2 = .error error → (session.apply statement).1 = session
  /-- An alteration is as good as one alteration after another, up to the first that fails. -/
  stepwise : ∀ name actions, actions ≠ [] →
    session.apply (.alterTable name actions) =
      Outcome.runAll apply session (singleAlterations name actions)
  /-- An alteration that fails leaves what the actions before the one that fails did. -/
  stopped : ∀ name actions error, actions ≠ [] →
    (session.apply (.alterTable name actions)).2 = .error error →
    ∃ done failing rest, actions = done ++ failing :: rest ∧
      Outcome.runAll apply session (singleAlterations name done) =
        ((session.apply (.alterTable name actions)).1, .ok ()) ∧
      (session.apply (.alterTable name actions)).1.apply (.alterTable name [failing]) =
        ((session.apply (.alterTable name actions)).1, .error error)

theorem alterTable_eq_runAll (action : AlterAction) (actions : List AlterAction) :
    session.alterTable name (action :: actions) =
      Outcome.runAll apply session (singleAlterations name (action :: actions)) := by
  have hsingle : ∀ (session : Session) (action : AlterAction),
      session.apply (.alterTable name [action]) =
        session.changeTable name fun table => alter session.line name table action :=
    fun session action => by simp only [apply, alterTable, runAll_singleton]
  rw [singleAlterations, Outcome.runAll_map]
  simp only [hsingle]
  exact changeTable_runAll
    (fun line table action => (alter_heading line name table action).name_eq)
    actions action

/-- A statement that fails leaves the session as it was, unless it has several parts. -/
theorem apply_eq_self_of_error {statement : Statement} {error : CatalogError}
    (hsingle : ∀ name actions, statement = .alterTable name actions → actions.length = 1)
    (h : (session.apply statement).2 = .error error) : (session.apply statement).1 = session := by
  cases statement with
  | createTable spec =>
      simp only [apply, createTable] at h ⊢
      split at h
      · cases h
      · next hnew =>
          rw [if_neg hnew]
          split at h
          · rfl
          · cases h
  | createIndex table key =>
      exact changeTable_eq_self_of_error (alter_eq_self_of_error session.line table (.addKey key)) h
  | alterTable table actions =>
      obtain ⟨action, rfl⟩ := List.length_eq_one_iff.1 (hsingle table actions rfl)
      simp only [apply, alterTable, runAll_singleton] at h ⊢
      exact changeTable_eq_self_of_error (alter_eq_self_of_error session.line table action) h
  | unsupported text => rfl
  | _ => cases h

/-- Every session is left cleanly by statements that fail. -/
theorem failsCleanly (session : Session) : session.FailsCleanly where
  unchanged := fun statement error hkind =>
    apply_eq_self_of_error fun name actions h => absurd h (hkind name actions)
  stepwise := by
    intro name actions hactions
    cases actions with
    | nil => exact absurd rfl hactions
    | cons action actions => exact alterTable_eq_runAll action actions
  stopped := by
    intro name actions error hactions h
    cases actions with
    | nil => exact absurd rfl hactions
    | cons action actions =>
        have hrun : Outcome.runAll (fun session action => session.apply (.alterTable name [action]))
            session (action :: actions) =
              ((session.apply (.alterTable name (action :: actions))).1, .error error) := by
          rw [← Outcome.runAll_map, ← singleAlterations, ← alterTable_eq_runAll, ← h]
          rfl
        obtain ⟨done, failing, rest, before, hactions, hdone, hfailing⟩ :=
          Outcome.exists_of_runAll_eq_error hrun
        -- the action that fails changes nothing, so what is left is what the others did
        have herror : (before.apply (.alterTable name [failing])).2 = .error error := by
          rw [hfailing]
        have hkept : (before.apply (.alterTable name [failing])).1 = before := by
          refine apply_eq_self_of_error ?_ herror
          rintro _ _ hsame
          cases hsame
          rfl
        rw [hfailing] at hkept
        change (session.apply _).1 = before at hkept
        rw [hkept] at hfailing ⊢
        refine ⟨done, failing, rest, hactions, ?_, hfailing⟩
        rw [singleAlterations, Outcome.runAll_map]
        exact hdone

/-- The second of three actions fails, and only the first one is in effect. -/
example : (((start {}).applyEach [
    .createTable {
      name := { name := "t" }, columns := [{ name := "a", type := { name := "int" } }] },
    .alterTable { name := "t" } [
      .addColumn { name := "b", type := { name := "int" } },
      .addColumn { name := "A", type := { name := "int" } },
      .addColumn { name := "c", type := { name := "int" } }]]).catalog.tables.map fun table =>
        table.columns.map Column.name) = [["a", "b"]] := by
  decide

end Session
end SchemaLint
