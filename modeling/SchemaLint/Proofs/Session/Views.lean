import SchemaLint.Proofs.Session.Frame

/-!
# Views

A view has the container and the names of tables, and an alteration that names it extends it like
any table.  So a view is empty exactly as long as no such alteration succeeds in part; every table
that is no view comes from a table definition in any case.

* `Session.isBare_of_unextended` - views along a run, by induction on the last statement.
* `Session.exists_definition` - where the other tables come from.
* `Session.viewsStayEmpty_iff` - the runs in which views stay empty all the time.
-/

namespace SchemaLint

open Sql

/-- A table without columns, indexes and a counter. -/
def Table.IsBare (table : Table) : Prop :=
  table.columns = [] ∧ table.indexes = [] ∧ table.info.autoIncrement = none

/-- Bare tables with the same heading are the same. -/
theorem Table.SameHeading.eq_of_isBare {table other : Table} (h : table.SameHeading other)
    (htable : table.IsBare) (hother : other.IsBare) : other = table := by
  rw [SameHeading, hother.1, hother.2.1, ← htable.1, ← htable.2.1] at h
  exact h

namespace Session

/-- Whether the event is an alteration that adds something to a view. -/
def Event.extendsView (event : Event) : Bool :=
  match event.statement.altered? with
  | none => false
  | some object =>
      let schema := event.before.schemaOf object
      match event.before.catalog.table? schema object.name with
      | none => false
      | some table =>
          table.info.tableType == "VIEW" && event.altered schema object.name table != table

/-- An event that changes a view extends it. -/
theorem Event.extendsView_of_altered {event : Event} {schema name : String} {table : Table}
    (hfound : event.before.catalog.table? schema name = some table)
    (hview : table.info.tableType = "VIEW") (haltered : event.altered schema name table ≠ table) :
    event.extendsView = true := by
  obtain ⟨before, statement⟩ := event
  -- only an alteration that addresses the table changes it
  have hextends : ∀ object, statement.altered? = some object →
      before.addresses schema name object = true →
      Event.extendsView ⟨before, statement⟩ = true := by
    intro object hobject haddresses
    obtain ⟨rfl, rfl⟩ := addresses_iff.1 haddresses
    simp only [Event.extendsView, hobject, hfound, hview, beq_self_eq_true, Bool.true_and]
    exact bne_iff_ne.2 haltered
  cases statement with
  | alterTable object actions =>
      refine hextends object rfl (by_contra fun hother => haltered ?_)
      simp [altered, hother]
  | createIndex object key =>
      refine hextends object rfl (by_contra fun hother => haltered ?_)
      simp [altered, hother]
  | _ => exact absurd rfl haltered

/-- An event that extends a view finds it and leaves it changed. -/
theorem Event.exists_altered_of_extendsView {event : Event} (h : event.extendsView = true) :
    ∃ schema name table, event.before.catalog.table? schema name = some table ∧
      table.info.tableType = "VIEW" ∧ event.drops schema name = false ∧
      event.altered schema name table ≠ table := by
  simp only [Event.extendsView] at h
  split at h
  · cases h
  · next object hobject =>
      split at h
      · cases h
      · next table hfound =>
          obtain ⟨hview, haltered⟩ := Bool.and_eq_true_iff.1 h
          refine ⟨_, _, table, hfound, eq_of_beq hview, ?_, bne_iff_ne.1 haltered⟩
          obtain ⟨before, statement⟩ := event
          cases statement with
          | alterTable _ _ => rfl
          | createIndex _ _ => rfl
          | _ => cases hobject

section Runs

variable {session : Session} {statements : List Statement} {schema name : String}

/-- What is defined as a view is bare. -/
theorem Event.isBare_of_defined {event : Event} {table : Table}
    (h : event.defined? schema = some table) (hview : table.info.tableType = "VIEW") :
    table.IsBare := by
  obtain ⟨before, statement⟩ := event
  cases statement with
  | createTable spec =>
      cases hbuilt : Definition.table schema spec with
      | error error => simp [defined?, hbuilt, Except.toOption] at h
      | ok built =>
          obtain rfl : built = table := by
            simpa [defined?, hbuilt, Except.toOption] using h
          rw [Definition.table_tableType hbuilt] at hview
          exact absurd hview (by decide)
  | createView object =>
      cases h
      exact ⟨rfl, rfl, rfl⟩
  | _ => cases h

/-- As long as no event extends a view, views are bare. -/
theorem isBare_of_unextended (hwf : session.catalog.WellFormed)
    (hempty : ∀ schema name, session.catalog.table? schema name = none)
    (hnone : ∀ event ∈ session.log statements, event.extendsView = false) {table : Table}
    (hfound : (session.applyEach statements).catalog.table? schema name = some table)
    (hview : table.info.tableType = "VIEW") : table.IsBare := by
  induction statements using List.reverseRecOn generalizing table with
  | nil =>
      rw [applyEach, List.foldl_nil, hempty] at hfound
      cases hfound
  | append_singleton statements statement ih =>
      rw [log_concat] at hnone
      have hlast := hnone ⟨session.applyEach statements, statement⟩ (by simp)
      rw [applyEach_append] at hfound
      change (Session.apply _ statement).1.catalog.table? schema name = some table at hfound
      rw [table?_apply (applyEach_wellFormed hwf statements)] at hfound
      cases hbefore : (session.applyEach statements).catalog.table? schema name with
      | some old =>
          rw [hbefore, Event.step] at hfound
          split at hfound
          · cases hfound
          · obtain rfl : Event.altered schema name old ⟨session.applyEach statements, statement⟩ =
              table := Option.some.inj hfound
            -- the view before is bare, and the event leaves it as it is
            have hold : old.info.tableType = "VIEW" := by
              rwa [(Event.altered_heading schema name old _).info_eq] at hview
            have hkept : Event.altered schema name old
                ⟨session.applyEach statements, statement⟩ = old := by
              by_contra haltered
              rw [Event.extendsView_of_altered hbefore hold haltered] at hlast
              cases hlast
            rw [hkept]
            exact ih (fun event hevent => hnone event (List.mem_append_left _ hevent)) hbefore hold
      | none =>
          rw [hbefore, Event.step] at hfound
          split at hfound
          · cases hfound
          · split at hfound
            · exact Event.isBare_of_defined hfound hview
            · cases hfound

/-- A table that is no view comes from a table definition. -/
theorem exists_definition (hwf : session.catalog.WellFormed)
    (hempty : session.catalog.table? schema name = none) {table : Table}
    (hfound : (session.applyEach statements).catalog.table? schema name = some table)
    (hother : table.info.tableType ≠ "VIEW") :
    ∃ earlier birth later spec, session.log statements = earlier ++ birth :: later ∧
      IsBirth (Event.creates schema name) (Event.drops schema name) earlier birth later ∧
      birth.statement = .createTable spec := by
  have hstands := (isSome_table?_applyEach hwf hempty statements).1
    (Option.isSome_of_eq_some hfound)
  obtain ⟨earlier, birth, later, hlog, hbirth⟩ :=
    exists_isBirth_of_stands (fun event => event.drops_eq_false) hstands
  obtain ⟨built, -, -, -, htype, hlater⟩ := table?_of_isBirth hwf hempty hlog hbirth
  rw [hfound, Option.some.injEq] at hlater
  -- the type of the table is still that of the statement
  have hkind : table.info.tableType = birth.tableType := by
    rw [hlater, (heading_foldl_altered schema name later built).info_eq, htype]
  have hbegins := hbirth.begins_birth
  obtain ⟨before, statement⟩ := birth
  cases statement with
  | createTable spec => exact ⟨earlier, _, later, spec, hlog, hbirth, rfl⟩
  | createView object => exact absurd hkind hother
  | _ => cases hbegins

end Runs

/-- The views at the end of a run are empty, and every other table comes from a table
definition. -/
structure ViewsStayEmpty (session : Session) (statements : List Statement) : Prop where
  isBare : ∀ table ∈ (session.applyEach statements).finish.tables,
    table.info.tableType = "VIEW" → table.IsBare
  exists_definition : ∀ table ∈ (session.applyEach statements).finish.tables,
    table.info.tableType ≠ "VIEW" → ∃ earlier birth later spec,
      session.log statements = earlier ++ birth :: later ∧
      IsBirth (Event.creates table.schemaName table.name) (Event.drops table.schemaName table.name)
        earlier birth later ∧
      birth.statement = .createTable spec

/-- Where views stay empty, a view that is found is bare. -/
theorem ViewsStayEmpty.isBare_of_found {session : Session} {statements : List Statement}
    {schema name : String} {table : Table} (h : session.ViewsStayEmpty statements)
    (harranged : (session.applyEach statements).catalog.Arranged)
    (hfound : (session.applyEach statements).catalog.table? schema name = some table)
    (hview : table.info.tableType = "VIEW") : table.IsBare := by
  rw [← table?_finish harranged] at hfound
  obtain ⟨owner, howner, hfound⟩ := Option.bind_eq_some_iff.1 hfound
  exact h.isBare table (Catalog.mem_tables.2
    ⟨owner, List.mem_of_find?_eq_some howner, List.mem_of_find?_eq_some hfound⟩) hview

/-- Views stay empty all along a run, exactly if no alteration in it adds something to a view. -/
theorem viewsStayEmpty_iff {catalog : Catalog} (h : catalog.schemas = [])
    (statements : List Statement) :
    (∀ first rest, statements = first ++ rest → (start catalog).ViewsStayEmpty first) ↔
      ∀ event ∈ (start catalog).log statements, event.extendsView = false := by
  have hwf : (start catalog).catalog.WellFormed := Catalog.wellFormed_of_schemas_eq_nil h
  have hempty : ∀ schema name, (start catalog).catalog.table? schema name = none := by
    intro schema name
    rw [Catalog.table?, Catalog.schema?]
    change Option.bind (catalog.schemas.find? _) _ = none
    rw [h]
    rfl
  have hrun : ∀ first, ((start catalog).applyEach first).catalog.Arranged := fun first =>
    (applyEach_wellFormed hwf first).toArranged
  constructor
  · intro hviews event hevent
    rw [Bool.eq_false_iff]
    intro hextends
    obtain ⟨schema, name, table, hfound, hview, hdrops, haltered⟩ :=
      Event.exists_altered_of_extendsView hextends
    obtain ⟨earlier, later, hlog⟩ := List.append_of_mem hevent
    obtain ⟨first, rest, rfl, -, hbefore, -⟩ := exists_of_log_eq hlog
    have hafter : ((start catalog).applyEach (first ++ [event.statement])).catalog.table?
        schema name = some (event.altered schema name table) := by
      rw [applyEach_append, hbefore]
      change (Session.apply _ event.statement).1.catalog.table? schema name = _
      rw [table?_apply (hbefore ▸ applyEach_wellFormed hwf first), hfound, Event.step, hdrops]
      rfl
    -- it was bare before and is bare after, and so it has not changed
    have hheading := event.altered_heading schema name table
    have hbare := (hviews first (event.statement :: rest) rfl).isBare_of_found (hrun first)
      (hbefore ▸ hfound) hview
    have hbare' := (hviews (first ++ [event.statement]) rest (by simp)).isBare_of_found
      (hrun _) hafter (by rw [hheading.info_eq, hview])
    exact haltered (hheading.eq_of_isBare hbare hbare')
  · rintro hnone first rest rfl
    have hfirst : ∀ event ∈ (start catalog).log first, event.extendsView = false := by
      intro event hevent
      refine hnone event ?_
      rw [log_append]
      exact List.mem_append_left _ hevent
    have hfound : ∀ table ∈ ((start catalog).applyEach first).finish.tables,
        ((start catalog).applyEach first).catalog.table? table.schemaName table.name =
          some table := fun table htable =>
      (hrun first).table?_of_mem (Catalog.mem_tables_retainSchemas htable)
    constructor
    case isBare =>
      exact fun table htable hview =>
        isBare_of_unextended hwf hempty hfirst (hfound table htable) hview
    case exists_definition =>
      exact fun table htable hother =>
        Session.exists_definition hwf (hempty _ _) (hfound table htable) hother

/-- An alteration of a view that fails at once, and one of a table, leave the views empty. -/
theorem viewsStayEmpty_of_failed_alteration :
    let statements : List Statement := [
      .createView { name := "v" },
      .createTable {
        name := { name := "t" }, columns := [{ name := "a", type := { name := "int" } }] },
      .alterTable { name := "t" } [.addColumn { name := "b", type := { name := "int" } }],
      .createIndex { name := "v" } {
        kind := .index, name := some "i", columns := [{ column := "a" }] }]
    (∀ event ∈ (start {}).log statements, event.extendsView = false) ∧
      ∀ first rest, statements = first ++ rest → (start {}).ViewsStayEmpty first :=
  ⟨by decide +kernel, (viewsStayEmpty_iff rfl _).2 (by decide +kernel)⟩

/-- A column can be added to a view. -/
theorem not_viewsStayEmpty_of_added_column :
    ¬ (start {}).ViewsStayEmpty [
        .createView { name := "v" },
        .alterTable { name := "v" } [.addColumn { name := "a", type := { name := "int" } }]] := by
  intro h
  have hcolumns := fun table htable hview => (h.isBare table htable hview).1
  revert hcolumns
  decide +kernel

end Session
end SchemaLint
