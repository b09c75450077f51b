import Mathlib.Data.List.Induction
import SchemaLint.Proofs.Session.Effect

/-!
# The catalog as its log tells it

After any run on a catalog without schemas, the log says which tables and schemas there are and
what they are:

* `Stands` is the judgement on logs: something begins and nothing later ends it.
* `applyEach_iff_stands` carries it through the run, by induction on the last statement; what is
  carried is that there is a table or a schema, and each step is the effect of one event.
* `IsBirth` finds the event that a table comes from, `table?_of_isBirth` follows the table from
  there, and `ToldBy` is what the log says in all.
-/

namespace SchemaLint

open Sql

namespace Session

/-- At some event of the log it begins, and at no later one does it end. -/
def Stands (begins ends : Event → Bool) (log : List Event) : Prop :=
  ∃ earlier event later, log = earlier ++ event :: later ∧ begins event = true ∧
    ∀ next ∈ later, ends next = false

variable {begins ends : Event → Bool} {log : List Event}

theorem not_stands_nil : ¬ Stands begins ends [] := by
  rintro ⟨earlier, event, later, hlog, -⟩
  simp at hlog

/-- After one more event it stands if it begins there, or has stood and does not end there. -/
theorem stands_concat {event : Event} :
    Stands begins ends (log ++ [event]) ↔
      begins event = true ∨ (Stands begins ends log ∧ ends event = false) := by
  constructor
  · rintro ⟨earlier, first, later, hlog, hbegins, hlater⟩
    rcases List.eq_nil_or_concat later with rfl | ⟨rest, last, rfl⟩
    · have hlast : event = first := by
        have hends := congrArg List.getLast? hlog
        simpa using hends
      exact .inl (hlast ▸ hbegins)
    · have hsplit : log ++ [event] = (earlier ++ first :: rest) ++ [last] := by
        simpa using hlog
      obtain ⟨rfl, hlast⟩ := List.append_inj' hsplit rfl
      obtain rfl : event = last := by simpa using hlast
      refine .inr ⟨⟨earlier, first, rest, rfl, hbegins, fun next hnext => ?_⟩, ?_⟩
      · exact hlater next (by simp [hnext])
      · exact hlater event (by simp)
  · rintro (hbegins | ⟨⟨earlier, first, later, rfl, hbegins, hlater⟩, hends⟩)
    · exact ⟨log, event, [], rfl, hbegins, by simp⟩
    · refine ⟨earlier, first, later ++ [event], by simp, hbegins, fun next hnext => ?_⟩
      rcases List.mem_append.1 hnext with hnext | hnext
      · exact hlater next hnext
      · rw [List.mem_singleton.1 hnext, hends]

/-- The earliest of the events that it begins at after all those that it ends at. -/
structure IsBirth (begins ends : Event → Bool) (earlier : List Event) (birth : Event)
    (later : List Event) : Prop where
  begins_birth : begins birth = true
  not_stands : ¬ Stands begins ends earlier
  lasting : ∀ event ∈ later, ends event = false

/-- What stands comes from such an event, if nothing begins and ends at once. -/
theorem exists_isBirth_of_stands (hexclusive : ∀ event, begins event = true → ends event = false)
    (h : Stands begins ends log) :
    ∃ earlier birth later, log = earlier ++ birth :: later ∧
      IsBirth begins ends earlier birth later := by
  induction log using List.reverseRecOn with
  | nil => exact absurd h not_stands_nil
  | append_singleton log last ih =>
      by_cases hlog : Stands begins ends log
      · obtain ⟨earlier, birth, later, rfl, hbirth⟩ := ih hlog
        have hends : ends last = false := by
          rcases stands_concat.1 h with hbegins | ⟨-, hends⟩
          · exact hexclusive last hbegins
          · exact hends
        refine ⟨earlier, birth, later ++ [last], by simp, hbirth.begins_birth,
          hbirth.not_stands, fun event hevent => ?_⟩
        rcases List.mem_append.1 hevent with hevent | hevent
        · exact hbirth.lasting event hevent
        · rw [List.mem_singleton.1 hevent, hends]
      · have hbegins : begins last = true := by
          rcases stands_concat.1 h with hbegins | ⟨hlog', -⟩
          · exact hbegins
          · exact absurd hlog' hlog
        exact ⟨log, last, [], rfl, hbegins, hlog, by simp⟩

section Runs

variable {session : Session}

theorem applyEach_append (session : Session) (first second : List Statement) :
    session.applyEach (first ++ second) = (session.applyEach first).applyEach second :=
  List.foldl_append

theorem log_append (session : Session) (first second : List Statement) :
    session.log (first ++ second) =
      session.log first ++ (session.applyEach first).log second := by
  induction first generalizing session with
  | nil => rfl
  | cons head first ih => exact congrArg (_ :: ·) (ih (session.apply head).1)

theorem log_concat (session : Session) (statements : List Statement) (statement : Statement) :
    session.log (statements ++ [statement]) =
      session.log statements ++ [⟨session.applyEach statements, statement⟩] :=
  log_append session statements [statement]

/-- An event of a run splits the run. -/
theorem exists_of_log_eq {statements : List Statement} {earlier later : List Event}
    {event : Event} (h : session.log statements = earlier ++ event :: later) :
    ∃ first rest, statements = first ++ event.statement :: rest ∧
      session.log first = earlier ∧ session.applyEach first = event.before ∧
      event.after.log rest = later := by
  induction earlier generalizing session statements with
  | nil =>
      cases statements with
      | nil => cases h
      | cons statement statements =>
          obtain ⟨rfl, rfl⟩ := List.cons.inj h
          exact ⟨[], statements, rfl, rfl, rfl, rfl⟩
  | cons head earlier ih =>
      cases statements with
      | nil => cases h
      | cons statement statements =>
          obtain ⟨rfl, hrest⟩ := List.cons.inj h
          obtain ⟨first, rest, rfl, hearlier, hbefore, hlater⟩ := ih hrest
          exact ⟨statement :: first, rest, rfl, congrArg (_ :: ·) hearlier, hbefore, hlater⟩

end Runs

variable {schema name : String}

/-- A creation of a table that is not there defines it. -/
theorem Event.exists_defined {event : Event} (h : event.creates schema name = true)
    (hnone : event.before.catalog.table? schema name = none) :
    ∃ built, event.defined? schema = some built ∧ built.name = name ∧
      built.schemaName = schema ∧ built.info.tableType = event.tableType := by
  obtain ⟨before, statement⟩ := event
  obtain ⟨hcreated, hok⟩ := Bool.and_eq_true_iff.1 h
  cases statement with
  | createTable spec =>
      obtain ⟨rfl, rfl⟩ := addresses_iff.1 hcreated
      change (before.createTable spec).2.isOk = true at hok
      rcases createTable_cases before spec with ⟨hexists, -⟩ | ⟨error, hfailed⟩ |
        ⟨built, -, hbuilt, -⟩
      · simp [hnone] at hexists
      · simp [hfailed, Except.isOk, Except.toBool] at hok
      · obtain ⟨hname, hschema⟩ := Definition.table_heading hbuilt
        refine ⟨built, ?_, hname, hschema, Definition.table_tableType hbuilt⟩
        change (Definition.table (before.schemaOf spec.name) spec).toOption = some built
        rw [hbuilt]
        rfl
  | createView object =>
      obtain ⟨rfl, rfl⟩ := addresses_iff.1 hcreated
      exact ⟨_, rfl, rfl, rfl, rfl⟩
  | _ => cases hcreated

section Runs

variable {session : Session}

/-- A table is there after a statement if it is created there, or was there and is not dropped. -/
theorem isSome_table?_apply (h : session.catalog.WellFormed) (statement : Statement)
    (schema name : String) :
    ((session.apply statement).1.catalog.table? schema name).isSome =
      (Event.creates schema name ⟨session, statement⟩ ||
        ((session.catalog.table? schema name).isSome &&
          !Event.drops schema name ⟨session, statement⟩)) := by
  rw [table?_apply h]
  generalize hevent : Event.mk session statement = event
  obtain rfl : event.before = session := by rw [← hevent]
  cases hcreates : event.creates schema name with
  | true =>
      have hdrops := Event.drops_eq_false hcreates
      cases hfound : event.before.catalog.table? schema name with
      | some table => simp [Event.step, hdrops]
      | none =>
          obtain ⟨built, hbuilt, -⟩ := Event.exists_defined hcreates hfound
          simp [Event.step, hdrops, hcreates, hbuilt]
  | false =>
      cases hdrops : event.drops schema name with
      | true => simp [Event.step, hdrops]
      | false => simp [Event.step_of_lasts hdrops hcreates]

/-- What every statement begins or ends as its event says is there after a run exactly if it stands
in the log. -/
theorem applyEach_iff_stands (there : Session → Bool)
    (hstep : ∀ before : Session, before.catalog.WellFormed → ∀ statement,
      there (before.apply statement).1 =
        (begins ⟨before, statement⟩ || (there before && !ends ⟨before, statement⟩)))
    (hwf : session.catalog.WellFormed) (hstart : there session = false)
    (statements : List Statement) :
    there (session.applyEach statements) = true ↔
      Stands begins ends (session.log statements) := by
  induction statements using List.reverseRecOn with
  | nil => exact iff_of_false (by simp [applyEach, hstart]) not_stands_nil
  | append_singleton statements statement ih =>
      rw [log_concat, stands_concat, ← ih, applyEach_append]
      change there (Session.apply _ statement).1 = true ↔ _
      rw [hstep _ (applyEach_wellFormed hwf statements)]
      simp

/-- There is a table exactly if its creation stands. -/
theorem isSome_table?_applyEach (hwf : session.catalog.WellFormed)
    (hempty : session.catalog.table? schema name = none) (statements : List Statement) :
    ((session.applyEach statements).catalog.table? schema name).isSome = true ↔
      Stands (Event.creates schema name) (Event.drops schema name) (session.log statements) :=
  applyEach_iff_stands (fun session => (session.catalog.table? schema name).isSome)
    (fun _ hbefore statement => isSome_table?_apply hbefore statement schema name) hwf
    (by rw [hempty, Option.isSome_none]) statements

/-- There is a schema exactly if its creation stands. -/
theorem isSome_schema?_applyEach (hwf : session.catalog.WellFormed)
    (hempty : session.catalog.schema? schema = none) (statements : List Statement) :
    ((session.applyEach statements).catalog.schema? schema).isSome = true ↔
      Stands (Event.createsSchema schema) (Event.dropsSchema schema)
        (session.log statements) :=
  applyEach_iff_stands (fun session => (session.catalog.schema? schema).isSome)
    (fun _ hbefore statement => isSome_schema?_apply hbefore.toArranged statement schema) hwf
    (by rw [hempty, Option.isSome_none]) statements

/-- A table that is not dropped goes from alteration to alteration. -/
theorem table?_applyEach_of_some (hwf : session.catalog.WellFormed) {table : Table}
    (hfound : session.catalog.table? schema name = some table) {statements : List Statement}
    (hlasting : ∀ event ∈ session.log statements, event.drops schema name = false) :
    (session.applyEach statements).catalog.table? schema name =
      some ((session.log statements).foldl (Event.altered schema name) table) := by
  induction statements generalizing session table with
  | nil => exact hfound
  | cons statement statements ih =>
      rw [log, List.forall_mem_cons] at hlasting
      obtain ⟨hkept, hlasting⟩ := hlasting
      have hnext : (session.apply statement).1.catalog.table? schema name =
          some (Event.altered schema name table ⟨session, statement⟩) := by
        rw [table?_apply hwf, hfound, Event.step, hkept]
        rfl
      exact ih (applyEach_wellFormed hwf [statement]) hnext hlasting

theorem heading_foldl_altered (schema name : String) (events : List Event) (table : Table) :
    table.SameHeading (events.foldl (Event.altered schema name) table) :=
  List.foldlRecOn (motive := table.SameHeading) events _ (.refl table)
    fun current hcurrent event _ => hcurrent.trans (event.altered_heading schema name current)

/-- A table is what its birth defines, altered by the events after that. -/
theorem table?_of_isBirth (hwf : session.catalog.WellFormed)
    (hempty : session.catalog.table? schema name = none) {statements : List Statement}
    {earlier later : List Event} {birth : Event}
    (hlog : session.log statements = earlier ++ birth :: later)
    (hbirth : IsBirth (Event.creates schema name) (Event.drops schema name) earlier birth later) :
    ∃ built, birth.defined? schema = some built ∧ built.name = name ∧
      built.schemaName = schema ∧ built.info.tableType = birth.tableType ∧
      (session.applyEach statements).catalog.table? schema name =
        some (later.foldl (Event.altered schema name) built) := by
  obtain ⟨first, rest, rfl, rfl, hbefore, rfl⟩ := exists_of_log_eq hlog
  have hwf' : birth.before.catalog.WellFormed := hbefore ▸ applyEach_wellFormed hwf first
  -- what is created for the first time is not there
  have hnone : birth.before.catalog.table? schema name = none := by
    have hstands := hbirth.not_stands
    rw [← isSome_table?_applyEach hwf hempty, hbefore] at hstands
    simpa using hstands
  obtain ⟨built, hbuilt, hname, hschema, htype⟩ := Event.exists_defined hbirth.begins_birth hnone
  have hafter : birth.after.catalog.table? schema name = some built := by
    rw [Event.after, table?_apply hwf', hnone, Event.step]
    simp [Event.drops_eq_false hbirth.begins_birth, hbirth.begins_birth, hbuilt]
  refine ⟨built, hbuilt, hname, hschema, htype, ?_⟩
  have hrun : session.applyEach (first ++ birth.statement :: rest) =
      birth.after.applyEach rest := by
    rw [applyEach_append, hbefore]
    rfl
  rw [hrun]
  exact table?_applyEach_of_some (applyEach_wellFormed hwf' [birth.statement]) hafter
    hbirth.lasting

end Runs

/-- The tables and schemas of a catalog are those that a log tells of. -/
structure ToldBy (log : List Event) (catalog : Catalog) : Prop where
  /-- There is a table exactly if its creation stands. -/
  table_iff : ∀ schema name, (catalog.table? schema name).isSome = true ↔
    Stands (Event.creates schema name) (Event.drops schema name) log
  /-- It comes from one event. -/
  exists_birth : ∀ schema name, (catalog.table? schema name).isSome = true →
    ∃ earlier birth later, log = earlier ++ birth :: later ∧
      IsBirth (Event.creates schema name) (Event.drops schema name) earlier birth later
  /-- That event gives its name, its type and what it is before it is altered. -/
  table_eq : ∀ schema name earlier birth later, log = earlier ++ birth :: later →
    IsBirth (Event.creates schema name) (Event.drops schema name) earlier birth later →
    ∃ built table, birth.defined? schema = some built ∧
      catalog.table? schema name = some table ∧
      table = later.foldl (Event.altered schema name) built ∧
      built.SameHeading table ∧ table.name = name ∧ table.schemaName = schema ∧
      table.info.tableType = birth.tableType
  /-- The schema of unnamed tables is there exactly if there is a table in it. -/
  unnamed_iff : (catalog.schema? unnamedSchema).isSome = true ↔
    ∃ name, (catalog.table? unnamedSchema name).isSome = true
  /-- Any other schema is there exactly if its creation stands. -/
  schema_iff : ∀ schema, schema ≠ unnamedSchema → ((catalog.schema? schema).isSome = true ↔
    Stands (Event.createsSchema schema) (Event.dropsSchema schema) log)

/-- The schema that is left out at the end has no tables. -/
theorem table?_finish {session : Session} (h : session.catalog.Arranged) (schema name : String) :
    session.finish.table? schema name = session.catalog.table? schema name := by
  rw [Catalog.table?, finish, Catalog.schema?_retainSchemas h, Catalog.table?]
  cases hfound : session.catalog.schema? schema with
  | none => rfl
  | some owner =>
      by_cases hkeep : (owner.name != unnamedSchema || !owner.isEmpty) = true
      · simp [Option.filter, hkeep]
      · have hempty : owner.tables = [] := by
          simp only [Schema.isEmpty, Bool.or_eq_true, not_or] at hkeep
          simpa using hkeep.2
        simp [Option.filter, hkeep, Schema.table?, hempty]

/-- The schema of unnamed tables is left out unless there is a table in it. -/
theorem isSome_schema?_finish_unnamed {session : Session} (h : session.catalog.Arranged) :
    (session.finish.schema? unnamedSchema).isSome = true ↔
      ∃ name, (session.finish.table? unnamedSchema name).isSome = true := by
  simp only [table?_finish h]
  rw [finish, Catalog.schema?_retainSchemas h]
  simp only [Catalog.table?]
  cases hfound : session.catalog.schema? unnamedSchema with
  | none => simp
  | some owner =>
      have hname : owner.name = unnamedSchema := (h.schema hfound).2
      have hkept : (Option.filter (fun schema : Schema =>
          schema.name != unnamedSchema || !schema.isEmpty) (some owner)).isSome =
            !owner.isEmpty := by
        cases hempty : owner.isEmpty <;> simp [Option.filter, hname, hempty]
      rw [hkept, Bool.not_eq_true', Schema.isEmpty_eq_false_iff]
      rfl

theorem isSome_schema?_finish_of_ne {session : Session} (h : session.catalog.Arranged)
    (hne : schema ≠ unnamedSchema) :
    (session.finish.schema? schema).isSome = (session.catalog.schema? schema).isSome := by
  rw [finish, Catalog.schema?_retainSchemas h]
  cases hfound : session.catalog.schema? schema with
  | none => rfl
  | some owner =>
      have hkeep : (owner.name != unnamedSchema) = true := by
        rw [(h.schema hfound).2]
        simpa using hne
      simp [Option.filter, hkeep]

/-- A run on a catalog without schemas ends with the catalog that its log tells of. -/
theorem toldBy_finish {catalog : Catalog} (h : catalog.schemas = [])
    (statements : List Statement) :
    ToldBy ((start catalog).log statements) ((start catalog).applyEach statements).finish := by
  have hwf : (start catalog).catalog.WellFormed := Catalog.wellFormed_of_schemas_eq_nil h
  have hend : ((start catalog).applyEach statements).catalog.WellFormed :=
    applyEach_wellFormed hwf statements
  have hschema : ∀ schema, (start catalog).catalog.schema? schema = none := fun schema => by
    rw [Catalog.schema?]
    change catalog.schemas.find? _ = none
    rw [h]
    rfl
  have hnone : ∀ schema name, (start catalog).catalog.table? schema name = none :=
    fun schema name => by
      rw [Catalog.table?, hschema]
      rfl
  have htable : ∀ schema name,
      (((start catalog).applyEach statements).finish.table? schema name).isSome = true ↔
        Stands (Event.creates schema name) (Event.drops schema name)
          ((start catalog).log statements) := fun schema name => by
    rw [table?_finish hend.toArranged]
    exact isSome_table?_applyEach hwf (hnone schema name) statements
  constructor
  case table_iff => exact htable
  case exists_birth =>
    intro schema name hfound
    exact exists_isBirth_of_stands (fun event => event.drops_eq_false)
      ((htable schema name).1 hfound)
  case table_eq =>
    intro schema name earlier birth later hlog hbirth
    obtain ⟨built, hbuilt, hname, howner, htype, hfound⟩ :=
      table?_of_isBirth hwf (hnone schema name) hlog hbirth
    have hheading := heading_foldl_altered schema name later built
    refine ⟨built, _, hbuilt, ?_, rfl, hheading, hheading.name_eq.trans hname,
      hheading.schemaName_eq.trans howner, ?_⟩
    · rw [table?_finish hend.toArranged, hfound]
    · rw [hheading.info_eq, htype]
  case unnamed_iff => exact isSome_schema?_finish_unnamed hend.toArranged
  case schema_iff =>
    intro schema hne
    rw [isSome_schema?_finish_of_ne hend.toArranged hne]
    exact isSome_schema?_applyEach hwf (hschema schema) statements

/-- A table that is dropped with its schema and defined anew is the one of the later definition. -/
theorem toldBy_finish_of_new_definition :
    let statements : List Statement := [
      .use "a",
      .createTable {
        name := { name := "t" }
        columns := [{ name := "x", type := { name := "int" } }] },
      .dropDatabase "a" false,
      .createTable {
        name := { schema := some "a", name := "t" }
        columns := [{ name := "y", type := { name := "int" } }] },
      .createView { schema := some "a", name := "t" }]
    let finish := ((start {}).applyEach statements).finish
    (finish.table? "a" "t").map
          (fun table => (table.info.tableType, table.columns.map Column.name)) =
        some ("BASE TABLE", ["y"]) ∧
      ToldBy ((start {}).log statements) finish :=
  ⟨by decide +kernel, toldBy_finish rfl _⟩

end Session
end SchemaLint
