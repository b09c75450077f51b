import SchemaLint.Proofs.Definition.Table
import SchemaLint.Proofs.Session.WellFormed

/-!
# Columns that are added later

A column can be declared with its table or added to it later.  The two agree on a column that
declares no key by itself, if the collation of the table alone means the encoding that the table
was declared with.  They differ in every other case in which they succeed: the addition leaves the
keys of the column out, and reads the encoding off the collation again.
-/

namespace SchemaLint

open Sql
open Definition (withColumn encodingOfOptions TakesInherited)

namespace Definition

/-- The table that a column is added to after its definition. -/
def AddedLater (schemaName : String) (spec : TableSpec) (column : ColumnSpec)
    (grown : Table) : Prop :=
  ∃ first encoding, Definition.table schemaName spec = .ok first ∧
    Encoding.ofTable first = .ok encoding ∧ addColumn encoding first column = .ok grown

/-- A column inherits the same encoding from the options of the table and from its collation, or
inherits none. -/
def InheritsAlike (spec : TableSpec) (column : ColumnSpec) : Prop :=
  ∃ encoding, encodingOfOptions spec = .ok encoding ∧
    ∃ inherited, Encoding.resolve none (some encoding.collation) = .ok inherited ∧
      (TakesInherited column → encoding = inherited)

variable {schemaName : String} {spec : TableSpec} {column : ColumnSpec} {whole grown : Table}

/-- The two ways on the table before the column. -/
theorem withColumn_eq_ok (hkeys : spec.keys = []) :
    Definition.table schemaName (withColumn spec column) = .ok whole ↔
      ∃ encoding, encodingOfOptions spec = .ok encoding ∧
        ∃ table, columned schemaName spec encoding = .ok table ∧
          ∃ declared, addDeclaredColumn encoding table column = .ok declared ∧
            startCounter declared = whole := by
  rw [table_eq_ok (by exact hkeys)]
  refine exists_congr fun encoding => and_congr_right fun _ => ?_
  simp only [columned_withColumn, bind_eq_ok]
  constructor
  · rintro ⟨declared, ⟨table, htable, hdeclared⟩, hwhole⟩
    exact ⟨table, htable, declared, hdeclared, hwhole⟩
  · rintro ⟨table, htable, declared, hdeclared, hwhole⟩
    exact ⟨declared, ⟨table, htable, hdeclared⟩, hwhole⟩

theorem addedLater_iff (hkeys : spec.keys = []) :
    AddedLater schemaName spec column grown ↔
      ∃ encoding, encodingOfOptions spec = .ok encoding ∧
        ∃ inherited, Encoding.resolve none (some encoding.collation) = .ok inherited ∧
          ∃ table, columned schemaName spec encoding = .ok table ∧
            addColumn inherited (startCounter table) column = .ok grown := by
  have hcollation : ∀ {encoding table}, columned schemaName spec encoding = .ok table →
      Encoding.ofTable (startCounter table) =
        Encoding.resolve none (some encoding.collation) := by
    intro encoding table hcolumned
    rw [Encoding.ofTable, tableCollation_startCounter, (columned_heading hcolumned).2.2]
    rfl
  unfold AddedLater
  constructor
  · rintro ⟨first, inherited, hfirst, hinherited, hgrown⟩
    obtain ⟨encoding, hencoding, table, hcolumned, rfl⟩ := (table_eq_ok hkeys).1 hfirst
    rw [hcollation hcolumned] at hinherited
    exact ⟨encoding, hencoding, inherited, hinherited, table, hcolumned, hgrown⟩
  · rintro ⟨encoding, hencoding, inherited, hinherited, table, hcolumned, hgrown⟩
    refine ⟨startCounter table, inherited,
      (table_eq_ok hkeys).2 ⟨encoding, hencoding, table, hcolumned, rfl⟩, ?_, hgrown⟩
    rw [hcollation hcolumned, hinherited]

/-- The information about a table plays no part in the addition of a column. -/
theorem addColumn_withInfo (encoding : Encoding) (table : Table) (info : TableInfo)
    (column : ColumnSpec) :
    addColumn encoding { table with info } column =
      (addColumn encoding table column).map fun result => { result with info } := by
  have hcolumn : ({ table with info } : Table).column? column.name = table.column? column.name :=
    rfl
  have hordinal : ({ table with info } : Table).nextOrdinal = table.nextOrdinal := rfl
  rw [addColumn_eq, addColumn_eq, hcolumn, hordinal]
  cases table.column? column.name with
  | some _ => rfl
  | none => cases Definition.column column table.nextOrdinal encoding <;> rfl

/-- The two ways agree on a column without keys that inherits the same encoding either way. -/
theorem withColumn_iff_addedLater (schemaName : String) (hkeys : spec.keys = [])
    (hprimary : column.primaryKey = false)
    (hunique : column.unique = false) (halike : InheritsAlike spec column)
    (columns : List Column) (indexes : List Index) :
    (∃ whole, Definition.table schemaName (withColumn spec column) = .ok whole ∧
        whole.columns = columns ∧ whole.indexes = indexes) ↔
      ∃ grown, AddedLater schemaName spec column grown ∧
        grown.columns = columns ∧ grown.indexes = indexes := by
  obtain ⟨encoding, hencoding, inherited, hinherited, hencode⟩ := halike
  have hsame : ∀ table, addColumn inherited (startCounter table) column =
      (addDeclaredColumn encoding table column).map fun result =>
        { result with info := (startCounter table).info } := by
    intro table
    rw [startCounter_eq, addColumn_withInfo, addDeclaredColumn_of_no_key hprimary hunique,
      addColumn_congr hencode]
  constructor
  · rintro ⟨whole, hwhole, hcolumns, hindexes⟩
    obtain ⟨other, hother, table, htable, declared, hdeclared, rfl⟩ :=
      (withColumn_eq_ok hkeys).1 hwhole
    cases hencoding.symm.trans hother
    refine ⟨{ declared with info := (startCounter table).info }, (addedLater_iff hkeys).2
      ⟨encoding, hencoding, inherited, hinherited, table, htable, ?_⟩, ?_, ?_⟩
    · rw [hsame, hdeclared]
      rfl
    · rwa [columns_startCounter] at hcolumns
    · rwa [indexes_startCounter] at hindexes
  · rintro ⟨grown, hgrown, hcolumns, hindexes⟩
    obtain ⟨other, hother, other', hother', table, htable, hadd⟩ := (addedLater_iff hkeys).1 hgrown
    cases hencoding.symm.trans hother
    cases hinherited.symm.trans hother'
    rw [hsame, map_eq_ok] at hadd
    obtain ⟨declared, hdeclared, rfl⟩ := hadd
    exact ⟨startCounter declared, (withColumn_eq_ok hkeys).2
      ⟨encoding, hencoding, table, htable, declared, hdeclared, rfl⟩,
      (columns_startCounter declared).trans hcolumns,
      (indexes_startCounter declared).trans hindexes⟩

/-- If the two ways give the same columns and indexes, the column is one of these. -/
theorem alike_of_same (hkeys : spec.keys = [])
    (hwhole : Definition.table schemaName (withColumn spec column) = .ok whole)
    (hgrown : AddedLater schemaName spec column grown) (hcolumns : whole.columns = grown.columns)
    (hindexes : whole.indexes = grown.indexes) :
    column.primaryKey = false ∧ column.unique = false ∧ InheritsAlike spec column := by
  obtain ⟨encoding, hencoding, table, htable, declared, hdeclared, rfl⟩ :=
    (withColumn_eq_ok hkeys).1 hwhole
  obtain ⟨other, hother, inherited, hinherited, other', hother', hadd⟩ :=
    (addedLater_iff hkeys).1 hgrown
  cases hencoding.symm.trans hother
  cases htable.symm.trans hother'
  obtain ⟨-, added, hadded, rfl⟩ := addColumn_eq_ok.1 hadd
  rw [columns_startCounter] at hcolumns
  rw [indexes_startCounter] at hindexes
  -- each key of the column is one index that the addition does not make
  have hcount : table.indexes.length + column.primaryKey.toNat + column.unique.toNat =
      table.indexes.length := by
    rw [← length_indexes_addDeclaredColumn hdeclared, hindexes]
    exact congrArg List.length (indexes_startCounter table)
  have hprimary : column.primaryKey = false := Bool.toNat_eq_zero.1 (by omega)
  have hunique : column.unique = false := Bool.toNat_eq_zero.1 (by omega)
  refine ⟨hprimary, hunique, encoding, hencoding, inherited, hinherited, fun htakes => ?_⟩
  rw [addDeclaredColumn_of_no_key hprimary hunique] at hdeclared
  -- what is left is the last column, which shows the encoding that it took
  obtain ⟨-, made, hmade, rfl⟩ := addColumn_eq_ok.1 hdeclared
  have hordinal : (startCounter table).nextOrdinal = table.nextOrdinal := by
    rw [startCounter_eq]
    rfl
  rw [Table.pushColumn, Table.pushColumn, columns_startCounter] at hcolumns
  have hlast := List.append_cancel_left hcolumns
  rw [hordinal] at hadded
  refine encoding_eq_of_column htakes hmade hadded ?_
  have hinfo := congrArg (fun columns => columns.map Column.info) hlast
  simpa using hinfo

end Definition

namespace Session

variable {session : Session} {name : ObjectName} {spec : TableSpec} {column : ColumnSpec}

/-- The table of a name. -/
def tableOf? (session : Session) (name : ObjectName) : Option Table :=
  session.catalog.table? (session.schemaOf name) name.name

theorem table?_addTable {catalog : Catalog} {schema : String} {table : Table}
    (h : catalog.table? schema table.name = none) :
    (addTable catalog schema table).table? schema table.name =
      some ({ table with schemaName := schema } : Table).relink := by
  have howner : ((catalog.schema? schema).getD { name := schema }).name = schema ∧
      ((catalog.schema? schema).getD { name := schema }).table? table.name = none := by
    cases hfound : catalog.schema? schema with
    | none => exact ⟨rfl, rfl⟩
    | some owner =>
        rw [Catalog.table?, hfound] at h
        exact ⟨by simpa using List.find?_some hfound, h⟩
  rw [addTable, Catalog.table?, Catalog.schema?_modifySchema _ _ fun owner =>
    Schema.name_addTable owner table, Catalog.schema?_ensureSchema]
  change Schema.table? (Schema.addTable _ table) table.name = _
  rw [Schema.table?_addTable howner.2, howner.1]

/-- A definition under a free name adds the table that it makes. -/
theorem createTable_eq (hnew : session.tableOf? spec.name = none) :
    session.createTable spec =
      match Definition.table (session.schemaOf spec.name) spec with
      | .error error => (session, .error error)
      | .ok table =>
          (session.withCatalog (addTable session.catalog (session.schemaOf spec.name) table),
            .ok ()) := by
  have hfree : (session.catalog.table? (session.schemaOf spec.name) spec.name.name).isSome =
      false := by
    rw [← tableOf?, hnew]
    rfl
  exact if_neg (by rw [hfree]; exact Bool.false_ne_true)

/-- A table that is new is there after its creation as its definition makes it. -/
theorem createTable_of_new (spec : TableSpec) (hnew : session.tableOf? spec.name = none) :
    ((session.createTable spec).2 = .ok () ↔
      ∃ table, Definition.table (session.schemaOf spec.name) spec = .ok table) ∧
    ∀ table, Definition.table (session.schemaOf spec.name) spec = .ok table →
      (session.createTable spec).1.tableOf? spec.name = some table := by
  rw [createTable_eq hnew]
  cases hbuilt : Definition.table (session.schemaOf spec.name) spec with
  | error error => exact ⟨by simp, fun table htable => by cases htable⟩
  | ok table =>
      refine ⟨by simp, fun other hother => ?_⟩
      cases hother
      obtain ⟨hname, hschema⟩ := Definition.table_heading hbuilt
      have hwf : table.WellFormed := tableInvariant_wellFormed.table (fun _ _ => trivial) hbuilt
      change (addTable _ _ _).table? (session.schemaOf spec.name) spec.name.name = _
      -- the new table is linked to its schema already
      rw [tableOf?, ← hname] at hnew
      rw [← hname, table?_addTable hnew, ← hschema, hwf.relink_eq]

/-- An action on a table that is there has its outcome and leaves its result. -/
theorem alterTable_singleton {table : Table} (h : session.tableOf? name = some table)
    (action : AlterAction) :
    (session.alterTable name [action]).2 = (alter session.line name table action).2 ∧
      (session.alterTable name [action]).1.tableOf? name =
        some (alter session.line name table action).1 := by
  rw [tableOf?] at h
  constructor
  · simp only [alterTable, changeTable, h, runAll_singleton]
  · have hschema : (session.alterTable name [action]).1.schemaOf name = session.schemaOf name := by
      simp only [alterTable, changeTable, h]
      rfl
    rw [tableOf?, hschema, alterTable, catalog_changeTable, Catalog.table?_modifyTable, h]
    · rw [Option.map_some, runAll_singleton]
    · intro table htable
      rw [runAll_singleton, (alter_heading session.line name table action).name_eq, htable]

theorem alter_addColumn_eq_ok {line : Nat} {table : Table} :
    (alter line name table (.addColumn column)).2 = .ok () ↔
      ∃ encoding grown, Encoding.ofTable table = .ok encoding ∧
        Definition.addColumn encoding table column = .ok grown := by
  rw [snd_alter, result_edit_addColumn, map_eq_ok]
  cases Encoding.ofTable table with
  | error error => simp
  | ok encoding => simp

/-- Creates a table with a further column. -/
def declareColumn (session : Session) (spec : TableSpec) (column : ColumnSpec) :
    Session × Outcome :=
  session.apply (.createTable (withColumn spec column))

/-- Creates a table, and if this succeeds adds a column to it. -/
def addColumnLater (session : Session) (spec : TableSpec) (column : ColumnSpec) :
    Session × Outcome :=
  Outcome.runAll apply session [.createTable spec, .alterTable spec.name [.addColumn column]]

theorem addColumnLater_of_new (column : ColumnSpec) (hnew : session.tableOf? spec.name = none) :
    ((session.addColumnLater spec column).2 = .ok () ↔
      ∃ grown, Definition.AddedLater (session.schemaOf spec.name) spec column grown) ∧
    ∀ grown, Definition.AddedLater (session.schemaOf spec.name) spec column grown →
      (session.addColumnLater spec column).1.tableOf? spec.name = some grown := by
  obtain ⟨hok, htable⟩ := createTable_of_new spec hnew
  cases hcreated : session.createTable spec with
  | mk after outcome =>
      rw [hcreated] at hok htable
      cases outcome with
      | error error =>
          have hfail : ∀ grown,
              ¬ Definition.AddedLater (session.schemaOf spec.name) spec column grown := by
            rintro grown ⟨first, -, hfirst, -⟩
            cases hok.2 ⟨first, hfirst⟩
          have hrun : session.addColumnLater spec column = (after, .error error) := by
            simp only [addColumnLater, Outcome.runAll, apply, hcreated]
          refine ⟨iff_of_false (by simp [hrun]) ?_, fun grown hgrown => absurd hgrown (hfail grown)⟩
          rintro ⟨grown, hgrown⟩
          exact hfail grown hgrown
      | ok _ =>
          obtain ⟨first, hfirst⟩ := hok.1 rfl
          obtain ⟨houtcome, hafter⟩ :=
            alterTable_singleton (htable first hfirst) (.addColumn column)
          have hrun : session.addColumnLater spec column =
              after.alterTable spec.name [.addColumn column] := by
            rw [addColumnLater, Outcome.runAll]
            simp only [apply, hcreated, runAll_singleton]
          have hadded : ∀ grown,
              Definition.AddedLater (session.schemaOf spec.name) spec column grown →
              alter after.line spec.name first (.addColumn column) = (grown, .ok ()) := by
            rintro grown ⟨other, encoding, hother, hencoding, hadd⟩
            cases hfirst.symm.trans hother
            refine alter_of_result_ok ?_
            rw [result_edit_addColumn, hencoding]
            exact hadd
          rw [hrun, houtcome, hafter]
          refine ⟨⟨fun halter => ?_, ?_⟩, fun grown hgrown => by rw [hadded grown hgrown]⟩
          · obtain ⟨encoding, grown, hencoding, hadd⟩ := alter_addColumn_eq_ok.1 halter
            exact ⟨grown, first, encoding, hfirst, hencoding, hadd⟩
          · rintro ⟨grown, hgrown⟩
            rw [hadded grown hgrown]

/-- A column that is declared with its table and one that is added later succeed together, and
then give the same columns and indexes. -/
structure AdditionAgrees (session : Session) (spec : TableSpec) (column : ColumnSpec) : Prop where
  succeeds_iff : (session.declareColumn spec column).2 = .ok () ↔
    (session.addColumnLater spec column).2 = .ok ()
  same_table : (session.declareColumn spec column).2 = .ok () →
    (session.addColumnLater spec column).2 = .ok () →
    ∃ whole grown, (session.declareColumn spec column).1.tableOf? spec.name = some whole ∧
      (session.addColumnLater spec column).1.tableOf? spec.name = some grown ∧
      whole.columns = grown.columns ∧ whole.indexes = grown.indexes

/-- For a new table without keys of its own, a column may as well be added later exactly when both
ways fail, or the column declares no key and inherits the same encoding either way. -/
theorem additionAgrees_iff (hnew : session.tableOf? spec.name = none) (hkeys : spec.keys = []) :
    session.AdditionAgrees spec column ↔
      ((session.declareColumn spec column).2 ≠ .ok () ∧
        (session.addColumnLater spec column).2 ≠ .ok ()) ∨
      (column.primaryKey = false ∧ column.unique = false ∧
        Definition.InheritsAlike spec column) := by
  obtain ⟨hdeclare, hwhole⟩ := createTable_of_new (withColumn spec column) hnew
  obtain ⟨hlater, hgrown⟩ := addColumnLater_of_new column hnew
  change ((session.declareColumn spec column).2 = .ok () ↔ _) at hdeclare
  constructor
  · intro h
    by_cases hok : (session.declareColumn spec column).2 = .ok ()
    · have hok' := h.succeeds_iff.1 hok
      obtain ⟨whole, grown, hfound, hfound', hcolumns, hindexes⟩ := h.same_table hok hok'
      obtain ⟨built, hbuilt⟩ := hdeclare.1 hok
      obtain ⟨built', hbuilt'⟩ := hlater.1 hok'
      -- what is found in the end are the tables that were made
      cases hfound.symm.trans (hwhole built hbuilt)
      cases hfound'.symm.trans (hgrown built' hbuilt')
      exact .inr (Definition.alike_of_same hkeys hbuilt hbuilt' hcolumns hindexes)
    · exact .inl ⟨hok, fun hok' => hok (h.succeeds_iff.2 hok')⟩
  · rintro (⟨hfail, hfail'⟩ | ⟨hprimary, hunique, halike⟩)
    · exact ⟨iff_of_false hfail hfail', fun hok => absurd hok hfail⟩
    · have hsame := Definition.withColumn_iff_addedLater (session.schemaOf spec.name) hkeys hprimary
        hunique halike
      refine ⟨⟨fun hok => ?_, fun hok => ?_⟩, fun hok _ => ?_⟩
      · obtain ⟨whole, hbuilt⟩ := hdeclare.1 hok
        obtain ⟨grown, hadded, -⟩ := (hsame _ _).1 ⟨whole, hbuilt, rfl, rfl⟩
        exact hlater.2 ⟨grown, hadded⟩
      · obtain ⟨grown, hadded⟩ := hlater.1 hok
        obtain ⟨whole, hbuilt, -⟩ := (hsame _ _).2 ⟨grown, hadded, rfl, rfl⟩
        exact hdeclare.2 ⟨whole, hbuilt⟩
      · obtain ⟨whole, hbuilt⟩ := hdeclare.1 hok
        obtain ⟨grown, hadded, hcolumns, hindexes⟩ := (hsame _ _).1 ⟨whole, hbuilt, rfl, rfl⟩
        exact ⟨whole, grown, hwhole whole hbuilt, hgrown grown hadded, hcolumns.symm,
          hindexes.symm⟩

/-- A column of numbers may as well be added later. -/
theorem additionAgrees_of_number :
    (start {}).AdditionAgrees
      { name := { name := "t" }, columns := [{ name := "a", type := { name := "int" } }] }
      { name := "b", type := { name := "int" } } :=
  (additionAgrees_iff (by decide) rfl).2
    (.inr ⟨rfl, rfl, _, rfl, _, rfl, fun htakes => absurd htakes.1 (by decide)⟩)

/-- A primary key may not: added later, the column is in no key. -/
theorem not_additionAgrees_of_primary_key :
    ¬ (start {}).AdditionAgrees
      { name := { name := "t" }, columns := [{ name := "a", type := { name := "int" } }] }
      { name := "b", type := { name := "int" }, primaryKey := true } := by
  intro h
  obtain ⟨whole, grown, hwhole, hgrown, -, hindexes⟩ := h.same_table (by decide) (by decide)
  have hcount := congrArg (Option.map fun table : Table => table.indexes.length) hwhole
  have hcount' := congrArg (Option.map fun table : Table => table.indexes.length) hgrown
  rw [Option.map_some, hindexes] at hcount
  have hsame := hcount.trans hcount'.symm
  revert hsame
  decide

end Session
end SchemaLint
