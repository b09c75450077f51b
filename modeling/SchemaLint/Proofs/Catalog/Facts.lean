import Mathlib.Data.List.Forall2
import SchemaLint.Catalog.Facts
import SchemaLint.Proofs.Catalog.Edit

/-!
# Deriving facts

A fact is derived from the definition of a table, and only where it is absent.

* `Catalog.FilledIn` - what deriving may change: two facts of each table, where they are absent.
* `Table.Informed` - the facts that a table has afterwards.
* `Catalog.derivesOnce` - all facts are filled in at once, whether the names of owners are repeated
  in the catalog before that or after it.

That a counter of integers always gets its fact rests on two tables of column types, one of their
classes and one of their ranges: both know the same types of integers.
-/

namespace SchemaLint

namespace Storage

theorem isSome_signedMax?_of_integer {name : String}
    (h : ColumnType.classOf name = some .integer) : (signedMax? name).isSome = true := by
  unfold ColumnType.classOf at h
  split at h <;> cases h <;> rfl

theorem exists_maxValue_of_integer {type : String} (h : ColumnType.classify type = some .integer)
    (unsigned : Bool) : ∃ largest, maxValue type unsigned = .ok largest := by
  unfold ColumnType.classify at h
  unfold maxValue
  have hsome := isSome_signedMax?_of_integer h
  cases hmax : signedMax? (ColumnType.canonical type) with
  | none =>
      rw [hmax] at hsome
      cases hsome
  | some largest => exact ⟨_, rfl⟩

end Storage

namespace Table

@[simp] theorem columns_deriveFacts (table : Table) : table.deriveFacts.columns = table.columns :=
  rfl

@[simp] theorem indexes_deriveFacts (table : Table) : table.deriveFacts.indexes = table.indexes :=
  rfl

@[simp] theorem info_deriveFacts (table : Table) : table.deriveFacts.info = table.info := rfl

theorem map_name_deriveFacts (tables : List Table) :
    (tables.map deriveFacts).map name = tables.map name := by
  rw [List.map_map]
  rfl

/-- What is derived depends on the definition of a table only. -/
theorem autoIncrementUsage?_deriveFacts (table : Table) :
    table.deriveFacts.autoIncrementUsage? = table.autoIncrementUsage? := by
  simp only [autoIncrementUsage?, autoIncrementColumn?, columns_deriveFacts, info_deriveFacts]

theorem redundantIndexes_deriveFacts (table : Table) :
    table.deriveFacts.redundantIndexes = table.redundantIndexes := by
  simp only [redundantIndexes, dominant?, indexes_deriveFacts]

theorem isVirtual_deriveFacts (table : Table) : table.deriveFacts.isVirtual = table.isVirtual := by
  simp only [isVirtual, info_deriveFacts]

/-- A fact that was derived is kept. -/
theorem deriveFacts_deriveFacts (table : Table) :
    table.deriveFacts.deriveFacts = table.deriveFacts := by
  -- a fact is derived only where there is none yet
  have hcounter : (table.deriveFacts.facts.autoIncrement <|>
      table.deriveFacts.autoIncrementUsage?) = table.deriveFacts.facts.autoIncrement := by
    rw [autoIncrementUsage?_deriveFacts, deriveFacts]
    cases table.facts.autoIncrement <;> cases table.autoIncrementUsage? <;> rfl
  have hfact : table.deriveFacts.redundantIndexFact =
      table.deriveFacts.facts.redundantIndexes := by
    rw [redundantIndexFact, isVirtual_deriveFacts, redundantIndexes_deriveFacts, deriveFacts,
      redundantIndexFact]
    cases table.facts.redundantIndexes <;> cases table.isVirtual <;> rfl
  rw [deriveFacts.eq_1 table.deriveFacts, hfact, hcounter]

/-- Once facts are derived, a table with a counter of integers has the fact about it. -/
theorem autoIncrement_deriveFacts {table : Table}
    (h : table.autoIncrementColumn?.any Column.isInteger = true) :
    ∃ usage, table.deriveFacts.facts.autoIncrement = some usage := by
  cases hcolumn : table.autoIncrementColumn? with
  | none => simp [hcolumn] at h
  | some column =>
      rw [hcolumn, Option.any_some, Column.isInteger, beq_iff_eq] at h
      obtain ⟨largest, hlargest⟩ : ∃ largest, column.maxValue = .ok largest :=
        Storage.exists_maxValue_of_integer h column.isUnsigned
      simp only [deriveFacts, autoIncrementUsage?, hcolumn, Option.bind_some, hlargest]
      cases table.facts.autoIncrement with
      | none => exact ⟨_, rfl⟩
      | some usage => exact ⟨usage, rfl⟩

/-- The names of owners stand in columns too, but no fact is derived from them. -/
theorem autoIncrementUsage?_relink (table : Table) :
    table.relink.autoIncrementUsage? = table.autoIncrementUsage? := by
  have hcolumn : table.relink.autoIncrementColumn? = table.autoIncrementColumn?.map fun column =>
      { column with tableName := table.name, schemaName := table.schemaName } := List.find?_map
  have hmax (column : Column) : ({ column with
      tableName := table.name, schemaName := table.schemaName } : Column).maxValue =
        column.maxValue := rfl
  rw [autoIncrementUsage?, hcolumn, Option.bind_map, autoIncrementUsage?]
  refine Option.bind_congr fun column _ => ?_
  rw [Function.comp_apply, hmax]
  cases column.maxValue <;> rfl

theorem dominant?_relink (table : Table) (index : Index) (position : Nat) :
    table.relink.dominant?
        { index with tableName := table.name, schemaName := table.schemaName } position =
      (table.dominant? index position).map fun dominant =>
        { dominant with tableName := table.name, schemaName := table.schemaName } := by
  rw [dominant?, relink, List.zipIdx_map, List.find?_map, dominant?, Option.map_map, Option.map_map]
  rfl

theorem redundantIndexes_relink (table : Table) :
    table.relink.redundantIndexes = table.redundantIndexes := by
  have hindexes : table.relink.indexes = table.indexes.map fun index =>
      { index with tableName := table.name, schemaName := table.schemaName } := rfl
  rw [redundantIndexes, hindexes, List.zipIdx_map, List.filterMap_map, redundantIndexes]
  refine List.filterMap_congr fun entry _ => ?_
  rw [Function.comp_apply, Prod.map_apply]
  simp only [dominant?_relink, Option.map_map, id_eq]
  rfl

theorem deriveFacts_relink (table : Table) :
    table.relink.deriveFacts = table.deriveFacts.relink := by
  rw [deriveFacts, redundantIndexFact, autoIncrementUsage?_relink, redundantIndexes_relink]
  rfl

theorem deriveFacts_withSchemaName (table : Table) (schemaName : String) :
    ({ table with schemaName } : Table).deriveFacts = { table.deriveFacts with schemaName } := by
  have hcounter : ({ table with schemaName } : Table).autoIncrementUsage? =
      table.autoIncrementUsage? := by
    simp only [autoIncrementUsage?, autoIncrementColumn?]
  rw [deriveFacts, hcounter]
  rfl

/-- What deriving facts may change in a table: two of its facts, where they are absent. -/
structure FilledIn (old new : Table) : Prop where
  same : new = { old with facts := { old.facts with
    autoIncrement := new.facts.autoIncrement
    redundantIndexes := new.facts.redundantIndexes } }
  usageKept : ∀ usage, old.facts.autoIncrement = some usage → new.facts.autoIncrement = some usage
  indexesKept : ∀ indexes, old.facts.redundantIndexes = some indexes →
    new.facts.redundantIndexes = some indexes

/-- A table has the facts that can be derived: which of its indexes are redundant unless it is a
view, and how far its counter is used up if that counts integers. -/
structure Informed (table : Table) : Prop where
  indexes : table.isVirtual = false → table.facts.redundantIndexes.isSome = true
  usage : table.autoIncrementColumn?.any Column.isInteger = true →
    table.facts.autoIncrement.isSome = true

theorem filledIn_deriveFacts (table : Table) : table.FilledIn table.deriveFacts where
  same := rfl
  usageKept := by
    intro usage h
    rw [deriveFacts, h]
    rfl
  indexesKept := by
    intro indexes h
    rw [deriveFacts, redundantIndexFact, h]
    rfl

theorem informed_deriveFacts (table : Table) : table.deriveFacts.Informed where
  indexes := by
    intro h
    rw [isVirtual_deriveFacts] at h
    rw [deriveFacts, redundantIndexFact, h]
    cases table.facts.redundantIndexes <;> rfl
  usage := by
    intro h
    exact Option.isSome_iff_exists.2 (autoIncrement_deriveFacts h)

end Table

/-- What deriving facts may change in a schema: its tables, each as far as it may be changed. -/
structure Schema.FilledIn (old new : Schema) : Prop where
  same : new = { old with tables := new.tables }
  tables : List.Forall₂ Table.FilledIn old.tables new.tables

namespace Catalog

theorem deriveFacts_deriveFacts (catalog : Catalog) :
    catalog.deriveFacts.deriveFacts = catalog.deriveFacts := by
  simp [deriveFacts, Function.comp_def, Table.deriveFacts_deriveFacts]

theorem tables_deriveFacts (catalog : Catalog) :
    catalog.deriveFacts.tables = catalog.tables.map Table.deriveFacts := by
  simp only [tables, deriveFacts, List.flatMap_map, List.map_flatMap]

theorem mem_tables_deriveFacts {catalog : Catalog} {table : Table}
    (h : table ∈ catalog.deriveFacts.tables) : ∃ old ∈ catalog.tables, table = old.deriveFacts := by
  rw [tables_deriveFacts] at h
  obtain ⟨old, hold, rfl⟩ := List.mem_map.1 h
  exact ⟨old, hold, rfl⟩

/-- Facts are derived from definitions, in which repeated names of owners change nothing. -/
theorem deriveFacts_relink (catalog : Catalog) :
    catalog.relink.deriveFacts = catalog.deriveFacts.relink := by
  have hschemas : catalog.relink.deriveFacts.schemas = catalog.deriveFacts.relink.schemas := by
    simp only [relink, deriveFacts, List.map_map]
    refine List.map_congr_left fun schema _ => ?_
    have htables : schema.relink.tables.map Table.deriveFacts =
        (schema.tables.map Table.deriveFacts).map fun table =>
          ({ table with schemaName := schema.name } : Table).relink := by
      simp only [Schema.relink, List.map_map]
      refine List.map_congr_left fun table _ => ?_
      rw [Function.comp_apply, Table.deriveFacts_relink, Table.deriveFacts_withSchemaName]
      rfl
    exact congrArg (fun tables => { schema with tables }) htables
  exact congrArg (fun schemas => { catalog.relink with schemas }) hschemas

/-- What deriving facts may change in a catalog: its schemas, each as far as it may be changed. -/
structure FilledIn (old new : Catalog) : Prop where
  same : new = { old with schemas := new.schemas }
  schemas : List.Forall₂ Schema.FilledIn old.schemas new.schemas

theorem filledIn_deriveFacts (catalog : Catalog) : catalog.FilledIn catalog.deriveFacts where
  same := rfl
  schemas := by
    refine List.forall₂_map_right_iff.2 (List.forall₂_same.2 fun schema _ => ⟨rfl, ?_⟩)
    exact List.forall₂_map_right_iff.2 (List.forall₂_same.2 fun table _ =>
      table.filledIn_deriveFacts)

/-- Facts are filled in where they are absent, all at once, and independently of whether the names
of owners are repeated. -/
structure DerivesOnce (catalog : Catalog) : Prop where
  filledIn : catalog.FilledIn catalog.deriveFacts
  informed : ∀ table ∈ catalog.deriveFacts.tables, table.Informed
  again : catalog.deriveFacts.deriveFacts = catalog.deriveFacts
  relinked : catalog.relink.deriveFacts = catalog.deriveFacts.relink

theorem derivesOnce (catalog : Catalog) : catalog.DerivesOnce where
  filledIn := catalog.filledIn_deriveFacts
  informed := by
    intro table htable
    obtain ⟨old, -, rfl⟩ := mem_tables_deriveFacts htable
    exact old.informed_deriveFacts
  again := catalog.deriveFacts_deriveFacts
  relinked := catalog.deriveFacts_relink

end Catalog
end SchemaLint
