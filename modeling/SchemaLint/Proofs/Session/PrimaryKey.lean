import SchemaLint.Proofs.Session.WellFormed

/-!
# Marks of the primary key

A primary key is recorded twice: as an index named `PRIMARY`, and as a mark on each of its
columns, which are not nullable.  The two agree after every run, with one exception.  Nothing
stops a key that is not primary from asking for the name `PRIMARY`, and such an index leaves no
column marked.  What is left is still all or nothing, so the disagreement can be read off that one
index (`Session.primaryKeyConsistent_iff`).
-/

namespace SchemaLint

open Sql

namespace Table

/-- No column is marked as part of the primary key. -/
def Unmarked (table : Table) : Prop :=
  ∀ column ∈ table.columns, column.isPrimary = false

instance (table : Table) : Decidable table.Unmarked :=
  inferInstanceAs (Decidable (∀ column ∈ table.columns, column.isPrimary = false))

/-- The marked columns are those of the primary key, which is unique, and are not nullable. -/
structure PrimaryKeyConsistent (table : Table) : Prop where
  marked_iff : ∀ column ∈ table.columns, column.isPrimary = true ↔
    ∃ index ∈ table.indexes, index.isPrimary = true ∧ column.name ∈ index.columnNames
  unique : ∀ index ∈ table.indexes, index.isPrimary = true → index.unique = true
  not_nullable : ∀ column ∈ table.columns, column.isPrimary = true →
    column.info.isNullable = false

instance (table : Table) : Decidable table.PrimaryKeyConsistent :=
  decidable_of_iff
    ((∀ column ∈ table.columns, column.isPrimary = true ↔
        ∃ index ∈ table.indexes, index.isPrimary = true ∧ column.name ∈ index.columnNames) ∧
      (∀ index ∈ table.indexes, index.isPrimary = true → index.unique = true) ∧
      ∀ column ∈ table.columns, column.isPrimary = true → column.info.isNullable = false)
    ⟨fun h => ⟨h.1, h.2.1, h.2.2⟩, fun h => ⟨h.marked_iff, h.unique, h.not_nullable⟩⟩

/-- There is an index that has the name of a primary key only: it is not unique, or it is over
columns although no column is marked. -/
def HasFalsePrimaryKey (table : Table) : Prop :=
  ∃ index ∈ table.indexes, index.isPrimary = true ∧
    (index.unique = false ∨ index.parts ≠ [] ∧ table.Unmarked)

instance (table : Table) : Decidable table.HasFalsePrimaryKey :=
  inferInstanceAs (Decidable (∃ index ∈ table.indexes, index.isPrimary = true ∧
    (index.unique = false ∨ index.parts ≠ [] ∧ table.Unmarked)))

theorem primaryKeyConsistent_empty (name schemaName : String) (info : TableInfo) :
    ({ name, schemaName, info } : Table).PrimaryKeyConsistent :=
  ⟨by simp, by simp, by simp⟩

theorem isPrimary_eq_false_of_index? {table : Table}
    (hfree : table.index? Index.primaryName = none) :
    ∀ index ∈ table.indexes, index.isPrimary = false := by
  intro index hindex
  have hne := index?_eq_none_iff.1 hfree index hindex
  rw [Index.isPrimary, beq_eq_false_iff_ne]
  rintro hname
  exact hne (by rw [hname])

/-- Where there is no primary key, there is no mark. -/
theorem PrimaryKeyConsistent.unmarked {table : Table} (h : table.PrimaryKeyConsistent)
    (hnone : ∀ index ∈ table.indexes, index.isPrimary = false) : table.Unmarked := by
  intro column hcolumn
  rw [← Bool.not_eq_true, h.marked_iff column hcolumn]
  rintro ⟨index, hindex, hprimary, -⟩
  rw [hnone index hindex] at hprimary
  cases hprimary

/-- Where the marks are those of the primary key, it is no false one. -/
theorem PrimaryKeyConsistent.not_hasFalsePrimaryKey {table : Table}
    (h : table.PrimaryKeyConsistent) (hwf : table.WellFormed) : ¬ table.HasFalsePrimaryKey := by
  rintro ⟨index, hindex, hprimary, hfalse⟩
  rcases hfalse with hunique | ⟨hparts, hunmarked⟩
  · rw [h.unique index hindex hprimary] at hunique
    cases hunique
  · -- a part of the index is over a column, which is marked then
    obtain ⟨part, hpart⟩ := List.exists_mem_of_ne_nil _ hparts
    have hname : part.columnName ∈ index.columnNames := List.mem_map_of_mem hpart
    obtain ⟨column, hcolumn, hsame⟩ := List.mem_map.1 (hwf.covered index hindex _ hname)
    have hmarked : column.isPrimary = true :=
      (h.marked_iff column hcolumn).2 ⟨index, hindex, hprimary, hsame ▸ hname⟩
    rw [hunmarked column hcolumn] at hmarked
    cases hmarked

/-- Where no column is marked, an index that is named like a primary key is a false one unless it
is empty. -/
theorem Unmarked.primaryKeyConsistent {table : Table} (h : table.Unmarked)
    (htrue : ¬ table.HasFalsePrimaryKey) : table.PrimaryKeyConsistent := by
  have hgenuine : ∀ index ∈ table.indexes, index.isPrimary = true →
      index.unique = true ∧ index.parts = [] := by
    intro index hindex hprimary
    constructor
    · by_contra hunique
      exact htrue ⟨index, hindex, hprimary, .inl (Bool.not_eq_true _ ▸ hunique)⟩
    · by_contra hparts
      exact htrue ⟨index, hindex, hprimary, .inr ⟨hparts, h⟩⟩
  refine ⟨fun column hcolumn => ?_, fun index hindex hprimary =>
    (hgenuine index hindex hprimary).1, fun column hcolumn hprimary => ?_⟩
  · constructor
    · intro hprimary
      rw [h column hcolumn] at hprimary
      cases hprimary
    · rintro ⟨index, hindex, hprimary, hname⟩
      rw [Index.columnNames, (hgenuine index hindex hprimary).2] at hname
      cases hname
  · rw [h column hcolumn] at hprimary
    cases hprimary

/-- As long as the marks are all there or all missing, a false primary key is the only way to
disagree. -/
theorem primaryKeyConsistent_iff_of_or {table : Table} (hwf : table.WellFormed)
    (h : table.PrimaryKeyConsistent ∨ table.Unmarked) :
    table.PrimaryKeyConsistent ↔ ¬ table.HasFalsePrimaryKey := by
  constructor
  · exact fun hconsistent => hconsistent.not_hasFalsePrimaryKey hwf
  · intro htrue
    rcases h with hconsistent | hunmarked
    · exact hconsistent
    · exact hunmarked.primaryKeyConsistent htrue

/-- What the agreement says about a column. -/
def keyMark (column : Column) : String × Bool × Bool :=
  (column.name, column.isPrimary, column.info.isNullable)

/-- What the agreement says about an index. -/
def keyShape (index : Index) : Bool × Bool × List String :=
  (index.isPrimary, index.unique, index.columnNames)

/-- Nothing else of a table counts. -/
theorem PrimaryKeyConsistent.congr {table other : Table} (h : table.PrimaryKeyConsistent)
    (hcolumns : other.columns.map keyMark = table.columns.map keyMark)
    (hindexes : other.indexes.map keyShape = table.indexes.map keyShape) :
    other.PrimaryKeyConsistent := by
  have hcolumn : ∀ column ∈ other.columns, ∃ old ∈ table.columns, keyMark old = keyMark column :=
    fun column hmem => List.mem_map.1 (hcolumns ▸ List.mem_map_of_mem hmem)
  have hindex : ∀ index ∈ other.indexes, ∃ old ∈ table.indexes, keyShape old = keyShape index :=
    fun index hmem => List.mem_map.1 (hindexes ▸ List.mem_map_of_mem hmem)
  have hback : ∀ old ∈ table.indexes, ∃ index ∈ other.indexes, keyShape index = keyShape old :=
    fun old hmem => List.mem_map.1 (hindexes.symm ▸ List.mem_map_of_mem hmem)
  refine ⟨fun column hmem => ?_, fun index hmem hprimary => ?_, fun column hmem hprimary => ?_⟩
  · obtain ⟨old, hold, hsame⟩ := hcolumn column hmem
    simp only [keyMark, Prod.mk.injEq] at hsame
    rw [← hsame.2.1, ← hsame.1, h.marked_iff old hold]
    constructor
    · rintro ⟨index, hmem, hprimary, hname⟩
      obtain ⟨index', hmem', hshape⟩ := hback index hmem
      simp only [keyShape, Prod.mk.injEq] at hshape
      exact ⟨index', hmem', hshape.1 ▸ hprimary, hshape.2.2 ▸ hname⟩
    · rintro ⟨index, hmem, hprimary, hname⟩
      obtain ⟨index', hmem', hshape⟩ := hindex index hmem
      simp only [keyShape, Prod.mk.injEq] at hshape
      exact ⟨index', hmem', hshape.1 ▸ hprimary, hshape.2.2 ▸ hname⟩
  · obtain ⟨old, hold, hshape⟩ := hindex index hmem
    simp only [keyShape, Prod.mk.injEq] at hshape
    exact hshape.2.1 ▸ h.unique old hold (hshape.1 ▸ hprimary)
  · obtain ⟨old, hold, hsame⟩ := hcolumn column hmem
    simp only [keyMark, Prod.mk.injEq] at hsame
    exact hsame.2.2 ▸ h.not_nullable old hold (hsame.2.1 ▸ hprimary)

theorem Unmarked.congr {table other : Table} (h : table.Unmarked)
    (hcolumns : other.columns.map keyMark = table.columns.map keyMark) : other.Unmarked := by
  intro column hmem
  obtain ⟨old, hold, hsame⟩ := List.mem_map.1 (hcolumns ▸ List.mem_map_of_mem hmem)
  simp only [keyMark, Prod.mk.injEq] at hsame
  exact hsame.2.1 ▸ h old hold

/-- A new column is in no key. -/
theorem PrimaryKeyConsistent.pushColumn {table : Table} (h : table.PrimaryKeyConsistent)
    (hwf : table.WellFormed) {column : Column} (hname : table.column? column.name = none)
    (hkey : column.isPrimary = false) : (table.pushColumn column).PrimaryKeyConsistent := by
  refine ⟨fun other hother => ?_, h.unique, fun other hother hprimary => ?_⟩
  · rcases List.mem_append.1 hother with hother | hother
    · exact h.marked_iff other hother
    · rw [List.mem_singleton.1 hother]
      refine iff_of_false (fun hprimary => ?_) ?_
      · change column.isPrimary = true at hprimary
        rw [hkey] at hprimary
        cases hprimary
      · rintro ⟨index, hindex, -, hmem⟩
        obtain ⟨old, hold, hsame⟩ := List.mem_map.1 (hwf.covered index hindex _ hmem)
        exact column?_eq_none_iff.1 hname old hold (by rw [hsame])
  · rcases List.mem_append.1 hother with hother | hother
    · exact h.not_nullable other hother hprimary
    · rw [List.mem_singleton.1 hother] at hprimary
      change column.isPrimary = true at hprimary
      rw [hkey] at hprimary
      cases hprimary

theorem Unmarked.pushColumn {table : Table} (h : table.Unmarked) {column : Column}
    (hkey : column.isPrimary = false) : (table.pushColumn column).Unmarked := by
  intro other hother
  rcases List.mem_append.1 hother with hother | hother
  · exact h other hother
  · rw [List.mem_singleton.1 hother]
    exact hkey

/-- An index of another name changes nothing. -/
theorem PrimaryKeyConsistent.pushIndex {table : Table} (h : table.PrimaryKeyConsistent)
    {index : Index} (hname : index.isPrimary = false) :
    (table.pushIndex index).PrimaryKeyConsistent := by
  have hold : ∀ other ∈ (table.pushIndex index).indexes, other.isPrimary = true →
      other ∈ table.indexes := by
    intro other hother hprimary
    rcases List.mem_append.1 hother with hother | hother
    · exact hother
    · rw [List.mem_singleton.1 hother] at hprimary
      change index.isPrimary = true at hprimary
      rw [hname] at hprimary
      cases hprimary
  refine ⟨fun column hcolumn => ?_, fun other hother hprimary =>
    h.unique other (hold other hother hprimary) hprimary, h.not_nullable⟩
  rw [h.marked_iff column hcolumn]
  constructor
  · rintro ⟨other, hother, hprimary, hmem⟩
    exact ⟨other, List.mem_append_left _ hother, hprimary, hmem⟩
  · rintro ⟨other, hother, hprimary, hmem⟩
    exact ⟨other, hold other hother hprimary, hprimary, hmem⟩

end Table

namespace Definition

variable {table result : Table}

/-- The mark of a first column is never that of a primary key. -/
theorem isPrimary_markFirst (unique : Bool) (column : Column) :
    (markFirst unique column).isPrimary = column.isPrimary := by
  cases hkey : column.info.columnKey <;> cases unique <;>
    simp [Column.isPrimary, markFirst, hkey, strongerKey]

theorem keyMark_markLeading (unique : Bool) (table : Table)
    (columns : List (String × Option UInt64)) :
    (markLeading unique table columns).columns.map Table.keyMark =
      table.columns.map Table.keyMark := by
  have hmark : ∀ column, Table.keyMark (markFirst unique column) = Table.keyMark column := by
    intro column
    rw [Table.keyMark, isPrimary_markFirst]
    rfl
  exact map_columns_markLeading hmark table columns

/-- In a well-formed table, a change of a column that is spelled exactly changes this column. -/
theorem columns_modifyColumn_of_mem (h : table.WellFormed) {name : String}
    (hname : name ∈ table.columns.map Column.name) (f : Column → Column) :
    (table.modifyColumn name f).columns =
      table.columns.map fun column => if column.name = name then f column else column := by
  -- names are distinct up to case, so at most one column is addressed
  have hdistinct : table.columns.Pairwise fun a b =>
      Column.hasName name a = true → Column.hasName name b = false := by
    refine (List.pairwise_map.1 h.columns_nodup).imp fun {a b} hne ha => ?_
    rw [Column.hasName, Text.sameLetters_iff] at ha
    rw [← Bool.not_eq_true, Column.hasName, Text.sameLetters_iff]
    exact fun hb => hne (ha.trans hb.symm)
  rw [Table.modifyColumn, Table.modifyFirst_eq_map hdistinct]
  refine List.map_congr_left fun column hcolumn => ?_
  have hiff : Column.hasName name column = true ↔ column.name = name := by
    rw [Column.hasName, Text.sameLetters_iff]
    refine ⟨fun hsame => ?_, fun hsame => by rw [hsame]⟩
    obtain ⟨old, hold, rfl⟩ := List.mem_map.1 hname
    rw [List.inj_on_of_nodup_map h.columns_nodup hcolumn hold hsame]
  simp only [hiff]

/-- The columns of a primary key are marked, and no others. -/
theorem columns_markAllPrimary (h : table.WellFormed) {columns : List (String × Option UInt64)}
    (hnames : ∀ name ∈ columns.map Prod.fst, name ∈ table.columns.map Column.name) :
    (markAllPrimary table columns).columns = table.columns.map fun column =>
      if column.name ∈ columns.map Prod.fst then markPrimary column else column := by
  induction columns generalizing table with
  | nil => simp [markAllPrimary]
  | cons first rest ih =>
      have hstep : markAllPrimary table (first :: rest) =
          markAllPrimary (table.modifyColumn first.1 markPrimary) rest := rfl
      have hkept : (table.modifyColumn first.1 markPrimary).columns.map Column.name =
          table.columns.map Column.name :=
        Table.map_columns_modifyColumn (f := markPrimary) (fun _ => rfl) table first.1
      have hwf : (table.modifyColumn first.1 markPrimary).WellFormed :=
        markAllPrimary_wellFormed h [first]
      rw [List.map_cons, List.forall_mem_cons] at hnames
      rw [hstep, ih hwf (by rw [hkept]; exact hnames.2),
        columns_modifyColumn_of_mem h hnames.1, List.map_map]
      refine List.map_congr_left fun column _ => ?_
      -- a column that is marked twice is the same as one that is marked once
      by_cases hfirst : column.name = first.1
      · by_cases hrest : first.1 ∈ rest.map Prod.fst
        · simp [hfirst, hrest, markPrimary]
        · simp [hfirst, markPrimary]
      · have hmem : column.name ∈ (first :: rest).map Prod.fst ↔
            column.name ∈ rest.map Prod.fst := by
          rw [List.map_cons, List.mem_cons, or_iff_right hfirst]
        rw [Function.comp_apply, if_neg hfirst]
        simp only [hmem]

/-- A primary key that can be added to a table without marks agrees with the marks it leaves. -/
theorem addPrimaryKey_consistent (hwf : table.WellFormed) (h : table.Unmarked)
    {parts : List KeyPart} (hadd : addPrimaryKey table parts = .ok result) :
    result.PrimaryKeyConsistent := by
  obtain ⟨hfree, columns, hcolumns, rfl⟩ := addPrimaryKey_eq_ok.1 hadd
  have hnone := Table.isPrimary_eq_false_of_index? hfree
  -- the new index is the only one of its name, and it has the names that were resolved
  have hindex : ∀ index ∈ ((markAllPrimary table columns).pushIndex
      (({ name := Index.primaryName, unique := true } : Index).pushColumns columns)).indexes,
      index.isPrimary = true → index.unique = true ∧
        index.columnNames = columns.map Prod.fst := by
    intro index hmem hprimary
    rcases List.mem_append.1 hmem with hmem | hmem
    · rw [indexes_markAllPrimary] at hmem
      rw [hnone index hmem] at hprimary
      cases hprimary
    · rw [List.mem_singleton.1 hmem]
      exact ⟨Index.unique_pushColumns _ columns, Index.columnNames_pushColumns _ columns⟩
  have hmark : ∀ column ∈ (markAllPrimary table columns).columns,
      (column.isPrimary = true ↔ column.name ∈ columns.map Prod.fst) ∧
        (column.isPrimary = true → column.info.isNullable = false) := by
    intro column hmem
    rw [columns_markAllPrimary hwf (name_mem_of_resolveParts hcolumns)] at hmem
    obtain ⟨old, hold, rfl⟩ := List.mem_map.1 hmem
    by_cases hnamed : old.name ∈ columns.map Prod.fst
    · rw [if_pos hnamed]
      exact ⟨iff_of_true rfl hnamed, fun _ => rfl⟩
    · rw [if_neg hnamed, h old hold]
      exact ⟨iff_of_false (by simp) hnamed, fun hprimary => by cases hprimary⟩
  refine ⟨fun column hmem => ?_, fun index hmem hprimary => (hindex index hmem hprimary).1,
    fun column hmem => (hmark column hmem).2⟩
  rw [(hmark column hmem).1]
  constructor
  · intro hnamed
    refine ⟨_, List.mem_append_right _ List.mem_cons_self, ?_, ?_⟩
    · change (Index.pushColumns _ columns).name == Index.primaryName
      rw [Index.name_pushColumns]
      rfl
    · change column.name ∈ (Index.pushColumns _ columns).columnNames
      rwa [Index.columnNames_pushColumns]
  · rintro ⟨index, hindexmem, hprimary, hnamed⟩
    rwa [(hindex index hindexmem hprimary).2] at hnamed

/-- An index that is not named like a primary key keeps the agreement. -/
theorem addSecondaryIndex_consistent (h : table.PrimaryKeyConsistent) {key : KeyClause}
    (hname : secondaryName table key ≠ Index.primaryName)
    (hadd : addSecondaryIndex table key = .ok result) : result.PrimaryKeyConsistent := by
  obtain ⟨-, columns, -, rfl⟩ := addSecondaryIndex_eq_ok.1 hadd
  refine Table.PrimaryKeyConsistent.pushIndex
    (h.congr (keyMark_markLeading _ table columns) (by rw [indexes_markLeading])) ?_
  rw [Index.isPrimary, Index.name_pushColumns, beq_eq_false_iff_ne]
  exact hname

/-- No index that is not primary marks a column as primary. -/
theorem addSecondaryIndex_unmarked (h : table.Unmarked) {key : KeyClause}
    (hadd : addSecondaryIndex table key = .ok result) : result.Unmarked := by
  obtain ⟨-, columns, -, rfl⟩ := addSecondaryIndex_eq_ok.1 hadd
  exact h.congr (keyMark_markLeading _ table columns)

theorem isPrimary_of_addColumn {encoding : Encoding} {spec : ColumnSpec} {ordinal : UInt32}
    {column : Column} (h : Definition.column spec ordinal encoding = .ok column) :
    column.isPrimary = false := by
  rw [Column.isPrimary, (column_eq_ok h).2.2]
  rfl

end Definition

/-- No name made with a number is that of a primary key, which has no underscore. -/
theorem numbered_ne_primaryName (base : String) (n : Nat) :
    base ++ "_" ++ Decimal.text n ≠ Index.primaryName := by
  intro h
  have hmem : '_' ∈ (base ++ "_" ++ Decimal.text n).toList := by simp
  rw [h] at hmem
  revert hmem
  decide

/-- Only a clause that asks for the name of a primary key gets it. -/
theorem name_eq_of_secondaryName {table : Table} {key : KeyClause}
    (h : Definition.secondaryName table key = Index.primaryName) :
    key.name = some Index.primaryName := by
  unfold Definition.secondaryName at h
  cases hname : key.name with
  | some name => rw [hname, Option.getD_some] at h; rw [h]
  | none =>
      rw [hname, Option.getD_none] at h
      exact absurd h (Definition.freeIndexName_named (· ≠ Index.primaryName)
        (fun base n _ => numbered_ne_primaryName base n) (by decide) table)

/-- The marks of a table agree with its primary key, or they are all missing, which needs a key
that asks for the name of a primary key. -/
theorem tableInvariant_marks (Named : String → Prop)
    (hnumbered : ∀ base n, Named base → Named (base ++ "_" ++ Decimal.text n)) :
    TableInvariant Named fun table => table.WellFormed ∧
      (table.PrimaryKeyConsistent ∨ Named Index.primaryName ∧ table.Unmarked) where
  numbered := hnumbered
  start := fun name schemaName spec encoding =>
    ⟨Table.wellFormed_empty name schemaName _, .inl (Table.primaryKeyConsistent_empty name _ _)⟩
  view := fun schemaName name =>
    ⟨Table.wellFormed_empty name schemaName _, .inl (Table.primaryKeyConsistent_empty name _ _)⟩
  addColumn := by
    intro encoding table spec result h hadd
    refine ⟨tableInvariant_wellFormed.addColumn h.1 hadd, ?_⟩
    obtain ⟨hfree, column, hcolumn, rfl⟩ := Definition.addColumn_eq_ok.1 hadd
    have hkey := Definition.isPrimary_of_addColumn hcolumn
    rw [← (Definition.column_eq_ok hcolumn).1] at hfree
    exact h.2.imp (·.pushColumn h.1 hfree hkey) (.imp_right (·.pushColumn hkey))
  addPrimaryKey := by
    intro table parts result h hadd
    refine ⟨tableInvariant_wellFormed.addPrimaryKey h.1 hadd, .inl ?_⟩
    have hnone := Table.isPrimary_eq_false_of_index? (Definition.addPrimaryKey_eq_ok.1 hadd).1
    exact Definition.addPrimaryKey_consistent h.1 (h.2.elim (·.unmarked hnone) And.right) hadd
  addSecondaryIndex := by
    intro table key result h hname hadd
    refine ⟨tableInvariant_wellFormed.addSecondaryIndex h.1 (fun _ _ => trivial) hadd, ?_⟩
    by_cases hprimary : Definition.secondaryName table key = Index.primaryName
    · -- the name is free, so there is no primary key yet and none of its marks
      have hfree := (Definition.addSecondaryIndex_eq_ok.1 hadd).1
      rw [hprimary] at hfree
      have hnone := Table.isPrimary_eq_false_of_index? hfree
      have hunmarked : table.Unmarked := h.2.elim (·.unmarked hnone) And.right
      exact .inr ⟨hname _ (name_eq_of_secondaryName hprimary),
        Definition.addSecondaryIndex_unmarked hunmarked hadd⟩
    · exact h.2.imp (Definition.addSecondaryIndex_consistent · hprimary hadd)
        (.imp_right (Definition.addSecondaryIndex_unmarked · hadd))
  startCounter := by
    intro table h
    refine ⟨tableInvariant_wellFormed.startCounter h.1, ?_⟩
    rw [Definition.startCounter_eq]
    exact h.2.imp (·.congr rfl rfl) (.imp_right (·.congr rfl))
  relink := by
    intro table h schemaName
    refine ⟨tableInvariant_wellFormed.relink h.1 schemaName, ?_⟩
    have hcolumns : ({ table with schemaName } : Table).relink.columns.map Table.keyMark =
        table.columns.map Table.keyMark := by
      rw [Table.relink, List.map_map]
      rfl
    have hindexes : ({ table with schemaName } : Table).relink.indexes.map Table.keyShape =
        table.indexes.map Table.keyShape := by
      rw [Table.relink, List.map_map]
      rfl
    exact h.2.imp (·.congr hcolumns hindexes) (.imp_right (·.congr hcolumns))

namespace Session

/-- From a catalog without schemas, the marks of a table agree with its primary key exactly when
the table has no false primary key.  None has one if no key that is not primary asks for the name
of a primary key. -/
theorem primaryKeyConsistent_iff {catalog : Catalog} (h : catalog.schemas = [])
    (statements : List Statement) :
    (∀ table ∈ ((start catalog).applyEach statements).catalog.tables,
      (table.PrimaryKeyConsistent ↔ ¬ table.HasFalsePrimaryKey)) ∧
    ((∀ statement ∈ statements, Index.primaryName ∉ statement.secondaryNames) →
      ∀ table ∈ ((start catalog).applyEach statements).catalog.tables,
        table.PrimaryKeyConsistent) := by
  have hnone : ∀ {P : Table → Prop}, ∀ table ∈ (start catalog).catalog.tables, P table := by
    simp [start, Catalog.tables, h]
  constructor
  · intro table htable
    have hmarks := (tableInvariant_marks (fun _ => True) fun _ _ _ => trivial).applyEach
      statements (fun _ _ _ _ => trivial) (start catalog) hnone table htable
    exact Table.primaryKeyConsistent_iff_of_or hmarks.1 (hmarks.2.imp_right And.right)
  · intro hnames table htable
    have hmarks := (tableInvariant_marks (· ≠ Index.primaryName)
      fun base n _ => numbered_ne_primaryName base n).applyEach statements
      (fun statement hstatement name hname heq => hnames statement hstatement (heq ▸ hname))
      (start catalog) hnone table htable
    exact hmarks.2.resolve_right fun hbad => hbad.1 rfl

/-- A column that is declared as the primary key is recorded as one. -/
theorem primaryKeyConsistent_of_inline_key :
    ∃ table ∈ ((start {}).applyEach [.createTable {
        name := { name := "t" }
        columns := [{
          name := "a"
          type := { name := "int" }
          primaryKey := true }] }]).catalog.tables,
      table.PrimaryKeyConsistent ∧ ¬ table.Unmarked :=
  ⟨_, List.head_mem (by decide),
    (primaryKeyConsistent_iff rfl _).2 (by decide) _ (List.head_mem _), by decide⟩

/-- A unique key that asks for the name of a primary key leaves its column unmarked. -/
theorem not_primaryKeyConsistent_of_named_key :
    ¬ ∀ table ∈ ((start {}).applyEach [.createTable {
        name := { name := "t" }
        columns := [{ name := "a", type := { name := "int" } }]
        keys := [{
          kind := .unique
          name := some "PRIMARY"
          columns := [{ column := "a" }] }] }]).catalog.tables,
      table.PrimaryKeyConsistent := by
  decide

end Session
end SchemaLint
