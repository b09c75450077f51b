import SchemaLint.Proofs.Definition.Key

/-!
# Tables and their last column

A definition without keys of its own makes a table column by column, so its last column is added
to the table of the others.  Beside the column, the table gets one index for each key that the
column declares, and what the column inherits is the encoding that the definition means.
-/

namespace SchemaLint

open Sql

namespace Definition

variable {table result : Table} {encoding : Encoding} {spec : ColumnSpec}

theorem addDeclaredColumn_heading (h : addDeclaredColumn encoding table spec = .ok result) :
    table.SameHeading result := by
  rw [addDeclaredColumn_eq] at h
  obtain ⟨columned, hcolumned, h⟩ := bind_eq_ok.1 h
  obtain ⟨keyed, hkeyed, h⟩ := bind_eq_ok.1 h
  -- each key of the column is added or left out
  have hprimary : columned.SameHeading keyed := by
    rw [addInlinePrimary_eq] at hkeyed
    split at hkeyed
    · exact addPrimaryKey_heading hkeyed
    · cases hkeyed
      rfl
  have hunique : keyed.SameHeading result := by
    rw [addInlineUnique_eq] at h
    split at h
    · exact addKey_heading h
    · cases h
      rfl
  exact ((addColumn_heading hcolumned).trans hprimary).trans hunique

/-- A column brings one index for each key that it declares. -/
theorem length_indexes_addDeclaredColumn (h : addDeclaredColumn encoding table spec = .ok result) :
    result.indexes.length = table.indexes.length + spec.primaryKey.toNat + spec.unique.toNat := by
  rw [addDeclaredColumn_eq] at h
  obtain ⟨columned, hcolumned, h⟩ := bind_eq_ok.1 h
  obtain ⟨keyed, hkeyed, h⟩ := bind_eq_ok.1 h
  have hcolumned : columned.indexes = table.indexes := by
    obtain ⟨-, column, -, rfl⟩ := addColumn_eq_ok.1 hcolumned
    rfl
  have hkeyed : keyed.indexes.length = columned.indexes.length + spec.primaryKey.toNat := by
    rw [addInlinePrimary_eq] at hkeyed
    split at hkeyed
    · next hprimary => rw [length_indexes_addPrimaryKey hkeyed, hprimary, Bool.toNat_true]
    · next hprimary =>
        cases hkeyed
        rw [Bool.not_eq_true] at hprimary
        rw [hprimary, Bool.toNat_false, Nat.add_zero]
  rw [hcolumned] at hkeyed
  rw [addInlineUnique_eq] at h
  split at h
  · next hunique => rw [length_indexes_addKey h, hkeyed, hunique, Bool.toNat_true]
  · next hunique =>
      cases h
      rw [Bool.not_eq_true] at hunique
      rw [hkeyed, hunique, Bool.toNat_false, Nat.add_zero]

/-- A column without keys of its own is added as it is. -/
theorem addDeclaredColumn_of_no_key (hprimary : spec.primaryKey = false)
    (hunique : spec.unique = false) :
    addDeclaredColumn encoding table spec = addColumn encoding table spec := by
  simp only [addDeclaredColumn_eq, addInlinePrimary_eq, addInlineUnique_eq, hprimary, hunique,
    Bool.false_eq_true, if_false]
  cases addColumn encoding table spec <;> rfl

/-- The table of a definition before its keys are added. -/
def columned (schemaName : String) (spec : TableSpec) (encoding : Encoding) :
    Except CatalogError Table :=
  spec.columns.foldlM (addDeclaredColumn encoding)
    { name := spec.name.name, schemaName, info := tableInfo spec encoding }

theorem columned_heading {schemaName : String} {spec : TableSpec}
    (h : columned schemaName spec encoding = .ok result) :
    result.name = spec.name.name ∧ result.schemaName = schemaName ∧
      result.info = tableInfo spec encoding := by
  have hheading : Table.SameHeading
      { name := spec.name.name, schemaName, info := tableInfo spec encoding } result := by
    refine foldlM_keeps (P := Table.SameHeading _) ?_ (Table.SameHeading.refl _) h
    exact fun _ _ _ _ hstate hstep => hstate.trans (addDeclaredColumn_heading hstep)
  exact ⟨hheading.name_eq, hheading.schemaName_eq, hheading.info_eq⟩

/-- The encoding that the options of a definition mean. -/
def encodingOfOptions (spec : TableSpec) : Except MetadataError Encoding :=
  Encoding.resolve (spec.option? "CHARSET") (spec.option? "COLLATE")

/-- The steps that a definition is made in. -/
theorem table_eq (schemaName : String) (spec : TableSpec) :
    Definition.table schemaName spec =
      (encodingOfOptions spec).mapError .metadata >>= fun encoding =>
        columned schemaName spec encoding >>= fun table =>
          (spec.keys.foldlM addKey table).map startCounter := by
  rw [table_eq_steps]
  unfold encodingOfOptions columned
  cases Encoding.resolve (spec.option? "CHARSET") (spec.option? "COLLATE") <;> rfl

/-- A definition that succeeds succeeds in each of its steps. -/
theorem exists_steps_of_table {schemaName : String} {spec : TableSpec}
    (h : Definition.table schemaName spec = .ok result) :
    ∃ encoding, encodingOfOptions spec = .ok encoding ∧
      ∃ table, columned schemaName spec encoding = .ok table ∧
        ∃ keyed, spec.keys.foldlM addKey table = .ok keyed ∧ startCounter keyed = result := by
  rw [table_eq] at h
  obtain ⟨encoding, hencoding, h⟩ := bind_eq_ok.1 h
  obtain ⟨table, htable, h⟩ := bind_eq_ok.1 h
  obtain ⟨keyed, hkeyed, hresult⟩ := map_eq_ok.1 h
  exact ⟨encoding, mapError_eq_ok.1 hencoding, table, htable, keyed, hkeyed, hresult⟩

theorem table_eq_ok {schemaName : String} {spec : TableSpec} (hkeys : spec.keys = []) :
    Definition.table schemaName spec = .ok result ↔
      ∃ encoding, encodingOfOptions spec = .ok encoding ∧
        ∃ table, columned schemaName spec encoding = .ok table ∧ startCounter table = result := by
  constructor
  · intro h
    obtain ⟨encoding, hencoding, table, htable, keyed, hkeyed, hresult⟩ := exists_steps_of_table h
    rw [hkeys, List.foldlM_nil] at hkeyed
    cases hkeyed
    exact ⟨encoding, hencoding, table, htable, hresult⟩
  · rintro ⟨encoding, hencoding, table, htable, rfl⟩
    rw [table_eq, hencoding, hkeys]
    exact bind_eq_ok.2 ⟨encoding, rfl, bind_eq_ok.2 ⟨table, htable, rfl⟩⟩

theorem foldlM_addKey_heading {keys : List KeyClause} (h : keys.foldlM addKey table = .ok result) :
    table.SameHeading result :=
  foldlM_keeps (P := Table.SameHeading table)
    (fun _ _ _ _ hstate hstep => hstate.trans (addKey_heading hstep)) (.refl table) h

/-- A table has the name of its definition and is in the schema it is made for. -/
theorem table_heading {schemaName : String} {spec : TableSpec}
    (h : Definition.table schemaName spec = .ok result) :
    result.name = spec.name.name ∧ result.schemaName = schemaName := by
  obtain ⟨encoding, -, columned, hcolumned, keyed, hkeyed, rfl⟩ := exists_steps_of_table h
  obtain ⟨hname, hschema, -⟩ := columned_heading hcolumned
  have hheading := foldlM_addKey_heading hkeyed
  rw [startCounter_eq]
  exact ⟨hheading.name_eq.trans hname, hheading.schemaName_eq.trans hschema⟩

/-- What a table definition makes is a base table. -/
theorem table_tableType {schemaName : String} {spec : TableSpec}
    (h : Definition.table schemaName spec = .ok result) :
    result.info.tableType = "BASE TABLE" := by
  obtain ⟨encoding, -, columned, hcolumned, keyed, hkeyed, rfl⟩ := exists_steps_of_table h
  have hstart : keyed.info.tableType = "BASE TABLE" := by
    rw [(foldlM_addKey_heading hkeyed).info_eq, (columned_heading hcolumned).2.2]
    rfl
  unfold startCounter
  split
  · exact hstart
  · exact hstart

/-- The collation of a table is that of the encoding that its options mean. -/
theorem table_tableCollation {schemaName : String} {spec : TableSpec}
    (h : Definition.table schemaName spec = .ok result) :
    ∃ encoding, encodingOfOptions spec = .ok encoding ∧
      result.info.tableCollation = some encoding.collation := by
  obtain ⟨encoding, hencoding, columned, hcolumned, keyed, hkeyed, rfl⟩ := exists_steps_of_table h
  refine ⟨encoding, hencoding, ?_⟩
  rw [tableCollation_startCounter, (foldlM_addKey_heading hkeyed).info_eq,
    (columned_heading hcolumned).2.2]
  rfl

/-- The definition with one more column at its end. -/
def withColumn (spec : TableSpec) (column : ColumnSpec) : TableSpec :=
  { spec with columns := spec.columns ++ [column] }

/-- The last column is added to the table of the others. -/
theorem columned_withColumn (schemaName : String) (spec : TableSpec) (column : ColumnSpec)
    (encoding : Encoding) :
    columned schemaName (withColumn spec column) encoding =
      columned schemaName spec encoding >>= fun table =>
        addDeclaredColumn encoding table column := by
  change (spec.columns ++ [column]).foldlM _ _ = _
  rw [List.foldlM_append]
  refine congrArg _ (funext fun table => ?_)
  rw [List.foldlM_cons]
  cases addDeclaredColumn encoding table column <;> rfl

/-- Whether a column takes the encoding that it inherits. -/
def TakesInherited (spec : ColumnSpec) : Prop :=
  ColumnType.classify (ColumnType.canonical spec.type.name) = some .string ∧
    spec.charset = none ∧ spec.collation = none

/-- What a column inherits counts only if the column takes it. -/
theorem column_congr {ordinal : UInt32} {first second : Encoding}
    (h : TakesInherited spec → first = second) :
    column spec ordinal first = column spec ordinal second := by
  by_cases htakes : TakesInherited spec
  · rw [h htakes]
  · have hencode : ∀ info, withEncoding (ColumnType.classify (ColumnType.canonical spec.type.name))
        spec first info = withEncoding (ColumnType.classify (ColumnType.canonical spec.type.name))
          spec second info := by
      intro info
      unfold withEncoding
      split
      · next hstring =>
          have hown : encodingOf spec first = encodingOf spec second := by
            unfold encodingOf
            split
            · next hcharset hcollation => exact absurd ⟨hstring, hcharset, hcollation⟩ htakes
            · rfl
          rw [hown]
      · rfl
    simp only [column, columnInfo, hencode]

theorem addColumn_congr {first second : Encoding} (h : TakesInherited spec → first = second) :
    addColumn first table spec = addColumn second table spec := by
  rw [addColumn_eq, addColumn_eq, column_congr h]

/-- A column that takes its encoding from elsewhere shows it. -/
theorem encoding_of_column {ordinal : UInt32} {column : Column} (htakes : TakesInherited spec)
    (h : Definition.column spec ordinal encoding = .ok column) :
    column.info.characterSetName = some encoding.charset ∧
      column.info.collationName = some encoding.collation := by
  obtain ⟨info, hinfo, rfl⟩ := map_eq_ok.1 h
  unfold columnInfo at hinfo
  obtain ⟨sized, -, hinfo⟩ := bind_eq_ok.1 hinfo
  obtain ⟨encoded, hencoded, hinfo⟩ := bind_eq_ok.1 hinfo
  cases hinfo
  unfold withEncoding at hencoded
  rw [if_pos htakes.1, map_eq_ok] at hencoded
  obtain ⟨own, hown, rfl⟩ := hencoded
  unfold encodingOf at hown
  rw [htakes.2.1, htakes.2.2] at hown
  cases hown
  exact ⟨rfl, rfl⟩

/-- So a column that takes what it inherits tells encodings apart. -/
theorem encoding_eq_of_column {ordinal : UInt32} {first second : Encoding} {a b : Column}
    (htakes : TakesInherited spec) (ha : Definition.column spec ordinal first = .ok a)
    (hb : Definition.column spec ordinal second = .ok b) (hinfo : a.info = b.info) :
    first = second := by
  obtain ⟨hcharset, hcollation⟩ := encoding_of_column htakes ha
  obtain ⟨hcharset', hcollation'⟩ := encoding_of_column htakes hb
  rw [hinfo, hcharset'] at hcharset
  rw [hinfo, hcollation'] at hcollation
  cases first
  cases second
  simp_all

end Definition
end SchemaLint
