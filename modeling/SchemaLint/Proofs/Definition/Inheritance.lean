import SchemaLint.Proofs.Definition.Table
import SchemaLint.Proofs.Metadata.Charset

/-!
# Encodings read back from collations

A table keeps the collation of its encoding and forgets the character set, so what a later column
inherits is what this collation means by itself.

* `resolve_collation` - what the collation of a declared encoding means by itself: the same
  encoding, unless a character set was declared beside it, or with white space around its name.
* `column_of_sized`, `column_of_not_sized` - a column that declares no encoding is made or not
  whatever it inherits, and shows what it inherits if it holds text.
* `shownEncoding?_table_withColumn` - what the last column of a definition shows.
-/

namespace SchemaLint

open Sql

namespace Encoding

/-- What the collation of an encoding means by itself, after the encoding was declared so. -/
def readBack (encoding : Encoding) : Option String → Option String → Except MetadataError Encoding
  | none, _ => .ok encoding
  | some charset, none => .ok { encoding with charset := Text.lower (Text.trim charset) }
  | some _, some collation =>
      (Charset.ofCollation collation).map fun charset => { encoding with charset }

/-- The encoding of a table that declares none. -/
theorem resolve_none :
    resolve none none = .ok { charset := "latin1", collation := "latin1_swedish_ci" } := by
  decide +kernel

/-- The name of the character set is lost; only a declared collation can fail to tell it. -/
theorem resolve_collation {charset collation : Option String} {encoding : Encoding}
    (h : resolve charset collation = .ok encoding) :
    resolve none (some encoding.collation) = encoding.readBack charset collation := by
  cases charset with
  | none =>
      cases collation with
      | none =>
          rw [resolve_none] at h
          cases h
          decide +kernel
      | some collation =>
          rw [resolve, map_eq_ok] at h
          obtain ⟨charset, hcharset, rfl⟩ := h
          simp only [resolve, readBack]
          rw [Charset.ofCollation_lower, hcharset, Text.lower_lower]
          rfl
  | some charset =>
      cases collation with
      | none =>
          rw [resolve, map_eq_ok] at h
          obtain ⟨collation, hcollation, rfl⟩ := h
          obtain ⟨own, hfound⟩ := Charset.defaultCollation_eq_ok.1 hcollation
          obtain ⟨hmem, rfl⟩ := Charset.mem_of_find? hfound
          simp only [resolve, readBack]
          rw [Charset.ofCollation_of_mem hmem, (Charset.tidy_collation hmem).lower_eq]
          rfl
      | some collation =>
          rw [resolve, map_eq_ok] at h
          obtain ⟨_, -, rfl⟩ := h
          simp only [resolve, readBack]
          rw [Charset.ofCollation_lower, Text.lower_lower]

/-- A declared character set is kept in small letters. -/
theorem charset_of_resolve {charset : String} {collation : Option String} {encoding : Encoding}
    (h : resolve (some charset) collation = .ok encoding) :
    encoding.charset = Text.lower charset := by
  cases collation with
  | none =>
      rw [resolve, map_eq_ok] at h
      obtain ⟨_, -, rfl⟩ := h
      rfl
  | some collation =>
      rw [resolve, map_eq_ok] at h
      obtain ⟨_, -, rfl⟩ := h
      rfl

/-- A collation by itself fails as a collation that is not known. -/
theorem resolve_collation_eq_error {collation : String} {error : MetadataError}
    (h : resolve none (some collation) = .error error) :
    error = .unknownCollation (Text.lower (Text.trim collation)) := by
  rw [resolve, map_eq_error] at h
  exact Charset.ofCollation_eq_error h

end Encoding

/-- What a column shows of its encoding. -/
def Column.shownEncoding (column : Column) : Option String × Option String :=
  (column.info.characterSetName, column.info.collationName)

namespace Table

/-- What a table shows of the encoding of a column. -/
def shownEncoding? (table : Table) (name : String) : Option (Option String × Option String) :=
  (table.column? name).map Column.shownEncoding

/-- It depends on the names and encodings of the columns only. -/
theorem shownEncoding?_congr {table other : Table}
    (h : other.columns.map (fun column => (column.name, column.shownEncoding)) =
      table.columns.map fun column => (column.name, column.shownEncoding)) (name : String) :
    other.shownEncoding? name = table.shownEncoding? name := by
  have hfind : ∀ table : Table, table.shownEncoding? name =
      ((table.columns.map fun column => (column.name, column.shownEncoding)).find?
        fun shown => Text.sameLetters shown.1 name).map Prod.snd := fun table => by
    rw [List.find?_map, Option.map_map]
    rfl
  rw [hfind, hfind, h]

end Table

namespace Definition

variable {table result : Table} {encoding : Encoding} {spec : ColumnSpec} {ordinal : UInt32}

/-- The length of the column, if it has one, can be told from its type. -/
def Sized (spec : ColumnSpec) : Prop :=
  spec.type.length = none ∨ ColumnType.classify (ColumnType.canonical spec.type.name) ≠ none

/-- What a column shows that declares no encoding. -/
def shownOf (spec : ColumnSpec) (encoding : Encoding) : Option String × Option String :=
  if ColumnType.classify (ColumnType.canonical spec.type.name) = some .string then
    (some encoding.charset, some encoding.collation)
  else
    (none, none)

/-- A column that takes what it inherits tells encodings apart, and another one does not. -/
theorem shownOf_eq_iff (hcharset : spec.charset = none) (hcollation : spec.collation = none)
    {first second : Encoding} :
    shownOf spec first = shownOf spec second ↔ (TakesInherited spec → first = second) := by
  by_cases hstring : ColumnType.classify (ColumnType.canonical spec.type.name) = some .string
  · have htakes : TakesInherited spec := ⟨hstring, hcharset, hcollation⟩
    rw [shownOf, shownOf, if_pos hstring, if_pos hstring]
    cases first
    cases second
    simp [htakes]
  · have htakes : ¬ TakesInherited spec := fun htakes => hstring htakes.1
    rw [shownOf, shownOf, if_neg hstring, if_neg hstring]
    simp [htakes]

/-- From the options of a table the column inherits the same as from its collation alone.  They have
no character set; or one alone, whose name has no white space around it; or one beside a collation
that tells its own, which is this one.  Which character set it is counts only for a column that
takes it. -/
def ReadsBack (spec : TableSpec) (column : ColumnSpec) : Prop :=
  match spec.option? "CHARSET", spec.option? "COLLATE" with
  | none, _ => True
  | some charset, none => TakesInherited column → Text.trim charset = charset
  | some charset, some collation =>
      ∃ own, Charset.ofCollation collation = .ok own ∧
        (TakesInherited column → own = Text.lower charset)

/-- That is, the collation of the encoding means this encoding again. -/
theorem readsBack_iff {spec : TableSpec} {column : ColumnSpec}
    (h : encodingOfOptions spec = .ok encoding) :
    ReadsBack spec column ↔ ∃ inherited,
      Encoding.resolve none (some encoding.collation) = .ok inherited ∧
        (TakesInherited column → inherited = encoding) := by
  unfold encodingOfOptions at h
  unfold ReadsBack
  rw [Encoding.resolve_collation h]
  generalize spec.option? "CHARSET" = charset at h ⊢
  generalize spec.option? "COLLATE" = collation at h ⊢
  cases charset with
  | none => exact iff_of_true trivial ⟨encoding, rfl, fun _ => rfl⟩
  | some charset =>
      have hname := Encoding.charset_of_resolve h
      have hsame : ∀ own, ({ encoding with charset := own } : Encoding) = encoding ↔
          own = Text.lower charset := fun own => by
        rw [← hname]
        exact ⟨fun heq => congrArg Encoding.charset heq, fun heq => by rw [heq]⟩
      cases collation with
      | none =>
          simp only [Encoding.readBack, Except.ok.injEq, exists_eq_left', hsame,
            Text.lower_trim_eq_iff]
      | some collation =>
          simp only [Encoding.readBack, map_eq_ok]
          constructor
          · rintro ⟨own, hown, htakes⟩
            exact ⟨_, ⟨own, hown, rfl⟩, fun h => (hsame own).2 (htakes h)⟩
          · rintro ⟨_, ⟨own, hown, rfl⟩, htakes⟩
            exact ⟨own, hown, fun h => (hsame own).1 (htakes h)⟩

theorem withLength_of_sized {class? : Option TypeClass} {type : TypeSpec}
    (h : type.length = none ∨ class? ≠ none) (info : ColumnInfo) :
    ∃ sized, withLength class? type info = .ok sized ∧
      sized.characterSetName = info.characterSetName ∧
      sized.collationName = info.collationName := by
  unfold withLength
  split
  case h_7 hlength =>
    rw [hlength] at h
    simp at h
  all_goals exact ⟨_, rfl, rfl, rfl⟩

theorem withLength_of_not_sized {class? : Option TypeClass} {type : TypeSpec}
    (h : ¬ (type.length = none ∨ class? ≠ none)) (info : ColumnInfo) :
    withLength class? type info = .error (.unknownColumnType info.dataType) := by
  obtain ⟨hlength, hclass⟩ := not_or.1 h
  obtain ⟨length, hlength⟩ := Option.ne_none_iff_exists'.1 hlength
  obtain rfl : class? = none := not_not.1 hclass
  unfold withLength
  rw [hlength]

/-- A column that declares no encoding shows what it inherits, if it holds text. -/
theorem column_of_sized (hcharset : spec.charset = none) (hcollation : spec.collation = none)
    (h : Sized spec) (ordinal : UInt32) (encoding : Encoding) :
    ∃ made, column spec ordinal encoding = .ok made ∧ made.name = spec.name ∧
      made.shownEncoding = shownOf spec encoding := by
  unfold Sized at h
  rw [column, columnInfo_eq, shownOf]
  generalize ColumnType.classify (ColumnType.canonical spec.type.name) = class? at h ⊢
  obtain ⟨sized, hsized, hcharsetName, hcollationName⟩ :=
    withLength_of_sized h (draftInfo spec ordinal)
  rw [hsized]
  change ∃ made, (((withEncoding class? spec encoding sized).map (completeInfo spec)).map _) = _ ∧ _
  unfold withEncoding encodingOf
  rw [hcharset, hcollation]
  split
  · exact ⟨_, rfl, rfl, rfl⟩
  · exact ⟨_, rfl, rfl, Prod.ext hcharsetName hcollationName⟩

theorem column_of_not_sized (h : ¬ Sized spec) (ordinal : UInt32) (encoding : Encoding) :
    column spec ordinal encoding =
      .error (.unknownColumnType (ColumnType.canonical spec.type.name)) := by
  have hname : (draftInfo spec ordinal).dataType = ColumnType.canonical spec.type.name := by
    simp only [draftInfo]
  unfold Sized at h
  rw [column, columnInfo_eq, withLength_of_not_sized h, hname]
  rfl

theorem sized_of_column {made : Column} (h : column spec ordinal encoding = .ok made) :
    Sized spec := by
  by_contra hsized
  rw [column_of_not_sized hsized] at h
  cases h

/-- So does the table that the column is added to. -/
theorem shownEncoding?_addColumn (hcharset : spec.charset = none)
    (hcollation : spec.collation = none) (hadd : addColumn encoding table spec = .ok result) :
    result.shownEncoding? spec.name = some (shownOf spec encoding) := by
  obtain ⟨hfree, made, hmade, rfl⟩ := addColumn_eq_ok.1 hadd
  obtain ⟨other, hother, hname, hshown⟩ := column_of_sized hcharset hcollation
    (sized_of_column hmade) table.nextOrdinal encoding
  cases hmade.symm.trans hother
  rw [← hname] at hfree ⊢
  rw [Table.shownEncoding?, Table.column?_pushColumn hfree]
  exact congrArg some hshown

/-- The keys that the column declares leave it alone. -/
theorem shownEncoding?_addDeclaredColumn (hcharset : spec.charset = none)
    (hcollation : spec.collation = none)
    (hadd : addDeclaredColumn encoding table spec = .ok result) :
    result.shownEncoding? spec.name = some (shownOf spec encoding) := by
  rw [addDeclaredColumn_eq] at hadd
  obtain ⟨grown, hgrown, hadd⟩ := bind_eq_ok.1 hadd
  obtain ⟨keyed, hkeyed, hadd⟩ := bind_eq_ok.1 hadd
  have hprimary : keyed.shownEncoding? spec.name = grown.shownEncoding? spec.name := by
    rw [addInlinePrimary_eq] at hkeyed
    split at hkeyed
    · exact Table.shownEncoding?_congr (map_columns_addPrimaryKey (fun _ => rfl) hkeyed) spec.name
    · cases hkeyed
      rfl
  have hunique : result.shownEncoding? spec.name = keyed.shownEncoding? spec.name := by
    rw [addInlineUnique_eq] at hadd
    split at hadd
    · exact Table.shownEncoding?_congr
        (map_columns_addKey (fun _ => rfl) (fun _ _ => rfl) hadd) spec.name
    · cases hadd
      rfl
  rw [hunique, hprimary, shownEncoding?_addColumn hcharset hcollation hgrown]

/-- The last column of a definition shows the encoding that the options mean. -/
theorem shownEncoding?_table_withColumn {schemaName : String} {tableSpec : TableSpec}
    {whole : Table} (hcharset : spec.charset = none) (hcollation : spec.collation = none)
    (hencoding : encodingOfOptions tableSpec = .ok encoding)
    (h : Definition.table schemaName (withColumn tableSpec spec) = .ok whole) :
    whole.shownEncoding? spec.name = some (shownOf spec encoding) := by
  obtain ⟨other, hother, grown, hgrown, keyed, hkeyed, rfl⟩ := exists_steps_of_table h
  cases hencoding.symm.trans hother
  rw [columned_withColumn] at hgrown
  obtain ⟨first, -, hadd⟩ := bind_eq_ok.1 hgrown
  rw [← shownEncoding?_addDeclaredColumn hcharset hcollation hadd]
  refine Table.shownEncoding?_congr ?_ spec.name
  rw [columns_startCounter]
  exact map_columns_foldlM_addKey (fun _ => rfl) (fun _ _ => rfl) hkeyed

/-- If a definition could have had a further column, the table has room for it. -/
theorem column?_of_withColumn {schemaName : String} {tableSpec : TableSpec} {whole : Table}
    (h : Definition.table schemaName (withColumn tableSpec spec) = .ok whole)
    (hbuilt : Definition.table schemaName tableSpec = .ok table) :
    table.column? spec.name = none ∧ Sized spec := by
  obtain ⟨encoding, hencoding, first, hfirst, keyed, hkeyed, rfl⟩ := exists_steps_of_table hbuilt
  obtain ⟨other, hother, grown, hgrown, -⟩ := exists_steps_of_table h
  cases hencoding.symm.trans hother
  rw [columned_withColumn, hfirst] at hgrown
  change addDeclaredColumn encoding first spec = .ok grown at hgrown
  rw [addDeclaredColumn_eq] at hgrown
  obtain ⟨added, hadded, -⟩ := bind_eq_ok.1 hgrown
  obtain ⟨hfree, made, hmade, -⟩ := addColumn_eq_ok.1 hadded
  refine ⟨?_, sized_of_column hmade⟩
  rw [← Option.not_isSome_iff_eq_none, Table.isSome_column?] at hfree ⊢
  rwa [columns_startCounter, map_columns_foldlM_addKey (fun _ => rfl) (fun _ _ => rfl) hkeyed]

end Definition
end SchemaLint
