import SchemaLint.Proofs.Definition.Inheritance
import SchemaLint.Proofs.Session.History

/-!
# What a column inherits that is added later

A table keeps its collation as long as it is there.  So what a column inherits at any later time is
what this collation means by itself, and `inheritsLater_iff` says exactly when this is as good as
the encoding that the options of the table mean.

* `isAboutEncoding_of_addition`, `addition_of_unread`, `shownEncoding?_addition` and
  `addition_of_room` - one addition to a table.
* `tableOf?_afterwards` - the table after any statements that do not drop it.
* `InheritsLater` - the column inherits later what it would have inherited in the definition.
-/

namespace SchemaLint

open Sql
open Definition (withColumn encodingOfOptions shownOf)

/-- The error is about a character set or a collation. -/
def CatalogError.isAboutEncoding : CatalogError → Bool
  | .metadata (.unknownCharacterSet _) => true
  | .metadata (.unknownCollation _) => true
  | _ => false

namespace Session

variable {session : Session} {name : ObjectName} {spec : TableSpec} {column : ColumnSpec}
variable {table : Table} {inherited : Encoding}

/-- What the table of a name shows of the encoding of a column. -/
def shownEncoding? (session : Session) (name : ObjectName) (column : String) :
    Option (Option String × Option String) :=
  (session.tableOf? name).bind (·.shownEncoding? column)

/-- Adds a column to a table by a statement of its own. -/
def addition (session : Session) (name : ObjectName) (column : ColumnSpec) : Session × Outcome :=
  session.apply (.alterTable name [.addColumn column])

/-- An error of an addition is not about encodings, if the collation of the table means one. -/
theorem isAboutEncoding_of_addition (hfound : session.tableOf? name = some table)
    (hread : Encoding.ofTable table = .ok inherited) (hcharset : column.charset = none)
    (hcollation : column.collation = none) {error : CatalogError}
    (h : (session.addition name column).2 = .error error) : error.isAboutEncoding = false := by
  rw [addition, apply, (alterTable_singleton hfound _).1, snd_alter, map_eq_error,
    result_edit_addColumn, hread] at h
  simp only [Definition.addColumn_eq] at h
  by_cases htaken : (table.column? column.name).isSome = true
  · rw [if_pos htaken] at h
    cases h
    rfl
  · rw [if_neg htaken] at h
    by_cases hsized : Definition.Sized column
    · obtain ⟨made, hmade, -⟩ :=
        Definition.column_of_sized hcharset hcollation hsized table.nextOrdinal inherited
      rw [hmade] at h
      cases h
    · rw [Definition.column_of_not_sized hsized] at h
      cases h
      rfl

/-- Otherwise the error is that of the collation. -/
theorem addition_of_unread (hfound : session.tableOf? name = some table) {error : MetadataError}
    (hread : Encoding.ofTable table = .error error) :
    (session.addition name column).2 = .error (.metadata error) := by
  rw [addition, apply, (alterTable_singleton hfound _).1, snd_alter, result_edit_addColumn, hread]
  rfl

/-- A column that is added shows what the collation of the table means. -/
theorem shownEncoding?_addition (hfound : session.tableOf? name = some table)
    (hread : Encoding.ofTable table = .ok inherited) (hcharset : column.charset = none)
    (hcollation : column.collation = none) (h : (session.addition name column).2 = .ok ()) :
    (session.addition name column).1.shownEncoding? name column.name =
      some (shownOf column inherited) := by
  obtain ⟨houtcome, hafter⟩ := alterTable_singleton hfound (.addColumn column)
  obtain ⟨other, grown, hother, hgrown⟩ := alter_addColumn_eq_ok.1 (houtcome.symm.trans h)
  cases hread.symm.trans hother
  have hresult : (edit session.line name (.addColumn column)).result table = .ok grown := by
    rw [result_edit_addColumn, hread]
    exact hgrown
  rw [alter_of_result_ok hresult] at hafter
  rw [shownEncoding?, addition, apply, hafter]
  exact Definition.shownEncoding?_addColumn hcharset hcollation hgrown

/-- A column for which there is room can be added. -/
theorem addition_of_room (hfound : session.tableOf? name = some table)
    (hread : Encoding.ofTable table = .ok inherited) (hcharset : column.charset = none)
    (hcollation : column.collation = none) (hfree : table.column? column.name = none)
    (hsized : Definition.Sized column) : (session.addition name column).2 = .ok () := by
  obtain ⟨made, hmade, -⟩ :=
    Definition.column_of_sized hcharset hcollation hsized table.nextOrdinal inherited
  rw [addition, apply, (alterTable_singleton hfound _).1]
  exact alter_addColumn_eq_ok.2
    ⟨inherited, _, hread, Definition.addColumn_eq_ok.2 ⟨hfree, made, hmade, rfl⟩⟩

/-- The session some statements after a definition. -/
def afterwards (session : Session) (spec : TableSpec) (statements : List Statement) : Session :=
  (session.apply (.createTable spec)).1.applyEach statements

/-- A definition leaves the current schema alone. -/
theorem schemaOf_createTable (session : Session) (spec : TableSpec) (name : ObjectName) :
    (session.apply (.createTable spec)).1.schemaOf name = session.schemaOf name := by
  rw [schemaOf, schema_apply]
  rfl

/-- Some statements after a definition, a name is still that of the table that was defined. -/
structure StillNames (session : Session) (spec : TableSpec) (statements : List Statement)
    (name : ObjectName) : Prop where
  addressed : (session.afterwards spec statements).addresses (session.schemaOf spec.name)
    spec.name.name name = true
  lasting : ∀ event ∈ (session.apply (.createTable spec)).1.log statements,
    event.drops (session.schemaOf spec.name) spec.name.name = false

/-- In the meantime the table may have got columns and keys, but no other collation. -/
theorem tableOf?_afterwards (hwf : session.catalog.WellFormed)
    (hfound : (session.apply (.createTable spec)).1.tableOf? spec.name = some table)
    {statements : List Statement} (hnames : session.StillNames spec statements name) :
    ∃ current, (session.afterwards spec statements).tableOf? name = some current ∧
      table.SameHeading current := by
  rw [tableOf?, schemaOf_createTable] at hfound
  obtain ⟨howner, hname⟩ := addresses_iff.1 hnames.addressed
  refine ⟨_, ?_, heading_foldl_altered (session.schemaOf spec.name) spec.name.name
    ((session.apply (.createTable spec)).1.log statements) table⟩
  rw [tableOf?, howner, hname]
  exact table?_applyEach_of_some (applyEach_wellFormed hwf [.createTable spec]) hfound
    hnames.lasting

/-- So what it tells of encodings is the same at any time. -/
theorem ofTable_afterwards (hwf : session.catalog.WellFormed)
    (hfound : (session.apply (.createTable spec)).1.tableOf? spec.name = some table)
    {statements : List Statement} (hnames : session.StillNames spec statements name) :
    ∃ current, (session.afterwards spec statements).tableOf? name = some current ∧
      Encoding.ofTable current = Encoding.ofTable table := by
  obtain ⟨current, hcurrent, hheading⟩ := tableOf?_afterwards hwf hfound hnames
  refine ⟨current, hcurrent, ?_⟩
  rw [Encoding.ofTable, Encoding.ofTable, hheading.info_eq]

theorem stillNames_nil (session : Session) (spec : TableSpec) :
    session.StillNames spec [] spec.name where
  addressed := addresses_iff.2 ⟨schemaOf_createTable session spec spec.name, rfl⟩
  lasting := by simp [log]

/-- A column that is defined with its table shows the encoding that the options mean. -/
theorem shownEncoding?_declareColumn {encoding : Encoding}
    (hnew : session.tableOf? spec.name = none) (hcharset : column.charset = none)
    (hcollation : column.collation = none) (hencoding : encodingOfOptions spec = .ok encoding)
    {whole : Table}
    (hwhole : Definition.table (session.schemaOf spec.name) (withColumn spec column) = .ok whole) :
    (session.declareColumn spec column).1.shownEncoding? spec.name column.name =
      some (shownOf column encoding) := by
  have hthere : (session.declareColumn spec column).1.tableOf? spec.name = some whole :=
    (createTable_of_new (withColumn spec column) hnew).2 whole hwhole
  rw [shownEncoding?, hthere]
  exact Definition.shownEncoding?_table_withColumn hcharset hcollation hencoding hwhole

/-- At any later time, a column that is added to the table is given no error about its encoding,
and it shows the encoding that it would show if the table had been defined with it. -/
structure InheritsLater (session : Session) (spec : TableSpec) (column : ColumnSpec) : Prop where
  no_encoding_error : ∀ statements name, session.StillNames spec statements name →
    ∀ error, ((session.afterwards spec statements).addition name column).2 = .error error →
      error.isAboutEncoding = false
  same_encoding : ∀ statements name, session.StillNames spec statements name →
    ((session.afterwards spec statements).addition name column).2 = .ok () →
    ∃ shown,
      ((session.afterwards spec statements).addition name column).1.shownEncoding? name
        column.name = some shown ∧
      (session.declareColumn spec column).1.shownEncoding? spec.name column.name = some shown

/-- For every table that a definition made, and every column without an encoding of its own that
the definition could have had as well, the column inherits later what it would have inherited in
the definition exactly when the collation of the table means the encoding of its options. -/
theorem inheritsLater_iff {catalog : Catalog} (hempty : catalog.schemas = [])
    {earlier : List Statement} (hrun : session = (start catalog).applyEach earlier)
    (hnew : session.tableOf? spec.name = none)
    (hcreated : (session.apply (.createTable spec)).2 = .ok ())
    (haccepted : (session.declareColumn spec column).2 = .ok ())
    (hcharset : column.charset = none) (hcollation : column.collation = none) :
    session.InheritsLater spec column ↔ Definition.ReadsBack spec column := by
  have hwf : session.catalog.WellFormed := hrun ▸ (wellFormed_of_start hempty earlier).1
  obtain ⟨hmakes, hmade⟩ := createTable_of_new spec hnew
  obtain ⟨first, hfirst⟩ := hmakes.1 hcreated
  have hfound : (session.apply (.createTable spec)).1.tableOf? spec.name = some first :=
    hmade first hfirst
  obtain ⟨whole, hwhole⟩ := (createTable_of_new (withColumn spec column) hnew).1.1 haccepted
  -- what the column shows in the definition, and what the table tells from then on
  obtain ⟨encoding, hencoding, htableCollation⟩ := Definition.table_tableCollation hfirst
  have hdeclared := shownEncoding?_declareColumn hnew hcharset hcollation hencoding hwhole
  have htells : Encoding.ofTable first = Encoding.resolve none (some encoding.collation) := by
    rw [Encoding.ofTable, htableCollation]
  rw [Definition.readsBack_iff hencoding, ← htells]
  constructor
  · intro h
    -- nothing has to happen in between to see the difference
    have hnames := stillNames_nil session spec
    cases hread : Encoding.ofTable first with
    | error error =>
        have habout := h.no_encoding_error [] spec.name hnames _ (addition_of_unread hfound hread)
        rw [Encoding.resolve_collation_eq_error (htells.symm.trans hread)] at habout
        cases habout
    | ok inherited =>
        obtain ⟨hfree, hsized⟩ := Definition.column?_of_withColumn hwhole hfirst
        have hok := addition_of_room hfound hread hcharset hcollation hfree hsized
        obtain ⟨shown, hlater, hshown⟩ := h.same_encoding [] spec.name hnames hok
        have hadded := shownEncoding?_addition hfound hread hcharset hcollation hok
        have hsame : shownOf column inherited = shownOf column encoding :=
          Option.some.inj (hadded.symm.trans (hlater.trans (hshown.symm.trans hdeclared)))
        exact ⟨inherited, rfl, (Definition.shownOf_eq_iff hcharset hcollation).1 hsame⟩
  · rintro ⟨inherited, hread, hsame⟩
    rw [← Definition.shownOf_eq_iff hcharset hcollation] at hsame
    constructor
    · intro statements name hnames error herror
      obtain ⟨current, hcurrent, hkept⟩ := ofTable_afterwards hwf hfound hnames
      exact isAboutEncoding_of_addition hcurrent (hkept.trans hread) hcharset hcollation herror
    · intro statements name hnames hok
      obtain ⟨current, hcurrent, hkept⟩ := ofTable_afterwards hwf hfound hnames
      refine ⟨shownOf column inherited,
        shownEncoding?_addition hcurrent (hkept.trans hread) hcharset hcollation hok, ?_⟩
      rw [hdeclared, hsame]

/-- A collation beside its own character set, whose names are not in small letters. -/
theorem inheritsLater_of_own_collation :
    (start {}).InheritsLater
      { name := { name := "t" }
        columns := [{ name := "a", type := { name := "int" } }]
        keys := [{ kind := .index, columns := [{ column := "a" }] }]
        options := [("CHARSET", "UTF8MB4"), ("COLLATE", "Utf8mb4_Bin")] }
      { name := "b", type := { name := "varchar", length := some 10 } } :=
  (inheritsLater_iff rfl (show start {} = (start {}).applyEach [] from rfl) (by decide)
    (by decide +kernel) (by decide +kernel) rfl rfl).2
    ⟨"utf8mb4", by decide +kernel, fun _ => by decide +kernel⟩

/-- A collation beside another character set: the later column has the one that the collation
belongs to. -/
theorem not_inheritsLater_of_foreign_collation :
    ¬ (start {}).InheritsLater
      { name := { name := "t" }
        columns := [{ name := "a", type := { name := "varchar", length := some 10 } }]
        options := [("CHARSET", "utf8mb3"), ("COLLATE", "utf8_bin")] }
      { name := "b", type := { name := "varchar", length := some 10 } } := by
  intro h
  obtain ⟨shown, hlater, hdeclared⟩ :=
    h.same_encoding [] { name := "t" } (stillNames_nil _ _) (by decide +kernel)
  have hsame := hlater.trans hdeclared.symm
  revert hsame
  decide +kernel

end Session
end SchemaLint
