import SchemaLint.Proofs.Calendar.Timestamp
import SchemaLint.Proofs.Catalog.Facts
import SchemaLint.Proofs.Catalog.Format
import SchemaLint.Proofs.Catalog.WellFormed
import SchemaLint.Proofs.Definition.Invariant
import SchemaLint.Proofs.Json.Read
import SchemaLint.Snapshot

/-!
# Loading what was written

A snapshot is read as it was written, and what loading then does to a well-formed catalog whose
facts are derived is nothing: the names of owners are repeated already, no check refuses it, and
there is no fact left to derive.
-/

namespace SchemaLint

namespace Table

theorem WellFormed.deriveFacts {table : Table} (h : table.WellFormed) :
    table.deriveFacts.WellFormed :=
  h.withFacts _

end Table

namespace Catalog

/-- Facts are no part of what makes a catalog well-formed. -/
theorem WellFormed.deriveFacts {catalog : Catalog} (h : catalog.WellFormed) :
    catalog.deriveFacts.WellFormed where
  schemas_nodup := by
    simpa [Catalog.deriveFacts, Function.comp_def] using h.schemas_nodup
  schemas_arranged := by
    intro schema hschema
    obtain ⟨owner, howner, rfl⟩ := List.mem_map.1 hschema
    have harranged := h.schemas_arranged owner howner
    refine ⟨?_, fun table htable => ?_⟩
    · rw [Table.map_name_deriveFacts]
      exact harranged.tables_nodup
    · obtain ⟨old, hold, rfl⟩ := List.mem_map.1 htable
      exact harranged.tables_owned old hold
  tables_wellFormed := by
    intro table htable
    obtain ⟨old, hold, rfl⟩ := mem_tables_deriveFacts htable
    exact (h.tables_wellFormed old hold).deriveFacts

/-- Every account carries the name of its catalog. -/
def AccountsOwned (catalog : Catalog) : Prop :=
  ∀ entry ∈ catalog.accounts.entries, entry.2.catalogName = catalog.name

/-- The names of owners in a well-formed catalog are those that would be repeated in it. -/
theorem WellFormed.relink_eq {catalog : Catalog} (h : catalog.WellFormed)
    (haccounts : catalog.AccountsOwned) : catalog.relink = catalog := by
  -- each level repeats what the invariant says of it
  have hschemas : catalog.schemas.map Schema.relink = catalog.schemas := by
    refine (List.map_congr_left (g := id) fun schema hschema => ?_).trans (List.map_id _)
    have htables : (schema.tables.map fun table =>
        ({ table with schemaName := schema.name } : Table).relink) = schema.tables := by
      refine (List.map_congr_left (g := id) fun table htable => ?_).trans (List.map_id _)
      have howner := (h.schemas_arranged schema hschema).tables_owned table htable
      have hwf := h.tables_wellFormed table (mem_tables.2 ⟨schema, hschema, htable⟩)
      rw [← howner]
      exact hwf.relink_eq
    rw [Schema.relink, htables, id]
  have hvalues : catalog.accounts.mapValues (fun account =>
      { account with catalogName := catalog.name }) = catalog.accounts := by
    refine NameMap.eq_of_entries ?_
    refine (List.map_congr_left (g := id) fun entry hentry => ?_).trans (List.map_id _)
    rw [← haccounts entry hentry]
    rfl
  rw [relink, hschemas, hvalues]

end Catalog

namespace Snapshot

/-- Keys that are distinct from each other and from those seen are so after one more is seen. -/
theorem nodup_cons_seen_iff {α κ : Type} (key : α → κ) (item : α) (items : List α)
    (seen : List κ) :
    ((items.map key).Nodup ∧ ∀ other ∈ items, key other ∉ key item :: seen) ↔
      ((item :: items).map key).Nodup ∧ ∀ other ∈ items, key other ∉ seen := by
  rw [List.map_cons, List.nodup_cons]
  constructor
  · rintro ⟨hnodup, hunseen⟩
    refine ⟨⟨fun hmem => ?_, hnodup⟩, fun other hother hold => ?_⟩
    · obtain ⟨other, hother, hsame⟩ := List.mem_map.1 hmem
      exact hunseen other hother (hsame ▸ List.mem_cons_self)
    · exact hunseen other hother (List.mem_cons_of_mem _ hold)
  · rintro ⟨⟨hfirst, hnodup⟩, hunseen⟩
    refine ⟨hnodup, fun other hother hmem => ?_⟩
    rcases List.mem_cons.1 hmem with hsame | hmem
    · exact hfirst (hsame ▸ List.mem_map_of_mem hother)
    · exact hunseen other hother hmem

/-- No item is found exactly if the keys are distinct and none was seen before. -/
theorem repeated?_eq_none_iff {α κ : Type} [BEq κ] [LawfulBEq κ] {key : α → κ} {items : List α} :
    ∀ {seen : List κ}, repeated? key seen items = none ↔
      (items.map key).Nodup ∧ ∀ item ∈ items, key item ∉ seen := by
  induction items with
  | nil => simp [repeated?]
  | cons item items ih =>
      intro seen
      rw [repeated?, List.forall_mem_cons]
      split
      · next hseen => exact iff_of_false nofun fun h => h.2.1 (by simpa using hseen)
      · next hseen =>
          have hnew : key item ∉ seen := by simpa using hseen
          rw [ih, nodup_cons_seen_iff]
          exact and_congr_right fun _ => (and_iff_right hnew).symm

theorem refuse_eq_ok {α : Type} {item : Option α} {error : α → CatalogError} :
    refuse item error = .ok () ↔ item = none := by
  cases item <;> simp [refuse]

theorem then_eq_ok {first second : Except CatalogError Unit} :
    (do first; second) = .ok () ↔ first = .ok () ∧ second = .ok () := by
  cases first <;> simp [bind, Except.bind]

theorem checkSchemas_eq_ok {schemas : List Schema} : ∀ {seen : List String},
    checkSchemas seen schemas = .ok () ↔ (schemas.map Schema.name).Nodup ∧
      (∀ schema ∈ schemas, schema.name ∉ seen) ∧
      ∀ schema ∈ schemas, (schema.tables.map Table.name).Nodup := by
  induction schemas with
  | nil => simp [checkSchemas]
  | cons schema schemas ih =>
      intro seen
      have hstep : checkSchemas seen (schema :: schemas) = .ok () ↔ schema.name ∉ seen ∧
          (schema.tables.map Table.name).Nodup ∧
          checkSchemas (schema.name :: seen) schemas = .ok () := by
        rw [checkSchemas]
        by_cases hseen : schema.name ∈ seen
        · simp [hseen, then_eq_ok, throw, throwThe, MonadExceptOf.throw]
        · simp [hseen, then_eq_ok, refuse_eq_ok, repeated?_eq_none_iff]
      rw [hstep, ih, List.forall_mem_cons, List.forall_mem_cons]
      have hseen := nodup_cons_seen_iff Schema.name schema schemas seen
      tauto

/-- The checks of a table pass exactly if its names do not clash and its primary key is over
columns that it has. -/
theorem checkTable_eq_ok {table : Table} : checkTable table = .ok () ↔
    (table.columns.map fun column => Text.lower column.name).Nodup ∧
      (table.indexes.map fun index => Text.lower index.name).Nodup ∧
      missingKeyColumn? table = none := by
  rw [checkTable, then_eq_ok, then_eq_ok]
  simp [refuse_eq_ok, repeated?_eq_none_iff]

theorem forM_eq_ok {α : Type} {check : α → Except CatalogError Unit} {items : List α} :
    items.forM check = .ok () ↔ ∀ item ∈ items, check item = .ok () := by
  induction items with
  | nil => simp [pure, Except.pure]
  | cons item items ih =>
      change (do check item; items.forM check) = .ok () ↔ _
      rw [then_eq_ok, ih, List.forall_mem_cons]

theorem checkCatalog_eq_ok {catalog : Catalog} : checkCatalog catalog = .ok () ↔
    (catalog.schemas.map Schema.name).Nodup ∧
      (∀ schema ∈ catalog.schemas, (schema.tables.map Table.name).Nodup) ∧
      ∀ table ∈ catalog.tables, checkTable table = .ok () := by
  rw [checkCatalog, then_eq_ok, checkSchemas_eq_ok, forM_eq_ok]
  simp [and_assoc]

/-- No check refuses a well-formed catalog. -/
theorem checkCatalog_of_wellFormed {catalog : Catalog} (h : catalog.WellFormed) :
    checkCatalog catalog = .ok () := by
  refine checkCatalog_eq_ok.2 ⟨h.schemas_nodup, fun schema hschema =>
    (h.schemas_arranged schema hschema).tables_nodup, fun table htable => ?_⟩
  have hwf := h.tables_wellFormed table htable
  refine checkTable_eq_ok.2 ⟨hwf.columns_nodup, hwf.indexes_nodup, ?_⟩
  rw [missingKeyColumn?, Option.bind_eq_none_iff]
  intro primary hprimary
  have hmem : primary ∈ table.indexes := List.mem_of_find?_eq_some hprimary
  rw [List.find?_eq_none]
  intro name hname
  obtain ⟨column, hcolumn, hsame⟩ := List.mem_map.1 (hwf.covered primary hmem name hname)
  rw [Option.isNone_iff_eq_none, Table.column?_eq_none_iff]
  exact fun hmissing => hmissing column hcolumn (by rw [hsame])

section Ready

variable {parse : Digest.StatementParser}

/-- A catalog in which loading has nothing left to do. -/
structure Ready (parse : Digest.StatementParser) (catalog : Catalog) : Prop where
  linked : catalog.relink = catalog
  checked : checkCatalog catalog = .ok ()
  resolved : resolveQueries parse catalog = catalog
  derived : catalog.deriveFacts = catalog

/-- A well-formed catalog without queries is ready if its facts are derived. -/
theorem ready_of_wellFormed {catalog : Catalog} (h : catalog.WellFormed)
    (haccounts : catalog.AccountsOwned) (hqueries : catalog.queries = [])
    (hfacts : catalog.deriveFacts = catalog) : Ready parse catalog where
  linked := h.relink_eq haccounts
  checked := checkCatalog_of_wellFormed h
  resolved := by rw [resolveQueries, hqueries, List.map_nil, ← hqueries]
  derived := hfacts

/-- The catalog as its text gives it, where no statements are written. -/
def written (catalog : Catalog) : Catalog :=
  { catalog with queries := catalog.queries.map Query.withoutStatements }

/-- A digest is read from its text, whatever was known of its statements. -/
theorem resolveQueries_written (catalog : Catalog) :
    resolveQueries parse (written catalog) = resolveQueries parse catalog := by
  rw [resolveQueries, written, List.map_map]
  rfl

/-- Only the statements of the queries are restored in a ready catalog. -/
theorem Ready.prepare_written {snapshot : Snapshot} (h : Ready parse snapshot.catalog) :
    prepare parse { snapshot with catalog := written snapshot.catalog } = .ok snapshot := by
  obtain ⟨hlinked, hchecked, hresolved, hderived⟩ := h
  have hrelink : (written snapshot.catalog).relink = written snapshot.catalog :=
    congrArg written hlinked
  have hcheck : checkCatalog (written snapshot.catalog) = .ok () := hchecked
  rw [prepare, hrelink, hcheck]
  change Except.ok { snapshot with
    catalog := (resolveQueries parse (written snapshot.catalog)).deriveFacts } = _
  rw [resolveQueries_written, hresolved, hderived]

theorem plain_toJson (snapshot : Snapshot) : snapshot.toJson.Plain := by
  have htime : (Json.optional timeToJson snapshot.capturedAt).Plain :=
    Json.plain_optional fun time _ => .text time.text
  simp [toJson, htime]

/-- A snapshot is read as it was written, but for the statements of its queries. -/
theorem ofJson?_toJson {snapshot : Snapshot} (htime : ∀ time ∈ snapshot.capturedAt, time.IsValid) :
    ofJson? snapshot.toJson = some { snapshot with catalog := written snapshot.catalog } := by
  have hrecord : Json.record? fields snapshot.toJson = some _ :=
    Json.record?_object (by decide) (.refl fields)
  have hcaptured : Json.nullable? timeOfJson? (Json.optional timeToJson snapshot.capturedAt) =
      some snapshot.capturedAt :=
    Json.nullable?_optional timeToJson snapshot.capturedAt nofun fun time hmem =>
      Timestamp.parse?_text (htime time hmem)
  rw [ofJson?, hrecord, Json.some_bind]
  simp [Json.Members.required, Json.Members.orElse, hcaptured, Catalog.ofJson?_toJson, written]

/-- The text of a snapshot that is ready is loaded as the snapshot. -/
theorem Ready.load_text {snapshot : Snapshot} (h : Ready parse snapshot.catalog)
    (htime : ∀ time ∈ snapshot.capturedAt, time.IsValid) :
    load parse snapshot.text = .ok snapshot := by
  have hread : (Json.parse? snapshot.text).bind ofJson? =
      some { snapshot with catalog := written snapshot.catalog } := by
    rw [text, Json.parse?_pretty (plain_toJson snapshot), Option.bind_some, ofJson?_toJson htime]
  rw [load, hread]
  simp only [h.prepare_written]

end Ready

end Snapshot
end SchemaLint
