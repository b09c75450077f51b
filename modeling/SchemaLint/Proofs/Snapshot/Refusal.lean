import SchemaLint.Digest.Grammar
import SchemaLint.Proofs.Snapshot

/-!
# Why snapshots are refused

A catalog is refused when names clash in it, or when a primary key is over a column that its table
does not have.  The names of schemas and tables are looked at in a first pass over the catalog, and
what is within the tables in a second one.  `violations` lists all that is wrong, in this order, and
the first of it is the error.

* `clashing` - the later ones of items that clash, whatever was seen before them.
* `errorOf?_checkSchemas`, `errorOf?_checkTable` - the two passes.
* `load_refusesFirst` - loading succeeds exactly where nothing is wrong.
-/

namespace SchemaLint

open Text (lower sameLetters sameLetters_iff)

/-- No names clash in the catalog, and every primary key is over columns that its table has.  Names
of columns and indexes clash up to the case of ASCII letters. -/
structure Catalog.Admissible (catalog : Catalog) : Prop where
  schemas : catalog.schemas.Pairwise fun schema other => schema.name ≠ other.name
  tables : ∀ schema ∈ catalog.schemas,
    schema.tables.Pairwise fun table other => table.name ≠ other.name
  columns : ∀ table ∈ catalog.tables,
    table.columns.Pairwise fun column other => sameLetters column.name other.name = false
  indexes : ∀ table ∈ catalog.tables,
    table.indexes.Pairwise fun index other => sameLetters index.name other.name = false
  keyParts : ∀ table ∈ catalog.tables, ∀ index ∈ table.indexes,
    index.hasName Index.primaryName = true → ∀ name ∈ index.columnNames,
      ∃ column ∈ table.columns, column.hasName name = true

namespace Snapshot

/-! ### Clashes in a list -/

section Clashes

variable {α β κ : Type} [BEq κ]

/-- Whether an item at a place has the key of an item before that place. -/
def clashes (key : α → κ) (items : List α) (entry : α × Nat) : Bool :=
  ((items.take entry.2).map key).contains (key entry.1)

/-- The items that have the key of an item before them, in order. -/
def clashing (key : α → κ) (items : List α) : List α :=
  (items.zipIdx.filter (clashes key items)).map Prod.fst

/-- Renamed items are found where the items are. -/
theorem repeated?_map (f : α → β) (key : β → κ) (items : List α) (seen : List κ) :
    repeated? key seen (items.map f) = (repeated? (key ∘ f) seen items).map f := by
  induction items generalizing seen with
  | nil => rfl
  | cons item items ih =>
      rw [List.map_cons, repeated?, repeated?, ih, Function.comp_apply]
      split <;> rfl

variable [LawfulBEq κ]

/-- At the first place behind the items in front, a clash is with one of them. -/
theorem clashes_self (key : α → κ) (item : α) (items front : List α) {seen : List κ}
    (hseen : ∀ k, k ∈ seen ↔ k ∈ front.map key) :
    clashes key (front ++ item :: items) (item, front.length) = seen.contains (key item) := by
  rw [clashes, List.take_left, Bool.eq_iff_iff, List.contains_iff_mem, List.contains_iff_mem, hseen]

/-- The search that remembers keys finds the first item that clashes with one before it; the items
in front have been passed. -/
theorem repeated?_eq_head? (key : α → κ) (items front : List α) {seen : List κ}
    (hseen : ∀ k, k ∈ seen ↔ k ∈ front.map key) :
    repeated? key seen items = (((items.zipIdx front.length).filter
      (clashes key (front ++ items))).map Prod.fst).head? := by
  induction items generalizing front seen with
  | nil => rfl
  | cons item items ih =>
      have hclash : clashes key (front ++ item :: items) (item, front.length) =
          seen.contains (key item) := clashes_self key item items front hseen
      rw [repeated?, List.zipIdx_cons, List.filter_cons, hclash]
      split
      · rfl
      · have hnext : ∀ k, k ∈ key item :: seen ↔ k ∈ (front ++ [item]).map key := by
          intro k
          simp [hseen, or_comm]
        rw [ih (front ++ [item]) hnext, List.append_assoc, List.length_append]
        rfl

theorem repeated?_eq_head?_clashing (key : α → κ) (items : List α) :
    repeated? key [] items = (clashing key items).head? :=
  repeated?_eq_head? key items [] (fun _ => Iff.rfl)

end Clashes

theorem errorOf?_refuse {α : Type} (item : Option α) (error : α → CatalogError) :
    errorOf? (refuse item error) = item.map error := by
  cases item <;> rfl

/-! ### What is wrong with a catalog -/

/-- The clashes of names at one of the schemas: its own with one before it, and those of its
tables. -/
def schemaViolations (schemas : List Schema) (entry : Schema × Nat) : List CatalogError :=
  (if clashes Schema.name schemas entry then [.existingSchema entry.1.name] else []) ++
    (clashing Table.name entry.1.tables).map fun table =>
      .existingTable (entry.1.name ++ "." ++ table.name)

/-- The columns of the primary key that the table does not have. -/
def missingKeyColumns (table : Table) : List String :=
  ((table.index? Index.primaryName).map Index.columnNames).getD [] |>.filter fun name =>
    (table.column? name).isNone

/-- What is wrong within a table of a schema: columns, then indexes, then the primary key. -/
def tableViolations (schema : Schema) (table : Table) : List CatalogError :=
  (clashing (fun column => lower column.name) table.columns).map
      (fun column => .existingColumn (schema.name ++ "." ++ table.name) column.name) ++
    (clashing (fun index => lower index.name) table.indexes).map
      (fun index => .existingIndex (schema.name ++ "." ++ table.name) index.name) ++
    (missingKeyColumns table).map
      (fun name => .missingColumn (schema.name ++ "." ++ table.name) name)

/-- All that is wrong with a catalog: the names of schemas and tables first, and then what is within
each table. -/
def violations (catalog : Catalog) : List CatalogError :=
  catalog.schemas.zipIdx.flatMap (schemaViolations catalog.schemas) ++
    catalog.schemas.flatMap fun schema => schema.tables.flatMap (tableViolations schema)

/-! ### The first violation is the error -/

theorem errorOf?_checkSchemas_cons (seen : List String) (schema : Schema) (schemas : List Schema) :
    errorOf? (checkSchemas seen (schema :: schemas)) =
      ((if seen.contains schema.name then some (.existingSchema schema.name) else none).or
        ((repeated? Table.name [] schema.tables).map fun table =>
          .existingTable table.qualifiedName)).or
        (errorOf? (checkSchemas (schema.name :: seen) schemas)) := by
  rw [checkSchemas]
  split
  · rfl
  · rw [Option.none_or, ← errorOf?_refuse]
    exact errorOf?_then _ _

/-- The names of the tables of a schema, once the owners are repeated in them. -/
theorem repeated?_tables_relink (schema : Schema) :
    ((repeated? Table.name [] schema.relink.tables).map fun table =>
      CatalogError.existingTable table.qualifiedName) =
    (((clashing Table.name schema.tables).map fun table =>
      CatalogError.existingTable (schema.name ++ "." ++ table.name))).head? := by
  rw [Schema.relink, repeated?_map, Option.map_map, List.head?_map, ← repeated?_eq_head?_clashing]
  rfl

/-- The first pass, once the schemas in front have been passed. -/
theorem errorOf?_checkSchemas (schemas front : List Schema) {seen : List String}
    (hseen : ∀ name, name ∈ seen ↔ name ∈ front.map Schema.name) :
    errorOf? (checkSchemas seen (schemas.map Schema.relink)) =
      ((schemas.zipIdx front.length).flatMap (schemaViolations (front ++ schemas))).head? := by
  induction schemas generalizing front seen with
  | nil => rfl
  | cons schema schemas ih =>
      have hclash : clashes Schema.name (front ++ schema :: schemas) (schema, front.length) =
          seen.contains schema.name := clashes_self Schema.name schema schemas front hseen
      have hnext : ∀ name, name ∈ schema.name :: seen ↔
          name ∈ (front ++ [schema]).map Schema.name := by
        intro name
        simp [hseen, or_comm]
      have hrest := ih (front ++ [schema]) hnext
      rw [List.append_assoc, List.length_append] at hrest
      rw [List.map_cons, errorOf?_checkSchemas_cons, repeated?_tables_relink, List.zipIdx_cons,
        List.flatMap_cons, List.head?_append, schemaViolations, List.head?_append, hclash]
      refine congrArg₂ Option.or (congrArg (Option.or · _) ?_) hrest
      change (if seen.contains schema.name then _ else none) = _
      split <;> rfl

theorem missingKeyColumn?_relink (schema : Schema) (table : Table) :
    missingKeyColumn? ({ table with schemaName := schema.name } : Table).relink =
      (missingKeyColumns table).head? := by
  have hcolumn : ∀ name, (({ table with schemaName := schema.name } : Table).relink.column?
      name).isNone = (table.column? name).isNone := by
    intro name
    rw [Table.column?, Table.relink, List.find?_map, Option.isNone_map]
    rfl
  simp only [missingKeyColumn?, hcolumn]
  rw [missingKeyColumns, List.head?_filter, Table.index?, Table.relink, List.find?_map]
  change Option.bind (Option.map _ (table.index? Index.primaryName)) _ = _
  cases table.index? Index.primaryName <;> rfl

/-- The checks of one table. -/
theorem errorOf?_checkTable (schema : Schema) (table : Table) :
    errorOf? (checkTable ({ table with schemaName := schema.name } : Table).relink) =
      (tableViolations schema table).head? := by
  rw [checkTable, errorOf?_then, errorOf?_then, errorOf?_refuse, errorOf?_refuse, errorOf?_refuse,
    tableViolations, List.head?_append, List.head?_append, Option.or_assoc, List.head?_map,
    List.head?_map, List.head?_map, ← repeated?_eq_head?_clashing, ← repeated?_eq_head?_clashing,
    ← missingKeyColumn?_relink schema, Table.relink, repeated?_map, repeated?_map, Option.map_map,
    Option.map_map]
  rfl

theorem errorOf?_checkCatalog (catalog : Catalog) :
    errorOf? (checkCatalog catalog.relink) = (violations catalog).head? := by
  have hfirst := errorOf?_checkSchemas catalog.schemas [] (fun _ => Iff.rfl)
  have hsecond : errorOf? (catalog.relink.tables.forM checkTable) =
      (catalog.schemas.flatMap fun schema =>
        schema.tables.flatMap (tableViolations schema)).head? := by
    have htable : ∀ schema : Schema,
        (schema.relink.tables.findSome? fun table => errorOf? (checkTable table)) =
          (schema.tables.flatMap (tableViolations schema)).head? := by
      intro schema
      rw [Schema.relink, List.findSome?_map, List.head?_flatMap]
      exact congrArg (schema.tables.findSome? ·) (funext (errorOf?_checkTable schema))
    rw [errorOf?_forM, Catalog.tables, findSome?_flatMap, Catalog.relink, List.findSome?_map,
      List.head?_flatMap]
    exact congrArg (catalog.schemas.findSome? ·) (funext htable)
  rw [checkCatalog, errorOf?_then, hsecond, violations, List.head?_append]
  exact congrArg (Option.or · _) hfirst

/-! ### Nothing is wrong -/

theorem pairwise_sameLetters_iff {α : Type} (name : α → String) (items : List α) :
    (items.Pairwise fun item other => sameLetters (name item) (name other) = false) ↔
      (items.map fun item => lower (name item)).Nodup := by
  rw [List.Nodup, List.pairwise_map]
  simp only [Bool.eq_false_iff, ne_eq, sameLetters_iff]

section Distinct

variable {table : Table} (hnodup : (table.indexes.map fun index => lower index.name).Nodup)

include hnodup

/-- Where the names of indexes are distinct, the index that is found under a name is the one that
has it. -/
theorem index?_eq_some_iff {name : String} {index : Index} :
    table.index? name = some index ↔ index ∈ table.indexes ∧ index.hasName name = true := by
  constructor
  · exact fun h => ⟨List.mem_of_find?_eq_some h, List.find?_some h⟩
  · rintro ⟨hindex, hname⟩
    have hsome := List.find?_isSome.2 ⟨index, hindex, hname⟩
    obtain ⟨found, hfound⟩ := Option.isSome_iff_exists.1 hsome
    have hother : found.hasName name = true := List.find?_some hfound
    have hsame : lower found.name = lower index.name :=
      (sameLetters_iff.1 hother).trans (sameLetters_iff.1 hname).symm
    rw [Table.index?, hfound,
      List.inj_on_of_nodup_map hnodup (List.mem_of_find?_eq_some hfound) hindex hsame]

theorem missingKeyColumns_eq_nil_iff : missingKeyColumns table = [] ↔
    ∀ index ∈ table.indexes, index.hasName Index.primaryName = true →
      ∀ name ∈ index.columnNames, ∃ column ∈ table.columns, column.hasName name = true := by
  have hfound : missingKeyColumns table = [] ↔ ∀ index,
      table.index? Index.primaryName = some index → ∀ name ∈ index.columnNames,
        (table.column? name).isSome = true := by
    rw [missingKeyColumns]
    cases table.index? Index.primaryName <;>
      simp [List.filter_eq_nil_iff, Option.isSome_iff_ne_none]
  rw [hfound]
  simp only [index?_eq_some_iff hnodup, and_imp, Table.column?, List.find?_isSome]

end Distinct

/-- The checks of one table pass if its names do not clash and its primary key is over columns that
it has. -/
theorem checkTable_relink_eq_ok_iff (schema : Schema) (table : Table) :
    checkTable ({ table with schemaName := schema.name } : Table).relink = .ok () ↔
      (table.columns.Pairwise fun column other => sameLetters column.name other.name = false) ∧
      (table.indexes.Pairwise fun index other => sameLetters index.name other.name = false) ∧
      ∀ index ∈ table.indexes, index.hasName Index.primaryName = true →
        ∀ name ∈ index.columnNames, ∃ column ∈ table.columns, column.hasName name = true := by
  have hcolumns : (({ table with schemaName := schema.name } : Table).relink.columns.map
      fun column => lower column.name) = table.columns.map fun column => lower column.name := by
    rw [Table.relink, List.map_map]
    rfl
  have hindexes : (({ table with schemaName := schema.name } : Table).relink.indexes.map
      fun index => lower index.name) = table.indexes.map fun index => lower index.name := by
    rw [Table.relink, List.map_map]
    rfl
  rw [checkTable_eq_ok, hcolumns, hindexes, missingKeyColumn?_relink, List.head?_eq_none_iff,
    pairwise_sameLetters_iff, pairwise_sameLetters_iff]
  exact and_congr_right fun _ => and_congr_right missingKeyColumns_eq_nil_iff

theorem forall_tables_relink {catalog : Catalog} {P : Table → Prop} :
    (∀ table ∈ catalog.relink.tables, P table) ↔ ∀ schema ∈ catalog.schemas,
      ∀ table ∈ schema.tables, P ({ table with schemaName := schema.name } : Table).relink := by
  rw [Catalog.tables, List.forall_mem_flatMap, Catalog.relink, List.forall_mem_map]
  exact forall₂_congr fun schema _ => by rw [Schema.relink, List.forall_mem_map]

theorem admissible_iff {catalog : Catalog} :
    catalog.Admissible ↔ checkCatalog catalog.relink = .ok () := by
  have hschemas : catalog.relink.schemas.map Schema.name = catalog.schemas.map Schema.name := by
    rw [Catalog.relink, List.map_map]
    rfl
  have htables : (∀ schema ∈ catalog.relink.schemas, (schema.tables.map Table.name).Nodup) ↔
      ∀ schema ∈ catalog.schemas, (schema.tables.map Table.name).Nodup := by
    rw [Catalog.relink, List.forall_mem_map]
    refine forall₂_congr fun schema _ => ?_
    rw [Schema.relink, List.map_map]
    rfl
  rw [checkCatalog_eq_ok, hschemas, htables, forall_tables_relink]
  simp only [checkTable_relink_eq_ok_iff, List.Nodup, List.pairwise_map]
  constructor
  · rintro ⟨hnames, htables, hcolumns, hindexes, hparts⟩
    refine ⟨hnames, htables, fun schema hschema table htable => ?_⟩
    have hmem := Catalog.mem_tables.2 ⟨schema, hschema, htable⟩
    exact ⟨hcolumns table hmem, hindexes table hmem, hparts table hmem⟩
  · rintro ⟨hnames, htables, hwithin⟩
    have hall : ∀ table ∈ catalog.tables, _ := fun table htable =>
      (Catalog.mem_tables.1 htable).elim fun schema h => hwithin schema h.1 table h.2
    exact ⟨hnames, htables, fun table htable => (hall table htable).1,
      fun table htable => (hall table htable).2.1, fun table htable => (hall table htable).2.2⟩

/-- A snapshot that can be read is loaded exactly when its catalog is admissible.  If it is not, the
error is the first violation. -/
theorem load_refusesFirst {parse : Digest.StatementParser} {text : String} {snapshot : Snapshot}
    (h : (Json.parse? text).bind ofJson? = some snapshot) :
    ((∃ loaded, load parse text = .ok loaded) ↔ snapshot.catalog.Admissible) ∧
      (¬ snapshot.catalog.Admissible → ∃ violation,
        (violations snapshot.catalog).head? = some violation ∧
          load parse text = .error (.invalid violation)) := by
  have hload : load parse text = (snapshot.prepare parse).mapError .invalid := by
    rw [load, h]
    dsimp only
    cases snapshot.prepare parse <;> rfl
  rw [hload, prepare, admissible_iff, ← errorOf?_checkCatalog]
  cases hcheck : checkCatalog snapshot.catalog.relink with
  | ok _ => exact ⟨iff_of_true ⟨_, rfl⟩ rfl, fun hnot => absurd rfl hnot⟩
  | error violation =>
      refine ⟨iff_of_false ?_ ?_, fun _ => ⟨violation, rfl, rfl⟩⟩
      · rintro ⟨loaded, hloaded⟩
        cases hloaded
      · intro hok
        cases hok

/-- Two schemas of one name come before two columns of one name, though those stand before them. -/
theorem load_refusesFirst_of_two_clashes :
    let text := "\x7b\"database\":\x7b\"schemas\":[\x7b\"name\":\"s\",\"tables\":[" ++
      "\x7b\"name\":\"t\",\"columns\":[\x7b\"name\":\"a\"\x7d,\x7b\"name\":\"A\"\x7d]\x7d]\x7d," ++
      "\x7b\"name\":\"s\"\x7d]\x7d\x7d"
    ∃ snapshot, (Json.parse? text).bind ofJson? = some snapshot ∧
      violations snapshot.catalog = [.existingSchema "s", .existingColumn "s.t" "A"] ∧
      load Digest.parse? text = .error (.invalid (.existingSchema "s")) := by
  intro text
  let snapshot : Snapshot := {
    catalog := {
      schemas := [
        { name := "s", tables := [{ name := "t", columns := [{ name := "a" }, { name := "A" }] }] },
        { name := "s" }] } }
  have hread : (Json.parse? text).bind ofJson? = some snapshot := by decide +kernel
  have hviolations : violations snapshot.catalog =
      [.existingSchema "s", .existingColumn "s.t" "A"] := by decide +kernel
  have hnot : ¬ snapshot.catalog.Admissible := fun h => by
    have hschemas := h.schemas
    simp [snapshot] at hschemas
  obtain ⟨violation, hfirst, hload⟩ := (load_refusesFirst hread).2 hnot
  rw [hviolations] at hfirst
  cases hfirst
  exact ⟨snapshot, hread, hviolations, hload⟩

end Snapshot
end SchemaLint
