import SchemaLint.Catalog.Basic

/-!
# Edits of catalogs

What the edits of a catalog do to its tables.  Every edit that is addressed by a name changes the
first match of a list, so the facts about lists come first.
-/

namespace SchemaLint

namespace Table

variable {α β : Type} {p : α → Bool} {f g : α → α}

@[simp]
theorem modifyFirst_nil : modifyFirst p f [] = [] :=
  rfl

@[simp]
theorem modifyFirst_cons_of_pos {x : α} (h : p x = true) (xs : List α) :
    modifyFirst p f (x :: xs) = f x :: xs :=
  if_pos h

@[simp]
theorem modifyFirst_cons_of_neg {x : α} (h : ¬ p x = true) (xs : List α) :
    modifyFirst p f (x :: xs) = x :: modifyFirst p f xs :=
  if_neg h

/-- An edit that leaves the first match alone leaves the list alone. -/
theorem modifyFirst_eq_self : ∀ {xs : List α}, (∀ x, xs.find? p = some x → f x = x) →
    modifyFirst p f xs = xs
  | [], _ => rfl
  | x :: xs, h => by
      by_cases hx : p x = true
      · simp [hx, h x (by simp [hx])]
      · have hrest : ∀ y, xs.find? p = some y → f y = y := fun y hy => h y (by simp [hx, hy])
        simp [hx, modifyFirst_eq_self hrest]

/-- Only the image of the first match counts. -/
theorem modifyFirst_congr : ∀ {xs : List α}, (∀ x, xs.find? p = some x → f x = g x) →
    modifyFirst p f xs = modifyFirst p g xs
  | [], _ => rfl
  | x :: xs, h => by
      by_cases hx : p x = true
      · simp [hx, h x (by simp [hx])]
      · have hrest : ∀ y, xs.find? p = some y → f y = g y := fun y hy => h y (by simp [hx, hy])
        simp [hx, modifyFirst_congr hrest]

theorem mem_modifyFirst {y : α} : ∀ {xs : List α}, y ∈ modifyFirst p f xs →
    y ∈ xs ∨ ∃ x ∈ xs, p x = true ∧ y = f x
  | [], h => absurd h (by simp)
  | x :: xs, h => by
      by_cases hx : p x = true
      · rw [modifyFirst_cons_of_pos hx] at h
        rcases List.mem_cons.1 h with rfl | h
        · exact .inr ⟨x, List.mem_cons_self, hx, rfl⟩
        · exact .inl (List.mem_cons_of_mem _ h)
      · rw [modifyFirst_cons_of_neg hx] at h
        rcases List.mem_cons.1 h with rfl | h
        · exact .inl List.mem_cons_self
        · rcases mem_modifyFirst h with h | ⟨z, hz, hp, rfl⟩
          · exact .inl (List.mem_cons_of_mem _ h)
          · exact .inr ⟨z, List.mem_cons_of_mem _ hz, hp, rfl⟩

/-- What `f` keeps of an element, the edit keeps of the list. -/
theorem map_modifyFirst {h : α → β} (hf : ∀ x, h (f x) = h x) :
    ∀ xs : List α, (modifyFirst p f xs).map h = xs.map h
  | [] => rfl
  | x :: xs => by
      by_cases hx : p x = true
      · simp [hx, hf]
      · simp [hx, map_modifyFirst hf xs]

/-- The edit is found where the element was found. -/
theorem find?_modifyFirst (hf : ∀ x, p x = true → p (f x) = true) :
    ∀ xs : List α, (modifyFirst p f xs).find? p = (xs.find? p).map f
  | [] => rfl
  | x :: xs => by
      by_cases hx : p x = true
      · simp [hx, hf x hx]
      · simp [hx, find?_modifyFirst hf xs]

/-- Two edits of the same element are one. -/
theorem modifyFirst_modifyFirst (hf : ∀ x, p x = true → p (f x) = true) :
    ∀ xs : List α, modifyFirst p g (modifyFirst p f xs) = modifyFirst p (fun x => g (f x)) xs
  | [] => rfl
  | x :: xs => by
      by_cases hx : p x = true
      · simp [hx, hf x hx]
      · simp [hx, modifyFirst_modifyFirst hf xs]

/-- If at most one element matches, all matches are edited. -/
theorem modifyFirst_eq_map : ∀ {xs : List α}, xs.Pairwise (fun x y => p x = true → p y = false) →
    modifyFirst p f xs = xs.map fun x => if p x then f x else x
  | [], _ => rfl
  | x :: xs, h => by
      obtain ⟨hhead, htail⟩ := List.pairwise_cons.1 h
      by_cases hx : p x = true
      · have hsame : (xs.map fun y => if p y then f y else y) = xs.map id :=
          List.map_congr_left fun y hy => by simp [hhead y hy hx]
        simp [hx, hsame]
      · simp [hx, modifyFirst_eq_map htail]

/-- An edit of a list with a match in its first part is an edit of this part. -/
theorem modifyFirst_append_of_isSome {ys : List α} : ∀ {xs : List α},
    (xs.find? p).isSome = true → modifyFirst p f (xs ++ ys) = modifyFirst p f xs ++ ys
  | [], h => absurd h (by simp)
  | x :: xs, h => by
      by_cases hx : p x = true
      · simp [hx]
      · have hrest : (xs.find? p).isSome = true := by simpa [List.find?_cons, hx] using h
        simp [hx, modifyFirst_append_of_isSome hrest]

/-- Without a match in its first part it is an edit of the other part. -/
theorem modifyFirst_append_of_none {ys : List α} : ∀ {xs : List α},
    xs.find? p = none → modifyFirst p f (xs ++ ys) = xs ++ modifyFirst p f ys
  | [], _ => rfl
  | x :: xs, h => by
      have hx : p x = false := by simpa using List.find?_eq_none.1 h x List.mem_cons_self
      have hrest : xs.find? p = none := by simpa [List.find?_cons, hx] using h
      simp [hx, modifyFirst_append_of_none hrest]

theorem map_columns_modifyColumn {h : Column → β} {f : Column → Column}
    (hf : ∀ column, h (f column) = h column) (table : Table) (name : String) :
    (table.modifyColumn name f).columns.map h = table.columns.map h :=
  map_modifyFirst hf table.columns

/-- Whether there is a column depends on the names of the columns. -/
theorem isSome_column? (table : Table) (name : String) :
    (table.column? name).isSome =
      (table.columns.map Column.name).any (Text.sameLetters · name) := by
  rw [Bool.eq_iff_iff]
  simp [Table.column?, Column.hasName]

/-- A column whose name is free is found after it was added. -/
theorem column?_pushColumn {table : Table} {column : Column}
    (h : table.column? column.name = none) :
    (table.pushColumn column).column? column.name =
      some { column with tableName := table.name, schemaName := table.schemaName } := by
  have hnone : table.columns.find? (Column.hasName column.name) = none := h
  simp [column?, pushColumn, List.find?_append, hnone, Column.hasName, Text.sameLetters]

end Table

namespace Schema

theorem mem_tables_addTable {schema : Schema} {table added : Table}
    (h : table ∈ (schema.addTable added).tables) :
    table ∈ schema.tables ∨
      table = ({ added with schemaName := schema.name } : Table).relink := by
  unfold addTable addTable? at h
  split at h
  · exact .inl h
  · rcases List.mem_append.1 h with h | h
    · exact .inl h
    · exact .inr (List.mem_singleton.1 h)

/-- A table whose name is free is found after it was added. -/
theorem table?_addTable {schema : Schema} {table : Table}
    (h : schema.table? table.name = none) :
    (schema.addTable table).table? table.name =
      some ({ table with schemaName := schema.name } : Table).relink := by
  have hcontains : schema.contains table.name = false := by
    rw [contains, h]
    rfl
  rw [table?] at h
  simp [addTable, addTable?, hcontains, table?, List.find?_append, h, Table.relink]

@[simp] theorem name_addTable (schema : Schema) (table : Table) :
    (schema.addTable table).name = schema.name := by
  unfold addTable addTable?
  split <;> rfl

theorem mem_tables_removeTable {schema : Schema} {name : String} {table : Table}
    (h : table ∈ (schema.removeTable name).tables) : table ∈ schema.tables :=
  List.mem_of_mem_eraseP h

theorem mem_tables_modifyTable {schema : Schema} {name : String} {f : Table → Table}
    {table : Table} (h : table ∈ (schema.modifyTable name f).tables) :
    table ∈ schema.tables ∨ ∃ old ∈ schema.tables, table = f old := by
  rcases Table.mem_modifyFirst h with h | ⟨old, hold, -, rfl⟩
  · exact .inl h
  · exact .inr ⟨old, hold, rfl⟩

end Schema

namespace Catalog

theorem mem_tables {catalog : Catalog} {table : Table} :
    table ∈ catalog.tables ↔ ∃ schema ∈ catalog.schemas, table ∈ schema.tables := by
  simp [tables]

/-- A new schema leaves the rest of a catalog alone. -/
theorem ensureSchema_eq (catalog : Catalog) (name : String) :
    catalog.ensureSchema name =
      { catalog with schemas := (catalog.ensureSchema name).schemas } := by
  unfold ensureSchema
  split <;> rfl

theorem schemas_ensureSchema (catalog : Catalog) (name : String) :
    (catalog.ensureSchema name).schemas =
      if (catalog.schema? name).isSome then catalog.schemas
      else catalog.schemas ++ [({ name } : Schema)] := by
  unfold ensureSchema
  split
  · next h => simp [h]
  · next h => simp [h]

theorem tables_ensureSchema (catalog : Catalog) (name : String) :
    (catalog.ensureSchema name).tables = catalog.tables := by
  unfold tables
  rw [schemas_ensureSchema]
  split <;> simp

theorem schema?_ensureSchema (catalog : Catalog) (name : String) :
    (catalog.ensureSchema name).schema? name = some ((catalog.schema? name).getD { name }) := by
  rw [schema?, schemas_ensureSchema]
  cases h : catalog.schema? name with
  | some schema => exact h
  | none =>
      have hfind : catalog.schemas.find? (·.name == name) = none := h
      simp [List.find?_append, hfind]

theorem schema?_modifySchema (catalog : Catalog) (name : String) {f : Schema → Schema}
    (hf : ∀ schema, (f schema).name = schema.name) :
    (catalog.modifySchema name f).schema? name = (catalog.schema? name).map f :=
  Table.find?_modifyFirst (fun schema h => by simpa [hf] using h) catalog.schemas

theorem table?_modifyTable (catalog : Catalog) (schema name : String) {f : Table → Table}
    (hf : ∀ table, table.name = name → (f table).name = name) :
    (catalog.modifyTable schema name f).table? schema name =
      (catalog.table? schema name).map f := by
  have hfind : ∀ owner : Schema, (owner.modifyTable name f).table? name =
      (owner.table? name).map f := fun owner =>
    Table.find?_modifyFirst (fun table h => by simpa using hf table (by simpa using h)) owner.tables
  rw [table?, modifyTable,
    schema?_modifySchema catalog schema (f := (·.modifyTable name f)) fun _ => rfl, table?]
  cases catalog.schema? schema with
  | none => rfl
  | some owner => exact hfind owner

theorem name_of_table?_eq_some {catalog : Catalog} {schema name : String} {table : Table}
    (h : catalog.table? schema name = some table) : table.name = name := by
  obtain ⟨owner, -, htable⟩ := Option.bind_eq_some_iff.1 h
  simpa using List.find?_some htable

theorem mem_tables_removeSchema {catalog : Catalog} {name : String} {table : Table}
    (h : table ∈ (catalog.removeSchema name).tables) : table ∈ catalog.tables := by
  obtain ⟨schema, hschema, htable⟩ := mem_tables.1 h
  exact mem_tables.2 ⟨schema, List.mem_of_mem_eraseP hschema, htable⟩

theorem mem_tables_retainSchemas {catalog : Catalog} {keep : Schema → Bool} {table : Table}
    (h : table ∈ (catalog.retainSchemas keep).tables) : table ∈ catalog.tables := by
  obtain ⟨schema, hschema, htable⟩ := mem_tables.1 h
  exact mem_tables.2 ⟨schema, (List.mem_filter.1 hschema).1, htable⟩

theorem mem_tables_modifySchema {catalog : Catalog} {name : String} {f : Schema → Schema}
    {table : Table} (h : table ∈ (catalog.modifySchema name f).tables) :
    table ∈ catalog.tables ∨
      ∃ schema ∈ catalog.schemas, schema.name = name ∧ table ∈ (f schema).tables := by
  obtain ⟨schema, hschema, htable⟩ := mem_tables.1 h
  rcases Table.mem_modifyFirst hschema with hschema | ⟨old, hold, hname, rfl⟩
  · exact .inl (mem_tables.2 ⟨schema, hschema, htable⟩)
  · exact .inr ⟨old, hold, by simpa using hname, htable⟩

theorem mem_tables_modifyTable {catalog : Catalog} {schema name : String} {f : Table → Table}
    {table : Table} (h : table ∈ (catalog.modifyTable schema name f).tables) :
    table ∈ catalog.tables ∨ ∃ old ∈ catalog.tables, table = f old := by
  rcases mem_tables_modifySchema h with h | ⟨owner, howner, -, htable⟩
  · exact .inl h
  · rcases Schema.mem_tables_modifyTable htable with htable | ⟨old, hold, rfl⟩
    · exact .inl (mem_tables.2 ⟨owner, howner, htable⟩)
    · exact .inr ⟨old, mem_tables.2 ⟨owner, howner, hold⟩, rfl⟩

/-- A change that leaves the table that is addressed alone leaves the catalog alone. -/
theorem modifyTable_eq_self {catalog : Catalog} {schema name : String} {f : Table → Table}
    (h : ∀ table, catalog.table? schema name = some table → f table = table) :
    catalog.modifyTable schema name f = catalog := by
  have hsame : Table.modifyFirst (·.name == schema) (·.modifyTable name f) catalog.schemas =
      catalog.schemas := by
    refine Table.modifyFirst_eq_self fun owner howner => ?_
    have htables : Table.modifyFirst (·.name == name) f owner.tables = owner.tables := by
      refine Table.modifyFirst_eq_self fun table htable => h table ?_
      simp [table?, schema?, howner, Schema.table?, htable]
    rw [Schema.modifyTable, htables]
  rw [modifyTable, modifySchema, hsame]

theorem modifySchema_modifySchema (catalog : Catalog) (name : String) {f g : Schema → Schema}
    (hf : ∀ schema, (f schema).name = schema.name) :
    (catalog.modifySchema name f).modifySchema name g =
      catalog.modifySchema name fun schema => g (f schema) := by
  have hschemas := Table.modifyFirst_modifyFirst (p := (·.name == name)) (f := f) (g := g)
    (fun schema h => by simpa [hf] using h) catalog.schemas
  exact congrArg (fun schemas => { catalog with schemas }) hschemas

/-- Two changes of one table are one, if the first does not rename it. -/
theorem modifyTable_modifyTable (catalog : Catalog) (schema name : String) {f g : Table → Table}
    (hf : ∀ table, table.name = name → (f table).name = name) :
    (catalog.modifyTable schema name f).modifyTable schema name g =
      catalog.modifyTable schema name fun table => g (f table) := by
  have htables : ∀ owner : Schema, (owner.modifyTable name f).modifyTable name g =
      owner.modifyTable name fun table => g (f table) := fun owner =>
    congrArg (fun tables => { owner with tables }) (Table.modifyFirst_modifyFirst
      (fun table h => by simpa using hf table (by simpa using h)) owner.tables)
  have hsame := modifySchema_modifySchema catalog schema (f := (·.modifyTable name f))
    (g := (·.modifyTable name g)) fun _ => rfl
  simp only [htables] at hsame
  exact hsame

/-- Only the image of the table that is addressed counts. -/
theorem modifyTable_congr {catalog : Catalog} {schema name : String} {f g : Table → Table}
    (h : ∀ table, catalog.table? schema name = some table → f table = g table) :
    catalog.modifyTable schema name f = catalog.modifyTable schema name g := by
  have hsame : Table.modifyFirst (·.name == schema) (·.modifyTable name f) catalog.schemas =
      Table.modifyFirst (·.name == schema) (·.modifyTable name g) catalog.schemas := by
    refine Table.modifyFirst_congr fun owner howner => ?_
    have htables : Table.modifyFirst (·.name == name) f owner.tables =
        Table.modifyFirst (·.name == name) g owner.tables := by
      refine Table.modifyFirst_congr fun table htable => h table ?_
      simp [table?, schema?, howner, Schema.table?, htable]
    rw [Schema.modifyTable, Schema.modifyTable, htables]
  rw [modifyTable, modifyTable, modifySchema, modifySchema, hsame]

end Catalog
end SchemaLint
