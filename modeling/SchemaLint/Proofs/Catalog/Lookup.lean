import SchemaLint.Proofs.Catalog.WellFormed

/-!
# Looking up what an edit did not address

An edit that is addressed by a name changes what is found under this name and nothing else.  What
is removed is gone only because names do not repeat.
-/

namespace SchemaLint

section Lists

variable {α : Type} {p q : α → Bool} {f : α → α}

/-- An edit of another element is not seen. -/
theorem Table.find?_modifyFirst_of_disjoint (hpq : ∀ x, q x = true → p x = false)
    (hf : ∀ x, q (f x) = q x) : ∀ xs : List α, (modifyFirst p f xs).find? q = xs.find? q
  | [] => rfl
  | x :: xs => by
      by_cases hx : p x = true
      · have hq : q x = false := by
          by_contra hq
          simp [hpq x (by simpa using hq)] at hx
        simp [hx, hf, hq]
      · simp [hx, List.find?_cons, find?_modifyFirst_of_disjoint hpq hf xs]

/-- Neither is the removal of another element. -/
theorem find?_eraseP_of_disjoint (hpq : ∀ x, q x = true → p x = false) :
    ∀ xs : List α, (xs.eraseP p).find? q = xs.find? q
  | [] => rfl
  | x :: xs => by
      by_cases hx : p x = true
      · have hq : q x = false := by
          by_contra hq
          simp [hpq x (by simpa using hq)] at hx
        simp [hx, hq]
      · simp [hx, List.find?_cons, find?_eraseP_of_disjoint hpq xs]

/-- After its removal an element that occurs once is not found. -/
theorem find?_eraseP_self : ∀ {xs : List α}, xs.Pairwise (fun x y => p x = true → p y = false) →
    (xs.eraseP p).find? p = none
  | [], _ => rfl
  | x :: xs, h => by
      obtain ⟨hhead, htail⟩ := List.pairwise_cons.1 h
      by_cases hx : p x = true
      · rw [List.eraseP_cons_of_pos hx, List.find?_eq_none]
        intro y hy
        simp [hhead y hy hx]
      · simp [hx, find?_eraseP_self htail]

/-- Where names do not repeat, one element at most has a given name. -/
theorem pairwise_of_nodup_map {name : α → String} {xs : List α} (h : (xs.map name).Nodup)
    (key : String) :
    xs.Pairwise fun x y => (name x == key) = true → (name y == key) = false := by
  refine (List.pairwise_map.1 h).imp fun hne hx => ?_
  rw [beq_iff_eq] at hx
  rw [beq_eq_false_iff_ne]
  exact fun hy => hne (hx.trans hy.symm)

/-- Where names do not repeat, an element is found under its name. -/
theorem find?_name_of_mem {name : α → String} {xs : List α} (h : (xs.map name).Nodup) {x : α}
    (hx : x ∈ xs) : xs.find? (name · == name x) = some x := by
  obtain ⟨found, hfound⟩ : ∃ found, xs.find? (name · == name x) = some found :=
    Option.isSome_iff_exists.1 (List.find?_isSome.2 ⟨x, hx, by simp⟩)
  have hname : name found = name x := by simpa using List.find?_some hfound
  rw [hfound, List.inj_on_of_nodup_map h (List.mem_of_find?_eq_some hfound) hx hname]

end Lists

namespace Schema

variable {name other : String}

theorem table?_removeTable_self {schema : Schema} (h : schema.Arranged) (name : String) :
    (schema.removeTable name).table? name = none :=
  find?_eraseP_self (pairwise_of_nodup_map h.tables_nodup name)

theorem table?_removeTable_of_ne (schema : Schema) (h : other ≠ name) :
    (schema.removeTable name).table? other = schema.table? other :=
  find?_eraseP_of_disjoint
    (fun _ htable => beq_false_of_ne fun heq => h ((eq_of_beq htable).symm.trans heq))
    schema.tables

theorem table?_modifyTable_of_ne (schema : Schema) (h : other ≠ name) {f : Table → Table}
    (hf : ∀ table, (f table).name = table.name) :
    (schema.modifyTable name f).table? other = schema.table? other :=
  Table.find?_modifyFirst_of_disjoint
    (fun _ htable => beq_false_of_ne fun heq => h ((eq_of_beq htable).symm.trans heq))
    (fun table => by rw [hf]) schema.tables

/-- A table that is added is found, unless there was one of its name, which is found then. -/
theorem table?_addTable_self (schema : Schema) (table : Table) :
    (schema.addTable table).table? table.name = some ((schema.table? table.name).getD
      ({ table with schemaName := schema.name } : Table).relink) := by
  cases hfound : schema.table? table.name with
  | none => exact table?_addTable hfound
  | some old =>
      have hcontains : schema.contains table.name = true := by
        rw [contains, hfound]
        rfl
      rw [addTable, addTable?, if_pos hcontains]
      exact hfound

theorem table?_addTable_of_ne (schema : Schema) {table : Table} (h : other ≠ table.name) :
    (schema.addTable table).table? other = schema.table? other := by
  have hname : (({ table with schemaName := schema.name } : Table).relink.name == other) = false :=
    beq_false_of_ne (Ne.symm h)
  rw [addTable, addTable?]
  split
  · rfl
  · simp only [Option.getD_some, table?, List.find?_append]
    rw [List.find?_cons_of_neg (by simp [hname]), List.find?_nil, Option.or_none]

/-- A schema has tables exactly if there is a table to be found. -/
theorem isEmpty_eq_false_iff {schema : Schema} :
    schema.isEmpty = false ↔ ∃ name, (schema.table? name).isSome = true := by
  rw [isEmpty, List.isEmpty_eq_false_iff]
  constructor
  · intro htables
    obtain ⟨table, htable⟩ := List.exists_mem_of_ne_nil _ htables
    refine ⟨table.name, ?_⟩
    rw [table?, List.find?_isSome]
    exact ⟨table, htable, by simp⟩
  · rintro ⟨name, hfound⟩ hempty
    simp [table?, hempty] at hfound

end Schema

namespace Catalog

variable {name other : String}

theorem schema?_ensureSchema_of_ne (catalog : Catalog) (h : other ≠ name) :
    (catalog.ensureSchema name).schema? other = catalog.schema? other := by
  rw [schema?, schemas_ensureSchema]
  split
  · rfl
  · rw [List.find?_append, List.find?_cons_of_neg (by simpa using Ne.symm h), List.find?_nil,
      Option.or_none]
    rfl

theorem schema?_modifySchema_of_ne (catalog : Catalog) (h : other ≠ name) {f : Schema → Schema}
    (hf : ∀ schema, (f schema).name = schema.name) :
    (catalog.modifySchema name f).schema? other = catalog.schema? other :=
  Table.find?_modifyFirst_of_disjoint
    (fun _ hschema => beq_false_of_ne fun heq => h ((eq_of_beq hschema).symm.trans heq))
    (fun schema => by rw [hf]) catalog.schemas

/-- An edit of a schema is seen in this schema only. -/
theorem table?_modifySchema (catalog : Catalog) (owner schema table : String) {f : Schema → Schema}
    (hf : ∀ schema, (f schema).name = schema.name) :
    (catalog.modifySchema owner f).table? schema table =
      (catalog.schema? schema).bind fun found =>
        (if schema = owner then f found else found).table? table := by
  by_cases hsame : schema = owner
  · subst hsame
    rw [table?, schema?_modifySchema _ _ hf]
    cases catalog.schema? schema <;> simp
  · rw [table?, schema?_modifySchema_of_ne _ hsame hf]
    simp [hsame]

theorem isSome_schema?_modifySchema (catalog : Catalog) (owner schema : String)
    {f : Schema → Schema} (hf : ∀ schema, (f schema).name = schema.name) :
    ((catalog.modifySchema owner f).schema? schema).isSome = (catalog.schema? schema).isSome := by
  by_cases hsame : schema = owner
  · rw [hsame, schema?_modifySchema _ _ hf, Option.isSome_map]
  · rw [schema?_modifySchema_of_ne _ hsame hf]

theorem schema?_removeSchema_self {catalog : Catalog} (h : catalog.Arranged) (name : String) :
    (catalog.removeSchema name).schema? name = none :=
  find?_eraseP_self (pairwise_of_nodup_map h.schemas_nodup name)

theorem schema?_removeSchema_of_ne (catalog : Catalog) (h : other ≠ name) :
    (catalog.removeSchema name).schema? other = catalog.schema? other :=
  find?_eraseP_of_disjoint
    (fun _ hschema => beq_false_of_ne fun heq => h ((eq_of_beq hschema).symm.trans heq))
    catalog.schemas

theorem isSome_schema?_ensureSchema (catalog : Catalog) (name schema : String) :
    ((catalog.ensureSchema name).schema? schema).isSome =
      (name == schema || (catalog.schema? schema).isSome) := by
  by_cases hsame : schema = name
  · simp [hsame, schema?_ensureSchema]
  · simp [schema?_ensureSchema_of_ne _ hsame, Ne.symm hsame]

theorem isSome_schema?_removeSchema {catalog : Catalog} (h : catalog.Arranged)
    (name schema : String) :
    ((catalog.removeSchema name).schema? schema).isSome =
      ((catalog.schema? schema).isSome && !(name == schema)) := by
  by_cases hsame : schema = name
  · simp [hsame, schema?_removeSchema_self h]
  · simp [schema?_removeSchema_of_ne _ hsame, Ne.symm hsame]

/-- The tables of a schema go with it. -/
theorem table?_removeSchema {catalog : Catalog} (h : catalog.Arranged)
    (name schema table : String) :
    (catalog.removeSchema name).table? schema table =
      if name == schema then none else catalog.table? schema table := by
  rw [table?, table?]
  by_cases hsame : schema = name
  · simp [hsame, schema?_removeSchema_self h]
  · simp [schema?_removeSchema_of_ne _ hsame, Ne.symm hsame]

/-- The schema of a table that is found is found too. -/
theorem isSome_schema?_of_isSome_table? {catalog : Catalog} {schema table : String}
    (h : (catalog.table? schema table).isSome = true) : (catalog.schema? schema).isSome = true := by
  rw [table?] at h
  cases hfound : catalog.schema? schema with
  | none => simp [hfound] at h
  | some owner => rfl

/-- Where names do not repeat, a schema is found exactly if it satisfies what it has to. -/
theorem schema?_retainSchemas {catalog : Catalog} (h : catalog.Arranged) (keep : Schema → Bool)
    (name : String) :
    (catalog.retainSchemas keep).schema? name = (catalog.schema? name).filter keep := by
  have hpairwise := pairwise_of_nodup_map h.schemas_nodup name
  rw [retainSchemas, schema?, schema?]
  dsimp only
  generalize catalog.schemas = schemas at hpairwise
  induction schemas with
  | nil => rfl
  | cons schema schemas ih =>
      obtain ⟨hhead, htail⟩ := List.pairwise_cons.1 hpairwise
      by_cases hname : (schema.name == name) = true
      · have hrest : (schemas.filter keep).find? (·.name == name) = none := by
          rw [List.find?_eq_none]
          intro other hother
          simp [hhead other (List.mem_of_mem_filter hother) hname]
        by_cases hkeep : keep schema = true
        · simp [hkeep, hname, Option.filter]
        · simp [hkeep, hname, hrest, Option.filter]
      · cases hkeep : keep schema <;> simp [hkeep, hname, ih htail]

/-- The schema of a catalog is arranged. -/
theorem Arranged.schema {catalog : Catalog} (h : catalog.Arranged) {schema : Schema}
    (hfound : catalog.schema? name = some schema) : schema.Arranged ∧ schema.name = name :=
  ⟨h.schemas_arranged schema (List.mem_of_find?_eq_some hfound), by
    simpa using List.find?_some hfound⟩

/-- A table of an arranged catalog is found under its names. -/
theorem Arranged.table?_of_mem {catalog : Catalog} (h : catalog.Arranged) {table : Table}
    (hmem : table ∈ catalog.tables) :
    catalog.table? table.schemaName table.name = some table := by
  obtain ⟨owner, howner, htable⟩ := mem_tables.1 hmem
  have harranged := h.schemas_arranged owner howner
  have hschema : catalog.schema? owner.name = some owner := find?_name_of_mem h.schemas_nodup howner
  rw [table?, harranged.tables_owned table htable, hschema]
  exact find?_name_of_mem harranged.tables_nodup htable

/-- A new schema has no tables. -/
theorem table?_ensureSchema (catalog : Catalog) (name schema table : String) :
    (catalog.ensureSchema name).table? schema table = catalog.table? schema table := by
  by_cases hsame : schema = name
  · subst hsame
    rw [table?, table?, schema?_ensureSchema]
    cases catalog.schema? schema <;> rfl
  · rw [table?, table?, schema?_ensureSchema_of_ne catalog hsame]

end Catalog
end SchemaLint
