import SchemaLint.Proofs.Catalog.WellFormed
import SchemaLint.Session

/-!
# What edits of catalogs leave alone

An edit that is addressed by a name leaves the tables of other names as they are and in their order,
and two edits that are addressed by different names can change places.

* `Catalog.filter_tables_addTable` and its kin - the tables that satisfy a condition are the same
  after an edit that no such table is addressed by.
* `Catalog.modifyTable_comm` - edits of two tables, one after the other.
-/

namespace SchemaLint

section Lists

variable {α : Type} {p q : α → Bool} {f g : α → α}

/-- Edits of different elements can change places. -/
theorem Table.modifyFirst_comm (hpq : ∀ x, p x = true → q x = false)
    (hf : ∀ x, q (f x) = q x) (hg : ∀ x, p (g x) = p x) :
    ∀ xs : List α, modifyFirst q g (modifyFirst p f xs) = modifyFirst p f (modifyFirst q g xs)
  | [] => rfl
  | x :: xs => by
      have hrest := modifyFirst_comm hpq hf hg xs
      by_cases hp : p x = true
      · simp [hp, hpq x hp, hf]
      · by_cases hq : q x = true
        · simp [hp, hq, hg]
        · simp [hp, hq, hrest]

/-- An edit of an element that is left out before and after is not seen in the others. -/
theorem Table.filter_modifyFirst {keep : α → Bool} (hf : ∀ x, keep (f x) = keep x) :
    ∀ {xs : List α}, (∀ x ∈ xs, p x = true → keep x = false) →
      (modifyFirst p f xs).filter keep = xs.filter keep
  | [], _ => rfl
  | x :: xs, h => by
      obtain ⟨hhead, htail⟩ := List.forall_mem_cons.1 h
      by_cases hx : p x = true
      · simp [hx, hf, hhead hx]
      · simp [hx, List.filter_cons, filter_modifyFirst hf htail]

/-- Neither is its removal. -/
theorem filter_eraseP {keep : α → Bool} : ∀ {xs : List α},
    (∀ x ∈ xs, p x = true → keep x = false) → (xs.eraseP p).filter keep = xs.filter keep
  | [], _ => rfl
  | x :: xs, h => by
      obtain ⟨hhead, htail⟩ := List.forall_mem_cons.1 h
      by_cases hx : p x = true
      · simp [hx, hhead hx]
      · simp [hx, List.filter_cons, filter_eraseP htail]

end Lists

namespace Catalog

variable {catalog : Catalog} {keep : Table → Bool} {schema name : String}

/-- What an edit of a schema leaves of its tables, it leaves of all tables. -/
theorem filter_tables_modifySchema {f : Schema → Schema}
    (h : ∀ owner ∈ catalog.schemas, owner.name = schema →
      (f owner).tables.filter keep = owner.tables.filter keep) :
    (catalog.modifySchema schema f).tables.filter keep = catalog.tables.filter keep := by
  simp only [tables, modifySchema, List.filter_flatMap]
  generalize catalog.schemas = schemas at h
  induction schemas with
  | nil => rfl
  | cons owner owners ih =>
      obtain ⟨hhead, htail⟩ := List.forall_mem_cons.1 h
      by_cases howner : owner.name = schema
      · simp [howner, hhead howner]
      · simp [howner, ih htail]

/-- A table that is added comes behind the others of its schema. -/
theorem filter_tables_addTable {added : Table}
    (h : ∀ owner : Schema, owner.name = schema →
      keep ({ added with schemaName := owner.name } : Table).relink = false) :
    (Session.addTable catalog schema added).tables.filter keep = catalog.tables.filter keep := by
  rw [Session.addTable, ← tables_ensureSchema catalog schema]
  refine filter_tables_modifySchema fun owner _ howner => ?_
  rw [Schema.addTable, Schema.addTable?]
  split
  · rfl
  · simp [h owner howner]

theorem filter_tables_removeTable (harranged : catalog.Arranged)
    (h : ∀ table : Table, table.schemaName = schema → table.name = name → keep table = false) :
    (catalog.modifySchema schema (·.removeTable name)).tables.filter keep =
      catalog.tables.filter keep := by
  refine filter_tables_modifySchema fun owner howner hname => ?_
  refine filter_eraseP fun table htable hfound => ?_
  have howned := (harranged.schemas_arranged owner howner).tables_owned table htable
  exact h table (howned.trans hname) (by simpa using hfound)

theorem filter_tables_modifyTable (harranged : catalog.Arranged) {f : Table → Table}
    (hf : ∀ table, keep (f table) = keep table)
    (h : ∀ table : Table, table.schemaName = schema → table.name = name → keep table = false) :
    (catalog.modifyTable schema name f).tables.filter keep = catalog.tables.filter keep := by
  refine filter_tables_modifySchema fun owner howner hname => ?_
  refine Table.filter_modifyFirst hf fun table htable hfound => ?_
  have howned := (harranged.schemas_arranged owner howner).tables_owned table htable
  exact h table (howned.trans hname) (by simpa using hfound)

/-- With a schema go its tables and no others. -/
theorem filter_tables_removeSchema (harranged : catalog.Arranged)
    (h : ∀ table : Table, table.schemaName = schema → keep table = false) :
    (catalog.removeSchema schema).tables.filter keep = catalog.tables.filter keep := by
  have howned : ∀ owner ∈ catalog.schemas, owner.name = schema →
      owner.tables.filter keep = [] := by
    intro owner howner hname
    refine List.filter_eq_nil_iff.2 fun table htable => ?_
    have hschema := (harranged.schemas_arranged owner howner).tables_owned table htable
    simp [h table (hschema.trans hname)]
  simp only [tables, removeSchema, List.filter_flatMap]
  generalize catalog.schemas = schemas at howned
  induction schemas with
  | nil => rfl
  | cons owner owners ih =>
      obtain ⟨hhead, htail⟩ := List.forall_mem_cons.1 howned
      by_cases howner : owner.name = schema
      · simp [howner, hhead howner]
      · simp [howner, ih htail]

/-- Edits of different tables can change places. -/
theorem modifyTable_comm (catalog : Catalog) {schema name schema' name' : String}
    (hne : (schema, name) ≠ (schema', name')) {f g : Table → Table}
    (hf : ∀ table, (f table).name = table.name) (hg : ∀ table, (g table).name = table.name) :
    (catalog.modifyTable schema name f).modifyTable schema' name' g =
      (catalog.modifyTable schema' name' g).modifyTable schema name f := by
  by_cases hschema : schema = schema'
  · subst hschema
    have hname : name ≠ name' := fun heq => hne (by rw [heq])
    have howner : ∀ owner : Schema, (owner.modifyTable name f).modifyTable name' g =
        (owner.modifyTable name' g).modifyTable name f := fun owner =>
      congrArg (fun tables => { owner with tables }) (Table.modifyFirst_comm
        (fun table htable => beq_false_of_ne fun heq => hname ((eq_of_beq htable).symm.trans heq))
        (fun table => by rw [hf]) (fun table => by rw [hg]) owner.tables)
    have hfirst := modifySchema_modifySchema catalog schema (f := (·.modifyTable name f))
      (g := (·.modifyTable name' g)) fun _ => rfl
    have hsecond := modifySchema_modifySchema catalog schema (f := (·.modifyTable name' g))
      (g := (·.modifyTable name f)) fun _ => rfl
    simp only [howner] at hfirst
    exact hfirst.trans hsecond.symm
  · have hschemas := Table.modifyFirst_comm (p := fun owner : Schema => owner.name == schema)
      (q := fun owner => owner.name == schema') (f := (·.modifyTable name f))
      (g := (·.modifyTable name' g))
      (fun owner howner => beq_false_of_ne fun heq => hschema ((eq_of_beq howner).symm.trans heq))
      (fun _ => rfl) (fun _ => rfl) catalog.schemas
    exact congrArg (fun schemas => { catalog with schemas }) hschemas

end Catalog
end SchemaLint
