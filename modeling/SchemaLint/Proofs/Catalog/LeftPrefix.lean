import SchemaLint.Proofs.Catalog.Redundancy

/-!
# Indexes that begin longer ones

A search tree finds rows by the first columns of its index, so an index is not needed beside a
longer one that begins with its columns.  This is not so for an index of another type: a full-text
index over one column is not replaced by one over that column and a second.

* `Table.PrefixesServed` - only search trees are reported because of a longer index.
* `Table.prefixesServed_iff` - which tables have that property, although the type of an index is
  only compared with that of the other one.
-/

namespace SchemaLint

namespace Index

/-- The index is a search tree, whatever the case of the letters of its type. -/
def IsTree (index : Index) : Prop :=
  Text.sameLetters index.indexType "BTREE" = true

instance (index : Index) : Decidable index.IsTree :=
  inferInstanceAs (Decidable (_ = true))

/-- An index that need not be unique has the first columns of a longer one of its type. -/
structure Begins (index other : Index) : Prop where
  plain : index.isPrimary = false
  notUnique : index.unique = false
  sameType : index.SameType other
  parts_ne_nil : index.comparableParts ≠ []
  parts : index.comparableParts <+: other.comparableParts
  parts_ne : index.comparableParts ≠ other.comparableParts

variable {candidate dominant : Index} {first : Bool}

theorem length_comparableParts (index : Index) :
    index.comparableParts.length = index.columnNames.length := by
  simp [comparableParts, columnNames]

/-- An index makes a shorter one unnecessary exactly if that one begins it. -/
theorem Begins.isDominated (h : candidate.Begins dominant) :
    candidate.isDominated dominant first = true :=
  isDominated_iff.2 ⟨h.plain, h.sameType, h.parts_ne_nil, .inl ⟨h.parts, h.parts_ne, h.notUnique⟩⟩

theorem Begins.length_lt (h : candidate.Begins dominant) :
    candidate.comparableParts.length < dominant.comparableParts.length :=
  lt_of_le_of_ne h.parts.length_le fun heq => h.parts_ne (h.parts.eq_of_length heq)

theorem begins_or_eq_of_isDominated (h : candidate.isDominated dominant first = true) :
    candidate.Begins dominant ∨ candidate.comparableParts = dominant.comparableParts := by
  obtain ⟨hplain, htype, hparts, ⟨hbegins, hne, hunique⟩ | ⟨hsame, -⟩⟩ := isDominated_iff.1 h
  · exact .inl ⟨hplain, hunique, htype, hparts, hbegins, hne⟩
  · exact .inr hsame

end Index

namespace Table

variable {table : Table} {i j : Fin table.indexes.length}

/-- Of the indexes that are reported, those with fewer columns than the index that makes them
unnecessary are search trees. -/
def PrefixesServed (table : Table) : Prop :=
  ∀ fact ∈ table.redundantIndexes, fact.redundantColumns.length < fact.dominantColumns.length →
    ∀ i j, table.FirstOutdone i j → table.report i j = fact → (table.indexes.get i).IsTree

theorem prefixesServed_iff_firstOutdone : table.PrefixesServed ↔
    ∀ i j, table.FirstOutdone i j →
      (table.indexes.get i).comparableParts.length < (table.indexes.get j).comparableParts.length →
        (table.indexes.get i).IsTree := by
  simp only [Index.length_comparableParts]
  constructor
  · intro h i j hfirst hshort
    exact h (table.report i j) (mem_redundantIndexes.2 ⟨i, j, hfirst, rfl⟩) hshort i j hfirst rfl
  · rintro h _ - hshort i j hfirst rfl
    exact h i j hfirst hshort

/-- The property fails exactly where an index that is no search tree begins a longer one, and no
index with the same columns that outdoes it stands before that one. -/
theorem prefixesServed_iff : table.PrefixesServed ↔
    ∀ i j, (table.indexes.get i).Begins (table.indexes.get j) → ¬ (table.indexes.get i).IsTree →
      ∃ k < j, table.Outdone i k ∧
        (table.indexes.get i).comparableParts = (table.indexes.get k).comparableParts := by
  rw [prefixesServed_iff_firstOutdone]
  constructor
  · intro h i j hbegins htree
    have hne : i ≠ j := by
      rintro rfl
      exact hbegins.parts_ne rfl
    obtain ⟨k, hle, hk⟩ := exists_firstOutdone ⟨hne, hbegins.isDominated⟩
    have hsame : (table.indexes.get i).comparableParts = (table.indexes.get k).comparableParts := by
      refine (Index.begins_or_eq_of_isDominated hk.1.2).resolve_left fun hother => ?_
      exact htree (h i k hk hother.length_lt)
    refine ⟨k, lt_of_le_of_ne hle ?_, hk.1, hsame⟩
    rintro rfl
    exact hbegins.parts_ne hsame
  · intro h i j hfirst hshort
    by_contra htree
    have hbegins : (table.indexes.get i).Begins (table.indexes.get j) :=
      (Index.begins_or_eq_of_isDominated hfirst.1.2).resolve_right fun hsame =>
        hshort.ne (congrArg List.length hsame)
    obtain ⟨k, hlt, houtdone, -⟩ := h i j hbegins htree
    exact hfirst.2 k hlt houtdone

/-- Two full-text indexes over the columns of articles, of which one is over a column of the
other. -/
def articles : Table where
  name := "articles"
  columns := [{ name := "title" }, { name := "body" }]
  indexes := [
    { name := "titles", unique := false, indexType := "FULLTEXT",
      parts := [{ columnName := "title", position := 1 }] },
    { name := "texts", unique := false, indexType := "FULLTEXT",
      parts := [
        { columnName := "title", position := 1 },
        { columnName := "body", position := 2 }] }]

theorem not_prefixesServed_of_fulltext : ¬ articles.PrefixesServed := by
  intro h
  have hfirst : articles.FirstOutdone ⟨0, by decide⟩ ⟨1, by decide⟩ := by decide
  have hreported := mem_redundantIndexes.2 ⟨_, _, hfirst, rfl⟩
  exact absurd (h _ hreported (by decide) _ _ hfirst rfl) (by decide)

end Table
end SchemaLint
