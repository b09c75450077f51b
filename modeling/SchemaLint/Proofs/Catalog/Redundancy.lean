import Mathlib.Data.Finite.Prod
import Mathlib.Data.Prod.Lex
import Mathlib.Order.Fin.Basic
import Mathlib.Order.WellFounded
import SchemaLint.Catalog.Facts
import SchemaLint.Proofs.Catalog.WellFormed

/-!
# Dropping redundant indexes

Every index that is reported as redundant may be dropped, all of them at once: each is covered by
an index that is kept (`Table.prunesSafely`).  The index that makes another one unnecessary may be
reported itself, but it has a higher standing, and so a chain of such indexes ends at one that is
kept.
-/

namespace SchemaLint

open Text (lower)

namespace Index

/-- The indexes are of one type, whatever the case of its letters. -/
def SameType (first second : Index) : Prop :=
  Text.sameLetters first.indexType second.indexType = true

theorem SameType.trans {first second third : Index} (h : first.SameType second)
    (hnext : second.SameType third) : first.SameType third := by
  rw [SameType, Text.sameLetters_iff] at h hnext ⊢
  exact h.trans hnext

/-- What an index that stays has to do for one that is dropped: it is of the same type, its columns
begin with those of the other, and of a unique index it repeats the columns and is unique too. -/
structure Covers (kept index : Index) : Prop where
  sameType : index.SameType kept
  parts : index.comparableParts <+: kept.comparableParts
  unique : index.unique = true →
    kept.unique = true ∧ kept.comparableParts = index.comparableParts

protected theorem Covers.refl (index : Index) : index.Covers index where
  sameType := Text.sameLetters_iff.2 rfl
  parts := List.prefix_refl _
  unique := fun h => ⟨h, rfl⟩

theorem Covers.trans {first second third : Index} (h : second.Covers first)
    (hnext : third.Covers second) : third.Covers first where
  sameType := h.sameType.trans hnext.sameType
  parts := h.parts.trans hnext.parts
  unique := by
    intro hfirst
    obtain ⟨hsecond, hsame⟩ := h.unique hfirst
    obtain ⟨hthird, hsame'⟩ := hnext.unique hsecond
    exact ⟨hthird, hsame'.trans hsame⟩

variable {candidate dominant : Index} {first : Bool}

/-- An index is dominated by a longer one unless it is unique, and by one with the same columns if
that is preferred. -/
theorem isDominated_iff : candidate.isDominated dominant first = true ↔
    candidate.isPrimary = false ∧ candidate.SameType dominant ∧ candidate.comparableParts ≠ [] ∧
      ((candidate.comparableParts <+: dominant.comparableParts ∧
          candidate.comparableParts ≠ dominant.comparableParts ∧ candidate.unique = false) ∨
        (candidate.comparableParts = dominant.comparableParts ∧
          preferred candidate dominant first = true)) := by
  have hlength : candidate.comparableParts <+: dominant.comparableParts →
      (candidate.comparableParts.length < dominant.comparableParts.length ↔
        candidate.comparableParts ≠ dominant.comparableParts) := by
    intro hbegins
    have hle := hbegins.length_le
    constructor
    · intro hlt heq
      rw [heq] at hlt
      omega
    · intro hne
      have hother : candidate.comparableParts.length ≠ dominant.comparableParts.length :=
        fun heq => hne (hbegins.eq_of_length heq)
      omega
  simp only [isDominated, SameType, Bool.and_eq_true, Bool.not_eq_true', List.isEmpty_eq_false_iff,
    List.isPrefixOf_iff_prefix]
  constructor
  · rintro ⟨⟨⟨⟨hprimary, htype⟩, hparts⟩, hbegins⟩, hrest⟩
    refine ⟨hprimary, htype, hparts, ?_⟩
    by_cases heq : candidate.comparableParts = dominant.comparableParts
    · rw [if_neg (by simp [heq])] at hrest
      exact .inr ⟨heq, hrest⟩
    · rw [if_pos ((hlength hbegins).2 heq)] at hrest
      exact .inl ⟨hbegins, heq, by simpa using hrest⟩
  · rintro ⟨hprimary, htype, hparts, ⟨hbegins, hne, hunique⟩ | ⟨heq, hpreferred⟩⟩
    · refine ⟨⟨⟨⟨hprimary, htype⟩, hparts⟩, hbegins⟩, ?_⟩
      rw [if_pos ((hlength hbegins).2 hne), hunique]
      rfl
    · refine ⟨⟨⟨⟨hprimary, htype⟩, hparts⟩, heq ▸ List.prefix_refl _⟩, ?_⟩
      rwa [if_neg (by simp [heq])]

/-- Of two indexes with the same columns the primary key is preferred, then a unique one, then the
one that is declared first. -/
theorem preferred_iff : preferred candidate dominant first = true ↔
    dominant.isPrimary = true ∨ candidate.unique < dominant.unique ∨
      (candidate.unique = dominant.unique ∧ first = false) := by
  unfold preferred
  cases dominant.isPrimary <;> cases candidate.unique <;> cases dominant.unique <;> simp

/-- An index covers those that it dominates, if it is unique as the primary key. -/
theorem covers_of_isDominated (hprimary : dominant.isPrimary = true → dominant.unique = true)
    (h : candidate.isDominated dominant first = true) : dominant.Covers candidate := by
  obtain ⟨-, htype, -, ⟨hbegins, -, hplain⟩ | ⟨hsame, hpreferred⟩⟩ := isDominated_iff.1 h
  · exact ⟨htype, hbegins, fun hunique => by simp [hplain] at hunique⟩
  · refine ⟨htype, hsame ▸ List.prefix_refl _, fun hunique => ⟨?_, hsame.symm⟩⟩
    rcases preferred_iff.1 hpreferred with hdominant | hless | ⟨hequal, -⟩
    · exact hprimary hdominant
    · rw [hunique] at hless
      exact absurd hless (by simp)
    · rw [← hequal, hunique]

end Index

namespace Table

variable {table : Table} {i j : Fin table.indexes.length}

/-- The index at the place `j` makes the one at the place `i` unnecessary. -/
def Outdone (table : Table) (i j : Fin table.indexes.length) : Prop :=
  i ≠ j ∧ table.indexes[i].isDominated table.indexes[j] (decide (i < j)) = true

/-- What counts when indexes are compared: the number of their columns, then whether it is the
primary key, then whether it is unique, and then how early it is declared. -/
def standing (table : Table) (i : Fin table.indexes.length) :
    ℕ ×ₗ Bool ×ₗ Bool ×ₗ (Fin table.indexes.length)ᵒᵈ :=
  toLex (table.indexes[i].comparableParts.length, toLex (table.indexes[i].isPrimary,
    toLex (table.indexes[i].unique, OrderDual.toDual i)))

theorem Outdone.standing_lt (h : table.Outdone i j) : table.standing i < table.standing j := by
  obtain ⟨hne, hdominated⟩ := h
  obtain ⟨hplain, -, -, ⟨hbegins, hparts, -⟩ | ⟨hsame, hpreferred⟩⟩ :=
    Index.isDominated_iff.1 hdominated
  · have hlength : table.indexes[i].comparableParts.length <
        table.indexes[j].comparableParts.length :=
      lt_of_le_of_ne hbegins.length_le fun heq => hparts (hbegins.eq_of_length heq)
    exact Prod.Lex.toLex_lt_toLex.2 (.inl hlength)
  · refine Prod.Lex.toLex_lt_toLex.2 (.inr ⟨congrArg List.length hsame, ?_⟩)
    rw [Prod.Lex.toLex_lt_toLex, hplain]
    -- the primary key is above every other index, so it may be left out of the comparison
    by_cases hprimary : table.indexes[j].isPrimary = true
    · refine .inl ?_
      rw [hprimary]
      exact Bool.false_lt_true
    · refine .inr ⟨by simpa using hprimary, Prod.Lex.toLex_lt_toLex.2 ?_⟩
      rcases Index.preferred_iff.1 hpreferred with hother | hless | ⟨hequal, hlater⟩
      · exact absurd hother hprimary
      · exact .inl hless
      · have hbefore : j < i := lt_of_le_of_ne (not_lt.1 (by simpa using hlater)) (Ne.symm hne)
        exact .inr ⟨hequal, OrderDual.toDual_lt_toDual.2 hbefore⟩

/-- There are finitely many places, so no chain of unnecessary indexes goes on for ever. -/
theorem wellFounded_outdone (table : Table) :
    WellFounded fun j i : Fin table.indexes.length => table.Outdone i j := by
  have htrans : IsTrans (Fin table.indexes.length)
      fun j i => table.standing i < table.standing j := ⟨fun _ _ _ h hnext => hnext.trans h⟩
  have hirrefl : Std.Irrefl (α := Fin table.indexes.length)
      fun j i => table.standing i < table.standing j := ⟨fun i => lt_irrefl (table.standing i)⟩
  exact Subrelation.wf (fun h => h.standing_lt) (Finite.wellFounded_of_trans_of_irrefl _)

/-- The chain of indexes that make each other unnecessary ends at one that nothing outdoes, and
that one covers the whole chain. -/
theorem exists_covers (hprimary : ∀ index ∈ table.indexes, index.isPrimary = true →
    index.unique = true) (i : Fin table.indexes.length) :
    ∃ k, (∀ j, ¬ table.Outdone k j) ∧ table.indexes[k].Covers table.indexes[i] := by
  induction i using table.wellFounded_outdone.induction with
  | _ i ih =>
      by_cases hkept : ∀ j, ¬ table.Outdone i j
      · exact ⟨i, hkept, .refl _⟩
      · push Not at hkept
        obtain ⟨j, hj⟩ := hkept
        obtain ⟨k, hkept, hcovers⟩ := ih j hj
        have hstep : table.indexes[j].Covers table.indexes[i] :=
          Index.covers_of_isDominated (hprimary _ (List.getElem_mem j.isLt)) hj.2
        exact ⟨k, hkept, hstep.trans hcovers⟩

/-- Of two indexes with the same columns one makes the other unnecessary. -/
theorem outdone_or_outdone (hne : i ≠ j)
    (hprimary : ¬ (table.indexes[i].isPrimary = true ∧ table.indexes[j].isPrimary = true))
    (htype : table.indexes[i].SameType table.indexes[j])
    (hparts : table.indexes[i].comparableParts ≠ [])
    (hsame : table.indexes[i].comparableParts = table.indexes[j].comparableParts) :
    table.Outdone i j ∨ table.Outdone j i := by
  have htype' : table.indexes[j].SameType table.indexes[i] := by
    rw [Index.SameType, Text.sameLetters_iff] at htype ⊢
    exact htype.symm
  have hfirst : table.indexes[i].isPrimary = false →
      Index.preferred table.indexes[i] table.indexes[j] (decide (i < j)) = true →
        table.Outdone i j := fun hplain hpreferred =>
    ⟨hne, Index.isDominated_iff.2 ⟨hplain, htype, hparts, .inr ⟨hsame, hpreferred⟩⟩⟩
  have hsecond : table.indexes[j].isPrimary = false →
      Index.preferred table.indexes[j] table.indexes[i] (decide (j < i)) = true →
        table.Outdone j i := fun hplain hpreferred =>
    ⟨Ne.symm hne, Index.isDominated_iff.2
      ⟨hplain, htype', hsame ▸ hparts, .inr ⟨hsame.symm, hpreferred⟩⟩⟩
  rw [Index.preferred_iff] at hfirst hsecond
  cases hi : table.indexes[i].isPrimary with
  | true =>
      have hj : table.indexes[j].isPrimary = false :=
        Bool.eq_false_iff.2 fun hj => hprimary ⟨hi, hj⟩
      exact .inr (hsecond hj (.inl hi))
  | false =>
      cases hj : table.indexes[j].isPrimary with
      | true => exact .inl (hfirst hi (.inl hj))
      | false =>
          -- neither is the primary key, so uniqueness decides, and then the order
          rcases lt_trichotomy table.indexes[i].unique table.indexes[j].unique with
            hless | hequal | hmore
          · exact .inl (hfirst hi (.inr (.inl hless)))
          · rcases lt_or_gt_of_ne hne with hbefore | hafter
            · exact .inr (hsecond hj (.inr (.inr ⟨hequal.symm, by simp [hbefore.le]⟩)))
            · exact .inl (hfirst hi (.inr (.inr ⟨hequal, by simp [le_of_lt hafter]⟩)))
          · exact .inr (hsecond hj (.inr (.inl hmore)))

instance (i j : Fin table.indexes.length) : Decidable (table.Outdone i j) :=
  inferInstanceAs (Decidable (_ ∧ _))

/-- The index at the place `j` is the first one that makes the one at the place `i`
unnecessary. -/
def FirstOutdone (table : Table) (i j : Fin table.indexes.length) : Prop :=
  table.Outdone i j ∧ ∀ k < j, ¬ table.Outdone i k

instance (i j : Fin table.indexes.length) : Decidable (table.FirstOutdone i j) :=
  inferInstanceAs (Decidable (_ ∧ _))

/-- The report that the index at the place `j` makes the one at the place `i` unnecessary. -/
def report (table : Table) (i j : Fin table.indexes.length) : RedundantIndex where
  redundantIndex := table.indexes[i].name
  redundantColumns := table.indexes[i].columnNames
  redundantIsUnique := table.indexes[i].unique
  dominantIndex := table.indexes[j].name
  dominantColumns := table.indexes[j].columnNames

theorem outdone_iff : table.Outdone i j ↔ (j.val != i.val &&
    table.indexes[i].isDominated table.indexes[j] (decide (i.val < j.val))) = true := by
  rw [Bool.and_eq_true, bne_iff_ne, Outdone, ne_comm, Ne, Fin.ext_iff]
  rfl

/-- The dominant of an index is at the first place that outdoes it. -/
theorem dominant?_eq_some_iff {dominant : Index} :
    table.dominant? table.indexes[i] i = some dominant ↔
      ∃ j, table.FirstOutdone i j ∧ table.indexes[j] = dominant := by
  simp only [dominant?, Option.map_eq_some_iff, List.find?_eq_some_iff_getElem,
    List.length_zipIdx, List.getElem_zipIdx, Nat.zero_add, Bool.not_eq_true']
  constructor
  · rintro ⟨entry, ⟨houtdone, place, hplace, rfl, hbefore⟩, rfl⟩
    refine ⟨⟨place, hplace⟩, ⟨outdone_iff.2 houtdone, fun k hk hother => ?_⟩, rfl⟩
    exact Bool.eq_false_iff.1 (hbefore k hk) (outdone_iff.1 hother)
  · rintro ⟨j, ⟨houtdone, hfirst⟩, rfl⟩
    refine ⟨(table.indexes[j], j), ⟨outdone_iff.1 houtdone, j, j.isLt, rfl, ?_⟩, rfl⟩
    intro place hplace
    rw [Bool.eq_false_iff]
    exact fun hother => hfirst ⟨place, hplace.trans j.isLt⟩ hplace (outdone_iff.2 hother)

/-- What is outdone is outdone at some place first. -/
theorem exists_firstOutdone (h : table.Outdone i j) : ∃ k ≤ j, table.FirstOutdone i k := by
  obtain ⟨k, hk, hmin⟩ := wellFounded_lt.has_min {k | table.Outdone i k} ⟨j, h⟩
  exact ⟨k, not_lt.1 (hmin j h), hk, fun other hlt hother => hmin other hother hlt⟩

/-- What is reported, by the places of the two indexes. -/
theorem mem_redundantIndexes {fact : RedundantIndex} : fact ∈ table.redundantIndexes ↔
    ∃ i j, table.FirstOutdone i j ∧ table.report i j = fact := by
  simp only [redundantIndexes, List.mem_filterMap, Option.map_eq_some_iff]
  constructor
  · rintro ⟨⟨index, place⟩, hmem, dominant, hdominant, rfl⟩
    have hget : table.indexes[place]? = some index := List.mem_zipIdx_iff_getElem?.1 hmem
    obtain ⟨hplace, rfl⟩ := List.getElem?_eq_some_iff.1 hget
    obtain ⟨j, hj, rfl⟩ := (@dominant?_eq_some_iff table ⟨place, hplace⟩ dominant).1 hdominant
    exact ⟨⟨place, hplace⟩, j, hj, rfl⟩
  · rintro ⟨i, j, hj, rfl⟩
    exact ⟨(table.indexes[i], i), List.mem_zipIdx_iff_getElem?.2 (by simp), table.indexes[j],
      dominant?_eq_some_iff.2 ⟨j, hj, rfl⟩, rfl⟩

/-- The names of the indexes that are reported. -/
def reportedNames (table : Table) : List String :=
  table.redundantIndexes.map RedundantIndex.redundantIndex

theorem mem_reportedNames {name : String} : name ∈ table.reportedNames ↔
    ∃ i j, table.Outdone i j ∧ table.indexes[i].name = name := by
  simp only [reportedNames, List.mem_map, mem_redundantIndexes]
  constructor
  · rintro ⟨_, ⟨i, j, hfirst, rfl⟩, rfl⟩
    exact ⟨i, j, hfirst.1, rfl⟩
  · rintro ⟨i, j, houtdone, rfl⟩
    obtain ⟨k, -, hk⟩ := exists_firstOutdone houtdone
    exact ⟨_, ⟨i, k, hk, rfl⟩, rfl⟩

/-- The indexes that are left when all that are reported are dropped. -/
def keptIndexes (table : Table) : List Index :=
  table.indexes.filter fun index => !table.reportedNames.contains index.name

theorem eq_of_name_eq (hnames : (table.indexes.map fun index => lower index.name).Nodup)
    (h : table.indexes[i].name = table.indexes[j].name) : i = j := by
  have hsame : (table.indexes.map fun index => lower index.name)[i.val]? =
      (table.indexes.map fun index => lower index.name)[j.val]? := by
    simpa using congrArg lower h
  exact Fin.ext ((List.getElem?_inj (by simp) hnames).1 hsame)

/-- An index is kept exactly if nothing makes it unnecessary. -/
theorem mem_keptIndexes_iff (hnames : (table.indexes.map fun index => lower index.name).Nodup) :
    table.indexes[i] ∈ table.keptIndexes ↔ ∀ j, ¬ table.Outdone i j := by
  rw [keptIndexes, List.mem_filter, Bool.not_eq_true', List.contains_eq_mem,
    decide_eq_false_iff_not, mem_reportedNames]
  constructor
  · rintro ⟨-, hunreported⟩ j hj
    exact hunreported ⟨i, j, hj, rfl⟩
  · intro hkept
    refine ⟨List.getElem_mem i.isLt, ?_⟩
    rintro ⟨k, j, hj, hname⟩
    exact hkept j (eq_of_name_eq hnames hname ▸ hj)

/-- What it means that the reported indexes may be dropped, and that no others need be. -/
structure PrunesSafely (table : Table) : Prop where
  /-- A reported index is covered by one that is kept. -/
  covered : ∀ fact ∈ table.redundantIndexes, ∃ index ∈ table.indexes,
    index.name = fact.redundantIndex ∧ ∃ kept ∈ table.keptIndexes, kept.Covers index
  /-- Two indexes of one type that are kept differ in their columns. -/
  distinct : ∀ first ∈ table.keptIndexes, ∀ second ∈ table.keptIndexes, first ≠ second →
    first.SameType second → first.comparableParts ≠ [] →
      first.comparableParts ≠ second.comparableParts
  /-- An index that is kept although it is not unique is not the beginning of another one. -/
  longest : ∀ kept ∈ table.keptIndexes, kept.unique = false → kept.isPrimary = false →
    kept.comparableParts ≠ [] → ∀ other ∈ table.indexes, kept.SameType other →
      kept.comparableParts <+: other.comparableParts →
        kept.comparableParts = other.comparableParts

/-- All reported indexes may be dropped at once, if names do not clash and the primary key is
unique. -/
theorem prunesSafely (hnames : (table.indexes.map fun index => lower index.name).Nodup)
    (hprimary : ∀ index ∈ table.indexes, index.isPrimary = true → index.unique = true) :
    table.PrunesSafely where
  covered := by
    intro fact hfact
    obtain ⟨i, j, -, hname⟩ := mem_reportedNames.1 (List.mem_map_of_mem hfact)
    obtain ⟨k, hkept, hcovers⟩ := exists_covers hprimary i
    exact ⟨table.indexes[i], List.getElem_mem i.isLt, hname, table.indexes[k],
      (mem_keptIndexes_iff hnames).2 hkept, hcovers⟩
  distinct := by
    intro first hfirst second hsecond hne htype hparts hsame
    obtain ⟨i, hi, rfl⟩ := List.getElem_of_mem (List.mem_of_mem_filter hfirst)
    obtain ⟨j, hj, rfl⟩ := List.getElem_of_mem (List.mem_of_mem_filter hsecond)
    have hplaces : (⟨i, hi⟩ : Fin table.indexes.length) ≠ ⟨j, hj⟩ := by
      rintro heq
      cases heq
      exact hne rfl
    -- at most one of them is the primary key, since there is one index of that name
    have hone : ¬ (table.indexes[i].isPrimary = true ∧ table.indexes[j].isPrimary = true) := by
      rintro ⟨hi', hj'⟩
      rw [Index.isPrimary, beq_iff_eq] at hi' hj'
      exact hplaces (eq_of_name_eq hnames (hi'.trans hj'.symm))
    rcases outdone_or_outdone hplaces hone htype hparts hsame with houtdone | houtdone
    · exact (mem_keptIndexes_iff hnames).1 hfirst _ houtdone
    · exact (mem_keptIndexes_iff hnames).1 hsecond _ houtdone
  longest := by
    intro kept hkept hunique hplain hparts other hother htype hbegins
    obtain ⟨i, hi, rfl⟩ := List.getElem_of_mem (List.mem_of_mem_filter hkept)
    obtain ⟨j, hj, rfl⟩ := List.getElem_of_mem hother
    by_contra hdiffer
    have hplaces : (⟨i, hi⟩ : Fin table.indexes.length) ≠ ⟨j, hj⟩ := by
      rintro heq
      cases heq
      exact hdiffer rfl
    refine (mem_keptIndexes_iff hnames).1 hkept ⟨j, hj⟩ ⟨hplaces, Index.isDominated_iff.2 ?_⟩
    exact ⟨hplain, htype, hparts, .inl ⟨hbegins, hdiffer, hunique⟩⟩

/-- Four indexes over one column and one over two: the key on the column alone is made unnecessary
by the unique ones, and the later of these by the primary key, which stays. -/
def overlappingTable : Table where
  name := "t"
  columns := [{ name := "a" }, { name := "b" }]
  indexes := [
    { name := "plain", unique := false, parts := [{ columnName := "a", position := 1 }] },
    { name := "once", unique := true, indexType := "btree",
      parts := [{ columnName := "A", position := 1 }] },
    { name := "again", unique := true, parts := [{ columnName := "a", position := 1 }] },
    { name := "PRIMARY", unique := true, parts := [{ columnName := "a", position := 1 }] },
    { name := "both", unique := false,
      parts := [{ columnName := "a", position := 1 }, { columnName := "b", position := 2 }] }]

theorem prunesSafely_of_overlap : overlappingTable.PrunesSafely :=
  prunesSafely (by decide) (by decide)

example : (overlappingTable.redundantIndexes.map fun fact =>
    (fact.redundantIndex, fact.dominantIndex)) =
      [("plain", "once"), ("once", "PRIMARY"), ("again", "once")] := by
  decide

end Table
end SchemaLint
