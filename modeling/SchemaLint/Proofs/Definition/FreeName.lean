import Mathlib.Data.List.Perm.Subperm
import Mathlib.Order.Nat
import SchemaLint.Proofs.Definition.Key
import SchemaLint.Proofs.Text.Case
import SchemaLint.Proofs.Text.Runs

/-!
# Free names for indexes

A free name for an index is searched for among `base`, `base_2`, `base_3` and so on.  These names
never repeat, not even in small letters (`lower_candidate_injective`), so the indexes of a table
cannot have taken all of the first ones, and the search ends at the first name that is free
(`freeIndexName_eq_candidate`).

* `findsFreeName` - what the search gives, and that a key for which it is made never finds another
  in its way.
-/

namespace SchemaLint

open Sql

open Text (lower)

namespace Table

/-- No index of the table has the name, in any case. -/
def HasFree (table : Table) (name : String) : Prop :=
  ∀ index ∈ table.indexes, lower index.name ≠ lower name

theorem isSome_index?_iff {table : Table} {name : String} :
    (table.index? name).isSome = true ↔ ¬ table.HasFree name := by
  rw [HasFree, ← index?_eq_none_iff, ← Option.ne_none_iff_isSome]

end Table

namespace Definition

variable {table : Table} {base : String}

/-- The names that are tried for an index, one after another without end. -/
def candidate (base : String) : Nat → String
  | 0 => base
  | n + 1 => base ++ "_" ++ Decimal.text (n + 2)

theorem nameCandidates_eq (base : String) (count : Nat) :
    nameCandidates base count = (List.range (count + 1)).map (candidate base) := by
  rw [List.range_succ_eq_map, List.map_cons, List.map_map]
  rfl

/-- Digits are no capitals. -/
theorem toList_lower_text (n : Nat) : (lower (Decimal.text n)).toList = Decimal.digits n := by
  have hdigit : ∀ c ∈ Decimal.digits n, c.toLower = c := by
    intro c hc
    have hrange := Text.toNat_of_isDigit (Decimal.isDigit_of_mem_digits n c hc)
    rw [← Char.toNat_inj, Text.toNat_toLower, if_neg (by omega)]
  rw [lower, Decimal.text, String.toList_ofList, String.toList_ofList, List.map_congr_left hdigit,
    List.map_id']

theorem toList_lower_candidate_succ (base : String) (n : Nat) :
    (lower (candidate base (n + 1))).toList =
      (lower base).toList ++ '_' :: Decimal.digits (n + 2) := by
  have hdigits := toList_lower_text (n + 2)
  simp only [lower, String.toList_ofList] at hdigits ⊢
  simp [candidate, hdigits]

/-- No two of the names are the same up to case. -/
theorem lower_candidate_injective (base : String) :
    Function.Injective fun n => lower (candidate base n) := by
  -- a name with a number is longer than the one without
  have hbase : ∀ n, lower (candidate base 0) ≠ lower (candidate base (n + 1)) := by
    intro n heq
    have hlength := congrArg (fun name => name.toList.length) heq
    rw [toList_lower_candidate_succ, List.length_append, List.length_cons, candidate] at hlength
    omega
  intro m n heq
  match m, n with
  | 0, 0 => rfl
  | 0, n + 1 => exact absurd heq (hbase n)
  | m + 1, 0 => exact absurd heq.symm (hbase m)
  | m + 1, n + 1 =>
      have hlists := congrArg String.toList heq
      simp only [toList_lower_candidate_succ] at hlists
      have hdigits := List.tail_eq_of_cons_eq (List.append_cancel_left hlists)
      have hnumber := Decimal.digits_injective hdigits
      omega

/-- The indexes of a table are too few to have all of the first names. -/
theorem exists_hasFree (table : Table) (base : String) :
    ∃ n ≤ table.indexes.length, table.HasFree (candidate base n) := by
  by_contra htaken
  push Not at htaken
  have hnodup : ((List.range (table.indexes.length + 1)).map fun n =>
      lower (candidate base n)).Nodup :=
    List.nodup_range.map (lower_candidate_injective base)
  have hsubset : ((List.range (table.indexes.length + 1)).map fun n =>
      lower (candidate base n)) ⊆ table.indexes.map fun index => lower index.name := by
    intro name hname
    obtain ⟨n, hn, rfl⟩ := List.mem_map.1 hname
    have hclash := htaken n (Nat.le_of_lt_succ (List.mem_range.1 hn))
    simp only [Table.HasFree, not_forall, not_not] at hclash
    obtain ⟨index, hindex, hsame⟩ := hclash
    exact List.mem_map.2 ⟨index, hindex, hsame⟩
  have hlength := (List.subperm_of_subset hnodup hsubset).length_le
  simp only [List.length_map, List.length_range] at hlength
  omega

/-- The `n`-th name is free, and those before it are not. -/
structure FirstFree (table : Table) (base : String) (n : Nat) : Prop where
  free : table.HasFree (candidate base n)
  taken : ∀ m < n, ¬ table.HasFree (candidate base m)

/-- There is a first free name, among one name more than there are indexes. -/
theorem exists_firstFree (table : Table) (base : String) :
    ∃ n ≤ table.indexes.length, FirstFree table base n := by
  classical
  obtain ⟨bound, hbound, hfree⟩ := exists_hasFree table base
  have hex : ∃ n, table.HasFree (candidate base n) := ⟨bound, hfree⟩
  exact ⟨Nat.find hex, (Nat.find_min' hex hfree).trans hbound, Nat.find_spec hex,
    fun m hm => Nat.find_min hex hm⟩

/-- The search gives the first free name. -/
theorem freeIndexName_eq_candidate {n : Nat} (hn : n ≤ table.indexes.length)
    (h : FirstFree table base n) : freeIndexName table base = candidate base n := by
  have hfound : (List.range (table.indexes.length + 1)).find?
      ((fun name => (table.index? name).isNone) ∘ candidate base) = some n := by
    rw [List.find?_range_eq_some]
    refine ⟨?_, List.mem_range.2 (Nat.lt_succ_of_le hn), fun m hm => ?_⟩
    · exact Option.isNone_iff_eq_none.2 (Table.index?_eq_none_iff.2 h.free)
    · have htaken := h.taken m hm
      simpa using Table.isSome_index?_iff.2 htaken
  rw [freeIndexName, nameCandidates_eq, List.find?_map, hfound]
  rfl

/-- The name and its first number are taken, in other letters. -/
example : freeIndexName { name := "t", indexes := [{ name := "K", unique := false },
    { name := "k_2", unique := false }] } "k" = "k_3" := by
  cbv

/-! ### Clashes of names -/

theorem hasFree_freeIndexName (table : Table) (base : String) :
    table.HasFree (freeIndexName table base) := by
  obtain ⟨n, hn, hfirst⟩ := exists_firstFree table base
  rw [freeIndexName_eq_candidate hn hfirst]
  exact hfirst.free

theorem resolveParts_ne_existingIndex (table : Table) (parts : List KeyPart)
    (tableName name : String) :
    resolveParts table parts ≠ .error (.existingIndex tableName name) := by
  intro h
  obtain ⟨part, -, hpart⟩ := exists_of_mapM_eq_error h
  unfold resolvePart at hpart
  split at hpart <;> cases hpart

/-- A key that is not primary clashes under a name of its own, never under one that was searched
for. -/
theorem name_of_addSecondaryIndex {key : KeyClause} {tableName name : String}
    (h : addSecondaryIndex table key = .error (.existingIndex tableName name)) :
    key.name = some name ∧ ¬ table.HasFree name := by
  rw [addSecondaryIndex_eq] at h
  split at h
  · next htaken =>
      cases h
      rw [Table.isSome_index?_iff, secondaryName] at htaken
      cases hname : key.name with
      | none =>
          rw [hname, Option.getD_none] at htaken
          exact absurd (hasFree_freeIndexName table unnamedIndex) htaken
      | some own =>
          rw [hname, Option.getD_some] at htaken
          rw [secondaryName, hname, Option.getD_some]
          exact ⟨rfl, htaken⟩
  · exact absurd (map_eq_error.1 h) (resolveParts_ne_existingIndex _ _ _ _)

theorem addInlineUnique_ne_existingIndex (table : Table) (spec : ColumnSpec)
    (tableName name : String) :
    addInlineUnique table spec ≠ .error (.existingIndex tableName name) := by
  intro h
  rw [addInlineUnique_eq] at h
  split at h
  · rw [addKey_eq, if_neg (by simp [isPrimaryClause])] at h
    obtain ⟨hname, htaken⟩ := name_of_addSecondaryIndex h
    cases hname
    exact htaken (hasFree_freeIndexName table spec.name)
  · cases h

/-- What the search for a free name comes to, and what follows for keys. -/
structure FindsFreeName (table : Table) (base : String) : Prop where
  /-- The search looks at one name more than there are indexes at most, and stops at the first that
  is free. -/
  stops : ∃ n ≤ table.indexes.length,
    FirstFree table base n ∧ freeIndexName table base = candidate base n
  /-- A name that is free is kept. -/
  kept : table.HasFree base → freeIndexName table base = base
  /-- Another gets the least number from two that makes it free. -/
  numbered : ¬ table.HasFree base → ∃ n ≥ 2,
    freeIndexName table base = base ++ "_" ++ Decimal.text n ∧
      table.HasFree (base ++ "_" ++ Decimal.text n) ∧
      ∀ m, 2 ≤ m → m < n → ¬ table.HasFree (base ++ "_" ++ Decimal.text m)
  /-- A key clause without a name never clashes, unless it is for the primary key. -/
  clause : ∀ (key : KeyClause) (tableName name : String), key.name = none →
    isPrimaryClause key = false → addKey table key ≠ .error (.existingIndex tableName name)
  /-- Nor does a column that is unique by itself. -/
  column : ∀ (spec : ColumnSpec) (tableName name : String),
    addInlineUnique table spec ≠ .error (.existingIndex tableName name)

theorem findsFreeName (table : Table) (base : String) : FindsFreeName table base := by
  obtain ⟨n, hn, hfirst⟩ := exists_firstFree table base
  have hname := freeIndexName_eq_candidate hn hfirst
  refine ⟨⟨n, hn, hfirst, hname⟩, fun hfree => ?_, fun htaken => ?_, ?_,
    addInlineUnique_ne_existingIndex table⟩
  · cases n with
    | zero => exact hname
    | succ n => exact absurd hfree (hfirst.taken 0 (Nat.succ_pos n))
  · cases n with
    | zero => exact absurd hfirst.free htaken
    | succ n =>
        refine ⟨n + 2, Nat.le_add_left 2 n, hname, hfirst.free, fun m hlow hhigh => ?_⟩
        obtain ⟨m, rfl⟩ := Nat.exists_eq_add_of_le' hlow
        exact hfirst.taken (m + 1) (by omega)
  · rintro key tableName name hkey hkind h
    rw [addKey_eq, if_neg (by simp [hkind])] at h
    rw [(name_of_addSecondaryIndex h).1] at hkey
    cases hkey

end Definition
end SchemaLint
