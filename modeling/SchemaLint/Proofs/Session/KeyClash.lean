import SchemaLint.Proofs.Definition.FreeName
import SchemaLint.Proofs.Session.Failure

/-!
# Keys that clash

Why a statement can fail because an index is there already.  The names of indexes that were searched
for are free, so what clashes is a primary key, or a name that is written for a key in the
statement (`clash_of_apply`).
-/

namespace SchemaLint

open Sql

/-- If the error is about an index that is there already, then about the primary key or under one of
these names. -/
def CatalogError.ClashesAmong (names : List String) (error : CatalogError) : Prop :=
  ∀ tableName name, error = .existingIndex tableName name →
    name = Index.primaryName ∨ name ∈ names

theorem CatalogError.ClashesAmong.mono {names more : List String} {error : CatalogError}
    (h : error.ClashesAmong names) (hsubset : names ⊆ more) : error.ClashesAmong more :=
  fun tableName name heq => (h tableName name heq).imp_right fun hmem => hsubset hmem

/-- An error about something else is no clash. -/
theorem CatalogError.clashesAmong_of_ne {names : List String} {error : CatalogError}
    (h : ∀ tableName name, error ≠ .existingIndex tableName name) : error.ClashesAmong names :=
  fun tableName name heq => absurd heq (h tableName name)

namespace Definition

variable {table : Table} {error : CatalogError}

theorem clash_of_addPrimaryKey {parts : List KeyPart}
    (h : addPrimaryKey table parts = .error error) : error.ClashesAmong [] := by
  rintro tableName name rfl
  rw [addPrimaryKey_eq] at h
  split at h
  · cases h
    exact .inl rfl
  · exact absurd (map_eq_error.1 h) (resolveParts_ne_existingIndex _ _ _ _)

theorem clash_of_addKey {key : KeyClause} (h : addKey table key = .error error) :
    error.ClashesAmong key.secondaryName?.toList := by
  rw [addKey_eq] at h
  split at h
  · exact (clash_of_addPrimaryKey h).mono (List.nil_subset _)
  · next hkind =>
      rintro tableName name rfl
      rw [KeyClause.secondaryName?, if_neg hkind, (name_of_addSecondaryIndex h).1]
      exact .inr (List.mem_singleton.2 rfl)

theorem clash_of_addColumn {encoding : Encoding} {spec : ColumnSpec}
    (h : addColumn encoding table spec = .error error) : error.ClashesAmong [] := by
  rintro tableName name rfl
  rw [addColumn_eq] at h
  split at h
  · cases h
  · split at h <;> cases h

theorem clash_of_addDeclaredColumn {encoding : Encoding} {spec : ColumnSpec}
    (h : addDeclaredColumn encoding table spec = .error error) : error.ClashesAmong [] := by
  rw [addDeclaredColumn_eq] at h
  obtain h | ⟨columned, -, h⟩ := bind_eq_error.1 h
  · exact clash_of_addColumn h
  obtain h | ⟨keyed, -, h⟩ := bind_eq_error.1 h
  · rw [addInlinePrimary_eq] at h
    split at h
    · exact clash_of_addPrimaryKey h
    · cases h
  · rintro tableName name rfl
    exact absurd h (addInlineUnique_ne_existingIndex _ _ _ _)

/-- A new table clashes with itself only, under the primary name or a name of its key clauses. -/
theorem clash_of_table {schemaName : String} {spec : TableSpec}
    (h : Definition.table schemaName spec = .error error) :
    error.ClashesAmong (spec.keys.filterMap KeyClause.secondaryName?) := by
  rw [Definition.table_eq_steps] at h
  split at h
  · cases h
    exact CatalogError.clashesAmong_of_ne (by simp)
  · next encoding _ =>
      obtain h | ⟨columned, -, h⟩ := bind_eq_error.1 h
      · obtain ⟨spec, -, table, hspec⟩ := exists_of_foldlM_eq_error h
        exact (clash_of_addDeclaredColumn hspec).mono (List.nil_subset _)
      obtain h | ⟨keyed, -, h⟩ := bind_eq_error.1 h
      · obtain ⟨key, hkey, table, hadd⟩ := exists_of_foldlM_eq_error h
        refine (clash_of_addKey hadd).mono fun name hname => ?_
        exact List.mem_filterMap.2 ⟨key, hkey, Option.mem_toList.1 hname⟩
      · cases h

end Definition

namespace Sql

/-- The names that are written for keys in a statement, those of primary keys left out. -/
def Statement.writtenNames : Statement → List String
  | .createTable spec => spec.keys.filterMap KeyClause.secondaryName?
  | .alterTable _ actions => actions.filterMap AlterAction.secondaryName?
  | .createIndex _ key => key.secondaryName?.toList
  | _ => []

end Sql

namespace Session

variable {session : Session} {error : CatalogError}

theorem clash_of_alter (line : Nat) (name : ObjectName) (action : AlterAction) (table : Table)
    (h : (alter line name table action).2 = .error error) :
    error.ClashesAmong action.secondaryName?.toList := by
  rw [snd_alter, map_eq_error] at h
  cases action with
  | addColumn spec =>
      rw [result_edit_addColumn] at h
      split at h
      · cases h
        exact CatalogError.clashesAmong_of_ne (by simp)
      · exact Definition.clash_of_addColumn h
  | addKey key => exact Definition.clash_of_addKey h
  | unsupported text =>
      cases h
      exact CatalogError.clashesAmong_of_ne (by simp)

theorem clash_of_changeTable {names : List String} {name : ObjectName}
    {change : Table → Table × Outcome}
    (hchange : ∀ table, (change table).2 = .error error → error.ClashesAmong names)
    (h : (session.changeTable name change).2 = .error error) : error.ClashesAmong names := by
  cases hfound : session.catalog.table? (session.schemaOf name) name.name with
  | none =>
      rw [changeTable_of_missing hfound] at h
      cases h
      exact CatalogError.clashesAmong_of_ne (by simp)
  | some table =>
      rw [changeTable_of_found hfound] at h
      exact hchange table h

/-- A statement clashes with an index under the primary name or under a name that is written in
it. -/
theorem clash_of_apply {statement : Statement} (h : (session.apply statement).2 = .error error) :
    error.ClashesAmong statement.writtenNames := by
  cases statement with
  | createTable spec =>
      simp only [apply, createTable] at h
      split at h
      · cases h
      · split at h
        · next hbuilt =>
            cases h
            exact Definition.clash_of_table hbuilt
        · cases h
  | alterTable name actions =>
      refine clash_of_changeTable (fun table hrun => ?_) h
      obtain ⟨done, failing, rest, before, hactions, -, hfailing⟩ :=
        Outcome.exists_of_runAll_eq_error (Prod.ext rfl hrun)
      refine (clash_of_alter _ _ _ _ (congrArg Prod.snd hfailing)).mono fun name hname => ?_
      refine List.mem_filterMap.2 ⟨failing, ?_, Option.mem_toList.1 hname⟩
      rw [hactions]
      exact List.mem_append_right _ List.mem_cons_self
  | createIndex name key =>
      exact clash_of_changeTable (clash_of_alter session.line name (.addKey key)) h
  | unsupported text =>
      cases h
      exact CatalogError.clashesAmong_of_ne (by simp)
  | _ => cases h

/-- There is a free name for every index that has none of its own, and a statement never clashes
with an index under such a name. -/
theorem keysFindFreeNames :
    (∀ (table : Table) (base : String), Definition.FindsFreeName table base) ∧
      ∀ (session : Session) (statement : Statement) (error : CatalogError),
        (session.apply statement).2 = .error error →
          error.ClashesAmong statement.writtenNames :=
  ⟨Definition.findsFreeName, fun _ _ _ => clash_of_apply⟩

end Session
end SchemaLint
