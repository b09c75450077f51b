import SchemaLint.Proofs.Definition.Edit
import SchemaLint.Proofs.Session.Run

/-!
# Invariants of tables

Tables grow by columns and indexes.  A property that holds of new tables and that each way of
growing keeps (`TableInvariant`) holds of every table of the catalog after every run
(`TableInvariant.applyEach`).
-/

namespace SchemaLint

open Sql

section Runs

variable {α σ : Type}

/-- A run that stops at the first error keeps what each of its steps keeps. -/
theorem Outcome.runAll_keeps {P : σ → Prop} {step : σ → α → σ × Outcome} {items : List α}
    (hstep : ∀ state item, item ∈ items → P state → P (step state item).1)
    {state : σ} (h : P state) : P (Outcome.runAll step state items).1 := by
  induction items generalizing state with
  | nil => exact h
  | cons item items ih =>
      have hnext := hstep state item List.mem_cons_self h
      rw [Outcome.runAll]
      split
      · next heq => simpa [heq] using hnext
      · next heq =>
          exact ih (fun state item hitem => hstep state item (List.mem_cons_of_mem _ hitem))
            (by simpa [heq] using hnext)

end Runs

namespace Definition

/-- A name that is made free satisfies every condition that numbers do not affect. -/
theorem freeIndexName_named (Named : String → Prop) {base : String}
    (hnumbered : ∀ base n, Named base → Named (base ++ "_" ++ Decimal.text n)) (h : Named base)
    (table : Table) : Named (freeIndexName table base) := by
  unfold freeIndexName
  cases hfound : (nameCandidates base table.indexes.length).find? fun name =>
      (table.index? name).isNone with
  | none => exact h
  | some name =>
      have hmem := List.mem_of_find?_eq_some hfound
      rcases List.mem_cons.1 hmem with rfl | hmem
      · exact h
      · obtain ⟨n, -, rfl⟩ := List.mem_map.1 hmem
        exact hnumbered base (n + 2) h

end Definition

/-- A property of tables that holds of new tables and that tables keep while they grow.  The
condition `Named` is on the names of the keys that are not primary. -/
structure TableInvariant (Named : String → Prop) (P : Table → Prop) : Prop where
  /-- A name that is made free by a number is as good as the name itself. -/
  numbered : ∀ base n, Named base → Named (base ++ "_" ++ Decimal.text n)
  start : ∀ name schemaName spec encoding,
    P { name, schemaName, info := Definition.tableInfo spec encoding }
  view : ∀ schemaName name, P (Definition.view schemaName name)
  addColumn : ∀ {encoding table spec result}, P table →
    Definition.addColumn encoding table spec = .ok result → P result
  addPrimaryKey : ∀ {table parts result}, P table →
    Definition.addPrimaryKey table parts = .ok result → P result
  addSecondaryIndex : ∀ {table key result}, P table → (∀ name ∈ key.name, Named name) →
    Definition.addSecondaryIndex table key = .ok result → P result
  startCounter : ∀ {table}, P table → P (Definition.startCounter table)
  relink : ∀ {table}, P table → ∀ schemaName, P ({ table with schemaName } : Table).relink

namespace TableInvariant

variable {Named : String → Prop} {P : Table → Prop}

theorem addKey (inv : TableInvariant Named P) {table result : Table} {key : KeyClause}
    (h : P table) (hname : ∀ name ∈ key.secondaryName?, Named name)
    (hadd : Definition.addKey table key = .ok result) : P result := by
  rw [Definition.addKey_eq] at hadd
  split at hadd
  · exact inv.addPrimaryKey h hadd
  · next hkind =>
      refine inv.addSecondaryIndex h (fun name hmem => hname name ?_) hadd
      rwa [KeyClause.secondaryName?, if_neg hkind]

theorem addDeclaredColumn (inv : TableInvariant Named P) {encoding : Encoding}
    {table result : Table} {spec : ColumnSpec} (h : P table)
    (hname : spec.unique = true → Named spec.name)
    (hadd : Definition.addDeclaredColumn encoding table spec = .ok result) : P result := by
  rw [Definition.addDeclaredColumn_eq] at hadd
  obtain ⟨columned, hcolumned, hadd⟩ := bind_eq_ok.1 hadd
  obtain ⟨keyed, hkeyed, hadd⟩ := bind_eq_ok.1 hadd
  have hPcolumned : P columned := inv.addColumn h hcolumned
  have hPkeyed : P keyed := by
    rw [Definition.addInlinePrimary_eq] at hkeyed
    split at hkeyed
    · exact inv.addPrimaryKey hPcolumned hkeyed
    · cases hkeyed
      exact hPcolumned
  rw [Definition.addInlineUnique_eq] at hadd
  split at hadd
  · next hunique =>
      -- the clause for the column is not primary, and asks for a free name made from the column
      refine inv.addKey hPkeyed ?_ hadd
      intro name hmem
      rw [KeyClause.secondaryName?, if_neg (by simp [Definition.isPrimaryClause])] at hmem
      cases hmem
      exact Definition.freeIndexName_named Named inv.numbered (hname hunique) keyed
  · cases hadd
    exact hPkeyed

/-- Every table that is made from a definition has the property. -/
theorem table (inv : TableInvariant Named P) {schemaName : String} {spec : TableSpec}
    {result : Table} (hnames : ∀ name ∈ spec.secondaryNames, Named name)
    (hbuilt : Definition.table schemaName spec = .ok result) : P result := by
  rw [Definition.table_eq_steps] at hbuilt
  split at hbuilt
  · cases hbuilt
  · next encoding _ =>
      obtain ⟨columned, hcolumned, hbuilt⟩ := bind_eq_ok.1 hbuilt
      obtain ⟨keyed, hkeyed, hbuilt⟩ := bind_eq_ok.1 hbuilt
      cases hbuilt
      have hPcolumned : P columned := by
        refine foldlM_keeps ?_ (inv.start spec.name.name schemaName spec encoding) hcolumned
        intro state column result hcolumn hstate hstep
        refine inv.addDeclaredColumn hstate (fun hunique => hnames _ ?_) hstep
        exact List.mem_append_left _
          (List.mem_map.2 ⟨column, List.mem_filter.2 ⟨hcolumn, hunique⟩, rfl⟩)
      refine inv.startCounter (foldlM_keeps ?_ hPcolumned hkeyed)
      intro state key result hkey hstate hstep
      refine inv.addKey hstate (fun name hname => hnames _ ?_) hstep
      exact List.mem_append_right _ (List.mem_filterMap.2 ⟨key, hkey, hname⟩)

/-- An action on a table keeps the property, whether it succeeds or fails. -/
theorem alter (inv : TableInvariant Named P) (line : Nat) (object : ObjectName) {table : Table}
    {action : AlterAction} (h : P table) (hname : ∀ name ∈ action.secondaryName?, Named name) :
    P (Session.alter line object table action).1 := by
  rcases Session.alter_eq_self_or line object table action with hsame | hresult
  · rwa [hsame]
  · cases action with
    | addColumn spec =>
        rw [Session.result_edit_addColumn] at hresult
        split at hresult
        · cases hresult
        · exact inv.addColumn h hresult
    | addKey key => exact inv.addKey h hname hresult
    | unsupported text => cases hresult

/-- Every edit of a catalog keeps the property of its tables. -/
theorem edited (inv : TableInvariant Named P) {first second : Catalog}
    (hedit : Catalog.Edited Named first second) (h : ∀ table ∈ first.tables, P table) :
    ∀ table ∈ second.tables, P table := by
  -- a table that is added is linked to the schema that it gets into
  have hadded : ∀ (catalog : Catalog) (schema : String) (added : Table),
      (∀ table ∈ catalog.tables, P table) → P added →
      ∀ table ∈ (Session.addTable catalog schema added).tables, P table := by
    intro catalog schema added hcatalog hadded table htable
    rcases Catalog.mem_tables_modifySchema htable with htable | ⟨owner, howner, -, htable⟩
    · rw [Catalog.tables_ensureSchema] at htable
      exact hcatalog table htable
    · rcases Schema.mem_tables_addTable htable with htable | rfl
      · have hmem : table ∈ (catalog.ensureSchema schema).tables :=
          Catalog.mem_tables.2 ⟨owner, howner, htable⟩
        rw [Catalog.tables_ensureSchema] at hmem
        exact hcatalog table hmem
      · exact inv.relink hadded owner.name
  induction hedit with
  | refl _ => exact h
  | trans _ _ ih₁ ih₂ => exact ih₂ (ih₁ h)
  | ensureSchema catalog name => rwa [Catalog.tables_ensureSchema]
  | removeSchema catalog name =>
      exact fun table htable => h table (Catalog.mem_tables_removeSchema htable)
  | addView catalog schema name => exact hadded catalog schema _ h (inv.view schema name)
  | addTable catalog hnames hbuilt => exact hadded catalog _ _ h (inv.table hnames hbuilt)
  | removeTable catalog schema name =>
      intro table htable
      rcases Catalog.mem_tables_modifySchema htable with htable | ⟨owner, howner, -, htable⟩
      · exact h table htable
      · exact h table
          (Catalog.mem_tables.2 ⟨owner, howner, Schema.mem_tables_removeTable htable⟩)
  | alterTable catalog schema name line object hnames =>
      intro table htable
      rcases Catalog.mem_tables_modifyTable htable with htable | ⟨old, hold, rfl⟩
      · exact h table htable
      · refine Outcome.runAll_keeps (P := P) (fun state action haction hstate => ?_) (h old hold)
        refine inv.alter line object hstate (fun name hname => hnames name ?_)
        exact List.mem_filterMap.2 ⟨action, haction, hname⟩
  | addUser catalog creation spec =>
      have hsame : (Session.addUser creation catalog spec).tables = catalog.tables := by
        unfold Session.addUser
        split <;> rfl
      rwa [hsame]
  | grant catalog user host privileges => exact h

/-- After a run every table has the property if every table had it before. -/
theorem applyEach (inv : TableInvariant Named P) (statements : List Statement)
    (hnames : ∀ statement ∈ statements, ∀ name ∈ statement.secondaryNames, Named name)
    (session : Session) (h : ∀ table ∈ session.catalog.tables, P table) :
    ∀ table ∈ (session.applyEach statements).catalog.tables, P table :=
  inv.edited (session.edited_applyEach statements hnames) h

end TableInvariant
end SchemaLint
