import SchemaLint.Digest.Grammar
import SchemaLint.Proofs.Session.WellFormed
import SchemaLint.Proofs.Snapshot

/-!
# Built catalogs survive their snapshot

A catalog that a run has built, with its facts derived, is loaded from the text of its snapshot as
it was.  The representation invariant gives all that loading checks or repeats in tables; accounts
need the name of the catalog, which every edit that makes one gives them.
-/

namespace SchemaLint

open Sql

namespace NameMap

theorem mem_modify {α : Type} {map : NameMap α} {name : String} {f : α → α}
    {entry : String × α} (h : entry ∈ (map.modify name f).entries) :
    ∃ old ∈ map.entries, entry = old ∨ entry = (old.1, f old.2) := by
  obtain ⟨old, hold, rfl⟩ := List.mem_map.1 h
  refine ⟨old, hold, ?_⟩
  split
  · exact .inr rfl
  · exact .inl rfl

end NameMap

namespace Catalog

variable {Named : String → Prop} {first second : Catalog}

/-- What holds of a new account of the catalog under its key, and is kept by grants, is kept of all
accounts by edits. -/
theorem Edited.forall_accounts (hedit : Edited Named first second) {P : String × Account → Prop}
    (hnew : ∀ account : Account, account.catalogName = first.name → P (account.key, account))
    (hgrant : ∀ key account privilege, P (key, account) → P (key, account.grant privilege))
    (h : ∀ entry ∈ first.accounts.entries, P entry) :
    ∀ entry ∈ second.accounts.entries, P entry := by
  induction hedit with
  | refl _ => exact h
  | trans hfirst _ ih₁ ih₂ =>
      refine ih₂ (fun account haccount => hnew account ?_) (ih₁ hnew h)
      rw [haccount, hfirst.frame.1]
  | ensureSchema catalog name =>
      rw [ensureSchema_eq]
      exact h
  | removeSchema catalog name => exact h
  | addView catalog schema name =>
      rw [Session.addTable, ensureSchema_eq]
      exact h
  | addTable catalog _ _ =>
      rw [Session.addTable, ensureSchema_eq]
      exact h
  | removeTable catalog schema name => exact h
  | alterTable catalog schema name line object _ => exact h
  | addUser catalog creation spec =>
      unfold Session.addUser
      split
      · exact h
      · intro entry hentry
        rcases NameMap.mem_insertEntry hentry with rfl | hentry
        · exact hnew { Session.accountOf creation spec with catalogName := catalog.name } rfl
        · exact h entry hentry
  | grant catalog user host privileges =>
      intro entry hentry
      obtain ⟨old, hold, rfl | rfl⟩ := NameMap.mem_modify hentry
      · exact h entry hold
      · -- privileges are added one by one
        exact List.foldlRecOn (motive := fun account => P (old.1, account)) privileges
          Account.grant (h old hold) fun account haccount privilege _ =>
            hgrant old.1 account privilege haccount

/-- Every edit gives accounts the name of the catalog. -/
theorem AccountsOwned.edited (h : first.AccountsOwned) (hedit : Edited Named first second) :
    second.AccountsOwned := by
  have howned : ∀ entry ∈ second.accounts.entries, entry.2.catalogName = first.name :=
    hedit.forall_accounts (fun _ haccount => haccount) (fun _ _ _ haccount => haccount) h
  intro entry hentry
  rw [howned entry hentry, hedit.frame.1]

end Catalog

namespace Session

/-- A built catalog, with its facts derived, is loaded from its snapshot as it was.  The run
starts with a name and session variables, its statements may succeed or fail, and the time of the
capture is any point in time. -/
theorem load_text_of_start (parse : Digest.StatementParser) (name : String)
    (sessionVariables : NameMap String) (statements : List Statement) (source : Option String)
    {capturedAt : Option Timestamp} (htime : ∀ time ∈ capturedAt, time.IsValid) :
    let built := ((start { name, sessionVariables }).applyEach statements).finish.deriveFacts
    Snapshot.load parse (Snapshot.text { source, capturedAt, catalog := built }) =
      .ok { source, capturedAt, catalog := built } := by
  intro built
  have hedit : Catalog.Edited (fun _ => True) { name, sessionVariables }
      ((start { name, sessionVariables }).applyEach statements).catalog :=
    edited_applyEach statements (fun _ _ _ _ => trivial) (start { name, sessionVariables })
  have hwf : ((start { name, sessionVariables }).applyEach statements).catalog.WellFormed :=
    applyEach_wellFormed (Catalog.wellFormed_of_schemas_eq_nil rfl) statements
  have howned : Catalog.AccountsOwned { name, sessionVariables } := nofun
  have haccounts := howned.edited hedit
  -- no statement records a query
  have hqueries := hedit.frame.2.2
  have hready : Snapshot.Ready parse
      ((start { name, sessionVariables }).applyEach statements).finish.deriveFacts :=
    Snapshot.ready_of_wellFormed (hwf.retainSchemas _).deriveFacts haccounts hqueries
      (Catalog.deriveFacts_deriveFacts _)
  exact hready.load_text htime

/-- A snapshot of a table with a key, captured at a leap second, holds the table. -/
theorem load_text_of_one_table :
    let built := ((start { name := "d" }).applyEach [.createTable {
        name := { name := "t" }
        columns := [{
          name := "a"
          type := { name := "int" }
          primaryKey := true }] }]).finish.deriveFacts
    let capturedAt : Option Timestamp := some {
      date := { year := 2016, month := 12, day := 31 }
      minuteOfDay := 1439
      second := 60
      nanosecond := 5000000 }
    (built.tables.map fun table =>
        (table.name, table.columns.map Column.name, table.indexes.map Index.name)) =
          [("t", ["a"], ["PRIMARY"])] ∧
      (∀ time ∈ capturedAt, time.IsValid) ∧
      Snapshot.load Digest.parse? (Snapshot.text { source := none, capturedAt, catalog := built }) =
        .ok { source := none, capturedAt, catalog := built } := by
  intro built capturedAt
  have htime : ∀ time ∈ capturedAt, time.IsValid := by
    intro time htime
    cases Option.mem_some_iff.1 htime
    exact ⟨by decide, by decide, by decide, by decide, by decide⟩
  have htables : (built.tables.map fun table =>
      (table.name, table.columns.map Column.name, table.indexes.map Index.name)) =
        [("t", ["a"], ["PRIMARY"])] := by
    decide +kernel
  exact ⟨htables, htime, load_text_of_start Digest.parse? "d" NameMap.empty _ none htime⟩

end Session
end SchemaLint
