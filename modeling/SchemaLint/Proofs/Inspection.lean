import SchemaLint.Proofs.Inspection.Course
import SchemaLint.Proofs.Rule.KeyCost
import SchemaLint.Proofs.Snapshot

/-!
# When an inspection fails

Of the rules only three look up what may be missing: a counter, the size of a text column, and
the sizes of the columns of a primary key.  Once facts are derived the counter is there, and the
type of a text column always has a size.  So an inspection fails exactly if a column of a primary
key has a type without a known size, and it fails with the first such column
(`Inspection.run_failsOnUnsizedKey`).

This is so while all sizes and costs are words.  The arithmetic of two of the rules breaks off when
they are not, and then nothing after it is found out.  `RuleError.AsExpected` sets this case apart:
the failure is the one that exact numbers would give, or it is an overflow and the catalog has
sizes or costs that are no words (`Catalog.IsCountable`).
-/

namespace SchemaLint

/-! ### Failures up to an overflow -/

namespace RuleError

/-- What is found is the failure that is expected, unless numbers are too large and break it
off. -/
def AsExpected (large : Prop) (expected found : Option RuleError) : Prop :=
  found = expected ∨ large ∧ ∃ cause, found = some (.overflow cause)

namespace AsExpected

variable {α β : Type} {large larger : Prop} {expected found : Option RuleError}

theorem refl (large : Prop) (failure : Option RuleError) : AsExpected large failure failure :=
  .inl rfl

theorem of_overflow (h : large) (cause : Overflow) :
    AsExpected large expected (some (.overflow cause)) :=
  .inr ⟨h, cause, rfl⟩

/-- Where words are worked out nothing is found but an overflow, and that only if they do not
fit. -/
theorem of_words {fits : Prop} {words : Except Overflow α} (h : fits → ∃ value, words = .ok value) :
    AsExpected (¬ fits) none (errorOf? (words.mapError .overflow)) := by
  cases words with
  | ok value => exact refl _ _
  | error cause =>
      refine of_overflow (fun hfits => ?_) cause
      obtain ⟨value, hvalue⟩ := h hfits
      cases hvalue

theorem mono (h : AsExpected large expected found) (hlarger : large → larger) :
    AsExpected larger expected found :=
  h.imp_right fun hfound => ⟨hlarger hfound.1, hfound.2⟩

/-- What is expected of the first of two steps is expected of both, if nothing is expected of the
second. -/
theorem bind {x : Except RuleError α} {f : α → Except RuleError β}
    (hx : AsExpected large expected (errorOf? x))
    (hf : ∀ value, x = .ok value → AsExpected large none (errorOf? (f value))) :
    AsExpected large expected (errorOf? (x >>= f)) := by
  cases x with
  | error error => exact hx
  | ok value =>
      obtain rfl : none = expected := hx.elim id fun ⟨_, _, h⟩ => nomatch h
      exact hf value rfl

/-- In a list every item of which fails as expected, so does the first one. -/
theorem findSome? {f g : α → Option RuleError} : ∀ {items : List α},
    (∀ item ∈ items, AsExpected large (g item) (f item)) →
      AsExpected large (items.findSome? g) (items.findSome? f)
  | [], _ => refl large none
  | item :: items, h => by
      obtain ⟨hitem, hitems⟩ := List.forall_mem_cons.1 h
      rw [List.findSome?_cons, List.findSome?_cons]
      rcases hitem with hsame | ⟨hlarge, cause, hoverflow⟩
      · rw [hsame]
        cases g item with
        | none => exact findSome? hitems
        | some failure => exact refl large _
      · rw [hoverflow]
        exact of_overflow hlarge cause

/-- If of all items only one is expected to fail, that is how the first one fails. -/
theorem findSome?_of_mem {f : α → Option RuleError} {x : α} {items : List α} (hx : x ∈ items)
    (hfails : AsExpected large expected (f x))
    (h : ∀ item ∈ items, AsExpected large none (f item) ∨ AsExpected large expected (f item)) :
    AsExpected large expected (items.findSome? f) := by
  cases hfound : items.findSome? f with
  | none => rwa [List.findSome?_eq_none_iff.1 hfound x hx] at hfails
  | some failure =>
      obtain ⟨item, hitem, hfailure⟩ := List.exists_of_findSome?_eq_some hfound
      rcases hfailure ▸ h item hitem with (hnone | hoverflow) | hexpected
      · cases hnone
      · exact .inr hoverflow
      · exact hexpected

end AsExpected
end RuleError

/-! ### Types without a known size -/

namespace Storage

/-- A type in which no value has a known size. -/
def isUnsized (type : String) : Bool :=
  (layout? (ColumnType.canonical type)).isNone

/-- Whether a type has a size does not depend on the length. -/
theorem isUnsized_iff {type : String} : isUnsized type = true ↔
    ∀ length scale, sizeOf? (ColumnType.canonical type) length scale = none := by
  simp only [isUnsized, Option.isNone_iff_eq_none, sizeOf?_eq, Option.map_eq_none_iff,
    forall_const]

/-- Spatial values are of no known size, unlike texts. -/
example : isUnsized "geometry" = true ∧ isUnsized "longtext" = false := by decide

theorem isSome_layout?_of_string {name : String} (h : ColumnType.classOf name = some .string) :
    (layout? name).isSome = true := by
  unfold ColumnType.classOf at h
  split at h <;> cases h <;> rfl

theorem isUnsized_of_string {type : String} (h : ColumnType.classify type = some .string) :
    isUnsized type = false := by
  unfold ColumnType.classify at h
  unfold isUnsized
  rewrite [← Option.not_isSome, isSome_layout?_of_string h]
  rfl

end Storage

namespace Table

/-- The columns of the primary key of a table of InnoDB whose types have no known size. -/
def unsizedKeyColumns (table : Table) : List Column :=
  if table.isInnoDB && table.primaryKey?.isSome then
    table.primaryKeyColumns.filter fun column => Storage.isUnsized column.info.dataType
  else
    []

theorem mem_unsizedKeyColumns {table : Table} {column : Column} :
    column ∈ table.unsizedKeyColumns ↔
      table.isInnoDB = true ∧ (∃ index ∈ table.indexes, index.name = Index.primaryName) ∧
        column ∈ table.columns ∧ column.info.columnKey = .primary ∧
        ∀ length scale,
          Storage.sizeOf? (ColumnType.canonical column.info.dataType) length scale = none := by
  have hkey : table.primaryKey?.isSome = true ↔
      ∃ index ∈ table.indexes, index.name = Index.primaryName := by
    simp [primaryKey?, Index.isPrimary]
  rw [← hkey, ← Storage.isUnsized_iff, unsizedKeyColumns]
  split
  · next h =>
      obtain ⟨hengine, hsome⟩ := Bool.and_eq_true_iff.1 h
      simp [hengine, hsome, primaryKeyColumns, Column.isPrimary, and_comm]
  · next h =>
      rw [Bool.and_eq_true_iff] at h
      exact iff_of_false List.not_mem_nil fun hall => h ⟨hall.1, hall.2.1⟩

end Table

namespace Column

/-- The length of the column leaves room for what is added to it. -/
def IsCountable (column : Column) : Prop :=
  ∀ length ∈ column.sizingLength,
    length.toNat + Storage.headroom column.info.dataType < 2 ^ 64

theorem totalSize_of_unsized {column : Column}
    (h : Storage.isUnsized column.info.dataType = true) :
    column.totalSize = .error (.metadata (.unknownColumnType column.info.dataType)) := by
  have hsize : column.storageSize =
      .error (.metadata (.unknownColumnType column.info.dataType)) := by
    rewrite [storageSize_eq]
    unfold Storage.size
    rewrite [Storage.isUnsized_iff.1 h]
    rfl
  unfold totalSize
  rewrite [hsize]
  rfl

/-- A column of a type with a size has a total size, unless its length is too large. -/
theorem totalSize_of_sized {column : Column}
    (h : Storage.isUnsized column.info.dataType = false) :
    (∃ total, column.totalSize = .ok total) ∨
      ¬ column.IsCountable ∧ ∃ cause, column.totalSize = .error (.overflow cause) := by
  rw [Storage.isUnsized, Option.isNone_eq_false_iff, Option.isSome_iff_exists] at h
  obtain ⟨layout, hlayout⟩ := h
  rewrite [totalSize_eq hlayout]
  cases hbytes : layout.bytes (column.sizingLength.getD layout.defaultLength)
      column.info.numericScale with
  | ok total => exact .inl ⟨total, rfl⟩
  | error cause =>
      refine .inr ⟨fun hcountable => ?_, cause, rfl⟩
      have hroom : (column.sizingLength.getD layout.defaultLength).toNat + layout.headroom <
          2 ^ 64 := by
        cases hlength : column.sizingLength with
        | none => exact layout.defaultLength_room
        | some length => exact Storage.headroom_eq hlayout ▸ hcountable length hlength
      obtain ⟨total, htotal⟩ := layout.exists_bytes_iff.2 hroom
      cases hbytes.symm.trans htotal

end Column

namespace Table

/-- All sizes and costs that the table has are words. -/
structure IsCountable (table : Table) : Prop where
  columns : ∀ column ∈ table.columns, column.IsCountable
  key : table.keyBytes + table.secondaryIndexes.length * table.keyBytes < 2 ^ 64
  surrogate : 4 + (table.keyBytes + 4) + table.secondaryIndexes.length * 4 < 2 ^ 64

end Table

namespace Catalog

/-- The columns of primary keys whose types have no known size, in the order of the catalog. -/
def unsizedKeyColumns (catalog : Catalog) : List Column :=
  catalog.tables.flatMap Table.unsizedKeyColumns

/-- All sizes and costs of the catalog are words. -/
def IsCountable (catalog : Catalog) : Prop :=
  ∀ table ∈ catalog.tables, table.IsCountable

theorem unsizedKeyColumns_ne_nil {catalog : Catalog} :
    catalog.unsizedKeyColumns ≠ [] ↔ ∃ table ∈ catalog.tables, table.isInnoDB = true ∧
      (∃ index ∈ table.indexes, index.name = Index.primaryName) ∧
      ∃ column ∈ table.columns, column.info.columnKey = .primary ∧
        ∀ length scale,
          Storage.sizeOf? (ColumnType.canonical column.info.dataType) length scale = none := by
  constructor
  · intro h
    obtain ⟨column, hcolumn⟩ := List.exists_mem_of_ne_nil _ h
    obtain ⟨table, htable, hcolumn⟩ := List.mem_flatMap.1 hcolumn
    obtain ⟨hengine, hkey, hcolumns, hprimary, hunsized⟩ := Table.mem_unsizedKeyColumns.1 hcolumn
    exact ⟨table, htable, hengine, hkey, column, hcolumns, hprimary, hunsized⟩
  · rintro ⟨table, htable, hengine, hkey, column, hcolumns, hprimary, hunsized⟩
    exact List.ne_nil_of_mem (List.mem_flatMap.2 ⟨table, htable,
      Table.mem_unsizedKeyColumns.2 ⟨hengine, hkey, hcolumns, hprimary, hunsized⟩⟩)

end Catalog

namespace Rule

open RuleError (AsExpected)

/-- How a rule fails on a subject, if it does. -/
def failure? (rule : Rule) (subject : Subject) : Option RuleError :=
  errorOf? (rule.find subject)

theorem failure?_eq (rule : Rule) (subject : Subject) :
    rule.failure? subject =
      if rule.applies subject then errorOf? (rule.answer subject) else none := by
  rw [failure?, find]
  split
  · exact errorOf?_map _ _
  · rfl

/-- A rule that has an answer for every subject, whatever is known of it. -/
def Answers (rule : Rule) : Prop :=
  ∀ subject, ∃ verdict, rule.answer subject = .ok verdict

theorem Answers.failure?_eq_none {rule : Rule} (h : rule.Answers) (subject : Subject) :
    rule.failure? subject = none := by
  obtain ⟨verdict, hverdict⟩ := h subject
  rw [failure?_eq, hverdict]
  split <;> rfl

theorem answers_onCatalog {name : String} {applies : Catalog → Bool} {answer : Catalog → Answer}
    (h : ∀ catalog, ∃ verdict, answer catalog = .ok verdict) :
    (onCatalog name applies answer).Answers := by
  intro subject
  cases subject with
  | catalog catalog => exact h catalog
  | _ => exact ⟨none, rfl⟩

theorem answers_onAccount {name : String} {applies : Account → Bool} {answer : Account → Answer}
    (h : ∀ account, ∃ verdict, answer account = .ok verdict) :
    (onAccount name applies answer).Answers := by
  intro subject
  cases subject with
  | account account => exact h account
  | _ => exact ⟨none, rfl⟩

theorem answers_onTable {name : String} {applies : Table → Bool} {answer : Table → Answer}
    (h : ∀ table, ∃ verdict, answer table = .ok verdict) :
    (onTable name applies answer).Answers := by
  intro subject
  cases subject with
  | table table => exact h table
  | _ => exact ⟨none, rfl⟩

theorem answers_onColumn {name : String} {applies : Table → Column → Bool}
    {answer : Table → Column → Answer}
    (h : ∀ table column, ∃ verdict, answer table column = .ok verdict) :
    (onColumn name applies answer).Answers := by
  intro subject
  cases subject with
  | column table column => exact h table column
  | _ => exact ⟨none, rfl⟩

theorem answers_onQuery {name : String} {applies : Query → Bool} {answer : Query → Answer}
    (h : ∀ query, ∃ verdict, answer query = .ok verdict) :
    (onQuery name applies answer).Answers := by
  intro subject
  cases subject with
  | query query => exact h query
  | _ => exact ⟨none, rfl⟩

theorem answers_versionSupport (today : Date) : (versionSupport today).Answers := by
  refine answers_onCatalog fun catalog => ?_
  split <;> exact ⟨_, rfl⟩

theorem answers_uuidStorage : uuidStorage.Answers := by
  refine answers_onColumn fun table column => ?_
  split
  · split
    · exact ⟨_, rfl⟩
    · split <;> exact ⟨_, rfl⟩
    · split <;> exact ⟨_, rfl⟩
    · exact ⟨_, rfl⟩
  · exact ⟨_, rfl⟩

/-- All rules but three answer for every subject. -/
theorem answers_or {today : Date} {rule : Rule} (hrule : rule ∈ Inspection.rules today) :
    rule.Answers ∨ rule = autoIncrementCapacity ∨ rule = saneInnoDBPrimaryKey ∨
      rule = lowCardinalityStorage := by
  simp only [Inspection.rules, List.mem_cons, List.not_mem_nil, or_false] at hrule
  rcases hrule with
    rfl | rfl | rfl | rfl | rfl | rfl | rfl | rfl | rfl | rfl | rfl | rfl | rfl | rfl
  · exact .inl (answers_onCatalog fun _ => ⟨_, rfl⟩)
  · exact .inl (answers_versionSupport today)
  · exact .inl (answers_onAccount fun _ => ⟨_, rfl⟩)
  · exact .inl (answers_onAccount fun _ => ⟨_, rfl⟩)
  · exact .inl (answers_onTable fun _ => ⟨_, rfl⟩)
  · exact .inr (.inl rfl)
  · exact .inl (answers_onTable fun _ => ⟨_, rfl⟩)
  · exact .inr (.inr (.inl rfl))
  · exact .inl (answers_onTable fun _ => ⟨_, rfl⟩)
  · exact .inl (answers_onTable fun _ => ⟨_, rfl⟩)
  · exact .inr (.inr (.inr rfl))
  · exact .inl (answers_onColumn fun _ _ => ⟨_, rfl⟩)
  · exact .inl answers_uuidStorage
  · exact .inl (answers_onQuery fun _ => ⟨_, rfl⟩)

/-- The counter of integers of a table whose facts are derived is known. -/
theorem failure?_autoIncrementCapacity {subject : Subject}
    (h : ∀ table, subject = .table table → ∃ old : Table, table = old.deriveFacts) :
    autoIncrementCapacity.failure? subject = none := by
  cases subject with
  | table table =>
      obtain ⟨old, rfl⟩ := h table rfl
      rw [failure?_eq]
      by_cases happlies : autoIncrementCapacity.applies (.table old.deriveFacts) = true
      · obtain ⟨usage, husage⟩ := @Table.autoIncrement_deriveFacts old happlies
        rw [if_pos happlies]
        simp only [autoIncrementCapacity, onTable, husage, errorOf?]
      · exact if_neg happlies
  | _ => rfl

/-- The size of a text column is known. -/
theorem asExpected_lowCardinalityStorage (table : Table) (column : Column) :
    AsExpected (¬ column.IsCountable) none
      (lowCardinalityStorage.failure? (.column table column)) := by
  rw [failure?_eq]
  by_cases happlies : lowCardinalityStorage.applies (.column table column) = true
  · have hstring : column.typeClass = some .string := by
      simpa [Column.isString] using (Bool.and_eq_true_iff.1 happlies).2
    rw [if_pos happlies]
    simp only [lowCardinalityStorage, onColumn]
    rcases Column.totalSize_of_sized (Storage.isUnsized_of_string hstring) with
      ⟨total, htotal⟩ | ⟨hlarge, cause, hcause⟩
    · rw [htotal]
      exact .refl _ _
    · rw [hcause]
      exact .of_overflow hlarge cause
  · rw [if_neg happlies]
    exact .refl _ _

/-- The failure on a column whose type has no known size. -/
def unsizedFailure (column : Column) : RuleError :=
  .metadata (.unknownColumnType column.info.dataType)

/-- A sum of sizes fails on the first column without a known size. -/
theorem asExpected_addSize (columns : List Column) (before : UInt64) :
    AsExpected (¬ ((∀ column ∈ columns, column.IsCountable) ∧
        before.toNat + (columns.map Column.bytes).sum < 2 ^ 64))
      ((columns.find? fun column => Storage.isUnsized column.info.dataType).map unsizedFailure)
      (errorOf? ((columns.foldlM addSize before).mapError .ofStorage)) := by
  induction columns generalizing before with
  | nil => exact .refl _ _
  | cons column columns ih =>
      rw [List.foldlM_cons, List.find?_cons]
      cases hunsized : Storage.isUnsized column.info.dataType with
      | true =>
          rw [addSize_of_error (Column.totalSize_of_unsized hunsized)]
          exact .refl _ _
      | false =>
          rcases Column.totalSize_of_sized hunsized with ⟨total, htotal⟩ | ⟨hlarge, cause, hcause⟩
          · have hbytes := Column.bytes_eq htotal
            simp only [List.forall_mem_cons, List.map_cons, List.sum_cons, hbytes]
            rw [addSize_of_ok htotal]
            cases hplus : Word.plus before total with
            | error cause =>
                refine .of_overflow (fun hcountable => ?_) cause
                have hsum : before.toNat + total.toNat < 2 ^ 64 := by omega
                obtain ⟨after, hafter⟩ := Word.exists_ok (fun _ => Word.plus_eq_ok.2) hsum
                cases hplus.symm.trans hafter
            | ok after =>
                have hafter := Word.plus_eq_ok.1 hplus
                refine (ih after).mono (mt fun hcountable => ?_)
                exact ⟨hcountable.1.2, by omega⟩
          · rw [addSize_of_error hcause]
            exact .of_overflow (fun hcountable => hlarge (hcountable.1 _ List.mem_cons_self)) cause

/-- The costs of a key can be worked out if they are small enough. -/
theorem asExpected_keyVerdict (table : Table) (size count : UInt64) :
    AsExpected (¬ (size.toNat + count.toNat * size.toNat < 2 ^ 64 ∧
        4 + (size.toNat + 4) + count.toNat * 4 < 2 ^ 64)) none
      (errorOf? ((keyVerdict table size count).mapError .overflow)) := by
  refine .of_words fun hfits => ?_
  obtain ⟨current, hcurrent⟩ := Word.exists_ok (fun _ => keyCost_eq_ok.2) hfits.1
  obtain ⟨surrogate, hsurrogate⟩ := Word.exists_ok (fun _ => surrogateCost_eq_ok.2) hfits.2
  unfold keyVerdict
  rw [hcurrent, hsurrogate]
  split <;> exact ⟨_, rfl⟩

/-- Indexes can be counted if a share of a surrogate key can be counted for each of them. -/
theorem asExpected_count (table : Table) :
    AsExpected (¬ table.IsCountable) none
      (errorOf? ((Word.count table.secondaryIndexes).mapError .overflow)) := by
  refine .of_words fun hcountable => Word.exists_ok (fun _ => Word.count_eq_ok.2) ?_
  have hsurrogate := hcountable.surrogate
  omega

/-- The rule about primary keys fails on the first column without a known size. -/
theorem asExpected_saneInnoDBPrimaryKey (table : Table) :
    AsExpected (¬ table.IsCountable) (table.unsizedKeyColumns.head?.map unsizedFailure)
      (saneInnoDBPrimaryKey.failure? (.table table)) := by
  rw [failure?_eq, Table.unsizedKeyColumns]
  change AsExpected _ _ (if (table.isInnoDB && table.primaryKey?.isSome) = true then _ else _)
  split
  · rw [List.head?_filter]
    refine .bind ((asExpected_addSize _ 0).mono (mt fun h => ?_)) fun size hsize => ?_
    · refine ⟨fun column hcolumn => h.columns column (List.mem_filter.1 hcolumn).1, ?_⟩
      have hkey := h.key
      rw [Table.keyBytes] at hkey
      rw [UInt64.toNat_zero]
      omega
    obtain ⟨hbytes, -⟩ := totalSize_eq_ok (mapError_eq_ok.1 hsize)
    refine .bind (asExpected_count table) fun count hcount => ?_
    refine .bind ?_ fun _ _ => .refl _ _
    refine (asExpected_keyVerdict table size count).mono (mt fun h => ?_)
    rw [hbytes, Word.count_eq_ok.1 (mapError_eq_ok.1 hcount)]
    exact ⟨h.key, h.surrogate⟩
  · exact .refl _ _

end Rule

namespace Inspection

open RuleError (AsExpected)

/-- An inspection ends with the first failure, whatever its observers remember. -/
theorem errorOf?_conduct {σ : Type} (observers : List (Finding → StateM σ Unit)) :
    ∀ (pairs : List (Subject × Rule)) (state : σ),
      errorOf? ((conduct Rule.applies (asking Rule.found fun _ _ => pure ()) observers
        pairs).run state).1 = pairs.findSome? fun pair => pair.2.failure? pair.1
  | [], _ => rfl
  | (subject, rule) :: pairs, state => by
      rw [List.findSome?_cons, Rule.failure?, Rule.find]
      cases happlies : rule.applies subject with
      | false =>
          rw [conduct_of_not_applies happlies]
          exact errorOf?_conduct observers pairs state
      | true =>
          cases hfound : rule.found subject with
          | error error =>
              rw [conduct_of_failure happlies hfound]
              rfl
          | ok found =>
              rw [conduct_of_success happlies hfound]
              -- what the events change is a state from which the rest is conducted
              let told : StateM σ Unit :=
                forM (eventsAt Rule.found observers (subject, rule))
                  (Event.perform fun _ _ => pure ())
              exact (errorOf?_map _ _).trans
                (errorOf?_conduct observers pairs (told.run state).2)

theorem errorOf?_run_eq {σ : Type} (observers : List (Observer σ)) (state : σ)
    (rules : List Rule) (subjects : List Subject) :
    errorOf? (run observers state rules subjects).2 =
      (pairs rules subjects).findSome? fun pair => pair.2.failure? pair.1 := by
  have h := errorOf?_conduct (observers.map fun observer finding => modify (observer finding))
    (pairs rules subjects) state
  rwa [asking_of_no_effect] at h

/-- The failure that is expected on a subject: that on the first column of its key without a known
size. -/
def expectedFailure : Subject → Option RuleError
  | .table table => table.unsizedKeyColumns.head?.map Rule.unsizedFailure
  | _ => none

/-- What the rules work out of a subject is a word. -/
def IsCountable : Subject → Prop
  | .table table => table.IsCountable
  | .column _ column => column.IsCountable
  | _ => True

theorem asExpected_rules (today : Date) {subject : Subject}
    (h : ∀ table, subject = .table table → ∃ old : Table, table = old.deriveFacts) :
    AsExpected (¬ IsCountable subject) (expectedFailure subject)
      ((rules today).findSome? (·.failure? subject)) := by
  have hkey : AsExpected (¬ IsCountable subject) (expectedFailure subject)
      (Rule.saneInnoDBPrimaryKey.failure? subject) := by
    cases subject with
    | table table => exact Rule.asExpected_saneInnoDBPrimaryKey table
    | _ => exact .refl _ _
  have hsize : AsExpected (¬ IsCountable subject) none
      (Rule.lowCardinalityStorage.failure? subject) := by
    cases subject with
    | column table column => exact Rule.asExpected_lowCardinalityStorage table column
    | _ => exact .refl _ _
  refine .findSome?_of_mem (x := Rule.saneInnoDBPrimaryKey) (by simp [rules]) hkey
    fun rule hrule => ?_
  rcases Rule.answers_or hrule with hanswers | rfl | rfl | rfl
  · exact .inl (hanswers.failure?_eq_none subject ▸ .refl _ _)
  · exact .inl (Rule.failure?_autoIncrementCapacity h ▸ .refl _ _)
  · exact .inr hkey
  · exact .inl hsize

theorem findSome?_none {α β : Type} (items : List α) :
    items.findSome? (fun _ => (none : Option β)) = none :=
  List.findSome?_eq_none_iff.2 fun _ _ => rfl

theorem findSome?_pairs {β : Type} (f : Subject × Rule → Option β) (rules : List Rule)
    (subjects : List Subject) : (pairs rules subjects).findSome? f =
      subjects.findSome? fun subject => rules.findSome? fun rule => f (subject, rule) := by
  simp only [pairs, findSome?_flatMap, List.findSome?_map, Function.comp_def]

section Catalog

variable {catalog : Catalog} {subject : Subject}

/-- The tables among the subjects are those of the catalog with their facts. -/
theorem exists_of_mem_ofCatalog (h : subject ∈ Subject.ofCatalog catalog.deriveFacts) :
    (∀ table, subject = .table table → ∃ old ∈ catalog.tables, table = old.deriveFacts) ∧
      ∀ table column, subject = .column table column →
        ∃ old ∈ catalog.tables, column ∈ old.columns := by
  simp only [Subject.ofCatalog, List.mem_append, List.mem_cons, List.mem_map,
    List.mem_flatMap] at h
  constructor
  · rintro table rfl
    obtain ⟨old, hold, htable⟩ : ∃ old ∈ catalog.deriveFacts.tables, Subject.table old =
        .table table := by simpa using h
    cases htable
    exact Catalog.mem_tables_deriveFacts hold
  · rintro table column rfl
    obtain ⟨htable, hcolumn⟩ : table ∈ catalog.deriveFacts.tables ∧ column ∈ table.columns := by
      simpa using h
    obtain ⟨old, hold, rfl⟩ := Catalog.mem_tables_deriveFacts htable
    exact ⟨old, hold, hcolumn⟩

/-- Whatever is worked out of a subject of a countable catalog is a word. -/
theorem isCountable_of_mem (hcatalog : catalog.IsCountable)
    (h : subject ∈ Subject.ofCatalog catalog.deriveFacts) : IsCountable subject := by
  obtain ⟨htables, hcolumns⟩ := exists_of_mem_ofCatalog h
  cases subject with
  | table table =>
      obtain ⟨old, hold, rfl⟩ := htables table rfl
      obtain ⟨hold, hkey, hsurrogate⟩ := hcatalog old hold
      exact ⟨hold, hkey, hsurrogate⟩
  | column table column =>
      obtain ⟨old, hold, hcolumn⟩ := hcolumns table column rfl
      exact (hcatalog old hold).columns column hcolumn
  | _ => trivial

/-- Of all subjects only tables are expected to make a rule fail. -/
theorem findSome?_expectedFailure (catalog : Catalog) :
    (Subject.ofCatalog catalog.deriveFacts).findSome? expectedFailure =
      catalog.unsizedKeyColumns.head?.map Rule.unsizedFailure := by
  rw [Catalog.unsizedKeyColumns, List.head?_flatMap, List.map_findSome?]
  simp only [Subject.ofCatalog, List.cons_append, List.findSome?_cons, List.findSome?_append,
    findSome?_flatMap, List.findSome?_map, Function.comp_def, expectedFailure, findSome?_none,
    Catalog.tables_deriveFacts, Option.none_or, Option.or_none]
  rfl

/-- An inspection of a catalog whose facts are derived fails with the first column of a primary
key that has no known size, unless numbers are too large. -/
theorem asExpected_run {σ : Type} (observers : List (Observer σ)) (state : σ) (today : Date)
    (catalog : Catalog) :
    AsExpected (¬ catalog.IsCountable)
      (catalog.unsizedKeyColumns.head?.map Rule.unsizedFailure)
      (errorOf? (run observers state (rules today) (Subject.ofCatalog catalog.deriveFacts)).2) := by
  rw [errorOf?_run_eq, findSome?_pairs, ← findSome?_expectedFailure]
  refine .findSome? fun subject hsubject => ?_
  refine (asExpected_rules today fun table htable => ?_).mono
    (mt fun hcatalog => isCountable_of_mem hcatalog hsubject)
  obtain ⟨old, -, hold⟩ := (exists_of_mem_ofCatalog hsubject).1 table htable
  exact ⟨old, hold⟩

end Catalog

/-- When an inspection of a catalog fails, and how. -/
structure FailsOnUnsizedKey (catalog : Catalog) (result : Except RuleError (List Finding)) :
    Prop where
  /-- No fact is missing. -/
  available : ∀ rule subject fact, result ≠ .error (.unavailable rule subject fact)
  /-- Nothing overflows as long as all sizes and costs are words. -/
  overflows : ∀ cause, result = .error (.overflow cause) → ¬ catalog.IsCountable
  /-- If nothing overflows, it fails if and only if a primary key has a column without a known
  size. -/
  fails_iff : (∀ cause, result ≠ .error (.overflow cause)) →
    ((∃ error, result = .error error) ↔
      ∃ table ∈ catalog.tables, table.isInnoDB = true ∧
        (∃ index ∈ table.indexes, index.name = Index.primaryName) ∧
        ∃ column ∈ table.columns, column.info.columnKey = .primary ∧
          ∀ length scale,
            Storage.sizeOf? (ColumnType.canonical column.info.dataType) length scale = none)
  /-- Any other error names the type of the first such column. -/
  first : ∀ error, result = .error error → (∀ cause, error ≠ .overflow cause) →
    ∃ column, catalog.unsizedKeyColumns.head? = some column ∧
      error = .metadata (.unknownColumnType column.info.dataType)

/-- An inspection of a catalog whose facts are derived fails only on a primary key, whatever its
observers do, or with an overflow. -/
theorem run_failsOnUnsizedKey {σ : Type} (observers : List (Observer σ)) (state : σ)
    (today : Date) (catalog : Catalog) :
    FailsOnUnsizedKey catalog
      (run observers state (rules today) (Subject.ofCatalog catalog.deriveFacts)).2 := by
  have hrun := asExpected_run observers state today catalog
  generalize (run observers state (rules today) (Subject.ofCatalog catalog.deriveFacts)).2 =
    result at hrun ⊢
  -- an error that is not the expected one is an overflow
  have hfirst : ∀ error, result = .error error → (∀ cause, error ≠ .overflow cause) →
      ∃ column, catalog.unsizedKeyColumns.head? = some column ∧
        error = .metadata (.unknownColumnType column.info.dataType) := by
    intro error herror hother
    rw [← errorOf?_eq_some] at herror
    rcases hrun with hexpected | ⟨-, cause, hoverflow⟩
    · obtain ⟨column, hcolumn, hfailure⟩ := Option.map_eq_some_iff.1 (hexpected.symm.trans herror)
      exact ⟨column, hcolumn, hfailure.symm⟩
    · cases hoverflow.symm.trans herror
      exact absurd rfl (hother cause)
  refine ⟨fun rule subject fact h => ?_, fun cause h => ?_, fun hwords => ?_, hfirst⟩
  · obtain ⟨column, -, herror⟩ := hfirst _ h nofun
    cases herror
  · rw [← errorOf?_eq_some] at h
    rcases hrun with hexpected | ⟨hlarge, -⟩
    · obtain ⟨column, -, hfailure⟩ := Option.map_eq_some_iff.1 (hexpected.symm.trans h)
      cases hfailure
    · exact hlarge
  · rw [← Catalog.unsizedKeyColumns_ne_nil]
    constructor
    · rintro ⟨error, herror⟩ hnone
      obtain ⟨column, hcolumn, -⟩ := hfirst error herror fun cause hcause =>
        hwords cause (hcause ▸ herror)
      rw [hnone] at hcolumn
      cases hcolumn
    · intro hsome
      obtain ⟨column, columns, hcolumns⟩ := List.exists_cons_of_ne_nil hsome
      rcases hrun with hexpected | ⟨-, cause, hoverflow⟩
      · rw [hcolumns] at hexpected
        exact ⟨_, errorOf?_eq_some.1 hexpected⟩
      · exact ⟨_, errorOf?_eq_some.1 hoverflow⟩

end Inspection
end SchemaLint
