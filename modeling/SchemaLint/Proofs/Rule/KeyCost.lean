import Mathlib.Algebra.GroupWithZero.Nat
import Mathlib.Order.Nat
import SchemaLint.Proofs.Metadata.Storage
import SchemaLint.Rule.Table

/-!
# When a primary key is too wide

The rule about wide primary keys compares what the key costs, in its own index and in every other
one, with what a small key in its place would cost.  It fails on a key whose costs are no words.
Otherwise the comparison comes down to one product (`surrogateCost_lt_keyCost_iff`), which grows
with the width of the key and with the number of other indexes.  So a table that is warned of is
still warned of when it has grown in either way, unless its costs are no words any more.

* `Table.keyBytes` - the width of the key, as a whole number.
* `Rule.answer_saneInnoDBPrimaryKey` - what the rule finds, by the sizes that it adds up.
* `Table.Grows` - the ways in which the key and the number of other indexes grow.
* `Table.foundToBe_and_of_grows` - the condition for a warning, and that a warning stays.
-/

namespace SchemaLint

namespace Column

variable {column longer : Column} {total : UInt64}

/-- All bytes of one value, if they can be counted. -/
def bytes (column : Column) : Nat :=
  match column.totalSize with
  | .ok total => total.toNat
  | .error _ => 0

theorem bytes_eq (h : column.totalSize = .ok total) : column.bytes = total.toNat := by
  unfold bytes
  rewrite [h]
  rfl

theorem bytes_eq_zero {error : StorageError} (h : column.totalSize = .error error) :
    column.bytes = 0 := by
  unfold bytes
  rewrite [h]
  rfl

/-- The length from which the size is worked out: for enumerations and sets, the number of their
members. -/
def sizingLength (column : Column) : Option UInt64 :=
  if column.info.dataType = "enum" ∨ column.info.dataType = "set" then
    some (UInt64.ofNat column.members.length)
  else
    column.declaredLength

theorem storageSize_eq (column : Column) : column.storageSize =
    Storage.size column.info.dataType column.sizingLength column.info.numericScale := rfl

theorem totalSize_eq_ok : column.totalSize = .ok total ↔
    Storage.Totals column.info.dataType column.sizingLength column.info.numericScale total := by
  unfold totalSize Storage.Totals
  rewrite [bind_eq_ok, storageSize_eq]
  exact exists_congr fun size => and_congr_right fun _ => mapError_eq_ok

theorem totalSize_eq {layout : Storage.Layout}
    (h : Storage.layout? (ColumnType.canonical column.info.dataType) = some layout) :
    column.totalSize = (layout.bytes (column.sizingLength.getD layout.defaultLength)
      column.info.numericScale).mapError .overflow := by
  unfold totalSize Storage.Layout.bytes
  rewrite [storageSize_eq, Storage.size_eq h]
  cases layout.size (column.sizingLength.getD layout.defaultLength) column.info.numericScale <;> rfl

/-- A column of the same type with a longer declared length. -/
structure Lengthened (column longer : Column) : Prop where
  dataType_eq : longer.info.dataType = column.info.dataType
  scale_eq : longer.info.numericScale = column.info.numericScale
  length_le : ∃ short long, column.sizingLength = some short ∧ longer.sizingLength = some long ∧
    short ≤ long

/-- A column with a longer declared length is no narrower, as far as its bytes can be counted. -/
theorem Lengthened.bytes_le (h : column.Lengthened longer) (htotal : longer.totalSize = .ok total) :
    column.bytes ≤ longer.bytes := by
  obtain ⟨htype, hscale, short, long, hshort, hlong, hle⟩ := h
  cases hsize : column.totalSize with
  | error error =>
      rewrite [bytes_eq_zero hsize]
      exact Nat.zero_le _
  | ok size =>
      rw [bytes_eq hsize, bytes_eq htotal, ← UInt64.le_iff_toNat_le]
      rw [totalSize_eq_ok, hshort] at hsize
      rw [totalSize_eq_ok, htype, hscale, hlong] at htotal
      exact hsize.le htotal hle

end Column

namespace Table

/-- The bytes of the columns of the primary key. -/
def keyBytes (table : Table) : Nat :=
  (table.primaryKeyColumns.map Column.bytes).sum

end Table

namespace Rule

theorem addSize_of_error {column : Column} {error : StorageError}
    (h : column.totalSize = .error error) (before : UInt64) :
    addSize before column = .error error := by
  unfold addSize
  rewrite [h]
  rfl

theorem addSize_of_ok {column : Column} {total : UInt64} (h : column.totalSize = .ok total)
    (before : UInt64) : addSize before column = (Word.plus before total).mapError .overflow := by
  unfold addSize
  rewrite [h]
  rfl

/-- The sizes of columns that can be counted are added up. -/
theorem totalSize_eq_ok {columns : List Column} {size : UInt64} (h : totalSize columns = .ok size) :
    size.toNat = (columns.map Column.bytes).sum ∧
      ∀ column ∈ columns, ∃ total, column.totalSize = .ok total := by
  -- the sum up to a column stands in front of what the others add
  suffices hsum : ∀ before : UInt64, columns.foldlM addSize before = .ok size →
      size.toNat = before.toNat + (columns.map Column.bytes).sum ∧
        ∀ column ∈ columns, ∃ total, column.totalSize = .ok total by
    have hzero := hsum 0 h
    rwa [UInt64.toNat_zero, Nat.zero_add] at hzero
  clear h
  induction columns with
  | nil =>
      intro before h
      cases h
      exact ⟨rfl, fun _ hmem => absurd hmem List.not_mem_nil⟩
  | cons column columns ih =>
      intro before h
      rewrite [List.foldlM_cons, bind_eq_ok] at h
      obtain ⟨after, hafter, h⟩ := h
      unfold addSize at hafter
      rewrite [bind_eq_ok] at hafter
      obtain ⟨total, htotal, hafter⟩ := hafter
      rewrite [mapError_eq_ok, Word.plus_eq_ok] at hafter
      obtain ⟨hsize, hcounted⟩ := ih after h
      refine ⟨?_, List.forall_mem_cons.2 ⟨⟨total, htotal⟩, hcounted⟩⟩
      rw [hsize, hafter, List.map_cons, List.sum_cons, Column.bytes_eq htotal, Nat.add_assoc]

section Costs

variable {size count cost : UInt64}

theorem keyCost_eq_ok :
    keyCost size count = .ok cost ↔ cost.toNat = size.toNat + count.toNat * size.toNat := by
  have hcost := cost.toNat_lt
  simp only [keyCost, bind_eq_ok, Word.times_eq_ok, Word.plus_eq_ok]
  rw [Word.exists_toNat (P := fun copies => cost.toNat = size.toNat + copies)]
  exact and_iff_right_of_imp fun h => by omega

theorem surrogateCost_eq_ok :
    surrogateCost size count = .ok cost ↔
      cost.toNat = 4 + (size.toNat + 4) + count.toNat * 4 := by
  have hcost := cost.toNat_lt
  have hcopies : ∀ own : UInt64, (∃ copies : UInt64, copies.toNat = count.toNat * 4 ∧
      cost.toNat = own.toNat + copies.toNat) ↔
        count.toNat * 4 < 2 ^ 64 ∧ cost.toNat = own.toNat + count.toNat * 4 := fun own =>
    Word.exists_toNat (P := fun copies => cost.toNat = own.toNat + copies)
  simp only [surrogateCost, surrogateKeyBytes, bind_eq_ok, Word.times_eq_ok, Word.plus_eq_ok,
    UInt64.reduceToNat, hcopies]
  constructor
  · rintro ⟨unique, hunique, own, hown, -, h⟩
    omega
  · intro h
    have hunique : (UInt64.ofNat (size.toNat + 4)).toNat = size.toNat + 4 :=
      UInt64.toNat_ofNat_of_lt' (by change _ < 2 ^ 64; omega)
    have hown : (UInt64.ofNat (4 + (size.toNat + 4))).toNat = 4 + (size.toNat + 4) :=
      UInt64.toNat_ofNat_of_lt' (by change _ < 2 ^ 64; omega)
    refine ⟨_, hunique, _, hown.trans (by rw [hunique]), by omega, ?_⟩
    rw [hown, h]

/-- A surrogate key saves its share of every other index, and has eight bytes to make up for. -/
theorem surrogateCost_lt_keyCost_iff {current surrogate : UInt64}
    (hcurrent : keyCost size count = .ok current)
    (hsurrogate : surrogateCost size count = .ok surrogate) :
    surrogate < current ↔ 8 < count.toNat * (size.toNat - 4) := by
  rw [keyCost_eq_ok] at hcurrent
  rw [surrogateCost_eq_ok] at hsurrogate
  rw [UInt64.lt_iff_toNat_lt, hcurrent, hsurrogate, Nat.mul_sub]
  omega

/-- How bad a primary key is. -/
theorem severity_keyVerdict {table : Table} {verdict : Verdict}
    (h : keyVerdict table size count = .ok verdict) :
    verdict.severity =
      if 8 < size.toNat ∧ 0 < count.toNat ∧ 8 < count.toNat * (size.toNat - 4) then
        .warning
      else .ok := by
  have hnarrow : size ≤ narrowKeyBytes ↔ size.toNat ≤ 8 := UInt64.le_iff_toNat_le
  have hnone : count = 0 ↔ count.toNat = 0 := UInt64.toNat_inj.symm
  unfold keyVerdict at h
  split at h
  · next hshort =>
      simp only [Bool.or_eq_true, decide_eq_true_eq, hnarrow, hnone] at hshort
      cases h
      rw [if_neg (by omega)]
      rfl
  · next hwide =>
      simp only [Bool.or_eq_true, decide_eq_true_eq, hnarrow, hnone] at hwide
      obtain ⟨current, hcurrent, h⟩ := bind_eq_ok.1 h
      obtain ⟨surrogate, hsurrogate, h⟩ := bind_eq_ok.1 h
      cases h
      change Verdict.severity (if _ then _ else _) = _
      simp only [surrogateCost_lt_keyCost_iff hcurrent hsurrogate]
      split
      · next hcheaper => rw [if_pos ⟨by omega, by omega, hcheaper⟩]; rfl
      · next hdearer => rw [if_neg fun h => hdearer h.2.2]

end Costs

/-- If the rule answers, it adds up the sizes of the key, counts the indexes and judges by both. -/
theorem answer_saneInnoDBPrimaryKey {table : Table} {found : Option Finding}
    (hengine : table.isInnoDB = true) (hkey : table.primaryKey?.isSome = true)
    (h : saneInnoDBPrimaryKey.find (.table table) = .ok found) :
    ∃ size count verdict, totalSize table.primaryKeyColumns = .ok size ∧
      Word.count table.secondaryIndexes = .ok count ∧
      keyVerdict table size count = .ok verdict ∧
      found = some (saneInnoDBPrimaryKey.findingOf (.table table) verdict) := by
  have happlies : saneInnoDBPrimaryKey.applies (.table table) = true :=
    Bool.and_eq_true_iff.2 ⟨hengine, hkey⟩
  rw [find, if_pos happlies, Rule.found, map_eq_ok] at h
  obtain ⟨verdict?, hanswer, rfl⟩ := h
  simp only [saneInnoDBPrimaryKey, onTable] at hanswer
  obtain ⟨size, hsize, hanswer⟩ := bind_eq_ok.1 hanswer
  obtain ⟨count, hcount, hanswer⟩ := bind_eq_ok.1 hanswer
  obtain ⟨verdict, hverdict, hanswer⟩ := bind_eq_ok.1 hanswer
  cases hanswer
  rw [mapError_eq_ok] at hsize hcount hverdict
  exact ⟨size, count, verdict, hsize, hcount, hverdict, rfl⟩

end Rule

namespace Table

/-- A table of InnoDB with a primary key on which the rule does not fail. -/
structure Judged (table : Table) : Prop where
  isInnoDB : table.isInnoDB = true
  hasKey : table.primaryKey?.isSome = true
  answered : ∃ found, Rule.saneInnoDBPrimaryKey.find (.table table) = .ok found

/-- The rule finds the table to be so bad. -/
def FoundToBe (table : Table) (severity : Severity) : Prop :=
  ∃ finding, Rule.saneInnoDBPrimaryKey.find (.table table) = .ok (some finding) ∧
    finding.severity = severity

/-- The key is wide, and copied so often that a surrogate key saves more than it costs. -/
def IsWideKeyed (table : Table) : Prop :=
  8 < table.keyBytes ∧ 0 < table.secondaryIndexes.length ∧
    8 < table.secondaryIndexes.length * (table.keyBytes - 4)

instance (table : Table) : Decidable table.IsWideKeyed :=
  inferInstanceAs (Decidable (_ ∧ _))

/-- One table has more of what makes a key costly than another: one more index beside the key, or
one more column in it, or a column in place of one that is narrower. -/
inductive Grows (table larger : Table) : Prop where
  | index (before after : List Index) (index : Index)
      (hsecondary : table.secondaryIndexes = before ++ after)
      (hlarger : larger.secondaryIndexes = before ++ index :: after)
      (hcolumns : larger.primaryKeyColumns = table.primaryKeyColumns)
  | column (before after : List Column) (column : Column)
      (hcolumns : table.primaryKeyColumns = before ++ after)
      (hlarger : larger.primaryKeyColumns = before ++ column :: after)
      (hindexes : larger.secondaryIndexes.length = table.secondaryIndexes.length)
  | wider (before after : List Column) (column wider : Column)
      (hcolumns : table.primaryKeyColumns = before ++ column :: after)
      (hlarger : larger.primaryKeyColumns = before ++ wider :: after)
      (hwider : column.bytes ≤ wider.bytes ∨ column.Lengthened wider)
      (hindexes : larger.secondaryIndexes.length = table.secondaryIndexes.length)

variable {table larger : Table}

/-- A judged table has a key whose bytes can be counted, and is found to be as bad as they say. -/
theorem Judged.exists_found (h : table.Judged) :
    (∃ finding, Rule.saneInnoDBPrimaryKey.find (.table table) = .ok (some finding) ∧
      finding.severity = if table.IsWideKeyed then .warning else .ok) ∧
    ∀ column ∈ table.primaryKeyColumns, ∃ total, column.totalSize = .ok total := by
  obtain ⟨hengine, hkey, found, hfound⟩ := h
  obtain ⟨size, count, verdict, hsize, hcount, hverdict, rfl⟩ :=
    Rule.answer_saneInnoDBPrimaryKey hengine hkey hfound
  obtain ⟨hbytes, hcounted⟩ := Rule.totalSize_eq_ok hsize
  have hseverity := Rule.severity_keyVerdict hverdict
  rw [hbytes, Word.count_eq_ok.1 hcount] at hseverity
  exact ⟨⟨_, hfound, hseverity⟩, hcounted⟩

theorem Judged.foundToBe_iff (h : table.Judged) (severity : Severity) :
    table.FoundToBe severity ↔ severity = if table.IsWideKeyed then .warning else .ok := by
  obtain ⟨⟨finding, hfinding, hseverity⟩, -⟩ := h.exists_found
  constructor
  · rintro ⟨other, hother, rfl⟩
    cases hfinding.symm.trans hother
    exact hseverity
  · rintro rfl
    exact ⟨finding, hfinding, hseverity⟩

theorem Grows.keyBytes_le (h : table.Grows larger) (hlarger : larger.Judged) :
    table.keyBytes ≤ larger.keyBytes := by
  cases h with
  | index before after index hsecondary hindexes hcolumns =>
      rw [keyBytes, keyBytes, hcolumns]
  | column before after column hcolumns hmore hindexes =>
      rw [keyBytes, keyBytes, hcolumns, hmore]
      simp only [List.map_append, List.map_cons, List.sum_append, List.sum_cons]
      omega
  | wider before after column wider hcolumns hmore hwider hindexes =>
      have hle : column.bytes ≤ wider.bytes := by
        rcases hwider with hbytes | hlonger
        · exact hbytes
        · obtain ⟨total, htotal⟩ := hlarger.exists_found.2 wider (by simp [hmore])
          exact hlonger.bytes_le htotal
      rw [keyBytes, keyBytes, hcolumns, hmore]
      simp only [List.map_append, List.map_cons, List.sum_append, List.sum_cons]
      omega

theorem Grows.length_le (h : table.Grows larger) :
    table.secondaryIndexes.length ≤ larger.secondaryIndexes.length := by
  cases h with
  | index before after index hsecondary hlarger hcolumns =>
      rw [hsecondary, hlarger, List.length_append, List.length_append, List.length_cons]
      omega
  | column before after column hcolumns hlarger hindexes => exact hindexes.ge
  | wider before after column wider hcolumns hlarger hwider hindexes => exact hindexes.ge

theorem Grows.isWideKeyed (h : table.Grows larger) (hlarger : larger.Judged)
    (hwide : table.IsWideKeyed) : larger.IsWideKeyed := by
  obtain ⟨hbytes, hsome, hcheaper⟩ := hwide
  have hgrown := h.keyBytes_le hlarger
  have hcounted := h.length_le
  refine ⟨by omega, by omega, hcheaper.trans_le (Nat.mul_le_mul hcounted ?_)⟩
  omega

/-- The rule warns exactly of wide keys that are copied often, and says nothing against the others;
so a table that it warns of is warned of when it has grown. -/
theorem foundToBe_and_of_grows (h : table.Judged) :
    (∀ severity, table.FoundToBe severity ↔
      severity = if table.IsWideKeyed then .warning else .ok) ∧
    ∀ larger : Table, larger.Judged → table.Grows larger →
      table.FoundToBe .warning → larger.FoundToBe .warning := by
  refine ⟨h.foundToBe_iff, fun larger hlarger hgrows hwarned => ?_⟩
  have hwide : table.IsWideKeyed := by
    by_contra hnarrow
    have hok := (h.foundToBe_iff .warning).1 hwarned
    rw [if_neg hnarrow] at hok
    cases hok
  rw [hlarger.foundToBe_iff, if_pos (hgrows.isWideKeyed hlarger hwide)]

/-- A table with a key of sixteen bytes beside some other indexes. -/
def textKeyed (names : List String) : Table where
  name := "codes"
  columns := [{
    name := "code"
    info := { dataType := "char", characterMaximumLength := some 16, columnKey := .primary } }]
  indexes := (Index.primaryName :: names).map fun name =>
    { name, unique := name == Index.primaryName }

/-- One index beside a key of sixteen bytes is enough for a warning, and so are two. -/
theorem foundToBe_textKeyed :
    ((textKeyed ["one"]).Judged ∧ (textKeyed ["one"]).FoundToBe .warning) ∧
      (textKeyed ["one", "two"]).Judged ∧ (textKeyed ["one"]).Grows (textKeyed ["one", "two"]) ∧
      (textKeyed ["one", "two"]).FoundToBe .warning := by
  have hanswered : ∀ table : Table, (Rule.saneInnoDBPrimaryKey.find (.table table)).isOk = true →
      ∃ found, Rule.saneInnoDBPrimaryKey.find (.table table) = .ok found := by
    intro table h
    cases hfind : Rule.saneInnoDBPrimaryKey.find (.table table) with
    | ok found => exact ⟨found, rfl⟩
    | error error =>
        rw [hfind] at h
        cases h
  have hone : (textKeyed ["one"]).Judged :=
    ⟨by decide +kernel, by decide +kernel, hanswered _ (by decide +kernel)⟩
  have htwo : (textKeyed ["one", "two"]).Judged :=
    ⟨by decide +kernel, by decide +kernel, hanswered _ (by decide +kernel)⟩
  have hgrows : (textKeyed ["one"]).Grows (textKeyed ["one", "two"]) :=
    .index [{ name := "one", unique := false }] [] { name := "two", unique := false }
      (by decide +kernel) (by decide +kernel) rfl
  obtain ⟨hseverity, hstays⟩ := foundToBe_and_of_grows hone
  have hwarned : (textKeyed ["one"]).FoundToBe .warning :=
    (hseverity .warning).2 (by decide +kernel)
  exact ⟨⟨hone, hwarned⟩, htwo, hgrows, hstays _ htwo hgrows hwarned⟩

end Table
end SchemaLint
