import SchemaLint.Catalog.Format
import SchemaLint.Proofs.Json.Members

/-!
# Catalogs as JSON are read as they were written

For every kind of entity, the encoder makes a value of natural numbers and strings, and the
decoder gets back from it what was encoded.  Only the statements of a query are lost, which are
not written.
-/

namespace SchemaLint

open Json (Members record? record?_object some_bind)

namespace ColumnKey

@[simp] theorem plain_toJson (key : ColumnKey) : key.toJson.Plain := .text key.label

@[simp] theorem ofJson?_toJson (key : ColumnKey) : ofJson? key.toJson = some key := by
  cases key <;> rfl

end ColumnKey

namespace ColumnInfo

@[simp] theorem plain_toJson (info : ColumnInfo) : info.toJson.Plain := by
  simp [toJson]

@[simp] theorem ofJson?_toJson (info : ColumnInfo) : ofJson? info.toJson = some info := by
  have hrecord : record? fields info.toJson = some _ := record?_object (by decide) (.refl fields)
  rw [ofJson?, hrecord, some_bind]
  simp [Members.orElse]

end ColumnInfo

namespace Column

@[simp] theorem plain_toJson (column : Column) : column.toJson.Plain := by
  cases hmembers : column.members <;> simp [toJson, hmembers]

@[simp] theorem ofJson?_toJson (column : Column) : ofJson? column.toJson = some column := by
  have hnodup : fields.Nodup := by decide
  have hmembers := Json.list?_texts column.members
  rw [ofJson?, toJson, record?_object hnodup, some_bind]
  · -- no members are written for an empty list, which is what a missing list is read as
    obtain ⟨name, tableName, schemaName, info, members, cardinality⟩ := column
    cases members <;> simp_all [Members.required, Members.orElse]
  · cases column.members <;> simp [fields]

end Column

namespace IndexPart

@[simp] theorem plain_toJson (part : IndexPart) : part.toJson.Plain := by
  simp [toJson]

@[simp] theorem ofJson?_toJson (part : IndexPart) : ofJson? part.toJson = some part := by
  have hrecord : record? fields part.toJson = some _ := record?_object (by decide) (.refl fields)
  rw [ofJson?, hrecord, some_bind]
  simp [Members.required, Members.orElse]

end IndexPart

namespace Index

@[simp] theorem plain_toJson (index : Index) : index.toJson.Plain := by
  simp [toJson, Json.plain_list]

@[simp] theorem ofJson?_toJson (index : Index) : ofJson? index.toJson = some index := by
  have hrecord : record? fields index.toJson = some _ := record?_object (by decide) (.refl fields)
  have hparts := Json.list?_map index.parts fun part _ => part.ofJson?_toJson
  rw [ofJson?, hrecord, some_bind]
  simp [Members.required, Members.orElse, hparts]

end Index

namespace TableInfo

@[simp] theorem plain_toJson (info : TableInfo) : info.toJson.Plain := by
  simp [toJson]

@[simp] theorem ofJson?_toJson (info : TableInfo) : ofJson? info.toJson = some info := by
  have hrecord : record? fields info.toJson = some _ := record?_object (by decide) (.refl fields)
  rw [ofJson?, hrecord, some_bind]
  simp [Members.orElse]

end TableInfo

namespace AutoIncrementUsage

@[simp] theorem plain_toJson (usage : AutoIncrementUsage) : usage.toJson.Plain := by
  simp [toJson]

@[simp] theorem ofJson?_toJson (usage : AutoIncrementUsage) :
    ofJson? usage.toJson = some usage := by
  have hrecord : record? fields usage.toJson = some _ := record?_object (by decide) (.refl fields)
  rw [ofJson?, hrecord, some_bind]
  simp [Members.required]

end AutoIncrementUsage

namespace RedundantIndex

@[simp] theorem plain_toJson (redundant : RedundantIndex) : redundant.toJson.Plain := by
  simp [toJson]

@[simp] theorem ofJson?_toJson (redundant : RedundantIndex) :
    ofJson? redundant.toJson = some redundant := by
  have hrecord : record? fields redundant.toJson = some _ :=
    record?_object (by decide) (.refl fields)
  rw [ofJson?, hrecord, some_bind]
  simp [Members.required]

end RedundantIndex

namespace AccessCounters

@[simp] theorem plain_toJson (access : AccessCounters) : access.toJson.Plain := by
  simp [toJson]

@[simp] theorem ofJson?_toJson (access : AccessCounters) : ofJson? access.toJson = some access := by
  have hrecord : record? fields access.toJson = some _ := record?_object (by decide) (.refl fields)
  rw [ofJson?, hrecord, some_bind]
  simp [Members.orElse]

end AccessCounters

namespace TableFacts

@[simp] theorem plain_toJson (facts : TableFacts) : facts.toJson.Plain := by
  have hredundant : (Json.optional redundantToJson facts.redundantIndexes).Plain :=
    Json.plain_optional fun redundant _ => Json.plain_list fun index _ => index.plain_toJson
  simp [toJson, Json.plain_optional, hredundant]

@[simp] theorem ofJson?_toJson (facts : TableFacts) : ofJson? facts.toJson = some facts := by
  have hrecord : record? fields facts.toJson = some _ := record?_object (by decide) (.refl fields)
  have husage := Json.nullable?_optional AutoIncrementUsage.toJson facts.autoIncrement
    (by simp [AutoIncrementUsage.toJson]) fun usage _ => usage.ofJson?_toJson
  have hredundant := Json.nullable?_optional redundantToJson facts.redundantIndexes nofun
    fun redundant _ => Json.list?_map redundant fun index _ => index.ofJson?_toJson
  have hunused := Json.nullable?_optional Json.texts facts.unusedIndexes nofun
    fun names _ => Json.list?_texts names
  have haccess := Json.nullable?_optional AccessCounters.toJson facts.access
    (by simp [AccessCounters.toJson]) fun access _ => access.ofJson?_toJson
  rw [ofJson?, hrecord, some_bind]
  simp [Members.orElse, husage, hredundant, hunused, haccess]

end TableFacts

namespace Table

@[simp] theorem plain_toJson (table : Table) : table.toJson.Plain := by
  simp [toJson, Json.plain_list]

@[simp] theorem ofJson?_toJson (table : Table) : ofJson? table.toJson = some table := by
  have hrecord : record? fields table.toJson = some _ := record?_object (by decide) (.refl fields)
  have hcolumns := Json.list?_map table.columns fun column _ => column.ofJson?_toJson
  have hindexes := Json.list?_map table.indexes fun index _ => index.ofJson?_toJson
  rw [ofJson?, hrecord, some_bind]
  simp [Members.required, Members.orElse, hcolumns, hindexes]

end Table

namespace Schema

@[simp] theorem plain_toJson (schema : Schema) : schema.toJson.Plain := by
  simp [toJson, Json.plain_list]

@[simp] theorem ofJson?_toJson (schema : Schema) : ofJson? schema.toJson = some schema := by
  have hrecord : record? fields schema.toJson = some _ := record?_object (by decide) (.refl fields)
  have htables := Json.list?_map schema.tables fun table _ => table.ofJson?_toJson
  rw [ofJson?, hrecord, some_bind]
  simp [Members.required, Members.orElse, htables]

end Schema

namespace Account

@[simp] theorem plain_toJson (account : Account) : account.toJson.Plain := by
  simp [toJson]

@[simp] theorem ofJson?_toJson (account : Account) : ofJson? account.toJson = some account := by
  have hrecord : record? fields account.toJson = some _ := record?_object (by decide) (.refl fields)
  rw [ofJson?, hrecord, some_bind]
  simp [Members.required, Members.orElse]

end Account

namespace TableReference

@[simp] theorem plain_toJson (reference : TableReference) : reference.toJson.Plain := by
  simp [toJson]

@[simp] theorem ofJson?_toJson (reference : TableReference) :
    ofJson? reference.toJson = some reference := by
  have hrecord : record? fields reference.toJson = some _ :=
    record?_object (by decide) (.refl fields)
  rw [ofJson?, hrecord, some_bind]
  simp [Members.required, Members.orElse]

end TableReference

namespace QueryCounters

@[simp] theorem plain_toJson (counters : QueryCounters) : counters.toJson.Plain := by
  simp [toJson]

@[simp] theorem ofJson?_toJson (counters : QueryCounters) :
    ofJson? counters.toJson = some counters := by
  have hrecord : record? fields counters.toJson = some _ :=
    record?_object (by decide) (.refl fields)
  rw [ofJson?, hrecord, some_bind]
  simp [Members.orElse]

end QueryCounters

namespace Query

/-- The query without its statements. -/
def withoutStatements (query : Query) : Query :=
  { query with statements := [] }

@[simp] theorem plain_toJson (query : Query) : query.toJson.Plain := by
  simp [toJson, Json.plain_ofMap]

@[simp] theorem ofJson?_toJson (query : Query) :
    ofJson? query.toJson = some query.withoutStatements := by
  have hrecord : record? fields query.toJson = some _ := record?_object (by decide) (.refl fields)
  have htables := Json.map?_ofMap TableReference.toJson query.tables
    fun entry _ => entry.2.ofJson?_toJson
  rw [ofJson?, hrecord, some_bind]
  simp [Members.required, Members.orElse, htables,
    withoutStatements]

end Query

namespace Catalog

@[simp] theorem plain_toJson (catalog : Catalog) : catalog.toJson.Plain := by
  simp [toJson, Json.plain_list, Json.plain_ofMap]

/-- A catalog is read as it was written, but for the statements of its queries. -/
theorem ofJson?_toJson (catalog : Catalog) :
    ofJson? catalog.toJson =
      some { catalog with queries := catalog.queries.map Query.withoutStatements } := by
  have hrecord : record? fields catalog.toJson = some _ :=
    record?_object (by decide) (.refl fields)
  have hvariables := Json.map?_ofMap .text catalog.sessionVariables
    fun entry _ => Json.text?_text entry.2
  have haccounts := Json.map?_ofMap Account.toJson catalog.accounts
    fun entry _ => entry.2.ofJson?_toJson
  have hschemas := Json.list?_map catalog.schemas fun schema _ => schema.ofJson?_toJson
  have hqueries := Json.list?_map_of catalog.queries fun query _ => query.ofJson?_toJson
  rw [ofJson?, hrecord, some_bind]
  simp [Members.orElse, hvariables, haccounts, hschemas, hqueries]

end Catalog
end SchemaLint
