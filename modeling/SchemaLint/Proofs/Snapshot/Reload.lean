import SchemaLint.Digest.Grammar
import SchemaLint.Proofs.Calendar.Validity
import SchemaLint.Proofs.Except
import SchemaLint.Proofs.Snapshot

/-!
# Loading twice is loading once

Whatever text a snapshot was loaded from, loading has left nothing in it to do: its owners are
named, its checks have passed, its digests are read and its facts are derived, and none of the
later of these steps undoes an earlier one.  So the text that is written for it is loaded as the
same snapshot.
-/

namespace SchemaLint

namespace Table

/-- Repeated names are what is repeated. -/
theorem relink_relink (table : Table) : table.relink.relink = table.relink := by
  simp [relink, Function.comp_def]

end Table

namespace Schema

theorem relink_relink (schema : Schema) : schema.relink.relink = schema.relink := by
  have htables : schema.relink.relink.tables = schema.relink.tables := by
    simp only [relink, List.map_map]
    exact List.map_congr_left fun table _ =>
      ({ table with schemaName := schema.name } : Table).relink_relink
  exact congrArg (fun tables => { schema with tables }) htables

end Schema

namespace Catalog

theorem relink_relink (catalog : Catalog) : catalog.relink.relink = catalog.relink := by
  have haccounts : catalog.relink.relink.accounts = catalog.relink.accounts := by
    refine NameMap.eq_of_entries ?_
    simp [relink, NameMap.mapValues, Function.comp_def]
  have hschemas : catalog.relink.relink.schemas = catalog.relink.schemas := by
    simp only [relink, List.map_map]
    exact List.map_congr_left fun schema _ => schema.relink_relink
  rw [relink.eq_1 catalog.relink]
  exact congrArg₂ (fun accounts schemas => { catalog with accounts, schemas }) haccounts hschemas

end Catalog

namespace Json

/-- What is found under a member that may be null or missing was decoded. -/
theorem exists_of_mem_nullable {α : Type} {decode : Decoder α} {members : Members} {name : String}
    {found : Option α} {x : α} (h : members.orElse name none (nullable? decode) = some found)
    (hx : x ∈ found) : ∃ value, decode value = some x := by
  cases Option.mem_def.1 hx
  unfold Members.orElse at h
  split at h
  · cases h
  · next value _ =>
      unfold nullable? at h
      split at h
      · cases h
      · obtain ⟨y, hy, heq⟩ := Option.map_eq_some_iff.1 h
        cases heq
        exact ⟨value, hy⟩

end Json

namespace Query

/-- A digest is read from its text, which reading leaves as it is. -/
theorem resolve_resolve (parse : Digest.StatementParser) (query : Query) :
    (query.resolve parse).resolve parse = query.resolve parse := by
  unfold resolve
  cases hparse : parse (Digest.withPlaceholders query.digestText) <;> simp [hparse]

end Query

namespace Snapshot

variable {parse : Digest.StatementParser} {catalog : Catalog} {snapshot loaded : Snapshot}

/-- The checks look at names only, and a derived fact is none. -/
theorem checkCatalog_deriveFacts (h : checkCatalog catalog = .ok ()) :
    checkCatalog catalog.deriveFacts = .ok () := by
  obtain ⟨hschemas, htables, hchecked⟩ := checkCatalog_eq_ok.1 h
  refine checkCatalog_eq_ok.2 ⟨?_, ?_, ?_⟩
  · simpa [Catalog.deriveFacts, Function.comp_def] using hschemas
  · intro schema hschema
    obtain ⟨old, hold, rfl⟩ := List.mem_map.1 hschema
    rw [Table.map_name_deriveFacts]
    exact htables old hold
  · intro table htable
    obtain ⟨old, hold, rfl⟩ := Catalog.mem_tables_deriveFacts htable
    exact hchecked old hold

/-- What was made ready for use is ready. -/
theorem ready_of_prepare (h : snapshot.prepare parse = .ok loaded) :
    Ready parse loaded.catalog := by
  obtain ⟨_, hchecked, heq⟩ := bind_eq_ok.1 h
  cases heq
  refine ⟨?_, checkCatalog_deriveFacts hchecked, ?_, Catalog.deriveFacts_deriveFacts _⟩
  · have hlinked : snapshot.catalog.relink.deriveFacts.relink =
        snapshot.catalog.relink.deriveFacts := by
      rw [← Catalog.deriveFacts_relink, Catalog.relink_relink]
    exact congrArg (resolveQueries parse) hlinked
  · simp [resolveQueries, Catalog.deriveFacts, Function.comp_def, Query.resolve_resolve]

/-- The time of a snapshot that was read is a point in time. -/
theorem isValid_of_ofJson? {value : Json} (h : ofJson? value = some snapshot) :
    ∀ time ∈ snapshot.capturedAt, time.IsValid := by
  obtain ⟨members, -, h⟩ := Option.bind_eq_some_iff.1 h
  obtain ⟨source, -, h⟩ := Option.bind_eq_some_iff.1 h
  obtain ⟨capturedAt, htime, h⟩ := Option.bind_eq_some_iff.1 h
  obtain ⟨catalog, -, h⟩ := Option.bind_eq_some_iff.1 h
  cases h
  intro time hmem
  obtain ⟨value, hvalue⟩ := Json.exists_of_mem_nullable htime hmem
  obtain ⟨text, -, hparse⟩ := Option.bind_eq_some_iff.1 hvalue
  exact Timestamp.isValid_of_parse? hparse

/-- A snapshot that was loaded was read from a value and then made ready for use. -/
theorem exists_of_load {text : String} (h : load parse text = .ok loaded) :
    ∃ value read, ofJson? value = some read ∧ prepare parse read = .ok loaded := by
  unfold load at h
  split at h
  · cases h
  · next read hread =>
      obtain ⟨value, -, hvalue⟩ := Option.bind_eq_some_iff.1 hread
      split at h
      · next hprepare =>
          cases h
          exact ⟨value, read, hvalue, hprepare⟩
      · cases h

theorem capturedAt_prepare (h : snapshot.prepare parse = .ok loaded) :
    loaded.capturedAt = snapshot.capturedAt := by
  obtain ⟨_, _, heq⟩ := bind_eq_ok.1 h
  cases heq
  rfl

/-- The text of a snapshot that was loaded is loaded as the same snapshot, by any parser of
statements. -/
theorem load_text_of_load {text : String} {snapshot : Snapshot}
    (h : load parse text = .ok snapshot) : load parse snapshot.text = .ok snapshot := by
  obtain ⟨value, read, hread, hprepare⟩ := exists_of_load h
  have htime : ∀ time ∈ snapshot.capturedAt, time.IsValid := by
    rw [capturedAt_prepare hprepare]
    exact isValid_of_ofJson? hread
  exact (ready_of_prepare hprepare).load_text htime

/-- A snapshot with a table that does not name its schema and with a digest, captured where the
clock is an hour ahead and stands in the next month already. -/
theorem load_text_of_load_digest :
    let text := "\x7b\"captured_at\": \"2024-03-01 00:30:00+01:00\", \"database\": \x7b" ++
      "\"schemas\": [\x7b\"name\": \"s\", \"tables\": [\x7b\"name\": \"t\"\x7d]\x7d], " ++
      "\"queries\": [\x7b\"digest_text\": \"SELECT * FROM s.t\"\x7d]\x7d\x7d"
    let loaded : Snapshot := {
      capturedAt := some {
        date := { year := 2024, month := 2, day := 29 }
        minuteOfDay := 1410
        second := 0
        nanosecond := 0 }
      catalog := {
        schemas := [{
          name := "s"
          tables := [{
            name := "t"
            schemaName := "s"
            facts := { redundantIndexes := some [] } }] }]
        queries := [{
          digestText := "SELECT * FROM s.t"
          statements := [.query (.mk false .nil (.select (.cons
            (.table [⟨"s", none⟩, ⟨"t", none⟩] none) .nil)))]
          tables := NameMap.empty.insert "t" { schema := some "s", table := "t" } }] } }
    load Digest.parse? text = .ok loaded ∧ load Digest.parse? loaded.text = .ok loaded := by
  intro text loaded
  have hload : load Digest.parse? text = .ok loaded := by decide +kernel
  exact ⟨hload, load_text_of_load hload⟩

/-- What no member names is passed over and may be illegible, unlike the name of a member. -/
example :
    let ends (text : String) : Option SnapshotError := errorOf? (load Digest.parse? text)
    ends "\x7b\"database\":\x7b\x7d,\"note\":[\x7b\"\\ud800\":0\x7d]\x7d" = none ∧
      ends "\x7b\"database\":\x7b\x7d,\"\\ud800\":0\x7d" = some .malformed := by
  decide +kernel

end Snapshot
end SchemaLint
