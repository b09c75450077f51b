import SchemaLint.Proofs.Session.Snapshot
import SchemaLint.Proofs.Snapshot.Reload
import SchemaLint.Proofs.Text.Case
import SchemaLint.Settings.Basic

/-!
# Lookups in loaded catalogs

An account is looked up under the key of its user and host, and a session variable under its name
in small letters.  Whatever changes a catalog puts its entries under these names, so after every
run all that the catalog holds is found (`Session.findsAll_of_start`).  Loading leaves the entries
under the names that the text gives them, so all that is loaded is found exactly when the text has
every account under its key and every session variable under its name in small letters
(`Snapshot.findsAll_iff`).
-/

namespace SchemaLint

open Sql
open Text (lower sameLetters)

namespace NameMap

variable {α : Type}

theorem names_nodup (map : NameMap α) : map.names.Nodup := by
  refine List.pairwise_map.2 (map.ascending.imp ?_)
  intro entry other hlt heq
  rw [heq] at hlt
  exact String.lt_irrefl _ hlt

/-- What is found under a name is the entry of the name. -/
theorem get?_eq_some_iff {map : NameMap α} {name : String} {value : α} :
    map.get? name = some value ↔ (name, value) ∈ map.entries := by
  rw [get?, Option.map_eq_some_iff]
  constructor
  · rintro ⟨entry, hfound, rfl⟩
    have hname : entry.1 = name := by simpa using List.find?_some hfound
    rw [← hname]
    exact List.mem_of_find?_eq_some hfound
  · intro hmem
    have hthere : (map.entries.find? (·.1 == name)).isSome = true :=
      List.find?_isSome.2 ⟨(name, value), hmem, beq_self_eq_true name⟩
    obtain ⟨entry, hfound⟩ := Option.isSome_iff_exists.1 hthere
    have hname : entry.1 = name := by simpa using List.find?_some hfound
    -- the order of the names leaves one entry for each
    have hsame : entry = (name, value) :=
      List.inj_on_of_nodup_map map.names_nodup (List.mem_of_find?_eq_some hfound) hmem hname
    exact ⟨entry, hfound, by rw [hsame]⟩

end NameMap

namespace Catalog

/-- Every account is found under its user and host, and every session variable under its name in
any case. -/
structure FindsAll (catalog : Catalog) : Prop where
  accounts : ∀ account ∈ catalog.accounts.values,
    catalog.account? account.user account.host = some account
  sessionVariables : ∀ entry ∈ catalog.sessionVariables.entries, ∀ spelling,
    sameLetters spelling entry.1 = true → catalog.variableValue? spelling = some entry.2

/-- The names under which a catalog has its entries are those under which they are looked up. -/
structure Addressed (catalog : Catalog) : Prop where
  accounts : ∀ entry ∈ catalog.accounts.entries, entry.1 = entry.2.key
  sessionVariables : ∀ entry ∈ catalog.sessionVariables.entries, entry.1 = lower entry.1

variable {catalog : Catalog}

/-- All is found if there is an entry under the name that is looked up for each entry. -/
theorem findsAll_iff_mem : catalog.FindsAll ↔
    (∀ entry ∈ catalog.accounts.entries, (entry.2.key, entry.2) ∈ catalog.accounts.entries) ∧
    ∀ entry ∈ catalog.sessionVariables.entries,
      (lower entry.1, entry.2) ∈ catalog.sessionVariables.entries := by
  constructor
  · rintro ⟨haccounts, hvariables⟩
    refine ⟨fun entry hentry => ?_, fun entry hentry => ?_⟩
    · exact NameMap.get?_eq_some_iff.1 (haccounts entry.2 (List.mem_map_of_mem hentry))
    · exact NameMap.get?_eq_some_iff.1
        (hvariables entry hentry entry.1 (Text.sameLetters_iff.2 rfl))
  · rintro ⟨haccounts, hvariables⟩
    refine ⟨fun account haccount => ?_, fun entry hentry spelling hspelling => ?_⟩
    · obtain ⟨entry, hentry, rfl⟩ := List.mem_map.1 haccount
      exact NameMap.get?_eq_some_iff.2 (haccounts entry hentry)
    · rw [variableValue?, Text.sameLetters_iff.1 hspelling]
      exact NameMap.get?_eq_some_iff.2 (hvariables entry hentry)

namespace Addressed

theorem findsAll (h : catalog.Addressed) : catalog.FindsAll := by
  refine findsAll_iff_mem.2 ⟨fun entry hentry => ?_, fun entry hentry => ?_⟩
  · rwa [← h.accounts entry hentry]
  · rwa [← h.sessionVariables entry hentry]

theorem setVariable (h : catalog.Addressed) (name value : String) :
    (catalog.setVariable name value).Addressed where
  accounts := h.accounts
  sessionVariables := by
    intro entry hentry
    rcases NameMap.mem_insertEntry hentry with rfl | hentry
    · exact (Text.lower_lower name).symm
    · exact h.sessionVariables entry hentry

/-- A new account is put under its key, and grants leave keys alone. -/
theorem edited {Named : String → Prop} {first second : Catalog} (h : first.Addressed)
    (hedit : Edited Named first second) : second.Addressed where
  accounts := hedit.forall_accounts (fun _ _ => rfl) (fun _ _ _ hkey => hkey) h.accounts
  sessionVariables := by
    rw [hedit.frame.2.1]
    exact h.sessionVariables

end Addressed

end Catalog

/-- The session variables that the user has chosen are set under their names in small letters. -/
theorem Settings.addressed_seed (settings : Settings) {catalog : Catalog} (h : catalog.Addressed) :
    (settings.seed catalog).Addressed :=
  List.foldlRecOn (motive := Catalog.Addressed) settings.sessionVariables.entries _ h
    fun _ hother entry _ => hother.setVariable entry.1 entry.2

namespace Session

/-- After every run from an empty catalog with the session variables that the user has chosen, all
that the catalog holds is found. -/
theorem findsAll_of_start (name : String) (settings : Settings) (statements : List Statement) :
    ((start (settings.seed { name })).applyEach statements).finish.deriveFacts.FindsAll := by
  have hstart : (settings.seed { name }).Addressed := settings.addressed_seed ⟨nofun, nofun⟩
  have hedit : Catalog.Edited (fun _ => True) (settings.seed { name })
      ((start (settings.seed { name })).applyEach statements).catalog :=
    edited_applyEach statements (fun _ _ _ _ => trivial) (start (settings.seed { name }))
  obtain ⟨haccounts, hvariables⟩ := hstart.edited hedit
  -- to leave schemas out and to derive facts is not about accounts and variables
  exact Catalog.Addressed.findsAll ⟨haccounts, hvariables⟩

end Session

namespace Snapshot

variable {parse : Digest.StatementParser} {text : String} {read loaded : Snapshot}

/-- Accounts and session variables keep their names when a snapshot is made ready for use. -/
theorem maps_of_prepare (h : read.prepare parse = .ok loaded) :
    loaded.catalog.accounts = read.catalog.relink.accounts ∧
      loaded.catalog.sessionVariables = read.catalog.sessionVariables := by
  obtain ⟨_, -, heq⟩ := bind_eq_ok.1 h
  cases heq
  exact ⟨rfl, rfl⟩

/-- A loaded catalog finds all that it holds exactly when the text that was read, with the name of
the catalog given to its accounts, has each account under its key and each session variable under
its name in small letters. -/
theorem findsAll_iff (hread : (Json.parse? text).bind ofJson? = some read)
    (hload : load parse text = .ok loaded) : loaded.catalog.FindsAll ↔
      (∀ entry ∈ read.catalog.relink.accounts.entries,
        (entry.2.key, entry.2) ∈ read.catalog.relink.accounts.entries) ∧
      ∀ entry ∈ read.catalog.sessionVariables.entries,
        (lower entry.1, entry.2) ∈ read.catalog.sessionVariables.entries := by
  have hprepare : read.prepare parse = .ok loaded := by
    rw [load, hread] at hload
    dsimp only at hload
    split at hload
    · next hprepare =>
        cases hload
        exact hprepare
    · cases hload
  obtain ⟨haccounts, hvariables⟩ := maps_of_prepare hprepare
  rw [Catalog.findsAll_iff_mem, haccounts, hvariables]

/-- An account under its key, and a session variable whose name is in small letters. -/
theorem findsAll_of_version :
    let text := "\x7b\"database\":\x7b\"variables\":\x7b\"version\":\"8.0.30\"\x7d," ++
      "\"accounts\":\x7b\"root@%\":\x7b\"user\":\"root\",\"host\":\"%\"\x7d\x7d\x7d\x7d"
    let loaded : Snapshot := {
      catalog := {
        sessionVariables := NameMap.empty.insert "version" "8.0.30"
        accounts := NameMap.empty.insert "root@%" { user := "root", host := "%" } } }
    load Digest.parse? text = .ok loaded ∧ loaded.catalog.FindsAll := by
  intro text loaded
  have hread : (Json.parse? text).bind ofJson? = some loaded := by decide +kernel
  have hload : load Digest.parse? text = .ok loaded := by decide +kernel
  exact ⟨hload, (findsAll_iff hread hload).2 ⟨by decide, by decide⟩⟩

/-- A session variable whose name is in capital letters is loaded, and not found. -/
theorem not_findsAll_of_capitals :
    let text := "\x7b\"database\":\x7b\"variables\":\x7b\"VERSION\":\"8.0.30\"\x7d\x7d\x7d"
    ¬ ∀ snapshot, load Digest.parse? text = .ok snapshot → snapshot.catalog.FindsAll := by
  intro text hfinds
  let loaded : Snapshot := {
    catalog := { sessionVariables := NameMap.empty.insert "VERSION" "8.0.30" } }
  have hload : load Digest.parse? text = .ok loaded := by decide +kernel
  have hfound := (hfinds loaded hload).sessionVariables ("VERSION", "8.0.30") List.mem_cons_self
    "VERSION" (by decide)
  exact absurd hfound (by decide)

end Snapshot
end SchemaLint
