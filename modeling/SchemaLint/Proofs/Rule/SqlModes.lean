import Mathlib.Data.Finset.Max
import Mathlib.Data.List.Sort
import SchemaLint.Proofs.Text.Case
import SchemaLint.Proofs.Text.Pieces
import SchemaLint.Rule.Catalog

/-!
# The modes of a list as a normal form

A list of modes is read into ascending order and capitals, so two lists of the same modes are not
told apart, by the rule about strict modes either.  The list that is made of the modes again is read
as itself, unless some entry has white space inside its quotes: white space is stripped before the
quotes are, so what stood inside them is part of the mode, and is lost when the mode is read again.

* `mem_sqlModes` - the modes of a list.
* `sqlModes_join_iff` - the lists of modes that are read as they are.
* `normalForm_iff` - the texts whose modes are a normal form.
-/

namespace SchemaLint

namespace NameSet

/-- The names of a set are in strictly ascending order. -/
theorem pairwise_names (set : NameSet) : (NameMap.names set).Pairwise (· < ·) := by
  rw [NameMap.names, List.pairwise_map]
  exact set.ascending

theorem mem_names_add {set : NameSet} {name other : String} :
    other ∈ NameMap.names (add set name) ↔ other = name ∨ other ∈ NameMap.names set := by
  obtain ⟨entries, hascending⟩ := set
  simp only [add, NameMap.insert, NameMap.names]
  clear hascending
  induction entries with
  | nil => simp [NameMap.insertEntry]
  | cons entry entries ih =>
      obtain ⟨first, -⟩ := entry
      rw [NameMap.insertEntry]
      split
      · simp
      · split
        · next heq => simp [heq]
        · simp only [List.map_cons, List.mem_cons, ih]
          exact or_left_comm

theorem mem_names_ofNames {names : List String} {name : String} :
    name ∈ NameMap.names (ofNames names) ↔ name ∈ names := by
  have hfold : ∀ (names : List String) (set : NameSet),
      name ∈ NameMap.names (names.foldl add set) ↔ name ∈ names ∨ name ∈ NameMap.names set := by
    intro names
    induction names with
    | nil => simp
    | cons first names ih =>
        intro set
        rw [List.foldl_cons, ih, mem_names_add, List.mem_cons, or_assoc, or_left_comm]
  rw [ofNames, hfold]
  exact or_iff_left List.not_mem_nil

end NameSet

namespace Rule

variable {text : String}

/-- An entry of a list of modes without the white space and then the quotes at its ends. -/
def unquoted (entry : String) : String :=
  Text.trimChar '\'' (Text.trim entry)

/-- The mode of an entry. -/
def modeOf (entry : String) : String :=
  Text.upper (unquoted entry)

theorem sqlModes_eq (text : String) :
    sqlModes text =
      (NameSet.ofNames (((Text.split ',' text).map modeOf).filter (· ≠ ""))).names :=
  rfl

/-- The modes are those of the entries that are not empty. -/
theorem mem_sqlModes {mode : String} :
    mode ∈ sqlModes text ↔ mode ≠ "" ∧ ∃ entry ∈ Text.split ',' text, modeOf entry = mode := by
  rw [sqlModes_eq, NameSet.mem_names_ofNames, List.mem_filter, List.mem_map, and_comm]
  simp

theorem pairwise_sqlModes (text : String) : (sqlModes text).Pairwise (· < ·) :=
  NameSet.pairwise_names _

/-- Lists are told apart by their modes only. -/
theorem sqlModes_eq_of_mem_iff {modes : List String} (hmodes : modes.Pairwise (· < ·))
    (h : ∀ mode, mode ∈ sqlModes text ↔ mode ∈ modes) : sqlModes text = modes :=
  (pairwise_sqlModes text).eq_of_mem_iff hmodes h

/-! ### Reading a mode again -/

/-- The capitals do not matter when a mode is read again. -/
theorem modeOf_modeOf (entry : String) :
    modeOf (modeOf entry) = Text.upper (unquoted (unquoted entry)) := by
  rw [modeOf, unquoted, modeOf, Text.trim_upper, Text.trimChar_upper (by decide), Text.upper_upper]
  rfl

theorem sublist_unquoted (entry : String) : (unquoted entry).toList.Sublist entry.toList := by
  simp only [unquoted, Text.trimChar, Text.trim, String.toList_ofList]
  exact (Text.sublist_trimList _ _).trans (Text.sublist_trimList _ _)

theorem unquoted_eq_self {entry : String}
    (h : (unquoted entry).toList.length = entry.toList.length) : unquoted entry = entry :=
  String.toList_inj.1 ((sublist_unquoted entry).eq_of_length h)

theorem length_toList_upper (s : String) : (Text.upper s).toList.length = s.toList.length := by
  rw [Text.upper, String.toList_ofList, List.length_map]

/-- A mode is read as itself if nothing is stripped of it the second time. -/
theorem modeOf_modeOf_eq_iff_unquoted {entry : String} :
    modeOf (modeOf entry) = modeOf entry ↔ unquoted (unquoted entry) = unquoted entry := by
  rw [modeOf_modeOf, modeOf]
  constructor
  · intro h
    have hlength := congrArg (fun mode => mode.toList.length) h
    rw [length_toList_upper, length_toList_upper] at hlength
    exact unquoted_eq_self hlength
  · exact congrArg Text.upper

/-- A mode that is not read as itself gets shorter. -/
theorem length_modeOf_modeOf {entry : String} (h : modeOf (modeOf entry) ≠ modeOf entry) :
    (modeOf (modeOf entry)).toList.length < (modeOf entry).toList.length := by
  rw [ne_eq, modeOf_modeOf_eq_iff_unquoted] at h
  rw [modeOf_modeOf, modeOf, length_toList_upper, length_toList_upper]
  exact lt_of_le_of_ne (sublist_unquoted _).length_le fun hlength => h (unquoted_eq_self hlength)

/-- The quotes are gone after the first time, so only white space can be stripped the second
time. -/
theorem unquoted_unquoted_eq_iff {entry : String} :
    unquoted (unquoted entry) = unquoted entry ↔ Text.trim (unquoted entry) = unquoted entry := by
  have hquotes : Text.Bare (· == '\'') (unquoted entry).toList := by
    rw [unquoted, Text.trimChar, String.toList_ofList]
    exact Text.bare_trimList _ _
  generalize unquoted entry = mode at hquotes
  rw [← String.toList_inj, ← String.toList_inj, unquoted, Text.trimChar, Text.trim,
    String.toList_ofList, String.toList_ofList, Text.trimList_trimList_eq_self_iff,
    Text.trimList_eq_self_iff]
  exact and_iff_left hquotes

/-! ### Reading the list again -/

/-- No separator is left in a mode. -/
theorem comma_not_mem {mode : String} (h : mode ∈ sqlModes text) : ',' ∉ mode.toList := by
  obtain ⟨-, entry, hentry, rfl⟩ := mem_sqlModes.1 h
  rw [modeOf, Text.mem_toList_upper_iff (by decide)]
  intro hcomma
  obtain ⟨piece, hpiece, rfl⟩ := List.mem_map.1 hentry
  have hmem := (sublist_unquoted _).subset hcomma
  rw [String.toList_ofList] at hmem
  exact Text.not_mem_of_mem_splitList hpiece hmem

/-- The modes of a list that is made of modes are these, each read again. -/
theorem mem_sqlModes_join {modes : List String} (hmodes : ∀ mode ∈ modes, ',' ∉ mode.toList)
    {mode : String} : mode ∈ sqlModes (Text.join "," modes) ↔
      mode ≠ "" ∧ ∃ entry ∈ modes, modeOf entry = mode := by
  rw [mem_sqlModes]
  refine and_congr_right fun hne => ?_
  rcases eq_or_ne modes [] with rfl | hmore
  · -- the one entry of the empty text is empty
    have hempty : ∀ entry ∈ Text.split ',' (Text.join "," []), modeOf entry = "" := by decide
    constructor
    · rintro ⟨entry, hentry, rfl⟩
      exact absurd (hempty entry hentry) hne
    · rintro ⟨entry, hentry, -⟩
      cases hentry
  · have hsplit : ∀ mode ∈ modes, Text.split ',' mode = [mode] := fun mode hmode => by
      rw [Text.split, Text.splitList_of_not_mem (hmodes mode hmode), List.map_singleton,
        String.ofList_toList]
    have hpieces : Text.split ',' (Text.join "," modes) = modes := by
      refine (Text.split_join_eq_flatMap hmore).trans ?_
      rw [List.flatMap_congr hsplit, List.flatMap_singleton']
    rw [hpieces]

/-- A list is read as itself exactly if each of its modes is.  Otherwise the longest mode that is
not read as itself would have to come from a longer one. -/
theorem sqlModes_join_iff : sqlModes (Text.join "," (sqlModes text)) = sqlModes text ↔
    ∀ mode ∈ sqlModes text, modeOf mode = mode := by
  have hmem := @mem_sqlModes_join (sqlModes text) fun _ => comma_not_mem
  constructor
  · intro hstable
    by_contra hchanged
    push Not at hchanged
    obtain ⟨changed, hchanged, hne⟩ := hchanged
    let others := (sqlModes text).toFinset.filter fun mode => modeOf mode ≠ mode
    obtain ⟨longest, hlongest, hmax⟩ := others.exists_max_image (fun mode => mode.toList.length)
      ⟨changed, by simp [others, hchanged, hne]⟩
    simp only [others, Finset.mem_filter, List.mem_toFinset] at hlongest hmax
    rw [← hstable, hmem] at hlongest
    obtain ⟨⟨-, source, hsource, rfl⟩, hlongest⟩ := hlongest
    have hsourceNe : modeOf source ≠ source := fun heq => hlongest (by rw [heq, heq])
    obtain ⟨-, entry, -, rfl⟩ := mem_sqlModes.1 hsource
    exact absurd (hmax _ ⟨hsource, hsourceNe⟩) (Nat.not_le.2 (length_modeOf_modeOf hsourceNe))
  · intro hsame
    refine sqlModes_eq_of_mem_iff (pairwise_sqlModes text) fun mode => ?_
    rw [hmem]
    constructor
    · rintro ⟨-, entry, hentry, rfl⟩
      rwa [hsame entry hentry]
    · exact fun hmode => ⟨(mem_sqlModes.1 hmode).1, mode, hmode, hsame mode hmode⟩

/-! ### Lists of the same modes -/

/-- Each entry of a text is among those of another, but for the case of letters and white space at
its ends. -/
def Among (text other : String) : Prop :=
  ∀ entry ∈ Text.split ',' text, ∃ entry' ∈ Text.split ',' other,
    Text.sameLetters (Text.trim entry) (Text.trim entry') = true

/-- The entries of two texts are the same, but for case, white space at the ends and order. -/
def SameEntries (text other : String) : Prop :=
  Among text other ∧ Among other text

theorem modeOf_eq_modeOf {entry entry' : String}
    (h : Text.sameLetters (Text.trim entry) (Text.trim entry') = true) :
    modeOf entry = modeOf entry' := by
  rw [modeOf, modeOf, unquoted, unquoted, ← Text.trimChar_upper (by decide),
    ← Text.trimChar_upper (by decide), Text.upper_eq_upper h]

theorem Among.subset {other : String} (h : Among text other) :
    sqlModes text ⊆ sqlModes other := by
  intro mode hmode
  obtain ⟨hne, entry, hentry, rfl⟩ := mem_sqlModes.1 hmode
  obtain ⟨entry', hentry', hsame⟩ := h entry hentry
  exact mem_sqlModes.2 ⟨hne, entry', hentry', (modeOf_eq_modeOf hsame).symm⟩

theorem SameEntries.sqlModes_eq {other : String} (h : SameEntries text other) :
    sqlModes other = sqlModes text :=
  sqlModes_eq_of_mem_iff (pairwise_sqlModes text) fun _ =>
    ⟨fun hmode => h.2.subset hmode, fun hmode => h.1.subset hmode⟩

/-- The severity of what the rule about strict modes finds out about a catalog, if it applies. -/
def strictSeverity (catalog : Catalog) : Except RuleError (Option Severity) :=
  (strictMode.find (.catalog catalog)).map fun finding => finding.map Finding.severity

theorem applies_strictMode (catalog : Catalog) :
    strictMode.applies (.catalog catalog) = catalog.version?.any (8 ≤ ·.major) :=
  rfl

/-- The severity is decided by the modes. -/
theorem exists_found_strictMode (catalog : Catalog) :
    ∃ finding, strictMode.found (.catalog catalog) = .ok (some finding) ∧
      finding.severity = if (sqlModes ((catalog.variableValue? "sql_mode").getD defaultModes)).any
        strictModes.contains then .ok else .warning := by
  simp only [found, strictMode, onCatalog]
  generalize sqlModes ((catalog.variableValue? "sql_mode").getD defaultModes) = modes
  refine ⟨_, rfl, ?_⟩
  simp only [findingOf, Verdict.datum]
  split <;> rfl

/-- Whether the rule applies is decided by the version. -/
theorem strictSeverity_eq (catalog : Catalog) :
    strictSeverity catalog = .ok (if catalog.version?.any (8 ≤ ·.major) then
      some (if (sqlModes ((catalog.variableValue? "sql_mode").getD defaultModes)).any
        strictModes.contains then .ok else .warning) else none) := by
  rw [strictSeverity, find, applies_strictMode]
  by_cases happlies : catalog.version?.any (8 ≤ ·.major) = true
  · obtain ⟨finding, hfound, hseverity⟩ := exists_found_strictMode catalog
    rw [if_pos happlies, if_pos happlies, hfound, ← hseverity]
    rfl
  · rw [if_neg happlies, if_neg happlies]
    rfl

/-- What the modes of a text are as a normal form. -/
structure NormalForm (text : String) : Prop where
  ascending : (sqlModes text).Pairwise (· < ·)
  nonempty : "" ∉ sqlModes text
  /-- The list of the modes is read as itself. -/
  stable : sqlModes (Text.join "," (sqlModes text)) = sqlModes text
  /-- A text with the same entries has the same modes. -/
  same_modes : ∀ other, SameEntries text other → sqlModes other = sqlModes text
  /-- And it makes no difference to the rule about strict modes. -/
  same_severity : ∀ other, SameEntries text other → ∀ catalog catalog' : Catalog,
    catalog.variableValue? "sql_mode" = some text →
      catalog'.variableValue? "sql_mode" = some other → catalog.version? = catalog'.version? →
        strictSeverity catalog = strictSeverity catalog'

/-- The modes of a text are a normal form exactly if no entry has white space inside its quotes. -/
theorem normalForm_iff (text : String) :
    NormalForm text ↔
      ∀ entry ∈ Text.split ',' text, Text.trim (unquoted entry) = unquoted entry := by
  constructor
  · intro h entry hentry
    have hsame := sqlModes_join_iff.1 h.stable
    rcases eq_or_ne (modeOf entry) "" with hempty | hne
    · have hnone : unquoted entry = "" := by
        have hlength := length_toList_upper (unquoted entry)
        rw [← modeOf, hempty] at hlength
        exact String.toList_inj.1 (List.eq_nil_of_length_eq_zero hlength.symm)
      rw [hnone]
      rfl
    · have hmode := hsame _ (mem_sqlModes.2 ⟨hne, entry, hentry, rfl⟩)
      exact unquoted_unquoted_eq_iff.1 (modeOf_modeOf_eq_iff_unquoted.1 hmode)
  · intro hbare
    refine ⟨pairwise_sqlModes text, fun hempty => (mem_sqlModes.1 hempty).1 rfl,
      sqlModes_join_iff.2 fun mode hmode => ?_, fun other hother => hother.sqlModes_eq,
      fun other hother catalog catalog' htext hother' hversion => ?_⟩
    · obtain ⟨-, entry, hentry, rfl⟩ := mem_sqlModes.1 hmode
      exact modeOf_modeOf_eq_iff_unquoted.2 (unquoted_unquoted_eq_iff.2 (hbare entry hentry))
    · rw [strictSeverity_eq, strictSeverity_eq, htext, hother', hversion, Option.getD_some,
        Option.getD_some, hother.sqlModes_eq]

/-- A mode with white space inside its quotes, which is lost when the mode is read again. -/
theorem not_normalForm_of_space_in_quotes : ¬ ∀ text, NormalForm text := by
  intro h
  have hsame := sqlModes_join_iff.1 (h "' STRICT_ALL_TABLES '").stable
  have hmode : " STRICT_ALL_TABLES " ∈ sqlModes "' STRICT_ALL_TABLES '" :=
    mem_sqlModes.2 ⟨by decide, "' STRICT_ALL_TABLES '", by decide, by decide⟩
  exact absurd (hsame _ hmode) (by decide)

end Rule
end SchemaLint
