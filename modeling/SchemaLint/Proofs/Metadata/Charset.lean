import Mathlib.Data.List.Nodup
import SchemaLint.Metadata.Charset
import SchemaLint.Proofs.Text.Case

/-!
# Character sets and their default collations

The names of the table are told apart in small letters, and each default collation begins with the
name of its character set.  So the collation that a character set has by default leads back to the
character set (`ofCollation_of_mem`), and capitals in the name of a collation make no difference
(`ofCollation_lower`).
-/

namespace SchemaLint
namespace Charset

variable {name : String} {entry : String × String}

theorem nodup_defaults : (defaults.map Prod.fst).Nodup := by
  decide +kernel

theorem all_defaults : (defaults.all fun entry =>
    entry.2.toList.takeWhile (· != '_') == entry.1.toList &&
      entry.2.toList.all fun c => c.toLower == c && !Text.isWhite c) = true := by
  decide +kernel

theorem chars_of_mem (h : entry ∈ defaults) :
    entry.2.toList.takeWhile (· != '_') = entry.1.toList ∧
      ∀ c ∈ entry.2.toList, c.toLower = c ∧ Text.isWhite c = false := by
  simpa using List.all_eq_true.1 all_defaults entry h

theorem stem_of_mem (h : entry ∈ defaults) : stem entry.2 = entry.1 := by
  rw [stem, (chars_of_mem h).1, String.ofList_toList]

theorem tidy_collation (h : entry ∈ defaults) : Text.Tidy entry.2 :=
  (chars_of_mem h).2

theorem tidy_charset (h : entry ∈ defaults) : Text.Tidy entry.1 := by
  intro c hc
  rw [← (chars_of_mem h).1] at hc
  exact tidy_collation h c ((List.takeWhile_sublist _).mem hc)

/-- What is found is the entry of the name in small letters. -/
theorem mem_of_find? (h : find? name = some entry) :
    entry ∈ defaults ∧ entry.1 = Text.lower (Text.trim name) := by
  unfold find? at h
  generalize defaults = table at h ⊢
  exact ⟨List.mem_of_find?_eq_some h, by simpa using List.find?_some h⟩

/-- Every entry is found under its own name. -/
theorem find?_of_mem (h : entry ∈ defaults) : find? entry.1 = some entry := by
  have hname : Text.lower (Text.trim entry.1) = entry.1 := by
    rw [(tidy_charset h).trim_eq, (tidy_charset h).lower_eq]
  have hsome : (find? entry.1).isSome = true := by
    rw [find?, hname, List.find?_isSome]
    exact ⟨entry, h, beq_self_eq_true entry.1⟩
  obtain ⟨found, hfound⟩ := Option.isSome_iff_exists.1 hsome
  obtain ⟨hmem, hsame⟩ := mem_of_find? hfound
  rw [hfound, List.inj_on_of_nodup_map nodup_defaults hmem h (hsame.trans hname)]

theorem defaultCollation_eq_ok {collation : String} :
    defaultCollation name = .ok collation ↔ ∃ charset, find? name = some (charset, collation) := by
  unfold defaultCollation
  generalize find? name = found
  cases found with
  | none => simp
  | some entry => simp [Prod.ext_iff]

/-- Every character set is that of its default collation. -/
theorem ofCollation_of_mem (h : entry ∈ defaults) : ofCollation entry.2 = .ok entry.1 := by
  have hname : Text.lower (Text.trim entry.2) = entry.2 := by
    rw [(tidy_collation h).trim_eq, (tidy_collation h).lower_eq]
  unfold ofCollation
  rw [hname]
  dsimp only
  rw [stem_of_mem h, find?_of_mem h]

theorem ofCollation_lower (name : String) : ofCollation (Text.lower name) = ofCollation name := by
  unfold ofCollation
  rw [Text.trim_lower, Text.lower_lower]

/-- A collation that does not tell its character set is reported as such. -/
theorem ofCollation_eq_error {error : MetadataError} (h : ofCollation name = .error error) :
    error = .unknownCollation (Text.lower (Text.trim name)) := by
  unfold ofCollation at h
  dsimp only at h
  generalize find? _ = found at h
  cases found with
  | some entry => cases h
  | none =>
      cases h
      rfl

end Charset
end SchemaLint
