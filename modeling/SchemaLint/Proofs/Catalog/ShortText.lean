import SchemaLint.Catalog.Query
import SchemaLint.Proofs.Text.Words

/-!
# Digests cut to a length

A digest is shown on one line, whole if it fits and otherwise by its first characters and three
dots.  The dots take their room from the characters before them, and no more room than there is
for these, so a line that has no room for three dots gets three dots all the same
(`length_shorten_of_lt`).

* `shortForm_shortText_iff` - the short text is what it should be, unless it has to be cut to fewer
  characters than there are dots.
-/

namespace SchemaLint
namespace Query

open Text (IsCollapsed)

/-- What a digest has to be on a line of `width` characters. -/
structure ShortForm (digest : String) (width : Nat) (short : String) : Prop where
  length_le : short.length ≤ width
  /-- The collapsed text is shown whole if it fits. -/
  whole : ∀ text, IsCollapsed digest text → text.length ≤ width → short = text
  /-- Otherwise it is shown up to some character, with dots behind it. -/
  cut : ∀ text, IsCollapsed digest text → width < text.length →
    ∃ front, front <+: text.toList ∧ short = String.ofList front ++ "..."

variable {width : Nat} {text : String}

theorem shorten_of_le (h : text.length ≤ width) : shorten width text = text :=
  if_pos h

theorem shorten_of_lt (h : width < text.length) :
    shorten width text = String.ofList (text.toList.take (width - 3)) ++ "..." :=
  if_neg (Nat.not_le.2 h)

/-- The dots stand for the last three of the characters for which there is room. -/
example : shorten 11 "SELECT * FROM t" = "SELECT *..." := by
  decide

/-- A text that is cut fills the line, and is never shorter than the dots. -/
theorem length_shorten_of_lt (h : width < text.length) :
    (shorten width text).length = max width 3 := by
  have hdots : "...".length = 3 := rfl
  have htaken : (text.toList.take (width - 3)).length = width - 3 := by
    rw [List.length_take, String.length_toList]
    omega
  rw [shorten_of_lt h, String.length_append, String.length_ofList, htaken, hdots]
  omega

/-- The line that is shown has no more characters than it may have exactly if there is room for the
dots, or no need for them. -/
theorem length_shorten_le_iff :
    (shorten width text).length ≤ width ↔ 3 ≤ width ∨ text.length ≤ width := by
  rcases Nat.lt_or_ge width text.length with hlong | hshort
  · rw [length_shorten_of_lt hlong]
    omega
  · rw [shorten_of_le hshort]
    exact iff_of_true hshort (.inr hshort)

/-- The short text is as it should be exactly if there is room for the dots, or no need for
them. -/
theorem shortForm_shortText_iff (query : Query) (width : Nat) :
    ShortForm query.digestText width (query.shortText width) ↔
      3 ≤ width ∨ (Text.collapse query.digestText).length ≤ width := by
  rw [← length_shorten_le_iff]
  constructor
  · exact ShortForm.length_le
  · intro hlength
    refine ⟨hlength, fun text htext hshort => ?_, fun text htext hlong => ?_⟩
    · obtain rfl := Text.isCollapsed_iff.1 htext
      exact shorten_of_le hshort
    · obtain rfl := Text.isCollapsed_iff.1 htext
      exact ⟨_, List.take_prefix _ _, shorten_of_lt hlong⟩

/-- Two characters have no room for three dots. -/
theorem not_shortForm_of_two_characters :
    ¬ ∀ (query : Query) (width : Nat),
      ShortForm query.digestText width (query.shortText width) := by
  intro h
  have hlength := (h { digestText := "SELECT ?" } 2).length_le
  have hshort : shortText { digestText := "SELECT ?" } 2 = "..." := by decide
  rw [hshort] at hlength
  exact absurd hlength (by decide)

end Query
end SchemaLint
