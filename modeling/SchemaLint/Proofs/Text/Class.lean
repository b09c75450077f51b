import SchemaLint.Text.Class

/-!
# White space against the other classes

White space is of no other class, also above ASCII, where the tables of letters and numbers are
asked for each character of white space.
-/

namespace SchemaLint
namespace Text

variable {c : Char}

/-- In ASCII white space stands before the characters that are visible. -/
theorem isWhite_eq_false_of_visible (hlow : 32 < c.toNat) (hhigh : c.toNat < 128) :
    isWhite c = false := by
  unfold isWhite
  simp only [Bool.or_eq_false_iff, Bool.and_eq_false_iff, decide_eq_false_iff_not,
    beq_eq_false_iff_ne]
  omega

theorem toNat_of_isDigit (h : c.isDigit = true) : 48 ≤ c.toNat ∧ c.toNat ≤ 57 := by
  simpa [Char.isDigit, UInt32.le_iff_toNat_le] using h

theorem toNat_of_isAlpha (h : c.isAlpha = true) :
    (65 ≤ c.toNat ∧ c.toNat ≤ 90) ∨ (97 ≤ c.toNat ∧ c.toNat ≤ 122) := by
  have hclass : (decide (c.val ≥ 'A'.val ∧ c.val ≤ 'Z'.val) ||
      (decide (c.val ≥ 'a'.val) && decide (c.val ≤ 'z'.val))) = true := h
  simpa [UInt32.le_iff_toNat_le] using hclass

theorem isWhite_eq_false_of_isAlpha (h : c.isAlpha = true) : isWhite c = false := by
  have hrange := toNat_of_isAlpha h
  exact isWhite_eq_false_of_visible (by omega) (by omega)

theorem isWhite_eq_false_of_isDigit (h : c.isDigit = true) : isWhite c = false := by
  have hrange := toNat_of_isDigit h
  exact isWhite_eq_false_of_visible (by omega) (by omega)

theorem isWhite_eq_false_of_isAlphanum (h : c.isAlphanum = true) : isWhite c = false := by
  rw [Char.isAlphanum, Bool.or_eq_true] at h
  exact h.elim isWhite_eq_false_of_isAlpha isWhite_eq_false_of_isDigit

/-- A digit is no letter. -/
theorem isLetter_eq_false_of_isDigit (h : c.isDigit = true) : isLetter c = false := by
  have hrange := toNat_of_isDigit h
  rw [isLetter, if_pos (by omega), Bool.eq_false_iff]
  intro halpha
  have hother := toNat_of_isAlpha halpha
  omega

theorem isWhite_eq_false_of_isHexDigit (h : isHexDigit c = true) : isWhite c = false := by
  have hrange : ((48 ≤ c.toNat ∧ c.toNat ≤ 57) ∨ (97 ≤ c.toNat ∧ c.toNat ≤ 102)) ∨
      (65 ≤ c.toNat ∧ c.toNat ≤ 70) := by
    simpa [isHexDigit, Char.isDigit, Char.le_def, UInt32.le_iff_toNat_le] using h
  exact isWhite_eq_false_of_visible (by omega) (by omega)

/-- The code points of white space above ASCII. -/
def wideSpaces : List Nat :=
  [0x85, 0xA0, 0x1680] ++ List.range' 0x2000 11 ++ [0x2028, 0x2029, 0x202F, 0x205F, 0x3000]

theorem mem_wideSpaces (hwhite : isWhite c = true) (hwide : 128 ≤ c.toNat) :
    c.toNat ∈ wideSpaces := by
  simp only [isWhite, Bool.or_eq_true, Bool.and_eq_true, decide_eq_true_eq, beq_iff_eq] at hwhite
  simp only [wideSpaces, List.mem_append, List.mem_cons, List.mem_range'_1, List.not_mem_nil]
  omega

theorem contains_of_mem_wideSpaces : ∀ code ∈ wideSpaces,
    Ranges.contains Ranges.alphabetic code = false ∧
      Ranges.contains Ranges.numeric code = false := by
  decide +kernel

theorem isWhite_eq_false_of_isLetterOrNumber (h : isLetterOrNumber c = true) :
    isWhite c = false := by
  unfold isLetterOrNumber at h
  split at h
  · exact isWhite_eq_false_of_isAlphanum h
  · next hwide =>
      rw [Bool.eq_false_iff]
      intro hwhite
      obtain ⟨hletter, hnumber⟩ :=
        contains_of_mem_wideSpaces _ (mem_wideSpaces hwhite (Nat.le_of_not_lt hwide))
      rw [hletter, hnumber] at h
      cases h

end Text
end SchemaLint
