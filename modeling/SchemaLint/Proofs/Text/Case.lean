import Mathlib.Tactic.SplitIfs
import SchemaLint.Proofs.Text.Class
import SchemaLint.Text.Basic

/-!
# The case of letters

Making the letters of a text small changes capitals only, and leaves none; making them capital
changes small letters only.  No white space is a letter, and no quote or comma is one, so the case
of letters may as well be changed before such characters are stripped from the ends.
-/

namespace SchemaLint
namespace Text

/-- A capital is shifted to its small letter, and other characters stay. -/
theorem toNat_toLower (c : Char) :
    c.toLower.toNat = if 65 ≤ c.toNat ∧ c.toNat ≤ 90 then c.toNat + 32 else c.toNat := by
  unfold Char.toLower
  split
  · next hcapital =>
      have hrange : 65 ≤ c.toNat ∧ c.toNat ≤ 90 := by
        simpa [UInt32.le_iff_toNat_le] using hcapital
      rw [if_pos hrange]
      change (c.val + 32).toNat = c.val.toNat + 32
      have hbound : c.val.toNat ≤ 90 := hrange.2
      rw [UInt32.toNat_add]
      change (c.val.toNat + 32) % 2 ^ 32 = c.val.toNat + 32
      omega
  · next hother =>
      have hrange : ¬ (65 ≤ c.toNat ∧ c.toNat ≤ 90) := fun hrange =>
        hother (by simpa [UInt32.le_iff_toNat_le] using hrange)
      rw [if_neg hrange]

theorem isWhite_toLower (c : Char) : isWhite c.toLower = isWhite c := by
  have hshift := toNat_toLower c
  split at hshift
  · next hrange =>
      rw [isWhite_eq_false_of_visible (by omega) (by omega),
        isWhite_eq_false_of_visible (by omega) (by omega)]
  · rw [isWhite, isWhite, hshift]

theorem lower_lower (s : String) : lower (lower s) = lower s := by
  have hchar : Char.toLower ∘ Char.toLower = Char.toLower := funext fun c => by
    refine Char.toNat_inj.1 ?_
    change c.toLower.toLower.toNat = c.toLower.toNat
    rw [toNat_toLower c.toLower, if_neg]
    have hshift := toNat_toLower c
    split at hshift <;> omega
  simp [lower, hchar]

/-- The characters that are stripped are told by their images. -/
theorem trimList_map (p : Char → Bool) (f : Char → Char) (cs : List Char) :
    trimList p (cs.map f) = (trimList (p ∘ f) cs).map f := by
  simp [trimList, List.dropWhile_map, ← List.map_reverse]

/-- White space at the ends is the same before and after. -/
theorem trim_lower (s : String) : trim (lower s) = lower (trim s) := by
  have hclass : isWhite ∘ Char.toLower = isWhite := funext isWhite_toLower
  simp [trim, lower, trimList_map, hclass]

/-- There are no capitals and no white space in the text. -/
def Tidy (s : String) : Prop :=
  ∀ c ∈ s.toList, c.toLower = c ∧ isWhite c = false

theorem Tidy.lower_eq {s : String} (h : Tidy s) : lower s = s := by
  have hsame : s.toList.map Char.toLower = s.toList.map id :=
    List.map_congr_left fun c hc => (h c hc).1
  rw [lower, hsame, List.map_id, String.ofList_toList]

theorem Tidy.trim_eq {s : String} (h : Tidy s) : trim s = s := by
  have hnone : ∀ cs : List Char, (∀ c ∈ cs, isWhite c = false) → cs.dropWhile isWhite = cs
    | [], _ => rfl
    | c :: cs, h => List.dropWhile_cons_of_neg (by simp [h c List.mem_cons_self])
  have hwhite : ∀ c ∈ s.toList, isWhite c = false := fun c hc => (h c hc).2
  rw [trim, trimList, hnone _ hwhite, hnone _ (by simpa using hwhite), List.reverse_reverse,
    String.ofList_toList]

/-- A text without white space at its ends can be told in small letters. -/
theorem lower_trim_eq_iff {s : String} : lower (trim s) = lower s ↔ trim s = s := by
  refine ⟨fun h => ?_, fun h => by rw [h]⟩
  have hlength := congrArg (fun text => text.toList.length) h
  simp only [lower, trim, String.toList_ofList, List.length_map] at hlength
  have hpart : (trimList isWhite s.toList).Sublist s.toList := by
    rw [trimList, ← List.reverse_sublist, List.reverse_reverse]
    exact (List.dropWhile_sublist isWhite).trans (List.dropWhile_sublist isWhite).reverse
  rw [trim, hpart.eq_of_length hlength, String.ofList_toList]

/-! ### Capitals -/

/-- A small letter is shifted to its capital, and other characters stay. -/
theorem toNat_toUpper (c : Char) :
    c.toUpper.toNat = if 97 ≤ c.toNat ∧ c.toNat ≤ 122 then c.toNat - 32 else c.toNat := by
  unfold Char.toUpper
  split
  · next hsmall =>
      have hrange : 97 ≤ c.toNat ∧ c.toNat ≤ 122 := by
        simpa [UInt32.le_iff_toNat_le] using hsmall
      rw [if_pos hrange]
      change (c.val + ('A'.val - 'a'.val)).toNat = c.val.toNat - 32
      have hbounds : 97 ≤ c.val.toNat ∧ c.val.toNat ≤ 122 := hrange
      rw [UInt32.toNat_add]
      change (c.val.toNat + 4294967264) % 2 ^ 32 = c.val.toNat - 32
      omega
  · next hother =>
      have hrange : ¬ (97 ≤ c.toNat ∧ c.toNat ≤ 122) := fun hrange =>
        hother (by simpa [UInt32.le_iff_toNat_le] using hrange)
      rw [if_neg hrange]

theorem isWhite_toUpper (c : Char) : isWhite c.toUpper = isWhite c := by
  have hshift := toNat_toUpper c
  split at hshift
  · next hrange =>
      rw [isWhite_eq_false_of_visible (by omega) (by omega),
        isWhite_eq_false_of_visible (by omega) (by omega)]
  · rw [isWhite, isWhite, hshift]

/-- Of the characters before the letters each is the capital of itself only. -/
theorem toUpper_eq_iff {c d : Char} (hd : d.toNat < 65) : c.toUpper = d ↔ c = d := by
  rw [← Char.toNat_inj, ← Char.toNat_inj, toNat_toUpper]
  split <;> omega

theorem upper_upper (s : String) : upper (upper s) = upper s := by
  have hchar : Char.toUpper ∘ Char.toUpper = Char.toUpper := funext fun c => by
    refine Char.toNat_inj.1 ?_
    change c.toUpper.toUpper.toNat = c.toUpper.toNat
    rw [toNat_toUpper c.toUpper, if_neg]
    have hshift := toNat_toUpper c
    split at hshift <;> omega
  simp [upper, hchar]

/-- Small and capital letters have the same capitals. -/
theorem upper_lower (s : String) : upper (lower s) = upper s := by
  have hchar : Char.toUpper ∘ Char.toLower = Char.toUpper := funext fun c => by
    refine Char.toNat_inj.1 ?_
    change c.toLower.toUpper.toNat = c.toUpper.toNat
    rw [toNat_toUpper, toNat_toUpper, toNat_toLower]
    split_ifs <;> omega
  simp [upper, lower, hchar]

theorem upper_eq_upper {a b : String} (h : sameLetters a b = true) : upper a = upper b := by
  rw [sameLetters, beq_iff_eq] at h
  rw [← upper_lower a, h, upper_lower]

theorem trim_upper (s : String) : trim (upper s) = upper (trim s) := by
  have hclass : isWhite ∘ Char.toUpper = isWhite := funext isWhite_toUpper
  simp [trim, upper, trimList_map, hclass]

theorem trimChar_upper {d : Char} (hd : d.toNat < 65) (s : String) :
    trimChar d (upper s) = upper (trimChar d s) := by
  have hclass : (· == d) ∘ Char.toUpper = (· == d) := funext fun c => by
    rw [Function.comp_apply, Bool.eq_iff_iff, beq_iff_eq, beq_iff_eq, toUpper_eq_iff hd]
  simp [trimChar, upper, trimList_map, hclass]

theorem mem_toList_upper_iff {d : Char} (hd : d.toNat < 65) {s : String} :
    d ∈ (upper s).toList ↔ d ∈ s.toList := by
  simp [upper, toUpper_eq_iff hd]

end Text
end SchemaLint
