import SchemaLint.Catalog.Version
import SchemaLint.Proofs.Text.Class
import SchemaLint.Proofs.Text.Pieces

/-!
# Versions read back

A version is read back from its text, also with white space in front of it and with anything behind
it that does not go on with a digit.  A point behind it is fine, and so are further numbers, since
only the first three count (`numerals_text_append`).

* `parse?_surrounded_text` - the version of a text in such surroundings.
-/

namespace SchemaLint
namespace Version

open Text (Stops)

/-- A character of a version. -/
def isNumeric (c : Char) : Bool :=
  c.isDigit || c == '.'

theorem isNumeric_of_isWhite {c : Char} (h : Text.isWhite c = true) : isNumeric c = false := by
  rw [isNumeric, Bool.or_eq_false_iff]
  constructor
  · by_contra hdigit
    rw [Bool.not_eq_false] at hdigit
    rw [Text.isWhite_eq_false_of_isDigit hdigit] at h
    cases h
  · rw [beq_eq_false_iff_ne]
    rintro rfl
    exact absurd h (by decide)

/-- The characters of the text of a version, with those behind it. -/
def spelling (version : Version) (tail : List Char) : List Char :=
  Decimal.digits version.major.toNat ++ '.' :: (Decimal.digits version.minor.toNat ++
    '.' :: (Decimal.digits version.patch.toNat ++ tail))

theorem toList_text_append (version : Version) (tail : List Char) :
    version.text.toList ++ tail = version.spelling tail := by
  simp [text, spelling, Decimal.text]

theorem spelling_eq_append (version : Version) (tail : List Char) :
    version.spelling tail = version.spelling [] ++ tail := by
  simp [spelling]

theorem isNumeric_of_mem_spelling (version : Version) :
    ∀ c ∈ version.spelling [], isNumeric c = true := by
  have hdigit : ∀ {n c}, c ∈ Decimal.digits n → isNumeric c = true := fun hc => by
    rw [isNumeric, Decimal.isDigit_of_mem_digits _ _ hc, Bool.true_or]
  intro c hc
  simp only [spelling, List.append_nil, List.mem_append, List.mem_cons] at hc
  rcases hc with hc | rfl | hc | rfl | hc
  · exact hdigit hc
  · rfl
  · exact hdigit hc
  · rfl
  · exact hdigit hc

/-- Neither a digit nor white space stands before the text of a version. -/
theorem stops_isWhite_spelling (version : Version) (tail : List Char) :
    Stops Text.isWhite (version.spelling tail) := by
  intro c hc
  rw [spelling, List.head?_append_of_ne_nil _ (Decimal.digits_ne_nil _)] at hc
  exact Text.isWhite_eq_false_of_isDigit
    (Decimal.isDigit_of_mem_digits _ _ (List.mem_of_mem_head? hc))

/-- Digits and points are read up to the first other character, and white space does not matter. -/
theorem takeWhile_trimList (version : Version) {before : List Char}
    (hbefore : ∀ c ∈ before, Text.isWhite c = true) (after : List Char) :
    (Text.trimList Text.isWhite (before ++ version.spelling after)).takeWhile isNumeric =
      version.spelling (after.takeWhile isNumeric) := by
  rw [Text.trimList_eq_rdropWhile,
    Text.dropWhile_run hbefore (version.stops_isWhite_spelling after),
    Text.takeWhile_rdropWhile fun _ => isNumeric_of_isWhite, spelling_eq_append,
    List.takeWhile_append_of_pos version.isNumeric_of_mem_spelling, ← spelling_eq_append]

/-- No separator is among digits. -/
theorem splitList_digits (n : Nat) :
    Text.splitList '.' (Decimal.digits n) = [Decimal.digits n] :=
  Text.splitList_of_not_mem fun hpoint =>
    absurd (Decimal.isDigit_of_mem_digits n _ hpoint) (by decide)

/-- What follows the third number begins with a point, so the number ends there. -/
theorem exists_splitList_digits_append (n : Nat) {tail : List Char}
    (hnumeric : ∀ c ∈ tail, isNumeric c = true) (htail : Stops Char.isDigit tail) :
    ∃ pieces, Text.splitList '.' (Decimal.digits n ++ tail) = Decimal.digits n :: pieces := by
  cases tail with
  | nil => exact ⟨[], by rw [List.append_nil, splitList_digits]⟩
  | cons c tail =>
      have hpoint : c = '.' := by
        have hc := hnumeric c List.mem_cons_self
        rw [isNumeric, htail c rfl, Bool.false_or] at hc
        exact eq_of_beq hc
      subst hpoint
      exact ⟨Text.splitList '.' tail, by
        rw [Text.splitList_append, splitList_digits, List.singleton_append]⟩

theorem numerals_eq (s : String) :
    numerals s = ((Text.splitList '.' ((Text.trim s).toList.takeWhile isNumeric)).filter
      (· ≠ [])).map String.ofList :=
  rfl

/-- The three numbers of a version come first among those that are read. -/
theorem numerals_text_append (version : Version) (before after : String)
    (hbefore : Text.isBlank before = true) (hafter : Stops Char.isDigit after.toList) :
    ∃ more, numerals (before ++ version.text ++ after) =
      Decimal.text version.major.toNat :: Decimal.text version.minor.toNat ::
        Decimal.text version.patch.toNat :: more := by
  have hread : (Text.trim (before ++ version.text ++ after)).toList.takeWhile isNumeric =
      version.spelling (after.toList.takeWhile isNumeric) := by
    rw [Text.trim, String.toList_ofList, String.toList_append, String.toList_append,
      List.append_assoc, toList_text_append,
      takeWhile_trimList version (List.all_eq_true.1 hbefore)]
  obtain ⟨pieces, hpieces⟩ := exists_splitList_digits_append version.patch.toNat
    (fun c => List.mem_takeWhile_imp) (hafter.takeWhile isNumeric)
  refine ⟨(pieces.filter (· ≠ [])).map String.ofList, ?_⟩
  rw [numerals_eq, hread, spelling, Text.splitList_append, Text.splitList_append, hpieces,
    splitList_digits, splitList_digits]
  simp [Decimal.digits_ne_nil, Decimal.text]

theorem parse?_of_numerals (version : Version) {s : String} {more : List String}
    (h : numerals s = Decimal.text version.major.toNat :: Decimal.text version.minor.toNat ::
      Decimal.text version.patch.toNat :: more) : parse? s = some version := by
  rw [parse?, h]
  simp [Decimal.word32?_text]

/-- A version is read from its text in the surroundings that do not matter, and what was read from
any text is read again from its own text. -/
theorem parse?_surrounded_text (version : Version) {before after : String}
    (hbefore : Text.isBlank before = true) (hafter : Stops Char.isDigit after.toList) :
    parse? (before ++ version.text ++ after) = some version ∧
      ∀ s other, parse? s = some other → parse? other.text = some other := by
  constructor
  · obtain ⟨more, hmore⟩ := version.numerals_text_append before after hbefore hafter
    exact version.parse?_of_numerals hmore
  · intro s other _
    obtain ⟨more, hmore⟩ := other.numerals_text_append "" "" rfl Text.stops_nil
    rw [String.empty_append, String.append_empty] at hmore
    exact other.parse?_of_numerals hmore

/-- A point stands behind the version, and another number; and a version of two numbers is read
from its text of three. -/
theorem parse?_surrounded_text_of_build :
    Text.isBlank " \t" = true ∧ Stops Char.isDigit ".2-log\n".toList ∧
      parse? (" \t" ++ text ⟨8, 0, 4294967295⟩ ++ ".2-log\n") = some ⟨8, 0, 4294967295⟩ ∧
      parse? "8.4" = some ⟨8, 4, 0⟩ ∧ parse? (text ⟨8, 4, 0⟩) = some ⟨8, 4, 0⟩ := by
  have hbefore : Text.isBlank " \t" = true := by decide
  have hafter : Stops Char.isDigit ".2-log\n".toList := Text.stops_cons (by decide)
  have hshort : parse? "8.4" = some ⟨8, 4, 0⟩ := by decide
  obtain ⟨hread, hagain⟩ := parse?_surrounded_text ⟨8, 0, 4294967295⟩ hbefore hafter
  exact ⟨hbefore, hafter, hread, hshort, hagain "8.4" ⟨8, 4, 0⟩ hshort⟩

end Version
end SchemaLint
