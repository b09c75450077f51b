import Mathlib.Algebra.Group.Nat.Defs
import Mathlib.Data.List.DropRight
import Mathlib.Data.List.TakeWhile
import SchemaLint.Number.Decimal
import SchemaLint.Text.Basic

/-!
# Runs of characters

A run of characters of one class ends where the text goes on with a character that is not of the
class, so a run that was written is read back as a whole.  A run without white space has no line
feeds.
-/

namespace SchemaLint
namespace Text

variable {α : Type} {p : α → Bool} {run rest : List α}

/-- The text does not go on with an element of the class. -/
def Stops (p : α → Bool) (rest : List α) : Prop :=
  ∀ c, rest.head? = some c → p c = false

theorem stops_nil : Stops p [] := nofun

theorem stops_cons {c : α} {rest : List α} (h : p c = false) : Stops p (c :: rest) := by
  intro d hd
  cases hd
  exact h

theorem Stops.takeWhile_eq (h : Stops p rest) : rest.takeWhile p = [] := by
  cases rest with
  | nil => rfl
  | cons c rest => simp [h c rfl]

theorem Stops.dropWhile_eq (h : Stops p rest) : rest.dropWhile p = rest := by
  cases rest with
  | nil => rfl
  | cons c rest => simp [h c rfl]

/-- What is read at the front of the text does not go on with an element of the class either. -/
theorem Stops.takeWhile (h : Stops p rest) (q : α → Bool) : Stops p (rest.takeWhile q) := by
  cases rest with
  | nil => exact stops_nil
  | cons c rest =>
      rw [List.takeWhile_cons]
      split
      · exact stops_cons (h c rfl)
      · exact stops_nil

theorem takeWhile_run (hrun : ∀ c ∈ run, p c = true) (hrest : Stops p rest) :
    (run ++ rest).takeWhile p = run := by
  rw [List.takeWhile_append_of_pos hrun, hrest.takeWhile_eq, List.append_nil]

theorem dropWhile_run (hrun : ∀ c ∈ run, p c = true) (hrest : Stops p rest) :
    (run ++ rest).dropWhile p = rest := by
  rw [List.dropWhile_append_of_pos hrun, hrest.dropWhile_eq]

/-- What is read of a text stays the same when the text goes on with an element that is not of the
class. -/
theorem Stops.takeWhile_append (h : Stops p rest) (text : List α) :
    (text ++ rest).takeWhile p = text.takeWhile p := by
  induction text with
  | nil => exact h.takeWhile_eq
  | cons c text ih => rw [List.cons_append, List.takeWhile_cons, List.takeWhile_cons, ih]

theorem Stops.dropWhile_append (h : Stops p rest) (text : List α) :
    (text ++ rest).dropWhile p = text.dropWhile p ++ rest := by
  induction text with
  | nil => exact h.dropWhile_eq
  | cons c text ih =>
      rw [List.cons_append, List.dropWhile_cons, List.dropWhile_cons, ih]
      split <;> rfl

theorem stops_dropWhile (p : α → Bool) (cs : List α) : Stops p (cs.dropWhile p) := by
  intro c hc
  have hnot := List.head?_dropWhile_not p cs
  rw [hc] at hnot
  simpa using hnot

/-- What is taken away at the end of a list ends at an element that is not of the class. -/
theorem rdropWhile_append_cons {c : α} (hc : p c = false) (front back : List α) :
    (front ++ c :: back).rdropWhile p = front ++ c :: back.rdropWhile p := by
  induction back using List.reverseRecOn with
  | nil => rw [List.rdropWhile_concat_neg _ _ _ (by simp [hc]), List.rdropWhile_nil]
  | append_singleton back d ih =>
      have hassoc : front ++ c :: (back ++ [d]) = (front ++ c :: back) ++ [d] := by simp
      rw [hassoc, List.rdropWhile_concat, List.rdropWhile_concat]
      split
      · exact ih
      · exact hassoc.symm

theorem lineFeeds_append (front back : List Char) :
    lineFeeds (front ++ back) = lineFeeds front + lineFeeds back :=
  List.count_append

theorem lineFeeds_cons_of_ne {c : Char} (hc : c ≠ '\n') (cs : List Char) :
    lineFeeds (c :: cs) = lineFeeds cs :=
  List.count_cons_of_ne hc

theorem lineFeeds_append_of_not_mem {front : List Char} (h : '\n' ∉ front) (back : List Char) :
    lineFeeds (front ++ back) = lineFeeds back := by
  rw [lineFeeds_append, lineFeeds, List.count_eq_zero_of_not_mem h, Nat.zero_add]

/-- There is no line feed where there is no white space. -/
theorem lineFeeds_eq_zero {run : List Char} (h : ∀ c ∈ run, isWhite c = false) :
    lineFeeds run = 0 :=
  List.count_eq_zero_of_not_mem fun hmem => absurd (h _ hmem) (by decide)

/-- The first run outside a class ends where an element of the class stands. -/
theorem runsOutside_append {p : Char → Bool} {c : Char} (hc : p c = true) (rest : List Char) :
    ∀ {run : List Char}, run ≠ [] → (∀ d ∈ run, p d = false) →
      runsOutside p (run ++ c :: rest) = run :: runsOutside p rest
  | [], hne, _ => absurd rfl hne
  | [d], _, hrun => by
      rw [List.singleton_append, runsOutside, if_neg (by simp [hrun d List.mem_cons_self])]
      simp only [if_pos hc, runsOutside]
  | d :: e :: run, _, hrun => by
      rw [List.forall_mem_cons] at hrun
      have hrest := @runsOutside_append p c hc rest (e :: run) (List.cons_ne_nil _ _) hrun.2
      rw [List.cons_append] at hrest
      rw [List.cons_append, List.cons_append, runsOutside, if_neg (by simp [hrun.1])]
      simp only [hrun.2 e List.mem_cons_self, Bool.false_eq_true, if_false, hrest]

/-- No run outside a class has an element of the class. -/
theorem eq_false_of_mem_runsOutside {p : Char → Bool} {c : Char} {cs run : List Char}
    (hrun : run ∈ runsOutside p cs) (hc : c ∈ run) : p c = false := by
  fun_induction runsOutside p cs generalizing run with
  | case1 => cases hrun
  | case2 _ _ _ ih => exact ih hrun hc
  | case3 d hd =>
      rw [List.mem_singleton.1 hrun, List.mem_singleton] at hc
      simpa [hc] using hd
  | case4 d hd e cs he ih =>
      rcases List.mem_cons.1 hrun with rfl | hrun
      · rw [List.mem_singleton] at hc
        simpa [hc] using hd
      · exact ih hrun hc
  | case5 d hd e cs he hnil ih =>
      simp only [hnil, List.mem_singleton] at hrun
      rw [hrun, List.mem_singleton] at hc
      simpa [hc] using hd
  | case6 d hd e cs he first runs hruns ih =>
      simp only [hruns, List.mem_cons] at hrun
      rcases hrun with rfl | hrun
      · rcases List.mem_cons.1 hc with rfl | hc
        · simpa using hd
        · exact ih (hruns ▸ List.mem_cons_self) hc
      · exact ih (hruns ▸ List.mem_cons_of_mem _ hrun) hc

end Text

namespace Decimal

theorem isDigit_of_mem_digits (n : Nat) : ∀ c ∈ digits n, c.isDigit = true :=
  List.all_eq_true.1 (all_isDigit_digits n)

/-- The numeral of a number that is not zero has no zero in front. -/
theorem head?_digits {n : Nat} (h : 0 < n) : (digits n).head? ≠ some '0' := by
  induction n using Nat.strongRecOn with
  | _ n ih =>
      rw [digits]
      split
      · next hsmall =>
          have hdigit : ∀ d, d < 10 → 0 < d → digitChar d ≠ '0' := by decide
          simpa using hdigit n hsmall h
      -- the first digit is that of the quotient, which is not zero
      · rw [List.head?_append, Option.or_of_isSome (by simp [digits_ne_nil])]
        exact ih (n / 10) (by omega) (by omega)

/-- A number below the bound is read back as it was written. -/
theorem below?_text {bound n : Nat} (h : n < bound) : below? bound (text n) = some n := by
  have hdigit : ∀ c ∈ digits n, c ≠ '+' := by
    rintro c hc rfl
    exact absurd (isDigit_of_mem_digits _ _ hc) (by decide)
  rw [below?, text, String.toList_ofList]
  obtain ⟨c, cs, hdigits⟩ := List.exists_cons_of_ne_nil (digits_ne_nil n)
  have hnatural := natural?_digits n
  have hc : c ≠ '+' := hdigit c (by simp [hdigits])
  rw [hdigits] at hnatural ⊢
  simp [hnatural, hc, h]

/-- A number of 64 bits is read back as it was written. -/
theorem word64?_text64 (n : UInt64) : word64? (text64 n) = some n := by
  rw [word64?, text64, below?_text n.toNat_lt, Option.map_some, UInt64.ofNat_toNat]

theorem word32?_text (n : UInt32) : word32? (text n.toNat) = some n := by
  rw [word32?, below?_text n.toNat_lt, Option.map_some, UInt32.ofNat_toNat]

/-- A number below a power of ten has at most as many digits as the power has zeros. -/
theorem length_digits_le (n width : Nat) (hwidth : 0 < width) (h : n < 10 ^ width) :
    (digits n).length ≤ width := by
  induction n using Nat.strongRecOn generalizing width with
  | _ n ih =>
      rw [digits]
      split
      · exact hwidth
      · next hlarge =>
          -- a number of two digits is not below ten
          have hwider : 1 < width := by
            by_contra hnarrow
            have hone : width = 1 := by omega
            subst hone
            omega
          have hquotient : n / 10 < 10 ^ (width - 1) := by
            rw [Nat.div_lt_iff_lt_mul (by decide), ← Nat.pow_succ]
            rwa [Nat.succ_eq_add_one, Nat.sub_add_cancel (by omega)]
          have hlength := ih (n / 10) (by omega) (width - 1) (by omega) hquotient
          rw [List.length_append, List.length_singleton]
          omega

end Decimal
end SchemaLint
