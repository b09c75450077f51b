import Mathlib.Algebra.Group.Nat.Defs
import SchemaLint.Number.Word
import SchemaLint.Proofs.Except

/-!
# Words and whole numbers

A sum or product of words is the word of the whole sum or product, if there is such a word, and an
overflow otherwise.  So what is worked out in words is right whenever it comes to something.
-/

namespace SchemaLint
namespace Word

variable {a b c : UInt64}

/-- Words stand for the whole numbers that need at most 64 bits. -/
theorem exists_toNat {n : Nat} {P : Nat → Prop} :
    (∃ word : UInt64, word.toNat = n ∧ P word.toNat) ↔ n < 2 ^ 64 ∧ P n := by
  constructor
  · rintro ⟨word, rfl, h⟩
    exact ⟨word.toNat_lt, h⟩
  · rintro ⟨hn, h⟩
    have hword : (UInt64.ofNat n).toNat = n := UInt64.toNat_ofNat_of_lt' hn
    exact ⟨UInt64.ofNat n, hword, hword.symm ▸ h⟩

theorem plus_eq_ok : plus a b = .ok c ↔ c.toNat = a.toNat + b.toNat := by
  have hc := c.toNat_lt
  unfold plus
  split
  · next hfits =>
      change _ < 2 ^ 64 at hfits
      rw [Except.ok.injEq, ← UInt64.toNat_inj, UInt64.toNat_add, Nat.mod_eq_of_lt hfits]
      exact eq_comm
  · next hfits =>
      change ¬ _ < 2 ^ 64 at hfits
      exact iff_of_false nofun (by omega)

theorem times_eq_ok : times a b = .ok c ↔ c.toNat = a.toNat * b.toNat := by
  have hc := c.toNat_lt
  unfold times
  split
  · next hfits =>
      change _ < 2 ^ 64 at hfits
      rw [Except.ok.injEq, ← UInt64.toNat_inj, UInt64.toNat_mul, Nat.mod_eq_of_lt hfits]
      exact eq_comm
  · next hfits =>
      change ¬ _ < 2 ^ 64 at hfits
      exact iff_of_false nofun (by omega)

theorem count_eq_ok {α : Type} {items : List α} : count items = .ok c ↔ c.toNat = items.length := by
  have hc := c.toNat_lt
  unfold count
  split
  · next hfits =>
      rw [Except.ok.injEq, ← UInt64.toNat_inj, UInt64.toNat_ofNat_of_lt' hfits]
      exact eq_comm
  · next hfits =>
      change ¬ _ < 2 ^ 64 at hfits
      exact iff_of_false nofun (by omega)

/-- What comes to a whole number comes to a word if it is small enough. -/
theorem exists_ok {x : Except Overflow UInt64} {n : Nat}
    (h : ∀ word : UInt64, word.toNat = n → x = .ok word) (hn : n < 2 ^ 64) :
    ∃ word, x = .ok word :=
  ⟨UInt64.ofNat n, h _ (UInt64.toNat_ofNat_of_lt' hn)⟩

end Word
end SchemaLint
