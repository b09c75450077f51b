import SchemaLint.Proofs.Text.Runs

/-!
# Texts cut and stripped

What is left when a text is cut at a separator, or stripped of a character at its ends:

* `split_join_eq_flatMap` - joined parts are cut into the pieces of each of them;
* `trimList_eq_self_iff` - a text stays as it is when nothing stands at its ends to be stripped;
* `trimList_between` - what is stripped of a text between two quotes.
-/

namespace SchemaLint
namespace Text

variable {c : Char} {cs rest : List Char} {p : Char → Bool}

theorem splitList_ne_nil (c : Char) (cs : List Char) : splitList c cs ≠ [] := by
  fun_cases splitList c cs <;> exact List.cons_ne_nil _ _

theorem splitList_cons_self (c : Char) (cs : List Char) :
    splitList c (c :: cs) = [] :: splitList c cs :=
  if_pos rfl

/-- A character that separates nothing joins the first piece. -/
theorem splitList_cons_of_ne {d : Char} (h : d ≠ c) (cs : List Char) :
    splitList c (d :: cs) = (splitList c cs).modifyHead (d :: ·) := by
  obtain ⟨piece, pieces, hpieces⟩ := List.exists_cons_of_ne_nil (splitList_ne_nil c cs)
  refine (if_neg h).trans ?_
  rw [hpieces, List.modifyHead_cons]

theorem splitList_of_not_mem (h : c ∉ cs) : splitList c cs = [cs] := by
  induction cs with
  | nil => rfl
  | cons d cs ih =>
      obtain ⟨hd, hcs⟩ := List.ne_and_not_mem_of_not_mem_cons h
      rw [splitList_cons_of_ne (Ne.symm hd), ih hcs, List.modifyHead_cons]

theorem splitList_append (c : Char) (cs rest : List Char) :
    splitList c (cs ++ c :: rest) = splitList c cs ++ splitList c rest := by
  induction cs with
  | nil => exact splitList_cons_self c rest
  | cons d cs ih =>
      rcases eq_or_ne d c with rfl | hd
      · rw [List.cons_append, splitList_cons_self, splitList_cons_self, ih, List.cons_append]
      · obtain ⟨piece, pieces, hpieces⟩ := List.exists_cons_of_ne_nil (splitList_ne_nil c cs)
        rw [List.cons_append, splitList_cons_of_ne hd, splitList_cons_of_ne hd, ih, hpieces,
          List.cons_append, List.modifyHead_cons, List.modifyHead_cons, List.cons_append]

/-- No piece holds the separator. -/
theorem not_mem_of_mem_splitList {piece : List Char} (h : piece ∈ splitList c cs) : c ∉ piece := by
  induction cs generalizing piece with
  | nil =>
      cases List.mem_singleton.1 h
      exact List.not_mem_nil
  | cons d cs ih =>
      rcases eq_or_ne d c with rfl | hd
      · rw [splitList_cons_self] at h
        rcases List.mem_cons.1 h with rfl | h
        · exact List.not_mem_nil
        · exact ih h
      · obtain ⟨first, pieces, hpieces⟩ := List.exists_cons_of_ne_nil (splitList_ne_nil c cs)
        rw [splitList_cons_of_ne hd, hpieces, List.modifyHead_cons] at h
        rw [hpieces] at ih
        rcases List.mem_cons.1 h with rfl | h
        · exact List.not_mem_cons_of_ne_of_not_mem hd.symm (ih List.mem_cons_self)
        · exact ih (List.mem_cons_of_mem _ h)

theorem split_ne_nil (c : Char) (s : String) : split c s ≠ [] := by
  simpa [split] using splitList_ne_nil c s.toList

/-- Joined parts are cut into the pieces of each of them. -/
theorem split_join_eq_flatMap {parts : List String} (hne : parts ≠ []) :
    split c (join (String.singleton c) parts) = parts.flatMap (split c) := by
  match parts with
  | [] => exact absurd rfl hne
  | [part] => simp [join]
  | part :: next :: parts =>
      have hrest := split_join_eq_flatMap (List.cons_ne_nil next parts)
      have htext : (join (String.singleton c) (part :: next :: parts)).toList =
          part.toList ++ c :: (join (String.singleton c) (next :: parts)).toList := by
        simp [join, String.intercalate_cons_cons]
      rw [List.flatMap_cons, ← hrest, split, htext, splitList_append, List.map_append, split, split]

/-- What is stripped at the front is dropped, and then what is stripped at the back. -/
theorem trimList_eq_rdropWhile (p : Char → Bool) (cs : List Char) :
    trimList p cs = (cs.dropWhile p).rdropWhile p :=
  rfl

/-- What is taken away at the back of a text is not missed at its front, if it is of another
class. -/
theorem takeWhile_rdropWhile {q : Char → Bool} (h : ∀ d, q d = true → p d = false)
    (cs : List Char) : (cs.rdropWhile q).takeWhile p = cs.takeWhile p := by
  have hback : Stops p (cs.rtakeWhile q) := fun d hd =>
    h d (List.mem_rtakeWhile_imp (List.mem_of_mem_head? hd))
  rw [← hback.takeWhile_append, List.rdropWhile_append_rtakeWhile]

/-- Neither end of the text is a character of the class. -/
structure Bare (p : Char → Bool) (cs : List Char) : Prop where
  front : Stops p cs
  back : Stops p cs.reverse

/-- Texts with the same ends are bare together. -/
theorem Bare.of_ends (h : Bare p cs) (hhead : rest.head? = cs.head?)
    (hlast : rest.getLast? = cs.getLast?) : Bare p rest where
  front := by
    rw [Stops, hhead]
    exact h.front
  back := by
    rw [Stops, List.head?_reverse, hlast, ← List.head?_reverse]
    exact h.back

theorem bare_of_forall (h : ∀ d ∈ cs, p d = false) : Bare p cs where
  front := fun d hd => h d (List.mem_of_mem_head? hd)
  back := fun d hd => h d (List.mem_reverse.1 (List.mem_of_mem_head? hd))

theorem Bare.trimList_eq (h : Bare p cs) : trimList p cs = cs := by
  rw [trimList_eq_rdropWhile, h.front.dropWhile_eq, List.rdropWhile, h.back.dropWhile_eq,
    List.reverse_reverse]

/-- What has been stripped is bare. -/
theorem bare_trimList (p : Char → Bool) (cs : List Char) : Bare p (trimList p cs) where
  front := by
    intro d hd
    -- stripping the back leaves the front as it is
    obtain ⟨stripped, hstripped⟩ := List.rdropWhile_prefix p (cs.dropWhile p)
    rw [trimList_eq_rdropWhile] at hd
    have hfront : (cs.dropWhile p).head? = some d := by
      rw [← hstripped, List.head?_append, hd, Option.some_or]
    exact stops_dropWhile p cs d hfront
  back := by
    rw [trimList_eq_rdropWhile, List.rdropWhile, List.reverse_reverse]
    exact stops_dropWhile p _

theorem trimList_eq_self_iff : trimList p cs = cs ↔ Bare p cs :=
  ⟨fun h => h ▸ bare_trimList p cs, Bare.trimList_eq⟩

theorem sublist_trimList (p : Char → Bool) (cs : List Char) : (trimList p cs).Sublist cs :=
  (List.rdropWhile_prefix p _).sublist.trans (List.dropWhile_sublist p)

/-- A text that is stripped twice and stays as it is has stayed so both times. -/
theorem trimList_trimList_eq_self_iff {q : Char → Bool} :
    trimList q (trimList p cs) = cs ↔ Bare p cs ∧ Bare q cs := by
  constructor
  · intro h
    have hsub : cs.Sublist (trimList p cs) := by
      conv_lhs => rw [← h]
      exact sublist_trimList q _
    have hfirst : trimList p cs = cs := (sublist_trimList p cs).antisymm hsub
    rw [hfirst] at h
    exact ⟨trimList_eq_self_iff.1 hfirst, trimList_eq_self_iff.1 h⟩
  · rintro ⟨hp, hq⟩
    rw [hp.trimList_eq, hq.trimList_eq]

/-- Only the character that is stripped gets lost. -/
theorem trimList_eq_self_of_count_le (h : cs.count c ≤ (trimList (· == c) cs).count c) :
    trimList (· == c) cs = cs := by
  have hcount : ∀ run : List Char, (∀ d ∈ run, (d == c) = true) → run.count c = run.length :=
    fun run hrun => List.count_eq_length.2 fun d hd => (eq_of_beq (hrun d hd)).symm
  have hfront := hcount (cs.takeWhile (· == c)) fun _ => List.mem_takeWhile_imp
  have hback := hcount ((cs.dropWhile (· == c)).rtakeWhile (· == c)) fun _ =>
    List.mem_rtakeWhile_imp
  have hcs : cs.takeWhile (· == c) ++ (trimList (· == c) cs ++
      (cs.dropWhile (· == c)).rtakeWhile (· == c)) = cs := by
    rw [trimList_eq_rdropWhile, List.rdropWhile_append_rtakeWhile, List.takeWhile_append_dropWhile]
  have hsum := congrArg (List.count c) hcs
  rw [List.count_append, List.count_append] at hsum
  have hfrontNil : cs.takeWhile (· == c) = [] := List.eq_nil_of_length_eq_zero (by omega)
  have hbackNil : (cs.dropWhile (· == c)).rtakeWhile (· == c) = [] :=
    List.eq_nil_of_length_eq_zero (by omega)
  rwa [hfrontNil, hbackNil, List.nil_append, List.append_nil] at hcs

/-- A text between two characters outside the class is bare. -/
theorem bare_between (hc : p c = false) (cs : List Char) : Bare p (c :: cs ++ [c]) where
  front := stops_cons hc
  back := by
    rw [List.reverse_append]
    exact stops_cons hc

/-- Stripping does not tell a text from the text between two characters that are stripped. -/
theorem trimList_between (hc : p c = true) (cs : List Char) :
    trimList p (c :: cs ++ [c]) = trimList p cs := by
  rw [trimList_eq_rdropWhile, trimList_eq_rdropWhile, List.cons_append,
    List.dropWhile_cons_of_pos hc, List.dropWhile_append]
  split
  · next hempty =>
      rw [List.isEmpty_iff.1 hempty, List.dropWhile_cons_of_pos hc, List.dropWhile_nil]
  · rw [List.rdropWhile_concat_pos _ _ _ hc]

end Text
end SchemaLint
