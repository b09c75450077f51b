import Mathlib.Data.List.Chain
import SchemaLint.Proofs.Text.Pieces

/-!
# Words one space apart

A collapsed text keeps the words of a text and has single spaces between them, and no other white
space.  These two properties leave no choice, so a text is the collapsed one exactly if it has both
(`isCollapsed_iff`).
-/

namespace SchemaLint
namespace Text

variable {p : Char → Bool} {cs run : List Char} {parts : List (List Char)}

/-- A word has characters, none of them white space. -/
structure IsWord (cs : List Char) : Prop where
  ne_nil : cs ≠ []
  visible : ∀ c ∈ cs, isWhite c = false

theorem ne_nil_of_mem_runsOutside (h : run ∈ runsOutside p cs) : run ≠ [] := by
  fun_induction runsOutside p cs generalizing run with
  | case1 => cases h
  | case2 _ _ _ ih => exact ih h
  | case3 c _ =>
      rw [List.mem_singleton.1 h]
      exact List.cons_ne_nil _ _
  | case4 c _ d cs _ ih =>
      rcases List.mem_cons.1 h with rfl | h
      · exact List.cons_ne_nil _ _
      · exact ih h
  | case5 c _ d cs _ hnil ih =>
      rw [hnil, List.mem_singleton] at h
      rw [h]
      exact List.cons_ne_nil _ _
  | case6 c _ d cs _ first runs hruns ih =>
      simp only [hruns, List.mem_cons] at h
      rcases h with rfl | h
      · exact List.cons_ne_nil _ _
      · exact ih (hruns ▸ List.mem_cons_of_mem _ h)

theorem isWord_of_mem_runsOutside (h : run ∈ runsOutside isWhite cs) : IsWord run where
  ne_nil := ne_nil_of_mem_runsOutside h
  visible := fun _ hc => eq_false_of_mem_runsOutside h hc

theorem runsOutside_singleton (hne : run ≠ []) (h : ∀ c ∈ run, p c = false) :
    runsOutside p run = [run] := by
  induction run with
  | nil => exact absurd rfl hne
  | cons c run ih =>
      rw [List.forall_mem_cons] at h
      cases run with
      | nil => rw [runsOutside, if_neg (by simp [h.1])]
      | cons d run =>
          have hd : p d = false := h.2 d List.mem_cons_self
          rw [runsOutside, if_neg (by simp [h.1])]
          simp only [hd, Bool.false_eq_true, if_false, ih (List.cons_ne_nil _ _) h.2]

/-- Words are read back from a text in which they are one space apart. -/
theorem runsOutside_intercalate {parts : List (List Char)} (h : ∀ word ∈ parts, IsWord word) :
    runsOutside isWhite ([' '].intercalate parts) = parts := by
  match parts with
  | [] => rfl
  | [word] =>
      have hword := h word List.mem_cons_self
      rw [List.intercalate_singleton, runsOutside_singleton hword.ne_nil hword.visible]
  | word :: next :: parts =>
      rw [List.forall_mem_cons] at h
      rw [List.intercalate_cons_cons, List.append_assoc, List.singleton_append,
        runsOutside_append (by decide) _ h.1.ne_nil h.1.visible, runsOutside_intercalate h.2]

theorem intercalate_ne_nil {word : List Char} (h : ∀ word' ∈ word :: parts, IsWord word') :
    [' '].intercalate (word :: parts) ≠ [] := by
  intro hnil
  have hread := runsOutside_intercalate h
  rw [hnil] at hread
  cases hread

/-- A character of white space is a space, with none behind it. -/
def SingleSpace (c d : Char) : Prop :=
  isWhite c = true → c = ' ' ∧ isWhite d = false

/-- There is no white space but single spaces, and none at the ends. -/
structure OneSpaced (cs : List Char) : Prop where
  bare : Bare isWhite cs
  single : cs.IsChain SingleSpace

theorem IsWord.isChain (h : IsWord cs) : cs.IsChain SingleSpace := by
  refine List.Pairwise.isChain (List.pairwise_of_forall_mem_list fun c hc d _ hwhite => ?_)
  rw [h.visible c hc] at hwhite
  cases hwhite

theorem oneSpaced_intercalate {parts : List (List Char)} (h : ∀ word ∈ parts, IsWord word) :
    OneSpaced ([' '].intercalate parts) := by
  match parts with
  | [] => exact ⟨bare_of_forall (by simp), .nil⟩
  | [word] =>
      have hword := h word List.mem_cons_self
      rw [List.intercalate_singleton]
      exact ⟨bare_of_forall hword.visible, hword.isChain⟩
  | word :: next :: parts =>
      obtain ⟨hword, hrest⟩ := List.forall_mem_cons.1 h
      have ih := oneSpaced_intercalate hrest
      have hne := intercalate_ne_nil hrest
      rw [List.intercalate_cons_cons, List.append_assoc, List.singleton_append]
      refine ⟨⟨?_, ?_⟩, List.isChain_append.2 ⟨hword.isChain, ?_, ?_⟩⟩
      · intro c hc
        rw [List.head?_append_of_ne_nil _ hword.ne_nil] at hc
        exact hword.visible c (List.mem_of_mem_head? hc)
      · intro c hc
        rw [List.reverse_append, List.reverse_cons, List.append_assoc,
          List.head?_append_of_ne_nil _ (by simpa using hne)] at hc
        exact ih.bare.back c hc
      · exact List.isChain_cons.2 ⟨fun c hc _ => ⟨rfl, ih.bare.front c hc⟩, ih.single⟩
      · intro c hc d _ hwhite
        rw [hword.visible c (List.mem_of_mem_getLast? hc)] at hwhite
        cases hwhite

theorem Stops.of_reverse_cons {c : Char} (h : Stops p (c :: cs).reverse) : Stops p cs.reverse := by
  cases cs with
  | nil => exact stops_nil
  | cons d cs =>
      intro e he
      refine h e ?_
      rw [List.reverse_cons, List.head?_append_of_ne_nil _ (by simp), he]

/-- White space at the front apart, words one space apart are those of the text. -/
theorem intercalate_runsOutside (hback : Stops isWhite cs.reverse)
    (hsingle : cs.IsChain SingleSpace) :
    [' '].intercalate (runsOutside isWhite cs) = cs.dropWhile isWhite := by
  fun_induction runsOutside isWhite cs with
  | case1 => rfl
  | case2 c cs hc ih =>
      rw [List.dropWhile_cons_of_pos hc]
      exact ih hback.of_reverse_cons (List.isChain_cons.1 hsingle).2
  | case3 c hc => rw [List.intercalate_singleton, List.dropWhile_cons_of_neg hc]
  | case4 c hc d cs hd ih =>
      have hread := ih hback.of_reverse_cons (List.isChain_cons.1 hsingle).2
      rw [List.dropWhile_cons_of_pos hd] at hread
      cases cs with
      | nil => simp [hback.of_reverse_cons d rfl] at hd
      | cons e cs =>
          -- the space that ends the word is the only one
          obtain ⟨rfl, he⟩ := (List.isChain_cons_cons.1 (List.isChain_cons.1 hsingle).2).1 hd
          have hvisible : ¬ isWhite e = true := by simp [he]
          rw [List.dropWhile_cons_of_neg hvisible] at hread
          have hmore : runsOutside isWhite (' ' :: e :: cs) ≠ [] := by
            intro hnil
            rw [hnil] at hread
            cases hread
          rw [List.intercalate_cons_of_ne_nil hmore, hread, List.dropWhile_cons_of_neg hc]
          rfl
  | case5 c hc d cs hd hnil ih =>
      have hread := ih hback.of_reverse_cons (List.isChain_cons.1 hsingle).2
      rw [hnil, List.dropWhile_cons_of_neg hd] at hread
      cases hread
  | case6 c hc d cs hd first runs hruns ih =>
      have hread := ih hback.of_reverse_cons (List.isChain_cons.1 hsingle).2
      rw [hruns, List.dropWhile_cons_of_neg hd] at hread
      simp only [hruns]
      rw [List.dropWhile_cons_of_neg hc, ← hread]
      cases runs with
      | nil => simp only [List.intercalate_singleton]
      | cons next runs => simp only [List.intercalate_cons_cons, List.cons_append]

theorem toList_collapse (s : String) :
    (collapse s).toList = [' '].intercalate (runsOutside isWhite s.toList) := by
  simp [collapse, join, words, Function.comp_def]

/-- What it is for a text to be another one collapsed. -/
structure IsCollapsed (s text : String) : Prop where
  words_eq : words text = words s
  oneSpaced : OneSpaced text.toList

/-- The words of a text determine its runs. -/
theorem runsOutside_eq_iff {s text : String} :
    runsOutside isWhite text.toList = runsOutside isWhite s.toList ↔ words text = words s :=
  (List.map_inj_right fun _ _ => String.ofList_inj.1).symm

/-- A text has one collapsed form, which `collapse` gives. -/
theorem isCollapsed_iff {s text : String} : IsCollapsed s text ↔ text = collapse s := by
  have hwords : ∀ word ∈ runsOutside isWhite s.toList, IsWord word :=
    fun _ => isWord_of_mem_runsOutside
  constructor
  · rintro ⟨hruns, hspaced⟩
    rw [← String.toList_inj, toList_collapse, ← runsOutside_eq_iff.2 hruns,
      intercalate_runsOutside hspaced.bare.back hspaced.single, hspaced.bare.front.dropWhile_eq]
  · rintro rfl
    refine ⟨runsOutside_eq_iff.1 ?_, ?_⟩
    · rw [toList_collapse, runsOutside_intercalate hwords]
    · rw [toList_collapse]
      exact oneSpaced_intercalate hwords

end Text
end SchemaLint
