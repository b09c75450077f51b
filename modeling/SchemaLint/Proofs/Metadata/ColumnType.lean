import SchemaLint.Metadata.Storage
import SchemaLint.Proofs.Text.Case
import SchemaLint.Proofs.Text.Words

/-!
# The one name of a type

Before it is looked up in the list of aliases a type name is brought into plain form: small letters,
and single spaces between its words.  No name that an alias stands for is an alias itself, and all
of them are plain, so the one name of a type is its own one name
(`ColumnType.canonical_canonical`).

* `Text.IsPlain` - the form, which `Text.isPlain_collapse_lower` produces and nothing changes again.
* `ColumnType.alike_canonical` - what is looked up by a type name does not depend on how it is
  written.
-/

namespace SchemaLint
namespace Text

/-- There are no capitals in the text, and its words are one space apart. -/
structure IsPlain (s : String) : Prop where
  small : lower s = s
  oneSpaced : OneSpaced s.toList

theorem runsOutside_cons_of_pos {p : Char → Bool} {c : Char} (hc : p c = true)
    (cs : List Char) : runsOutside p (c :: cs) = runsOutside p cs := by
  cases cs <;> simp [runsOutside, hc]

/-- The runs of a changed text are the changed runs, if the change keeps characters in their
class. -/
theorem runsOutside_map {p : Char → Bool} {f : Char → Char} (hf : ∀ c, p (f c) = p c)
    (cs : List Char) : runsOutside p (cs.map f) = (runsOutside p cs).map (List.map f) := by
  fun_induction runsOutside p cs with
  | case1 => rfl
  | case2 c cs hc ih => rw [List.map_cons, runsOutside_cons_of_pos (by rwa [hf]), ih]
  | case3 c hc =>
      rw [List.map_singleton, runsOutside, if_neg (by rwa [hf])]
      rfl
  | case4 c hc d cs hd ih =>
      simp only [List.map_cons] at ih ⊢
      rw [runsOutside, if_neg (by rwa [hf])]
      simp only [hf, hd, if_true, ih, List.map_nil]
  | case5 c hc d cs hd hnil ih =>
      simp only [List.map_cons] at ih ⊢
      rw [runsOutside, if_neg (by rwa [hf])]
      simp only [hf, hd, ih, hnil, List.map_nil, List.map_cons, Bool.false_eq_true, if_false]
  | case6 c hc d cs hd first runs hruns ih =>
      simp only [List.map_cons] at ih ⊢
      rw [runsOutside, if_neg (by rwa [hf])]
      simp only [hf, hd, ih, hruns, List.map_cons, Bool.false_eq_true, if_false]

/-- Spaces are no letters, so it does not matter when the letters are made small. -/
theorem lower_collapse (s : String) : lower (collapse s) = collapse (lower s) := by
  rw [← String.toList_inj, toList_collapse]
  simp only [lower, String.toList_ofList, toList_collapse, runsOutside_map isWhite_toLower]
  generalize runsOutside isWhite s.toList = runs
  induction runs with
  | nil => rfl
  | cons run runs ih =>
      cases runs with
      | nil => simp
      | cons next runs =>
          simp only [List.map_cons, List.intercalate_cons_cons, List.map_append] at ih ⊢
          rw [ih]
          rfl

theorem isPlain_collapse_lower (s : String) : IsPlain (collapse (lower s)) where
  small := by rw [lower_collapse, lower_lower]
  oneSpaced := (isCollapsed_iff.2 rfl).oneSpaced

/-- A word in small letters is plain. -/
theorem Tidy.isPlain {s : String} (h : Tidy s) : IsPlain s where
  small := h.lower_eq
  oneSpaced := by
    have hvisible : ∀ c ∈ s.toList, isWhite c = false := fun c hc => (h c hc).2
    refine ⟨bare_of_forall hvisible,
      List.Pairwise.isChain (List.pairwise_of_forall_mem_list fun c hc d _ hwhite => ?_)⟩
    rw [hvisible c hc] at hwhite
    cases hwhite

/-- A plain text stays as it is when it is brought into plain form. -/
theorem IsPlain.collapse_lower_trim_eq {s : String} (h : IsPlain s) :
    collapse (lower (trim s)) = s := by
  have htrim : trim s = s := by rw [trim, h.oneSpaced.bare.trimList_eq, String.ofList_toList]
  rw [htrim, h.small]
  exact (isCollapsed_iff.1 ⟨rfl, h.oneSpaced⟩).symm

end Text

namespace ColumnType

open Text

/-- The names that aliases stand for. -/
def aliased : List String := [
  "int", "tinyint", "smallint", "mediumint", "bigint", "decimal", "double", "float", "char",
  "varchar", "mediumtext", "mediumblob"]

theorem standing_eq_self_or_mem (name : String) :
    standing name = name ∨ standing name ∈ aliased := by
  unfold standing
  split <;> simp [aliased]

theorem all_aliased : aliased.all (fun name => standing name = name &&
    name.toList.all fun c => c.toLower = c && !isWhite c) = true := by
  decide +kernel

/-- No alias stands for an alias, and all stand for plain names. -/
theorem standing_of_mem {name : String} (h : name ∈ aliased) :
    standing name = name ∧ Tidy name := by
  simpa [Tidy] using List.all_eq_true.1 all_aliased name h

theorem standing_standing (name : String) : standing (standing name) = standing name := by
  rcases standing_eq_self_or_mem name with hself | hmem
  · rw [hself]
    exact hself
  · exact (standing_of_mem hmem).1

theorem isPlain_standing {name : String} (h : IsPlain name) : IsPlain (standing name) := by
  rcases standing_eq_self_or_mem name with hself | hmem
  · rwa [hself]
  · exact (standing_of_mem hmem).2.isPlain

/-- The one name of a type is its own one name. -/
theorem canonical_canonical (name : String) : canonical (canonical name) = canonical name := by
  have hplain : IsPlain (canonical name) := isPlain_standing (isPlain_collapse_lower (trim name))
  calc canonical (canonical name)
      = standing (collapse (lower (trim (canonical name)))) := rfl
    _ = standing (canonical name) := by rw [hplain.collapse_lower_trim_eq]
    _ = canonical name := standing_standing _

/-- All that is looked up by a type name is the same for both names; an error still repeats the
name that was asked for. -/
structure Alike (first second : String) : Prop where
  classify_eq : classify first = classify second
  size_eq : ∀ length scale, (Storage.size first length scale).toOption =
    (Storage.size second length scale).toOption
  overflow_iff : ∀ length scale cause, Storage.size first length scale = .error (.overflow cause) ↔
    Storage.size second length scale = .error (.overflow cause)
  maxValue_eq : ∀ unsigned, (Storage.maxValue first unsigned).toOption =
    (Storage.maxValue second unsigned).toOption

/-- Names with the same one name are alike. -/
theorem alike_of_canonical_eq {first second : String} (h : canonical first = canonical second) :
    Alike first second where
  classify_eq := by rw [classify, classify, h]
  size_eq := by
    intro length scale
    unfold Storage.size
    rewrite [h]
    cases Storage.sizeOf? (canonical second) length scale <;> rfl
  overflow_iff := by
    intro length scale cause
    unfold Storage.size
    rewrite [h]
    cases Storage.sizeOf? (canonical second) length scale with
    | none => exact iff_of_false nofun nofun
    | some size => exact Iff.rfl
  maxValue_eq := by
    intro unsigned
    unfold Storage.maxValue
    rewrite [h]
    cases Storage.signedMax? (canonical second) <;> rfl

theorem alike_canonical (name : String) : Alike name (canonical name) :=
  alike_of_canonical_eq (canonical_canonical name).symm

end ColumnType
end SchemaLint
