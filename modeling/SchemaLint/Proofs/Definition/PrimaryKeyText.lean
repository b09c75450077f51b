import Mathlib.Data.List.Forall2
import SchemaLint.Definition.Key
import SchemaLint.Proofs.Sql.Display
import SchemaLint.Proofs.Sql.GrantTarget
import SchemaLint.Proofs.Sql.KeyText
import SchemaLint.Proofs.Text.Case

/-!
# Texts that declare a primary key

The text of an ordinary index is looked through for the words of a primary key, at its beginning
and behind the keyword of a constraint and its name.  These words can only be found inside a quoted
name.

* `BeginsAsPrimaryKey`, `SpellsPrimaryKey` - what is looked for, and the names in which it is found;
* `beginsPrimaryKey_quotedBefore`, `afterWord?_quotedBefore` - a search does not pass a back quote;
* `declaresPrimaryKey_of_index`, `declaresPrimaryKey_of_word`, `declaresPrimaryKey_of_quoted_iff` -
  one lemma for each text that an ordinary index can have.
-/

namespace SchemaLint

open Sql

namespace Definition

section Letters

variable {letters word rest cs : List Char} {letter c : Char}

/-- The characters of a word are these letters, in any case that Unicode knows. -/
def HasLetters (letters word : List Char) : Prop :=
  List.Forall₂ (fun letter c => sameLetter letter c = true) letters word

/-- White space, and not none. -/
def IsGap (gap : List Char) : Prop :=
  gap ≠ [] ∧ ∀ c ∈ gap, Text.isWhite c = true

theorem isGap_space : IsGap [' '] :=
  ⟨List.cons_ne_nil _ _, List.forall_mem_singleton.2 rfl⟩

/-- The text begins with the words of a primary key, and goes on with no part of a word. -/
def BeginsAsPrimaryKey (cs : List Char) : Prop :=
  ∃ first gap second rest, cs = first ++ gap ++ second ++ rest ∧
    HasLetters "primary".toList first ∧ IsGap gap ∧ HasLetters "key".toList second ∧
      Text.Stops Text.isWordPart rest

/-- A name in which the words of a primary key follow a first word, or white space. -/
def SpellsPrimaryKey (symbol : String) : Prop :=
  ∃ word gap rest, symbol.toList = word ++ gap ++ rest ∧
    (∀ c ∈ word, Text.isWhite c = false) ∧ IsGap gap ∧ BeginsAsPrimaryKey rest

theorem afterKeyword?_eq_some_iff :
    afterKeyword? letters cs = some rest ↔ ∃ word, cs = word ++ rest ∧ HasLetters letters word := by
  fun_induction afterKeyword? letters cs with
  | case1 cs =>
      constructor
      · intro h
        cases h
        exact ⟨[], rfl, .nil⟩
      · rintro ⟨word, rfl, hword⟩
        cases hword
        rfl
  | case2 letter letters =>
      refine iff_of_false nofun ?_
      rintro ⟨word, hcs, hword⟩
      cases hword with
      | cons _ _ => cases hcs
  | case3 letter letters c cs hc ih =>
      rw [ih]
      constructor
      · rintro ⟨word, rfl, hword⟩
        exact ⟨c :: word, rfl, .cons hc hword⟩
      · rintro ⟨word, hcs, hword⟩
        cases hword with
        | cons hfirst hword =>
            cases hcs
            exact ⟨_, rfl, hword⟩
  | case4 letter letters c cs hc =>
      refine iff_of_false nofun ?_
      rintro ⟨word, hcs, hword⟩
      cases hword with
      | cons hfirst hword =>
          cases hcs
          exact hc hfirst

theorem afterSpace?_eq_some_iff :
    afterSpace? cs = some rest ↔
      ∃ gap, cs = gap ++ rest ∧ IsGap gap ∧ Text.Stops Text.isWhite rest := by
  rw [afterSpace?]
  constructor
  · intro h
    split_ifs at h with hfirst
    cases h
    refine ⟨cs.takeWhile Text.isWhite, List.takeWhile_append_dropWhile.symm,
      ⟨fun hnil => ?_, fun _ => List.mem_takeWhile_imp⟩, Text.stops_dropWhile _ cs⟩
    cases cs with
    | nil => cases hfirst
    | cons c cs => exact absurd hfirst (by simpa using hnil)
  · rintro ⟨gap, rfl, ⟨hne, hgap⟩, hrest⟩
    obtain ⟨c, gap, rfl⟩ := List.exists_cons_of_ne_nil hne
    have hfirst : (c :: gap ++ rest).head?.any Text.isWhite = true := hgap c List.mem_cons_self
    rw [if_pos hfirst, Text.dropWhile_run hgap hrest]

theorem isWhite_eq_false_of_sameLetter (h : sameLetter letter c = true)
    (hletter : Text.isWhite letter = false) : Text.isWhite c = false := by
  simp only [sameLetter, Bool.or_eq_true, Bool.and_eq_true, beq_iff_eq] at h
  rcases h with (rfl | ⟨-, rfl⟩) | ⟨-, rfl⟩
  · rwa [Text.isWhite_toLower] at hletter
  all_goals rfl

theorem HasLetters.stops_isWhite (h : HasLetters (letter :: letters) word)
    (hletter : Text.isWhite letter = false) : Text.Stops Text.isWhite (word ++ rest) := by
  cases h with
  | cons hfirst _ => exact Text.stops_cons (isWhite_eq_false_of_sameLetter hfirst hletter)

theorem beginsPrimaryKey_iff : beginsPrimaryKey cs = true ↔ BeginsAsPrimaryKey cs := by
  have hstops (rest : List Char) :
      (!rest.head?.any Text.isWordPart) = true ↔ Text.Stops Text.isWordPart rest := by
    cases rest <;> simp [Text.Stops]
  simp only [beginsPrimaryKey, Option.any_eq_true, Option.bind_eq_bind, Option.bind_eq_some_iff,
    afterKeyword?_eq_some_iff, afterSpace?_eq_some_iff, hstops]
  constructor
  · rintro ⟨rest, ⟨_, ⟨first, rfl, hfirst⟩, _, ⟨gap, rfl, hgap, -⟩, second, rfl, hsecond⟩, hrest⟩
    exact ⟨first, gap, second, rest, by simp, hfirst, hgap, hsecond, hrest⟩
  · rintro ⟨first, gap, second, rest, rfl, hfirst, hgap, hsecond, hrest⟩
    exact ⟨rest, ⟨gap ++ second ++ rest, ⟨first, by simp, hfirst⟩, second ++ rest,
      ⟨gap, by simp, hgap, hsecond.stops_isWhite rfl⟩, second, rfl, hsecond⟩, hrest⟩

/-- The second word of the text begins that of a primary key. -/
theorem any_afterWord?_iff : (afterWord? cs).any beginsPrimaryKey = true ↔
    ∃ word gap rest, cs = word ++ gap ++ rest ∧ (∀ c ∈ word, Text.isWhite c = false) ∧
      IsGap gap ∧ BeginsAsPrimaryKey rest := by
  simp only [Option.any_eq_true, beginsPrimaryKey_iff, afterWord?, afterSpace?_eq_some_iff]
  constructor
  · rintro ⟨rest, ⟨gap, hcs, hgap, -⟩, hrest⟩
    refine ⟨cs.takeWhile (!Text.isWhite ·), gap, rest, ?_, fun c hc => ?_, hgap, hrest⟩
    · rw [List.append_assoc, ← hcs, List.takeWhile_append_dropWhile]
    · simpa using List.mem_takeWhile_imp hc
  · rintro ⟨word, gap, rest, rfl, hword, hgap, hrest⟩
    obtain ⟨first, between, second, tail, rfl, hfirst, hspelled⟩ := hrest
    refine ⟨_, ⟨gap, ?_, hgap, ?_⟩, ⟨first, between, second, tail, rfl, hfirst, hspelled⟩⟩
    · rw [List.append_assoc, Text.dropWhile_run (fun c hc => by simp [hword c hc])]
      obtain ⟨c, gap, rfl⟩ := List.exists_cons_of_ne_nil hgap.1
      exact Text.stops_cons (by simp [hgap.2 c List.mem_cons_self])
    · rw [List.append_assoc, List.append_assoc]
      exact hfirst.stops_isWhite rfl

end Letters

section Quotes

variable {letters cs rest : List Char} {p : Char → Bool}

/-- The characters of a quoted name as they are written, up to the closing quote, and what follows
it. -/
def quotedBefore (rest cs : List Char) : List Char :=
  cs.flatMap (fun c => if c = '\x60' then ['\x60', '\x60'] else [c]) ++ '\x60' :: rest

theorem quotedBefore_nil (rest : List Char) : quotedBefore rest [] = '\x60' :: rest := rfl

theorem quotedBefore_quote (rest cs : List Char) :
    quotedBefore rest ('\x60' :: cs) = '\x60' :: '\x60' :: quotedBefore rest cs := rfl

theorem quotedBefore_of_ne {c : Char} (h : c ≠ '\x60') (rest cs : List Char) :
    quotedBefore rest (c :: cs) = c :: quotedBefore rest cs := by
  simp [quotedBefore, h]

theorem head?_quotedBefore (rest cs : List Char) :
    (quotedBefore rest cs).head? = some (cs.head?.getD '\x60') := by
  cases cs with
  | nil => rfl
  | cons c cs =>
      by_cases hc : c = '\x60'
      · rw [hc, quotedBefore_quote]
        rfl
      · rw [quotedBefore_of_ne hc]
        rfl

/-- The letters of a keyword are found inside the quotes or not at all. -/
theorem afterKeyword?_quotedBefore (h : letters.all (!sameLetter · '\x60') = true)
    (cs : List Char) :
    afterKeyword? letters (quotedBefore rest cs) =
      (afterKeyword? letters cs).map (quotedBefore rest) := by
  induction letters generalizing cs with
  | nil => rfl
  | cons letter letters ih =>
      rw [List.all_cons, Bool.and_eq_true, Bool.not_eq_true'] at h
      obtain ⟨hletter, hletters⟩ := h
      cases cs with
      | nil => simp [quotedBefore_nil, afterKeyword?, hletter]
      | cons c cs =>
          by_cases hc : c = '\x60'
          · simp [hc, quotedBefore_quote, afterKeyword?, hletter]
          · rw [quotedBefore_of_ne hc, afterKeyword?, afterKeyword?, ih hletters]
            split <;> rfl

/-- What is dropped up to a quote stands inside the quotes. -/
theorem dropWhile_quotedBefore (hp : p '\x60' = false) (cs : List Char) :
    (quotedBefore rest cs).dropWhile p = quotedBefore rest (cs.dropWhile p) := by
  induction cs with
  | nil => simp [quotedBefore_nil, hp]
  | cons c cs ih =>
      by_cases hc : c = '\x60'
      · simp [hc, quotedBefore_quote, hp]
      · rw [quotedBefore_of_ne hc, List.dropWhile_cons, List.dropWhile_cons, ih]
        split
        · rfl
        · rw [quotedBefore_of_ne hc]

/-- What is dropped over quotes ends inside of them, unless all that is inside is dropped. -/
theorem dropWhile_quotedBefore_of_quote (hp : p '\x60' = true) (cs : List Char) :
    (quotedBefore rest cs).dropWhile p =
      if cs.dropWhile p = [] then rest.dropWhile p else quotedBefore rest (cs.dropWhile p) := by
  induction cs with
  | nil => simp [quotedBefore_nil, hp]
  | cons c cs ih =>
      by_cases hc : c = '\x60'
      · simp [hc, quotedBefore_quote, hp, ih]
      · rw [quotedBefore_of_ne hc, List.dropWhile_cons, List.dropWhile_cons, ih]
        split
        · rfl
        · rw [if_neg (List.cons_ne_nil _ _), quotedBefore_of_ne hc]

theorem afterSpace?_quotedBefore (rest cs : List Char) :
    afterSpace? (quotedBefore rest cs) = (afterSpace? cs).map (quotedBefore rest) := by
  rw [afterSpace?, afterSpace?, head?_quotedBefore, dropWhile_quotedBefore rfl]
  cases cs with
  | nil => rfl
  | cons c cs =>
      rw [List.head?_cons, Option.getD_some, Option.any_some]
      by_cases hc : Text.isWhite c = true
      · rw [if_pos hc, if_pos hc, Option.map_some]
      · rw [if_neg hc, if_neg hc, Option.map_none]

/-- The words of a primary key are found inside the quotes or not at all. -/
theorem beginsPrimaryKey_quotedBefore (rest cs : List Char) :
    beginsPrimaryKey (quotedBefore rest cs) = beginsPrimaryKey cs := by
  have hend (cs : List Char) : (quotedBefore rest cs).head?.any Text.isWordPart =
      cs.head?.any Text.isWordPart := by
    rw [head?_quotedBefore]
    cases cs <;> rfl
  rw [beginsPrimaryKey, beginsPrimaryKey, afterKeyword?_quotedBefore (by decide)]
  cases afterKeyword? "primary".toList cs with
  | none => rfl
  | some afterFirst =>
      simp only [Option.map_some, Option.bind_eq_bind, Option.bind_some, afterSpace?_quotedBefore]
      cases afterSpace? afterFirst with
      | none => rfl
      | some second =>
          simp only [Option.map_some, Option.bind_some]
          rw [afterKeyword?_quotedBefore (by decide)]
          cases afterKeyword? "key".toList second with
          | none => rfl
          | some last => simp only [Option.map_some, Option.any_some, hend]

/-- A word of the text ends inside the quotes, or where a word ends that the closing quote
begins. -/
theorem afterWord?_quotedBefore (rest cs : List Char) :
    afterWord? (quotedBefore rest cs) =
      if cs.dropWhile (!Text.isWhite ·) = [] then afterWord? rest
      else (afterWord? cs).map (quotedBefore rest) := by
  rw [afterWord?, dropWhile_quotedBefore_of_quote (p := (!Text.isWhite ·)) rfl]
  split
  · rfl
  · rw [afterSpace?_quotedBefore, afterWord?]

end Quotes

section Texts

variable {key : KeyClause} {head constraint name : Token} {more : List Token}

/-- A keyword is written in the letters of it. -/
theorem map_toLower_display {token : Token} {keyword : String}
    (h : token.isKeyword keyword = true) :
    token.display.toList.map Char.toLower = keyword.toList.map Char.toLower := by
  cases token with
  | word w =>
      have hsame : Text.lower w = Text.lower keyword := eq_of_beq h
      exact String.ofList_injective hsame
  | _ => cases h

theorem hasLetters_of_map_toLower {letters word : List Char} (h : word.map Char.toLower = letters) :
    HasLetters letters word := by
  rw [← h, HasLetters, List.forall₂_map_left_iff, List.forall₂_same]
  intro c _
  simp [sameLetter]

/-- Only two letters are known in a third case. -/
theorem HasLetters.map_toLower {letters word : List Char} (h : HasLetters letters word)
    (hletters : 'k' ∉ letters ∧ 's' ∉ letters) : word.map Char.toLower = letters := by
  induction h with
  | nil => rfl
  | @cons letter c letters word hfirst _ ih =>
      simp only [List.mem_cons, not_or] at hletters
      have hc : c.toLower = letter := by
        simpa [sameLetter, Ne.symm hletters.1.1, Ne.symm hletters.2.1] using hfirst
      rw [List.map_cons, hc, ih ⟨hletters.1.2, hletters.2.2⟩]

theorem isWhite_eq_false_of_toLower {c : Char} {letters : List Char} (hc : c.toLower ∈ letters)
    (hletters : letters.all (!Text.isWhite ·) = true) : Text.isWhite c = false := by
  rw [← Text.isWhite_toLower]
  simpa using List.all_eq_true.1 hletters _ hc

/-- The text of an ordinary index begins with the letter of `INDEX` or `KEY`, which neither the
words of a primary key nor the keyword of a constraint begin with. -/
theorem exists_first_of_index (h : Grammar.keyKindOf? head = some .index) :
    ∃ c cs, head.display.toList = c :: cs ∧ Text.isWhite c = false ∧ c.toLower ≠ 'p' ∧
      sameLetter 'c' c = false := by
  have hletter : ∃ c cs, head.display.toList = c :: cs ∧ c.toLower ∈ ['i', 'k'] := by
    rcases Grammar.isKeyword_of_keyKindOf?_index h with hkeyword | hkeyword
    · obtain ⟨c, cs, hcs, hc, -⟩ := List.map_eq_cons_iff.1 (map_toLower_display hkeyword)
      exact ⟨c, cs, hcs, hc ▸ List.mem_cons_self⟩
    · obtain ⟨c, cs, hcs, hc, -⟩ := List.map_eq_cons_iff.1 (map_toLower_display hkeyword)
      exact ⟨c, cs, hcs, hc ▸ List.mem_cons_of_mem _ List.mem_cons_self⟩
  obtain ⟨c, cs, hcs, hc⟩ := hletter
  have hprimary : c.toLower ≠ 'p' := fun heq => absurd (heq ▸ hc) (by decide)
  have hconstraint : c.toLower ≠ 'c' := fun heq => absurd (heq ▸ hc) (by decide)
  exact ⟨c, cs, hcs, isWhite_eq_false_of_toLower hc (by decide), hprimary,
    by simp [sameLetter, hconstraint]⟩

theorem beginsPrimaryKey_eq_false {c : Char} (hc : c.toLower ≠ 'p') (cs : List Char) :
    beginsPrimaryKey (c :: cs) = false := by
  have hletter : sameLetter 'p' c = false := by simp [sameLetter, hc]
  simp [beginsPrimaryKey, afterKeyword?, hletter]

/-- A clause that begins with the keyword of an ordinary index declares no primary key. -/
theorem declaresPrimaryKey_of_index (h : Grammar.keyKindOf? head = some .index)
    (more : List Token) : declaresPrimaryKey (Token.displayAll (head :: more)) = false := by
  obtain ⟨c, cs, hcs, hwhite, hprimary, hconstraint⟩ := exists_first_of_index h
  rw [declaresPrimaryKey, Token.toList_displayAll_cons, hcs, List.cons_append,
    List.dropWhile_cons_of_neg (by simp [hwhite]), beginsPrimaryKey_eq_false hprimary]
  simp [afterKeyword?, hconstraint]

/-- Behind the keyword of a constraint and its name the words of a primary key are looked for at
two places. -/
theorem declaresPrimaryKey_of_constraint (h : constraint.isKeyword "CONSTRAINT" = true)
    (hname : Text.Stops Text.isWhite (name.display.toList ++ Token.shownAfter more)) :
    declaresPrimaryKey (Token.displayAll (constraint :: name :: more)) =
      (beginsPrimaryKey (name.display.toList ++ Token.shownAfter more) ||
        (afterWord? (name.display.toList ++ Token.shownAfter more)).any beginsPrimaryKey) := by
  have hletters := map_toLower_display h
  obtain ⟨c, cs, hcs, hc, -⟩ := List.map_eq_cons_iff.1 hletters
  have hwhite : Text.isWhite c = false := by
    rw [← Text.isWhite_toLower, hc]
    rfl
  have hafter : afterKeyword? "constraint".toList
      (constraint.display.toList ++ Token.shownAfter (name :: more)) =
        some (Token.shownAfter (name :: more)) :=
    afterKeyword?_eq_some_iff.2 ⟨_, rfl, hasLetters_of_map_toLower hletters⟩
  have hspace : afterSpace? (Token.shownAfter (name :: more)) =
      some (name.display.toList ++ Token.shownAfter more) :=
    afterSpace?_eq_some_iff.2 ⟨[' '], rfl, isGap_space, hname⟩
  have hbegin : beginsPrimaryKey
      (constraint.display.toList ++ Token.shownAfter (name :: more)) = false := by
    rw [hcs]
    exact beginsPrimaryKey_eq_false (by rw [hc]; decide) _
  have hdrop :
      (constraint.display.toList ++ Token.shownAfter (name :: more)).dropWhile Text.isWhite =
        constraint.display.toList ++ Token.shownAfter (name :: more) := by
    rw [hcs]
    exact List.dropWhile_cons_of_neg (by simp [hwhite])
  rw [declaresPrimaryKey, Token.toList_displayAll_cons, hdrop, hbegin]
  simp only [hafter, hspace, Option.bind_eq_bind, Option.bind_some, Option.any_some, Bool.false_or]

/-- The next word after a space is the keyword of an ordinary index, and not that of a primary
key. -/
theorem any_afterWord?_index (h : Grammar.keyKindOf? head = some .index) (more : List Token) :
    (afterWord? (Token.shownAfter (head :: more))).any beginsPrimaryKey = false := by
  obtain ⟨c, cs, hcs, hwhite, hprimary, -⟩ := exists_first_of_index h
  have hspace : afterSpace? (Token.shownAfter (head :: more)) =
      some (head.display.toList ++ Token.shownAfter more) := by
    refine afterSpace?_eq_some_iff.2 ⟨[' '], rfl, isGap_space, ?_⟩
    rw [hcs]
    exact Text.stops_cons hwhite
  rw [afterWord?, Token.shownAfter_cons, List.dropWhile_cons_of_neg (by decide),
    ← Token.shownAfter_cons, hspace, Option.any_some, hcs]
  exact beginsPrimaryKey_eq_false hprimary _

/-- Behind a quoted name of a constraint the words of a primary key are only found in that name, or
where the next word begins. -/
theorem declaresPrimaryKey_of_quoted (h : constraint.isKeyword "CONSTRAINT" = true)
    (symbol : String) (more : List Token) :
    declaresPrimaryKey (Token.displayAll (constraint :: .quoted symbol :: more)) =
      if symbol.toList.dropWhile (!Text.isWhite ·) = [] then
        (afterWord? (Token.shownAfter more)).any beginsPrimaryKey
      else (afterWord? symbol.toList).any beginsPrimaryKey := by
  have htext : (Token.quoted symbol).display.toList ++ Token.shownAfter more =
      '\x60' :: quotedBefore (Token.shownAfter more) symbol.toList := by
    rw [Token.display_quoted, toList_quotedName, quotedBefore]
    simp
  have hword : afterWord? ('\x60' :: quotedBefore (Token.shownAfter more) symbol.toList) =
      afterWord? (quotedBefore (Token.shownAfter more) symbol.toList) := by
    rw [afterWord?, List.dropWhile_cons_of_pos rfl, afterWord?]
  rw [declaresPrimaryKey_of_constraint h (by rw [htext]; exact Text.stops_cons rfl), htext,
    beginsPrimaryKey_eq_false (by decide), hword, afterWord?_quotedBefore, Bool.false_or]
  split
  · rfl
  · cases afterWord? symbol.toList with
    | none => rfl
    | some rest => exact beginsPrimaryKey_quotedBefore _ rest

/-- A clause whose constraint has such a name declares a primary key, whatever follows. -/
theorem SpellsPrimaryKey.declaresPrimaryKey {symbol : String} (hsymbol : SpellsPrimaryKey symbol)
    (h : constraint.isKeyword "CONSTRAINT" = true) (more : List Token) :
    declaresPrimaryKey (Token.displayAll (constraint :: .quoted symbol :: more)) = true := by
  have hspelled := any_afterWord?_iff.2 hsymbol
  rw [declaresPrimaryKey_of_quoted h, if_neg ?_, hspelled]
  -- a name without white space has no second word
  intro hnone
  rw [afterWord?, hnone] at hspelled
  cases hspelled

theorem declaresPrimaryKey_of_quoted_iff (h : constraint.isKeyword "CONSTRAINT" = true)
    (hhead : Grammar.keyKindOf? head = some .index) (symbol : String) (more : List Token) :
    declaresPrimaryKey (Token.displayAll (constraint :: .quoted symbol :: head :: more)) = true ↔
      SpellsPrimaryKey symbol := by
  constructor
  · intro hdeclares
    rw [declaresPrimaryKey_of_quoted h, any_afterWord?_index hhead] at hdeclares
    split_ifs at hdeclares
    exact any_afterWord?_iff.1 hdeclares
  · exact fun hsymbol => hsymbol.declaresPrimaryKey h _

/-- A name without quotes is a single word, and does not declare a primary key. -/
theorem declaresPrimaryKey_of_word {w : String} (h : constraint.isKeyword "CONSTRAINT" = true)
    (hw : IsWord w) (hprimary : (Token.word w).isKeyword "PRIMARY" = false)
    (hhead : Grammar.keyKindOf? head = some .index) (more : List Token) :
    declaresPrimaryKey (Token.displayAll (constraint :: .word w :: head :: more)) = false := by
  obtain ⟨c, tail, hcs, hc, htail⟩ := hw
  have hwhite : ∀ d ∈ w.toList, Text.isWhite d = false := by
    rw [hcs, List.forall_mem_cons]
    exact ⟨Lexeme.isWhite_eq_false_of_continuesWord (Script.continuesWord_of_startsWord hc),
      fun d hd => Lexeme.isWhite_eq_false_of_continuesWord (htail d hd)⟩
  have hdark : ∀ d ∈ w.toList, (!Text.isWhite d) = true := fun d hd => by simp [hwhite d hd]
  have hstops : Text.Stops Text.isWhite
      ((Token.word w).display.toList ++ Token.shownAfter (head :: more)) := by
    change Text.Stops Text.isWhite (w.toList ++ _)
    rw [hcs]
    exact Text.stops_cons (hwhite c (hcs ▸ List.mem_cons_self))
  have hword : afterWord? (w.toList ++ Token.shownAfter (head :: more)) =
      afterWord? (Token.shownAfter (head :: more)) := by
    rw [afterWord?, List.dropWhile_append_of_pos hdark, afterWord?]
  have hbegin : beginsPrimaryKey (w.toList ++ Token.shownAfter (head :: more)) = false := by
    rw [← Bool.not_eq_true, beginsPrimaryKey_iff]
    rintro ⟨first, gap, second, rest, htext, hfirst, hgap, -⟩
    have hletters := hfirst.map_toLower (by decide)
    -- the first word of the text is the name, so the name would be `PRIMARY`
    have hsame : w.toList = first := by
      have hspace : Text.Stops (!Text.isWhite ·) (Token.shownAfter (head :: more)) :=
        Text.stops_cons rfl
      have hleft := Text.takeWhile_run hdark hspace
      have hright : (first ++ (gap ++ second ++ rest)).takeWhile (!Text.isWhite ·) = first := by
        refine Text.takeWhile_run (fun d hd => ?_) ?_
        · rw [isWhite_eq_false_of_toLower (hletters ▸ List.mem_map_of_mem hd) (by decide),
            Bool.not_false]
        · obtain ⟨d, gap, rfl⟩ := List.exists_cons_of_ne_nil hgap.1
          exact Text.stops_cons (by simp [hgap.2 d List.mem_cons_self])
      rw [← List.append_assoc, ← List.append_assoc, ← htext] at hright
      exact hleft.symm.trans hright
    rw [← hsame] at hletters
    have hkeyword : (Token.word w).isKeyword "PRIMARY" = true :=
      beq_iff_eq.2 (congrArg String.ofList hletters)
    rw [hkeyword] at hprimary
    cases hprimary
  rw [declaresPrimaryKey_of_constraint h hstops]
  change (beginsPrimaryKey (w.toList ++ _) || (afterWord? (w.toList ++ _)).any _) = false
  rw [hbegin, hword, any_afterWord?_index hhead, Bool.or_false]

end Texts

end Definition
end SchemaLint
