import SchemaLint.Parser.Keyword
import SchemaLint.Proofs.Except

/-!
# Running parsers

What a parser made of others does, given what they do.
-/

namespace SchemaLint
namespace Parser

variable {τ ε α β σ κ : Type} {tokens rest : List τ}

theorem run_bind {p : Parser τ ε α} {a : α} (h : p.run tokens = .ok (a, rest))
    (f : α → Parser τ ε β) : (p >>= f).run tokens = (f a).run rest := by
  change (Parser.bind p f).run tokens = _
  simp only [Parser.bind, h]

theorem run_bind_of_error {p : Parser τ ε α} {error : ε} (h : p.run tokens = .error error)
    (f : α → Parser τ ε β) : (p >>= f).run tokens = .error error := by
  change (Parser.bind p f).run tokens = _
  simp only [Parser.bind, h]

/-- Two parsers that do the same do so in front of a third. -/
theorem run_bind_congr {p q : Parser τ ε α} {others : List τ} (h : p.run tokens = q.run others)
    (f : α → Parser τ ε β) : (p >>= f).run tokens = (q >>= f).run others := by
  change (Parser.bind p f).run tokens = (Parser.bind q f).run others
  simp only [Parser.bind, h]

/-- A parser made of two that succeeds has run both. -/
theorem run_bind_eq_ok {p : Parser τ ε α} {f : α → Parser τ ε β} {result : β × List τ} :
    (p >>= f).run tokens = .ok result ↔
      ∃ a middle, p.run tokens = .ok (a, middle) ∧ (f a).run middle = .ok result := by
  change (Parser.bind p f).run tokens = _ ↔ _
  simp only [Parser.bind]
  cases p.run tokens with
  | error error => simp
  | ok read =>
      obtain ⟨a, middle⟩ := read
      simp [and_assoc]

/-- Parsers are told apart by their runs. -/
protected theorem ext {p q : Parser τ ε α} (h : ∀ tokens, p.run tokens = q.run tokens) : p = q := by
  obtain ⟨run, _⟩ := p
  obtain ⟨run', _⟩ := q
  obtain rfl : run = run' := funext h
  rfl

protected theorem bind_pure (p : Parser τ ε α) : p >>= pure = p := by
  refine Parser.ext fun tokens => ?_
  change (Parser.bind p pure).run tokens = _
  simp only [Parser.bind]
  split
  · next h => exact h.symm
  · next h => exact h.symm

protected theorem pure_bind (a : α) (f : α → Parser τ ε β) : pure a >>= f = f a := rfl

protected theorem bind_assoc (p : Parser τ ε α) (f : α → Parser τ ε β) (g : β → Parser τ ε σ) :
    p >>= f >>= g = p >>= fun a => f a >>= g := by
  refine Parser.ext fun tokens => ?_
  cases h : p.run tokens with
  | error error =>
      rw [run_bind_of_error h, run_bind_of_error (run_bind_of_error h f)]
  | ok read =>
      obtain ⟨a, rest⟩ := read
      rw [run_bind h, run_bind_congr (run_bind h f)]

/-- Every value that a parser reads has a property. -/
def Returns (p : Parser τ ε α) (P : α → Prop) : Prop :=
  ∀ tokens a rest, p.run tokens = .ok (a, rest) → P a

namespace Returns

variable {P : α → Prop}

protected theorem pure {a : α} (h : P a) : Returns (Pure.pure a : Parser τ ε α) P := by
  intro _ _ _ hrun
  cases hrun
  exact h

protected theorem bind {p : Parser τ ε β} {f : β → Parser τ ε α} (h : ∀ b, Returns (f b) P) :
    Returns (p >>= f) P := by
  intro tokens a rest hrun
  obtain ⟨b, middle, -, hf⟩ := run_bind_eq_ok.1 hrun
  exact h b _ _ _ hf

end Returns

/-- Two parsers that leave the same tokens, and fail alike. -/
def LeavesSame (p : Parser τ ε α) (q : Parser τ ε β) : Prop :=
  ∀ tokens, (p.run tokens).map Prod.snd = (q.run tokens).map Prod.snd

namespace LeavesSame

protected theorem refl (p : Parser τ ε α) : LeavesSame p p :=
  fun _ => rfl

protected theorem pure (a : α) (b : β) :
    LeavesSame (Pure.pure a : Parser τ ε α) (Pure.pure b : Parser τ ε β) :=
  fun _ => rfl

protected theorem bind (p : Parser τ ε σ) {f : σ → Parser τ ε α}
    {g : σ → Parser τ ε β}
    (h : ∀ c, LeavesSame (f c) (g c)) : LeavesSame (p >>= f) (p >>= g) := by
  intro tokens
  change ((Parser.bind p f).run tokens).map _ = ((Parser.bind p g).run tokens).map _
  simp only [Parser.bind]
  cases p.run tokens with
  | error error => rfl
  | ok read => exact h read.1 read.2

theorem exists_of_run {p : Parser τ ε α} {q : Parser τ ε β} (h : LeavesSame p q) {a : α}
    (hp : p.run tokens = .ok (a, rest)) : ∃ b, q.run tokens = .ok (b, rest) := by
  have hsame := h tokens
  rw [hp] at hsame
  obtain ⟨⟨b, last⟩, hq, rfl⟩ := map_eq_ok.1 hsame.symm
  exact ⟨b, hq⟩

end LeavesSame

theorem run_pure (a : α) : (pure a : Parser τ ε α).run tokens = .ok (a, tokens) := rfl

theorem run_remaining : (remaining : Parser τ ε (List τ)).run tokens = .ok (tokens, tokens) := rfl

theorem run_atEnd : (atEnd : Parser τ ε Bool).run tokens = .ok (tokens.isEmpty, tokens) := rfl

theorem run_ahead [HasKeywords τ] (keyword : String) :
    (ahead keyword : Parser τ ε Bool).run tokens =
      .ok (tokens.head?.any (HasKeywords.isKeyword keyword), tokens) := rfl

theorem run_aheadAny [HasKeywords τ] (keywords : List String) :
    (aheadAny keywords : Parser τ ε Bool).run tokens =
      .ok (tokens.head?.any fun token => keywords.any (HasKeywords.isKeyword · token), tokens) :=
  rfl

theorem run_optionalToken [DecidableEq τ] (token : τ) :
    (optionalToken token : Parser τ ε Bool).run tokens =
      .ok (if tokens.head? = some token then (true, tokens.tail) else (false, tokens)) := rfl

theorem run_optionalKeyword [HasKeywords τ] (keyword : String) :
    (optionalKeyword keyword : Parser τ ε Bool).run tokens =
      .ok (if startsWith [keyword] tokens then (true, tokens.drop 1) else (false, tokens)) := rfl

theorem run_bind_optionalKeyword [HasKeywords τ] (keyword : String) (f : Bool → Parser τ ε α) :
    (optionalKeyword keyword >>= f).run tokens =
      if startsWith [keyword] tokens then (f true).run (tokens.drop 1)
      else (f false).run tokens := by
  split
  · next h => exact run_bind (by rw [run_optionalKeyword, if_pos h]) f
  · next h => exact run_bind (by rw [run_optionalKeyword, if_neg h]) f

theorem run_peek : (peek : Parser τ ε (Option τ)).run tokens = .ok (tokens.head?, tokens) := rfl

/-- A token that does not follow is not read. -/
theorem run_optionalToken_of_ne [DecidableEq τ] {token next : τ} (h : next ≠ token) :
    (optionalToken token : Parser τ ε Bool).run (next :: rest) = .ok (false, next :: rest) := by
  have hhead : ¬ (next :: rest).head? = some token := by simpa using h
  change Except.ok (if _ then _ else _) = _
  rw [if_neg hhead]

theorem run_clauses_nil (head : τ → List τ → Option (κ × Nat)) (body : κ → σ → Parser τ ε σ)
    (state : σ) : (clauses head body state).run [] = .ok (state, []) := by
  change clausesFrom head body state [] = _
  rw [clausesFrom]

/-- Clauses end before a token that begins none. -/
theorem run_clauses_of_none {head : τ → List τ → Option (κ × Nat)} {token : τ}
    (h : head token rest = none) (body : κ → σ → Parser τ ε σ) (state : σ) :
    (clauses head body state).run (token :: rest) = .ok (state, token :: rest) := by
  change clausesFrom head body state (token :: rest) = _
  rw [clausesFrom]
  split
  · rfl
  · next hsome => cases h.symm.trans hsome

/-- After a clause that is read the next ones follow. -/
theorem run_clauses_cons {head : τ → List τ → Option (κ × Nat)} {token : τ} {kind : κ} {more : Nat}
    (h : head token rest = some (kind, more)) {body : κ → σ → Parser τ ε σ} {state next : σ}
    {left : List τ} (hbody : (body kind state).run (rest.drop more) = .ok (next, left)) :
    (clauses head body state).run (token :: rest) = (clauses head body next).run left := by
  change clausesFrom head body state (token :: rest) = _
  rw [clausesFrom]
  split
  · next hnone => cases h.symm.trans hnone
  · next kind' more' hsome =>
      cases h.symm.trans hsome
      split
      · next herror => cases herror.symm.trans hbody
      · next hok =>
          cases hok.symm.trans hbody
          rfl

/-- Clauses fail with one that is not read. -/
theorem run_clauses_of_error {head : τ → List τ → Option (κ × Nat)} {token : τ} {kind : κ}
    {more : Nat} (h : head token rest = some (kind, more)) {body : κ → σ → Parser τ ε σ} {state : σ}
    {error : ε} (hbody : (body kind state).run (rest.drop more) = .error error) :
    (clauses head body state).run (token :: rest) = .error error := by
  change clausesFrom head body state (token :: rest) = _
  rw [clausesFrom]
  split
  · next hnone => cases h.symm.trans hnone
  · next hsome =>
      cases h.symm.trans hsome
      split
      · next herror => exact herror.symm.trans hbody
      · next hok => cases hok.symm.trans hbody

/-- What holds before the clauses and goes on to hold after each one holds after all of them, and
no clause begins there. -/
theorem run_clauses_induction {head : τ → List τ → Option (κ × Nat)} {body : κ → σ → Parser τ ε σ}
    {P : σ → List τ → Prop} {state result : σ}
    (hstep : ∀ token rest kind more state next left, head token rest = some (kind, more) →
      (body kind state).run (rest.drop more) = .ok (next, left) → P state (token :: rest) →
        P next left)
    (h : (clauses head body state).run tokens = .ok (result, rest)) (hP : P state tokens) :
    P result rest ∧ ∀ token more, rest = token :: more → head token more = none := by
  change clausesFrom head body state tokens = _ at h
  fun_induction clausesFrom head body state tokens with
  | case1 =>
      cases h
      exact ⟨hP, by simp⟩
  | case2 _ token tokens hnone =>
      cases h
      refine ⟨hP, fun _ _ heq => ?_⟩
      cases heq
      exact hnone
  | case3 => cases h
  | case4 _ _ _ _ _ hhead _ _ hbody _ ih => exact ih (hstep _ _ _ _ _ _ _ hhead hbody hP) h

/-- No clause begins with a token that is none of the first keywords. -/
theorem keywordHead_eq_none [HasKeywords τ] {table : List (String × List String × κ)} {token : τ}
    (h : ∀ entry ∈ table, HasKeywords.isKeyword entry.1 token = false) (rest : List τ) :
    keywordHead table token rest = none := by
  rw [keywordHead, Option.map_eq_none_iff, List.find?_eq_none]
  intro entry hentry
  simp [h entry hentry]

/-- Items fail with one that is not read. -/
theorem separatedFrom_of_error [DecidableEq τ] {item : σ → Parser τ ε σ} {state : σ} {error : ε}
    (h : (item state).run tokens = .error error) (separator : τ) (mayEnd : Bool) :
    separatedFrom separator mayEnd item state tokens = .error error := by
  rw [separatedFrom]
  split
  · next herror => exact herror.symm.trans h
  · next hok => cases hok.symm.trans h
  · next hok => cases hok.symm.trans h

/-- What is done behind an item that has been read. -/
theorem separatedFrom_of_run [DecidableEq τ] {item : σ → Parser τ ε σ} {state next : σ}
    (h : (item state).run tokens = .ok (next, rest)) (separator : τ) (mayEnd : Bool) :
    separatedFrom separator mayEnd item state tokens = match rest with
      | [] => .ok (next, [])
      | token :: more =>
          if token = separator then
            if mayEnd && more.isEmpty then .ok (next, [])
            else separatedFrom separator mayEnd item next more
          else .ok (next, token :: more) := by
  rw [separatedFrom]
  split
  · next herror => cases herror.symm.trans h
  · next hok =>
      cases hok.symm.trans h
      rfl
  · next hok =>
      cases hok.symm.trans h
      rfl

/-- A single item needs no separator. -/
theorem run_separated_singleton [DecidableEq τ] {item : Parser τ ε α} {a : α}
    (h : item.run tokens = .ok (a, [])) (separator : τ) :
    (separated separator item).run tokens = .ok ([a], []) := by
  have hitem : (item >>= fun a => pure ([] ++ [a])).run tokens = .ok ([a], []) := run_bind h _
  change separatedFrom separator false (fun items => return items ++ [← item]) [] tokens = _
  exact Eq.trans (separatedFrom_of_run hitem separator false) rfl

section Separated

variable [DecidableEq τ] {separator last : τ} {item : σ → Parser τ ε σ} {step : σ → α → σ}
  {spell : α → List τ}

/-- After an item with a separator behind it the next ones follow. -/
theorem separatedFrom_of_separator {state next : σ}
    (h : (item state).run tokens = .ok (next, separator :: rest)) :
    separatedFrom separator false item state tokens =
      separatedFrom separator false item next rest :=
  (separatedFrom_of_run h separator false).trans (if_pos rfl)

/-- An item with another token behind it is the last one. -/
theorem separatedFrom_of_ne {mayEnd : Bool} {state next : σ}
    (h : (item state).run tokens = .ok (next, last :: rest)) (hlast : last ≠ separator) :
    separatedFrom separator mayEnd item state tokens = .ok (next, last :: rest) :=
  (separatedFrom_of_run h separator mayEnd).trans (if_neg hlast)

/-- Items with separators between them are read one after another, up to a token that is no
separator. -/
theorem run_separatedFold (hlast : last ≠ separator)
    (hitem : ∀ state a next more, next = separator ∨ next = last →
      (item state).run (spell a ++ next :: more) = .ok (step state a, next :: more)) :
    ∀ {items : List α}, items ≠ [] → ∀ state,
      (separatedFold separator false item state).run
          ([separator].intercalate (items.map spell) ++ last :: rest) =
        .ok (items.foldl step state, last :: rest)
  | [], hitems, _ => absurd rfl hitems
  | [a], _, state => by
      rw [List.map_singleton, List.intercalate_singleton]
      exact separatedFrom_of_ne (hitem state a last rest (.inr rfl)) hlast
  | a :: b :: items, _, state => by
      have hspell : [separator].intercalate ((a :: b :: items).map spell) ++ last :: rest =
          spell a ++ separator ::
            ([separator].intercalate ((b :: items).map spell) ++ last :: rest) := by
        rw [List.map_cons, List.map_cons, List.intercalate_cons_cons, List.append_assoc,
          List.append_assoc]
        rfl
      rw [hspell]
      exact (separatedFrom_of_separator (hitem state a separator _ (.inl rfl))).trans
        (run_separatedFold hlast hitem (List.cons_ne_nil b items) (step state a))

/-- Items that have been read had separators between them. -/
theorem exists_items_of_run {state result : σ}
    (h : (separatedFold separator false item state).run tokens = .ok (result, last :: rest)) :
    ∃ items, items ≠ [] ∧ tokens = [separator].intercalate items ++ last :: rest ∧
      ∀ spelling ∈ items, ∃ before after next more, (next = separator ∨ next = last) ∧
        (item before).run (spelling ++ next :: more) = .ok (after, next :: more) := by
  change separatedFrom separator false item state tokens = _ at h
  fun_induction separatedFrom separator false item state tokens with
  | case1 => cases h
  | case2 => cases h
  | case3 => cases h
  | case4 state tokens next more _ hread _ ih =>
      obtain ⟨spelling, rfl⟩ := (item state).suffix hread
      obtain ⟨items, hne, rfl, hitems⟩ := ih h
      refine ⟨spelling :: items, List.cons_ne_nil _ _, ?_, List.forall_mem_cons.2 ⟨?_, hitems⟩⟩
      · obtain ⟨first, items, rfl⟩ := List.exists_cons_of_ne_nil hne
        simp [List.intercalate_cons_cons]
      · exact ⟨state, next, separator, _, .inl rfl, hread⟩
  | case5 state tokens next token more hread hne =>
      obtain ⟨spelling, rfl⟩ := (item state).suffix hread
      cases h
      exact ⟨[spelling], List.cons_ne_nil _ _, by simp,
        List.forall_mem_singleton.2 ⟨state, _, last, rest, .inr rfl, hread⟩⟩

/-- What holds before the items and goes on to hold after each one holds after all of them. -/
theorem run_separatedFold_induction {mayEnd : Bool} {P : σ → Prop} {state result : σ}
    (hstep : ∀ state front next left, front <:+ tokens → (item state).run front = .ok (next, left) →
      P state → P next)
    (h : (separatedFold separator mayEnd item state).run tokens = .ok (result, rest))
    (hP : P state) : P result := by
  change separatedFrom separator mayEnd item state tokens = _ at h
  fun_induction separatedFrom separator mayEnd item state tokens with
  | case1 => cases h
  | case2 _ _ _ hread =>
      cases h
      exact hstep _ _ _ _ (List.suffix_refl _) hread hP
  | case3 _ _ _ _ _ hread =>
      cases h
      exact hstep _ _ _ _ (List.suffix_refl _) hread hP
  | case4 state tokens next more _ hread _ ih =>
      refine ih (fun state front next left hsuffix => ?_)
        (hstep _ _ _ _ (List.suffix_refl _) hread hP) h
      exact hstep state front next left
        ((hsuffix.trans (List.suffix_cons _ _)).trans ((item _).suffix hread))
  | case5 _ _ _ _ _ hread =>
      cases h
      exact hstep _ _ _ _ (List.suffix_refl _) hread hP

/-- The values of items with separators between them. -/
theorem run_separated {item : Parser τ ε β} {value : α → β} (hlast : last ≠ separator)
    (hitem : ∀ a next more, next = separator ∨ next = last →
      item.run (spell a ++ next :: more) = .ok (value a, next :: more))
    {items : List α} (hitems : items ≠ []) :
    (separated separator item).run
        ([separator].intercalate (items.map spell) ++ last :: rest) =
      .ok (items.map value, last :: rest) := by
  have hstep : ∀ (state : List β) (a : α) (next : τ) (more : List τ),
      next = separator ∨ next = last →
        (item >>= fun b => pure (state ++ [b])).run (spell a ++ next :: more) =
          .ok (state ++ [value a], next :: more) := by
    intro state a next more hnext
    rw [run_bind (hitem a next more hnext)]
    rfl
  have hfold : items.foldl (fun state a => state ++ [value a]) [] = items.map value := by
    rw [List.foldl_append_eq_append, List.nil_append, ← List.flatMap_def, ← List.map_eq_flatMap]
  rw [separated, run_separatedFold hlast hstep hitems, hfold]

end Separated

end Parser
end SchemaLint
