import SchemaLint.Proofs.Parser

/-!
# Parsers that do not look far

What a parser reads in front of some tokens it often reads in front of others as well, because it
looks at no more than the first of them.

* `Carries` - the judgement, with one rule for each way to make a parser of others.  A part that
  ends inside what is read may look at separators too.
* `Carries.clauses` and `Carries.separatedFold` - the loops, by induction on their turns.
-/

namespace SchemaLint
namespace Parser

variable {τ ε α β σ κ : Type} {inner : Prop} {rest other : List τ} {x y : τ}

/-- What `p` reads in front of `rest`, `q` reads in front of `other`.  If the part is an inner one,
this is so only where it leaves some of the tokens in front of them. -/
def Carries (inner : Prop) (rest other : List τ) (p q : Parser τ ε α) : Prop :=
  ∀ tokens left a, (inner → left ≠ []) → p.run (tokens ++ rest) = .ok (a, left ++ rest) →
    q.run (tokens ++ other) = .ok (a, left ++ other)

/-- A token that is no keyword. -/
def IsMark [HasKeywords τ] (token : τ) : Prop :=
  ∀ keyword, HasKeywords.isKeyword keyword token = false

/-- A parser that takes at least one token. -/
def Takes (p : Parser τ ε α) : Prop :=
  ∀ tokens a, p.run tokens ≠ .ok (a, tokens)

/-- A text that is read further, down to what ends with `rest`, ends with it too. -/
theorem exists_of_run {p : Parser τ ε α} {middle left : List τ} {a : α}
    (h : p.run middle = .ok (a, left ++ rest)) :
    ∃ between, middle = between ++ rest ∧ left <:+ between := by
  obtain ⟨front, rfl⟩ := p.suffix h
  exact ⟨front ++ left, (List.append_assoc ..).symm, List.suffix_append front left⟩

namespace Takes

/-- A parser takes a token if its first part does. -/
theorem bind {p : Parser τ ε α} (h : Takes p) (f : α → Parser τ ε β) : Takes (p >>= f) := by
  intro tokens b hrun
  obtain ⟨a, middle, hp, hf⟩ := run_bind_eq_ok.1 hrun
  obtain rfl : middle = tokens :=
    (p.suffix hp).eq_of_length_le ((f a).suffix hf).length_le
  exact h _ a hp

/-- A parser takes a token if what follows its first part does. -/
theorem of_bind (p : Parser τ ε α) {f : α → Parser τ ε β} (h : ∀ a, Takes (f a)) :
    Takes (p >>= f) := by
  intro tokens b hrun
  obtain ⟨a, middle, hp, hf⟩ := run_bind_eq_ok.1 hrun
  obtain rfl : middle = tokens :=
    (p.suffix hp).eq_of_length_le ((f a).suffix hf).length_le
  exact h a _ b hf

end Takes

theorem ne_append_cons (left rest : List τ) (x : τ) : rest ≠ left ++ x :: rest := by
  intro h
  have hlength := congrArg List.length h
  rw [List.length_append, List.length_cons] at hlength
  omega

/-- Tokens that are dropped down to what ends with `x :: rest` stand in front of it. -/
theorem drop_eq_append {tokens left : List τ} {n : Nat}
    (h : (tokens ++ x :: rest).drop n = left ++ x :: rest) :
    n ≤ tokens.length ∧ tokens.drop n = left := by
  have hn : n ≤ tokens.length := by
    have hlength := congrArg List.length h
    simp only [List.length_drop, List.length_append, List.length_cons] at hlength
    omega
  rw [List.drop_append_of_le_length hn] at h
  exact ⟨hn, List.append_cancel_right h⟩

namespace Carries

protected theorem pure (a : α) :
    Carries inner rest other (Pure.pure a : Parser τ ε α) (Pure.pure a) := by
  intro tokens left b _ h
  obtain ⟨rfl, htokens⟩ := Prod.mk.inj (Except.ok.inj h)
  rw [List.append_cancel_right htokens]
  rfl

theorem of_fails {p q : Parser τ ε α} (h : ∀ tokens result, p.run tokens ≠ .ok result) :
    Carries inner rest other p q :=
  fun _ _ _ _ hrun => absurd hrun (h _ _)

protected theorem bind {p q : Parser τ ε α} {f g : α → Parser τ ε β}
    (h : Carries inner rest other p q) (hrest : ∀ a, Carries inner rest other (f a) (g a)) :
    Carries inner rest other (p >>= f) (q >>= g) := by
  intro tokens left b hleft hrun
  obtain ⟨a, middle, hp, hf⟩ := run_bind_eq_ok.1 hrun
  obtain ⟨between, rfl, hbetween⟩ := exists_of_run hf
  rw [run_bind (h tokens between a (fun hinner hnil => ?_) hp)]
  · exact hrest a between left b hleft hf
  · rw [hnil, List.suffix_nil] at hbetween
    exact hleft hinner hbetween

/-- A part in front of one that takes a token is an inner one. -/
theorem bind_of_takes {p q : Parser τ ε α} {f g : α → Parser τ ε β}
    (h : Carries True rest other p q) (hrest : ∀ a, Carries inner rest other (f a) (g a))
    (htakes : ∀ a, Takes (f a)) : Carries inner rest other (p >>= f) (q >>= g) := by
  intro tokens left b hleft hrun
  obtain ⟨a, middle, hp, hf⟩ := run_bind_eq_ok.1 hrun
  obtain ⟨between, rfl, hbetween⟩ := exists_of_run hf
  rw [run_bind (h tokens between a (fun _ hnil => ?_) hp)]
  · exact hrest a between left b hleft hf
  · rw [hnil, List.suffix_nil] at hbetween
    rw [hnil, hbetween] at hf
    exact htakes a _ _ hf

/-- What is made of the tokens that are left has to be carried over for each of them. -/
theorem remaining_bind {f g : List τ → Parser τ ε α}
    (h : ∀ tokens, Carries inner rest other (f (tokens ++ rest)) (g (tokens ++ other))) :
    Carries inner rest other (remaining >>= f) (remaining >>= g) :=
  fun tokens left a hleft hrun => h tokens tokens left a hleft hrun

/-- A token that is taken stands in front of `rest`. -/
theorem next : Carries inner (x :: rest) (y :: other) (next : Parser τ ε (Option τ)) next := by
  intro tokens left a _ hrun
  obtain ⟨rfl, htokens⟩ := Prod.mk.inj (Except.ok.inj hrun)
  cases tokens with
  | nil => exact absurd htokens (ne_append_cons left rest x)
  | cons token tokens =>
      obtain rfl : tokens = left := List.append_cancel_right htokens
      rfl

/-- A parser that looks at the next token has to do the same for the first tokens of both lists. -/
theorem peek_bind {f g : Option τ → Parser τ ε α}
    (h : ∀ token, Carries inner (x :: rest) (y :: other) (f (some token)) (g (some token)))
    (hends : Carries inner (x :: rest) (y :: other) (f (some x)) (g (some y))) :
    Carries inner (x :: rest) (y :: other) (peek >>= f) (peek >>= g) := by
  intro tokens left a hleft hrun
  cases tokens with
  | nil => exact hends [] left a hleft hrun
  | cons token tokens => exact h token (token :: tokens) left a hleft hrun

/-- A token that may be left out is none that only the second list begins with, unless the part
that reads it is an inner one. -/
theorem optionalToken [DecidableEq τ] {token : τ} (h : ¬ inner → y = token → x = token) :
    Carries inner (x :: rest) (y :: other) (optionalToken token : Parser τ ε Bool)
      (optionalToken token) := by
  intro tokens left a hleft hrun
  rw [run_optionalToken, Except.ok.injEq] at hrun
  rw [run_optionalToken, Except.ok.injEq]
  cases tokens with
  | nil =>
      change (if some x = some token then (true, rest) else (false, x :: rest)) = _ at hrun
      change (if some y = some token then (true, other) else (false, y :: other)) = _
      split at hrun
      · exact absurd (Prod.mk.inj hrun).2 (ne_append_cons left rest x)
      · next hx =>
          obtain ⟨rfl, htokens⟩ := Prod.mk.inj hrun
          obtain rfl : left = [] := List.self_eq_append_left.1 htokens
          have hy : ¬ some y = some token := fun hy =>
            hx (congrArg some (h (fun hinner => hleft hinner rfl) (Option.some.inj hy)))
          rw [if_neg hy]
          rfl
  | cons next tokens =>
      change (if some next = some token then (true, tokens ++ x :: rest)
        else (false, next :: tokens ++ x :: rest)) = _ at hrun
      change (if some next = some token then (true, tokens ++ y :: other)
        else (false, next :: tokens ++ y :: other)) = _
      split at hrun
      · next htoken =>
          obtain ⟨rfl, htokens⟩ := Prod.mk.inj hrun
          rw [if_pos htoken, List.append_cancel_right htokens]
      · next htoken =>
          obtain ⟨rfl, htokens⟩ := Prod.mk.inj hrun
          rw [if_neg htoken, List.append_cancel_right htokens]

section Keywords

variable [HasKeywords τ]

/-- Keywords end before both lists. -/
theorem startsWith_append (hx : IsMark x) (hy : IsMark y) (keywords : List String)
    (tokens : List τ) :
    startsWith keywords (tokens ++ x :: rest) = startsWith keywords (tokens ++ y :: other) := by
  induction keywords generalizing tokens with
  | nil => rfl
  | cons keyword keywords ih =>
      cases tokens with
      | nil => simp [startsWith, hx keyword, hy keyword]
      | cons token tokens => simp [startsWith, ih]

theorem optionalKeywords (hx : IsMark x) (hy : IsMark y) (keywords : List String) :
    Carries inner (x :: rest) (y :: other) (optionalKeywords keywords : Parser τ ε Bool)
      (optionalKeywords keywords) := by
  intro tokens left a hleft hrun
  have hstarts := @startsWith_append _ rest other x y _ hx hy keywords tokens
  change Except.ok (if startsWith keywords (tokens ++ x :: rest) then
    (true, (tokens ++ x :: rest).drop keywords.length)
    else (false, tokens ++ x :: rest)) = _ at hrun
  change Except.ok (if startsWith keywords (tokens ++ y :: other) then
    (true, (tokens ++ y :: other).drop keywords.length) else (false, tokens ++ y :: other)) = _
  rw [← hstarts]
  split at hrun
  · next hfollow =>
      obtain ⟨rfl, hdrop⟩ := Prod.mk.inj (Except.ok.inj hrun)
      obtain ⟨hlength, rfl⟩ := drop_eq_append hdrop
      rw [if_pos hfollow, List.drop_append_of_le_length hlength]
  · next hfollow =>
      obtain ⟨rfl, htokens⟩ := Prod.mk.inj (Except.ok.inj hrun)
      rw [if_neg hfollow, List.append_cancel_right htokens]

/-- The head of a clause is looked up among the keywords. -/
theorem keywordHead_append (hx : IsMark x) (hy : IsMark y)
    (table : List (String × List String × κ)) (token : τ) (tokens : List τ) :
    keywordHead table token (tokens ++ x :: rest) =
      keywordHead table token (tokens ++ y :: other) := by
  simp only [keywordHead, @startsWith_append _ rest other x y _ hx hy]

end Keywords

/-- The clauses that are carried over begin alike, and the second list begins with none. -/
theorem clauses {head : τ → List τ → Option (κ × Nat)} {body body' : κ → σ → Parser τ ε σ}
    (hhead : ∀ token tokens, head token (tokens ++ x :: rest) = head token (tokens ++ y :: other))
    (hy : head y other = none)
    (hbody : ∀ kind state, Carries inner (x :: rest) (y :: other) (body kind state)
      (body' kind state)) (state : σ) :
    Carries inner (x :: rest) (y :: other) (clauses head body state)
      (clauses head body' state) := by
  intro tokens left result hleft hrun
  change clausesFrom head body state (tokens ++ x :: rest) = _ at hrun
  generalize hall : tokens ++ x :: rest = all at hrun
  fun_induction clausesFrom head body state all generalizing tokens with
  | case1 => simp at hall
  | case2 state token all hnone =>
      obtain ⟨rfl, hsame⟩ := Prod.mk.inj (Except.ok.inj hrun)
      obtain rfl : tokens = left := List.append_cancel_right (hall.trans hsame)
      cases tokens with
      | nil => exact run_clauses_of_none hy body' state
      | cons first tokens =>
          cases hall
          exact run_clauses_of_none ((hhead _ _).symm.trans hnone) body' state
  | case3 => cases hrun
  | case4 state token all kind more hsome next last hnext _ ih =>
      -- what is left after the clause ends with the first list, so the clause stands in front of it
      obtain ⟨between, rfl, hbetween⟩ :=
        @exists_of_run _ _ _ _ (.clauses head body next) _ left result hrun
      obtain ⟨front, hdrop, hfront⟩ := exists_of_run hnext
      cases tokens with
      | nil =>
          cases hall
          have hlength := congrArg List.length hdrop
          simp only [List.length_drop, List.length_append, List.length_cons] at hlength
          omega
      | cons first tokens =>
          cases hall
          obtain ⟨hmore, rfl⟩ := drop_eq_append hdrop
          have hcarried := hbody kind state (tokens.drop more) between next
            (fun hinner hnil => hleft hinner (List.suffix_nil.1 (hnil ▸ hbetween))) (hdrop ▸ hnext)
          rw [List.cons_append, run_clauses_cons ((hhead _ _).symm.trans hsome)
            (by rwa [List.drop_append_of_le_length hmore])]
          exact ih between rfl hrun

/-- Items with separators between them are carried over as an inner part. -/
theorem separatedFold [DecidableEq τ] {separator : τ} {item : σ → Parser τ ε σ}
    (hitem : ∀ state, Carries True (x :: rest) (y :: other) (item state) (item state)) (state : σ) :
    Carries True (x :: rest) (y :: other) (separatedFold separator false item state)
      (separatedFold separator false item state) := by
  intro tokens left result hleft hrun
  change separatedFrom separator false item state (tokens ++ x :: rest) = _ at hrun
  change separatedFrom separator false item state (tokens ++ y :: other) = _
  generalize hall : tokens ++ x :: rest = all at hrun
  fun_induction separatedFrom separator false item state all generalizing tokens with
  | case1 => cases hrun
  | case2 => simp at hrun
  | case3 => simp at hrun
  | case4 state all next more _ hread hnext ih =>
      -- the items after the separator leave `left`, and so the separator stands in front of it
      obtain ⟨between, rfl, hbetween⟩ :=
        @exists_of_run _ _ _ _ (.separatedFold separator false item next) _ left result hrun
      subst hall
      rw [separatedFrom_of_separator
        (hitem state tokens (separator :: between) next (fun _ => List.cons_ne_nil _ _) hread)]
      exact ih between rfl hrun
  | case5 state all next token more hread hne =>
      subst hall
      obtain ⟨rfl, hmore⟩ := Prod.mk.inj (Except.ok.inj hrun)
      rw [hmore] at hread
      cases left with
      | nil => exact absurd rfl (hleft trivial)
      | cons first left =>
          obtain ⟨rfl, -⟩ := List.cons.inj hmore
          exact separatedFrom_of_ne (hitem state tokens (token :: left) next hleft hread) hne

end Carries
end Parser
end SchemaLint
