/-!
# Parsers

A parser reads some tokens from the front of a list and leaves a suffix of the list.  The
suffix is part of the type, so no parser can step outside its input or back over a token.
Loops take a token at every turn, either at its beginning or between two turns, and so they end.
-/

namespace SchemaLint

/-- A parser of values of type `α` from tokens of type `τ`, which fails with an error of type
`ε`. -/
structure Parser (τ ε α : Type) where
  run : List τ → Except ε (α × List τ)
  suffix : ∀ {tokens : List τ} {value : α} {rest : List τ},
    run tokens = .ok (value, rest) → rest <:+ tokens

namespace Parser

variable {τ ε α β σ κ : Type}

/-- Reads nothing. -/
protected def pure (value : α) : Parser τ ε α where
  run tokens := .ok (value, tokens)
  suffix h := by
    cases h
    exact List.suffix_refl _

/-- Reads with one parser and then with another. -/
protected def bind (p : Parser τ ε α) (f : α → Parser τ ε β) : Parser τ ε β where
  run tokens :=
    match p.run tokens with
    | .error error => .error error
    | .ok (value, rest) => (f value).run rest
  suffix h := by
    split at h
    · cases h
    · next hp => exact ((f _).suffix h).trans (p.suffix hp)

instance : Monad (Parser τ ε) where
  pure := Parser.pure
  bind := Parser.bind

theorem length_le (p : Parser τ ε α) {tokens rest : List τ} {value : α}
    (h : p.run tokens = .ok (value, rest)) : rest.length ≤ tokens.length :=
  (p.suffix h).length_le

/-- The tokens that are left. -/
def remaining : Parser τ ε (List τ) where
  run tokens := .ok (tokens, tokens)
  suffix h := by
    cases h
    exact List.suffix_refl _

/-- Fails with an error that depends on the tokens that are left. -/
def failWith (error : List τ → ε) : Parser τ ε α where
  run tokens := .error (error tokens)
  suffix h := by cases h

/-- Reads one token, whatever it is; at the end it reads nothing. -/
def next : Parser τ ε (Option τ) where
  run tokens := .ok (tokens.head?, tokens.tail)
  suffix h := by
    cases h
    exact List.tail_suffix _

/-- Leaves the tokens that a scan leaves. -/
def scan (f : List τ → α × List τ) (h : ∀ tokens, (f tokens).2 <:+ tokens) :
    Parser τ ε α where
  run tokens := .ok (f tokens)
  suffix := by
    intro tokens value rest heq
    cases hf : f tokens with
    | mk value' rest' =>
        rw [hf] at heq
        cases heq
        have := h tokens
        rwa [hf] at this

/-- The next token, which stays. -/
def peek : Parser τ ε (Option τ) :=
  return (← remaining).head?

/-- Whether no token is left. -/
def atEnd : Parser τ ε Bool :=
  return (← remaining).isEmpty

/-- Reads this token if it follows, and says whether it does. -/
def optionalToken [DecidableEq τ] (token : τ) : Parser τ ε Bool :=
  scan
    (fun tokens => if tokens.head? = some token then (true, tokens.tail) else (false, tokens))
    (fun tokens => by
      split
      · exact List.tail_suffix _
      · exact List.suffix_refl _)

/-- Reads with one parser, and with another one from the same place if the first fails with an
error that may be passed over. -/
def either (passes : ε → Bool) (p q : Parser τ ε α) : Parser τ ε α where
  run tokens :=
    match p.run tokens with
    | .ok result => .ok result
    | .error error => if passes error then q.run tokens else .error error
  suffix h := by
    split at h
    · next hp =>
        cases h
        exact p.suffix hp
    · split at h
      · exact q.suffix h
      · cases h

/-- Runs a parser once for each separator that follows a run, and once more.  When the tokens
may end with a separator, none is read after that one. -/
def separatedFrom [DecidableEq τ] (separator : τ) (mayEnd : Bool) (item : σ → Parser τ ε σ)
    (state : σ) (tokens : List τ) : Except ε (σ × List τ) :=
  match h : (item state).run tokens with
  | .error error => .error error
  | .ok (state, []) => .ok (state, [])
  | .ok (state, token :: rest) =>
      if token = separator then
        if mayEnd && rest.isEmpty then
          .ok (state, [])
        else
          have := (item _).length_le h
          separatedFrom separator mayEnd item state rest
      else
        .ok (state, token :: rest)
termination_by tokens.length
decreasing_by
  simp_all only [List.length_cons]
  omega

theorem separatedFrom_suffix [DecidableEq τ] {separator : τ} {mayEnd : Bool}
    {item : σ → Parser τ ε σ} {state result : σ} {tokens rest : List τ}
    (h : separatedFrom separator mayEnd item state tokens = .ok (result, rest)) :
    rest <:+ tokens := by
  fun_induction separatedFrom separator mayEnd item state tokens with
  | case1 => cases h
  | case2 _ _ _ hitem =>
      cases h
      exact (item _).suffix hitem
  | case3 =>
      cases h
      exact List.nil_suffix
  | case4 _ _ _ _ _ hitem _ ih =>
      exact ((ih h).trans (List.suffix_cons _ _)).trans ((item _).suffix hitem)
  | case5 _ _ _ _ _ hitem =>
      cases h
      exact (item _).suffix hitem

/-- Runs a parser again after each separator, passing a state on. -/
def separatedFold [DecidableEq τ] (separator : τ) (mayEnd : Bool) (item : σ → Parser τ ε σ)
    (state : σ) : Parser τ ε σ where
  run := separatedFrom separator mayEnd item state
  suffix := separatedFrom_suffix

/-- Items with separators between them; at least one. -/
def separated [DecidableEq τ] (separator : τ) (item : Parser τ ε α) : Parser τ ε (List α) :=
  separatedFold separator false (fun items => return items ++ [← item]) []

/-- Runs `body` for each clause.  The function `head` says whether a clause begins with a token
and those after it, and how many tokens after that one belong to its head. -/
def clausesFrom (head : τ → List τ → Option (κ × Nat)) (body : κ → σ → Parser τ ε σ)
    (state : σ) (tokens : List τ) : Except ε (σ × List τ) :=
  match tokens with
  | [] => .ok (state, [])
  | token :: rest =>
      match head token rest with
      | none => .ok (state, token :: rest)
      | some (kind, more) =>
          match h : (body kind state).run (rest.drop more) with
          | .error error => .error error
          | .ok (state, rest') =>
              have : rest'.length ≤ rest.length := by
                have := (body kind _).length_le h
                simp only [List.length_drop] at this
                omega
              clausesFrom head body state rest'
termination_by tokens.length
decreasing_by
  simp_all only [List.length_cons]
  omega

theorem clausesFrom_suffix {head : τ → List τ → Option (κ × Nat)}
    {body : κ → σ → Parser τ ε σ} {state result : σ} {tokens rest : List τ}
    (h : clausesFrom head body state tokens = .ok (result, rest)) : rest <:+ tokens := by
  fun_induction clausesFrom head body state tokens with
  | case1 =>
      cases h
      exact List.nil_suffix
  | case2 =>
      cases h
      exact List.suffix_refl _
  | case3 => cases h
  | case4 _ _ _ _ _ _ _ _ hbody _ ih =>
      exact (((ih h).trans ((body _ _).suffix hbody)).trans (List.drop_suffix _ _)).trans
        (List.suffix_cons _ _)

/-- Runs `body` for each clause, passing a state on. -/
def clauses (head : τ → List τ → Option (κ × Nat)) (body : κ → σ → Parser τ ε σ)
    (state : σ) : Parser τ ε σ where
  run := clausesFrom head body state
  suffix := clausesFrom_suffix

/-- Runs a parser as long as `goesOn` holds of the tokens that are left, passing a state on.  A
turn that reads nothing is the last one. -/
def turnsFrom (goesOn : List τ → Bool) (turn : σ → Parser τ ε σ) (state : σ)
    (tokens : List τ) : Except ε (σ × List τ) :=
  if goesOn tokens then
    match (turn state).run tokens with
    | .error error => .error error
    | .ok (state, rest) =>
        if rest.length < tokens.length then
          turnsFrom goesOn turn state rest
        else
          .ok (state, rest)
  else
    .ok (state, tokens)
termination_by tokens.length

theorem turnsFrom_suffix {goesOn : List τ → Bool} {turn : σ → Parser τ ε σ}
    {state result : σ} {tokens rest : List τ}
    (h : turnsFrom goesOn turn state tokens = .ok (result, rest)) : rest <:+ tokens := by
  fun_induction turnsFrom goesOn turn state tokens with
  | case1 => cases h
  | case2 _ _ _ _ _ hturn _ ih => exact (ih h).trans ((turn _).suffix hturn)
  | case3 _ _ _ _ _ hturn =>
      cases h
      exact (turn _).suffix hturn
  | case4 =>
      cases h
      exact List.suffix_refl _

/-- Runs a parser as long as `goesOn` holds of the tokens that are left. -/
def turns (goesOn : List τ → Bool) (turn : σ → Parser τ ε σ) (state : σ) : Parser τ ε σ where
  run := turnsFrom goesOn turn state
  suffix := turnsFrom_suffix

end Parser
end SchemaLint
