import SchemaLint.Proofs.Sql.Stepper.Basic

/-!
# Loops by positions

The loops of readers, each taken apart into one turn and what follows it, and the steppers that
track them.  Where a loop goes on, its turn has read a token: the beginning of a clause, or the
separator in front of the next item.

* `Parser.clauses_bind_eq`, `Parser.separatedFold_eq` - one turn of a loop of readers.
* `Stepper.Tracks.clauses` - clauses, and what is read behind them.
* `Stepper.Tracks.items`, `Stepper.Tracks.moreItems` - items with commas between them.
-/

namespace SchemaLint

namespace Parser

variable {τ ε α β κ σ ρ : Type}

/-- What is read of a clause before its body, if one begins. -/
def clauseHead (head : τ → List τ → Option (κ × Nat)) : Parser τ ε (Option κ) where
  run
    | [] => .ok (none, [])
    | token :: rest =>
        match head token rest with
        | none => .ok (none, token :: rest)
        | some (kind, more) => .ok (some kind, rest.drop more)
  suffix := by
    intro tokens value rest h
    cases tokens with
    | nil =>
        cases h
        exact List.suffix_refl _
    | cons token tokens =>
        dsimp only at h
        split at h
        · cases h
          exact List.suffix_refl _
        · cases h
          exact (List.drop_suffix _ _).trans (List.suffix_cons _ _)

theorem run_clauseHead_of_none {head : τ → List τ → Option (κ × Nat)} {token : τ}
    {tokens : List τ} (h : head token tokens = none) :
    (clauseHead head : Parser τ ε (Option κ)).run (token :: tokens) =
      .ok (none, token :: tokens) := by
  simp only [clauseHead, h]

theorem run_clauseHead_of_some {head : τ → List τ → Option (κ × Nat)} {token : τ}
    {tokens : List τ} {kind : κ} {more : Nat} (h : head token tokens = some (kind, more)) :
    (clauseHead head : Parser τ ε (Option κ)).run (token :: tokens) =
      .ok (some kind, tokens.drop more) := by
  simp only [clauseHead, h]

theorem length_lt_of_clauseHead {head : τ → List τ → Option (κ × Nat)} {tokens rest : List τ}
    {kind : κ}
    (h : (clauseHead head : Parser τ ε (Option κ)).run tokens = .ok (some kind, rest)) :
    rest.length < tokens.length := by
  cases tokens with
  | nil => cases h
  | cons token tokens =>
      simp only [clauseHead] at h
      split at h
      · cases h
      · cases h
        rw [List.length_drop, List.length_cons]
        omega

/-- Clauses are one clause and the others, or none. -/
theorem clauses_bind_eq (head : τ → List τ → Option (κ × Nat)) (body : κ → σ → Parser τ ε σ)
    (last : σ → Parser τ ε ρ) (state : σ) :
    (clauses head body state >>= last) = clauseHead head >>= fun
      | some kind => body kind state >>= fun next => clauses head body next >>= last
      | none => last state := by
  refine Parser.ext fun tokens => ?_
  cases tokens with
  | nil =>
      have hnone : (clauseHead head : Parser τ ε (Option κ)).run [] = .ok (none, []) := rfl
      rw [run_bind (run_clauses_nil head body state), run_bind hnone]
  | cons token rest =>
      cases hhead : head token rest with
      | none =>
          rw [run_bind (run_clauses_of_none hhead body state),
            run_bind (run_clauseHead_of_none hhead)]
      | some found =>
          obtain ⟨kind, more⟩ := found
          rw [run_bind (run_clauseHead_of_some hhead)]
          cases hbody : (body kind state).run (rest.drop more) with
          | error error =>
              rw [run_bind_of_error (run_clauses_of_error hhead hbody), run_bind_of_error hbody]
          | ok read =>
              obtain ⟨next, left⟩ := read
              rw [run_bind_congr (run_clauses_cons hhead hbody), run_bind hbody]

theorem length_lt_of_optionalToken [DecidableEq τ] {token : τ} {tokens rest : List τ}
    (h : (optionalToken token : Parser τ ε Bool).run tokens = .ok (true, rest)) :
    rest.length < tokens.length := by
  rw [run_optionalToken] at h
  cases tokens with
  | nil => simp at h
  | cons first tokens =>
      split at h
      · cases h
        exact Nat.lt_succ_self _
      · cases h

/-- Items are one item and, behind a separator that is not the last token allowed to be one, the
others. -/
theorem separatedFold_eq_bind [DecidableEq τ] (separator : τ) (mayEnd : Bool)
    (item : σ → Parser τ ε σ) (state : σ) :
    separatedFold separator mayEnd item state = item state >>= fun next =>
      optionalToken separator >>= fun found => atEnd >>= fun ended =>
        if found && !(mayEnd && ended) then separatedFold separator mayEnd item next
        else pure next := by
  refine Parser.ext fun tokens => ?_
  change separatedFrom separator mayEnd item state tokens = _
  cases hread : (item state).run tokens with
  | error error =>
      rw [separatedFrom_of_error hread, run_bind_of_error hread]
  | ok read =>
      obtain ⟨next, rest⟩ := read
      rw [separatedFrom_of_run hread, run_bind hread]
      cases rest with
      | nil => rfl
      | cons token rest =>
          dsimp only
          split
          · next htoken =>
              have hseparator : (optionalToken separator : Parser τ ε Bool).run (token :: rest) =
                  .ok (true, rest) := by simp [run_optionalToken, htoken]
              have hend : (atEnd : Parser τ ε Bool).run rest = .ok (rest.isEmpty, rest) := rfl
              rw [run_bind hseparator, run_bind hend]
              cases hlast : mayEnd && rest.isEmpty with
              | true =>
                  obtain rfl := List.isEmpty_iff.1 (Bool.and_eq_true_iff.1 hlast).2
                  rfl
              | false => rfl
          · next htoken => rw [run_bind (run_optionalToken_of_ne htoken)]; rfl

/-- More items, each behind a separator. -/
def moreItems [DecidableEq τ] (separator : τ) (item : σ → Parser τ ε σ) (state : σ) :
    Parser τ ε σ := do
  if ← optionalToken separator then
    separatedFold separator false item state
  else
    return state

/-- Items are one item and more items. -/
theorem separatedFold_eq [DecidableEq τ] (separator : τ) (item : σ → Parser τ ε σ) (state : σ) :
    separatedFold separator false item state = item state >>= moreItems separator item := by
  rw [separatedFold_eq_bind]
  refine congrArg _ (funext fun next => congrArg _ (funext fun found => ?_))
  cases found with
  | true => rfl
  | false => rfl

end Parser

namespace Sql
namespace Stepper

variable {α κ σ ρ : Type} {tokens : List Token} {start : Nat}

open SchemaLint.Parser (clauses clauseHead optionalToken separatedFold)

/-- A turn of a loop over clauses.  When no clause begins, the loop is left with what is read
behind it. -/
def clauseTurn (head : Token → List Token → Option (κ × Nat)) (body : κ → σ → Reader σ)
    (last : σ → Reader ρ) (state : σ) : Reader (Turn σ ρ) := do
  match ← clauseHead head with
  | some kind => return .again (← body kind state)
  | none => return .leave (← last state)

/-- Items with commas between them; a comma is read in the turn of the item in front of it. -/
def items (item : σ → Stepper σ) (state : σ) : Stepper σ :=
  loop (fun state => do
    let next ← item state
    if ← consume .comma then return .again next else return .leave next) state

/-- More items, each in a turn with the comma in front of it. -/
def moreItems (item : σ → Stepper σ) (state : σ) : Stepper σ :=
  loop (fun state => do
    if ← consume .comma then return .again (← item state) else return .leave state) state

/-- A list of items with commas between them. -/
def list (item : Stepper α) : Stepper (List α) :=
  items (fun read => return read ++ [← item]) []

/-- The same, if the first item is read in front of the loop. -/
def listFromFirst (item : Stepper α) : Stepper (List α) := do
  let first ← item
  moreItems (fun read => return read ++ [← item]) [first]

namespace Tracks

/-- A loop over clauses is tracked if each turn of it is. -/
protected theorem clauses {head : Token → List Token → Option (κ × Nat)} {body : κ → σ → Reader σ}
    {last : σ → Reader ρ} {turn : σ → Stepper (Turn σ ρ)}
    (hturn : ∀ state, Tracks tokens start (turn state) (clauseTurn head body last state))
    (state : σ) : Tracks tokens start (loop turn state) (clauses head body state >>= last) := by
  refine Tracks.loop (p := fun state => clauses head body state >>= last) hturn
    (fun state => ?_) (fun state rest next left hread => ?_) state
  · rw [Parser.clauses_bind_eq, clauseTurn, Parser.bind_assoc]
    refine congrArg _ (funext fun found => ?_)
    cases found with
    | none => simp only [Parser.bind_assoc, Parser.pure_bind, Parser.bind_pure, Turn.goOn]
    | some kind => simp only [Parser.bind_assoc, Parser.pure_bind, Turn.goOn]
  · obtain ⟨found, middle, hhead, hbody⟩ := Parser.run_bind_eq_ok.1 hread
    cases found with
    | none =>
        obtain ⟨_, _, -, hleave⟩ := Parser.run_bind_eq_ok.1 hbody
        cases hleave
    | some kind =>
        obtain ⟨_, _, hbody, hagain⟩ := Parser.run_bind_eq_ok.1 hbody
        cases hagain
        exact Nat.lt_of_le_of_lt ((body kind state).length_le hbody)
          (Parser.length_lt_of_clauseHead hhead)

/-- A loop over items is tracked if each item is; the comma behind an item is read. -/
protected theorem items {item : σ → Stepper σ} {item' : σ → Reader σ}
    (hitem : ∀ state, Tracks tokens start (item state) (item' state)) (state : σ) :
    Tracks tokens start (items item state) (separatedFold .comma false item' state) := by
  refine Tracks.loop (p := separatedFold .comma false item')
    (q := fun state => do
      let next ← item' state
      if ← optionalToken .comma then return .again next else return .leave next)
    (fun state => .bind (hitem state) fun next => .bind (.consume _) fun _ =>
      .ite (.pure _) (.pure _))
    (fun state => ?_) (fun state rest next left hread => ?_) state
  · rw [Parser.separatedFold_eq, Parser.bind_assoc]
    refine congrArg _ (funext fun next => ?_)
    rw [Parser.moreItems, Parser.bind_assoc]
    refine congrArg _ (funext fun found => ?_)
    cases found <;> rfl
  · obtain ⟨read, middle, hitem', hturn⟩ := Parser.run_bind_eq_ok.1 hread
    obtain ⟨found, last, hcomma, hturn⟩ := Parser.run_bind_eq_ok.1 hturn
    cases found with
    | false => cases hturn
    | true =>
        cases hturn
        exact Nat.lt_of_lt_of_le (Parser.length_lt_of_optionalToken hcomma)
          ((item' state).length_le hitem')

/-- The same for items behind commas. -/
protected theorem moreItems {item : σ → Stepper σ} {item' : σ → Reader σ}
    (hitem : ∀ state, Tracks tokens start (item state) (item' state)) (state : σ) :
    Tracks tokens start (Stepper.moreItems item state) (Parser.moreItems .comma item' state) := by
  refine Tracks.loop (p := Parser.moreItems .comma item')
    (q := fun state => do
      if ← optionalToken .comma then return .again (← item' state) else return .leave state)
    (fun state => .bind (.consume _) fun _ =>
      .ite (.bind (hitem state) fun _ => .pure _) (.pure _))
    (fun state => ?_) (fun state rest next left hread => ?_) state
  · rw [Parser.moreItems, Parser.bind_assoc]
    refine congrArg _ (funext fun found => ?_)
    cases found with
    | false => rfl
    | true =>
        simp only [if_true, Parser.bind_assoc, Parser.pure_bind]
        exact Parser.separatedFold_eq _ _ _
  · obtain ⟨found, middle, hcomma, hturn⟩ := Parser.run_bind_eq_ok.1 hread
    cases found with
    | false => cases hturn
    | true =>
        obtain ⟨read, last, hitem', hturn⟩ := Parser.run_bind_eq_ok.1 hturn
        cases hturn
        exact Nat.lt_of_le_of_lt ((item' state).length_le hitem')
          (Parser.length_lt_of_optionalToken hcomma)

/-- A list that is read item by item, with the comma of an item in its turn. -/
protected theorem list {item : Stepper α} {item' : Reader α}
    (hitem : Tracks tokens start item item') :
    Tracks tokens start (list item) (Parser.separated .comma item') :=
  .items (fun _ => .bind hitem fun _ => .pure _) []

/-- A list of which the first item is read in front of the loop. -/
protected theorem listFromFirst {item : Stepper α} {item' : Reader α}
    (hitem : Tracks tokens start item item') :
    Tracks tokens start (listFromFirst item) (Parser.separated .comma item') := by
  rw [Parser.separated, Parser.separatedFold_eq, Parser.bind_assoc]
  refine .bind hitem fun first => ?_
  exact .moreItems (fun _ => .bind hitem fun _ => .pure _) [first]

end Tracks

section ClauseTurn

variable {head : Token → List Token → Option (κ × Nat)} {body : κ → σ → Reader σ}
  {last : σ → Reader ρ} {state : σ} {token : Token} {kind : κ} {c : Stepper (Turn σ ρ)}

/-- A turn that begins with a look at the next token is tracked if it is so for each token; at the
end no clause begins. -/
theorem Tracks.clauseTurn_of_look {f : Option Token → Stepper (Turn σ ρ)}
    (hend : TracksAtEnd tokens start (f none)
      (last state >>= fun result => pure (.leave result)))
    (h : ∀ token,
      TracksBefore tokens start token (f (some token)) (clauseTurn head body last state)) :
    Tracks tokens start (look >>= f) (clauseTurn head body last state) :=
  .of_before hend.look_left fun token => .look_left (h token)

/-- Before a token that begins no clause. -/
theorem TracksBefore.last_right (hnone : ∀ rest, head token rest = none)
    (h : TracksBefore tokens start token c (last state >>= fun result => pure (.leave result))) :
    TracksBefore tokens start token c (clauseTurn head body last state) := by
  intro pos rest hstart hpos
  rw [clauseTurn, Parser.run_bind (Parser.run_clauseHead_of_none (hnone rest))]
  exact h pos rest hstart hpos

/-- Before a token that is the head of a clause. -/
theorem TracksBefore.clause_right (hsome : ∀ rest, head token rest = some (kind, 0))
    (h : TracksBefore tokens start token c
      (Parser.next >>= fun _ => body kind state >>= fun next => pure (.again next))) :
    TracksBefore tokens start token c (clauseTurn head body last state) := by
  intro pos rest hstart hpos
  rw [h pos rest hstart hpos, clauseTurn,
    Parser.run_bind (Parser.run_clauseHead_of_some (hsome rest))]
  rfl

end ClauseTurn

end Stepper
end Sql
end SchemaLint
