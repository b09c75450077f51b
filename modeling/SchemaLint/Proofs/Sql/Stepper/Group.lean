import SchemaLint.Proofs.Sql.Stepper.Name

/-!
# Groups by positions

Tokens that are passed one by one, with a depth of parentheses that is counted up and down.  The
rest of a clause begins at depth zero, and a parenthesis that would lower it ends the clause.  A
group is at depth one behind its first parenthesis, and ends where that depth becomes zero; its
text ends one token before.

* `run_skipTurns`, `run_groupTurns` - where the loops end, from any depth.
* `Tracks.skipClause`, `Tracks.group` - they read what the search for an outer token reads.
-/

namespace SchemaLint
namespace Sql
namespace Stepper

variable {tokens rest : List Token} {start pos : Nat}

open Grammar (outerRest outerRest_cons outerRest_succ_cons)

section Clause

/-- Passes a token that does not end the clause. -/
def skipTurn (depth : Nat) : Stepper (Turn Nat Unit) := do
  match ← look with
  | none => return .leave ()
  | some .leftParen =>
      advance
      return .again (depth + 1)
  | some .rightParen =>
      if depth = 0 then
        return .leave ()
      else
        let depth ← lowered depth
        advance
        return .again depth
  | some token =>
      if depth = 0 ∧ token = .comma then
        return .leave ()
      else
        advance
        return .again depth

/-- Passes the rest of a clause. -/
def skipClause : Stepper Unit :=
  loop skipTurn 0

/-- A turn passes the token in front of it and leaves the same search to the next turn, or the
search ends with that token and so does the loop. -/
theorem run_skipTurn {token : Token} (hpos : StandsAt tokens pos (token :: rest)) (depth : Nat) :
    (∃ next, (skipTurn depth).run tokens pos = .ok (.again next, pos + 1) ∧
      outerRest (· == .comma) depth (token :: rest) = outerRest (· == .comma) next rest) ∨
    ((skipTurn depth).run tokens pos = .ok (.leave (), pos) ∧
      outerRest (· == .comma) depth (token :: rest) = token :: rest) := by
  have hadvance : ∀ next, (advance >>= fun _ => pure (.again next) :
      Stepper (Turn Nat Unit)).run tokens pos = .ok (.again next, pos + 1) :=
    fun _ => run_bind (TracksBefore.run_advance hpos) _
  rw [skipTurn, run_bind (run_look hpos)]
  split
  · next hnone => cases hnone
  · next hsome =>
      cases hsome
      exact .inl ⟨depth + 1, hadvance _, by rw [outerRest]⟩
  · next hsome =>
      cases hsome
      cases depth with
      | zero => exact .inr ⟨rfl, by rw [outerRest]⟩
      | succ depth => exact .inl ⟨depth, hadvance _, by rw [outerRest]⟩
  · next hleft hright hsome =>
      cases hsome
      cases depth with
      | succ depth =>
          rw [outerRest_succ_cons hleft hright, if_neg fun h => Nat.succ_ne_zero depth h.1]
          exact .inl ⟨depth + 1, hadvance _, rfl⟩
      | zero =>
          rw [outerRest_cons hleft hright]
          by_cases hcomma : token = .comma
          · rw [if_pos ⟨rfl, hcomma⟩, if_pos (beq_iff_eq.2 hcomma)]
            exact .inr ⟨rfl, rfl⟩
          · rw [if_neg fun h => hcomma h.2, if_neg fun h => hcomma (beq_iff_eq.1 h)]
            exact .inl ⟨0, hadvance _, rfl⟩

theorem run_skipTurns (hpos : StandsAt tokens pos rest) (depth : Nat) :
    (loop skipTurn depth).run tokens pos =
      landing tokens (.ok ((), outerRest (· == .comma) depth rest)) := by
  -- each turn goes over to another depth, so the depth has to vary
  induction rest generalizing pos depth with
  | nil =>
      have hturn : (skipTurn depth).run tokens pos = .ok (.leave (), pos) := by
        rw [skipTurn, run_bind (run_look hpos)]
        rfl
      rw [run_loop_of_leave hturn, outerRest, landing_ok hpos]
  | cons token rest ih =>
      rcases run_skipTurn hpos depth with ⟨next, hturn, houter⟩ | ⟨hturn, houter⟩
      · rw [run_loop_of_again hturn (Nat.lt_succ_self pos) hpos.tail.le, ih hpos.tail, houter]
      · rw [run_loop_of_leave hturn, houter, landing_ok hpos]

protected theorem Tracks.skipClause : Tracks tokens start skipClause Grammar.skipClause :=
  fun _ _ _ hpos => run_skipTurns hpos 0

end Clause

section Group

/-- Takes a token of a group.  The turn that takes the last parenthesis has the text before it as
its result; the turn at the end of all tokens has none. -/
def groupTurn (mark : Nat) (depth : Nat) : Stepper (Turn Nat (Option String)) := do
  match ← take with
  | none => return .leave none
  | some .leftParen => return .again (depth + 1)
  | some .rightParen =>
      let depth ← lowered depth
      if depth = 0 then
        return .leave (some (← textBetween mark (← positionBefore)))
      else
        return .again depth
  | some _ => return .again depth

/-- The rest of a group after its opening parenthesis, and its text. -/
def groupRest : Stepper String := do
  let mark ← position
  match ← loop (groupTurn mark) 1 with
  | some body => return body
  | none => fail ")"

/-- A group in parentheses, and its text without them. -/
def group : Stepper String := do
  expectToken .leftParen "("
  groupRest

/-- A group, if a parenthesis is next. -/
def optionalGroup : Stepper Unit := do
  if (← look) = some .leftParen then
    let _ ← group

/-- What a group is read as whose last parenthesis is in front of these tokens.  Without it there
are none. -/
def groupEnd (tokens : List Token) (mark : Nat) : List Token → Option String × Nat
  | [] => (none, tokens.length)
  | _ :: after =>
      let last := tokens.length - (after.length + 1)
      (some (Token.displayAll ((tokens.take last).drop mark)), last + 1)

theorem run_groupTurn {token : Token} {mark : Nat} (hmark : mark ≤ pos)
    (hpos : StandsAt tokens pos (token :: rest)) (depth : Nat) :
    (∃ next, (groupTurn mark (depth + 1)).run tokens pos = .ok (.again (next + 1), pos + 1) ∧
      outerRest (fun _ => false) depth (token :: rest) = outerRest (fun _ => false) next rest) ∨
    ((groupTurn mark (depth + 1)).run tokens pos =
        .ok (.leave (some (Token.displayAll ((tokens.take pos).drop mark))), pos + 1) ∧
      outerRest (fun _ => false) depth (token :: rest) = token :: rest) := by
  rw [groupTurn, run_bind (TracksBefore.run_take hpos)]
  split
  · next hnone => cases hnone
  · next hsome =>
      cases hsome
      exact .inl ⟨depth + 1, rfl, by rw [outerRest]⟩
  · next hsome =>
      cases hsome
      cases depth with
      | zero =>
          have hin : mark ≤ min pos tokens.length :=
            Nat.le_min.2 ⟨hmark, Nat.le_trans hmark hpos.le⟩
          refine .inr ⟨?_, by rw [outerRest]⟩
          have hlowered : (lowered 1).run tokens (pos + 1) = .ok (0, pos + 1) := rfl
          rw [run_bind hlowered, if_pos rfl, run_bind run_positionBefore,
            run_bind (run_textBetween hin)]
          rfl
      | succ depth => exact .inl ⟨depth, rfl, by rw [outerRest]⟩
  · next hleft hright hsome =>
      cases hsome
      refine .inl ⟨depth, rfl, ?_⟩
      cases depth with
      | succ depth => rw [outerRest_succ_cons hleft hright]
      | zero => rw [outerRest_cons hleft hright, if_neg Bool.false_ne_true]

theorem run_groupTurns {mark : Nat} (hmark : mark ≤ pos) (hpos : StandsAt tokens pos rest)
    (depth : Nat) :
    (loop (groupTurn mark) (depth + 1)).run tokens pos =
      .ok (groupEnd tokens mark (outerRest (fun _ => false) depth rest)) := by
  induction rest generalizing pos depth with
  | nil =>
      have hturn : (groupTurn mark (depth + 1)).run tokens pos = .ok (.leave none, pos) := by
        rw [groupTurn, run_bind (TracksAtEnd.run_take hpos)]
        rfl
      rw [run_loop_of_leave hturn, outerRest, groupEnd, hpos.length_eq]
      rfl
  | cons token rest ih =>
      rcases run_groupTurn hmark hpos depth with ⟨next, hturn, houter⟩ | ⟨hturn, houter⟩
      · rw [run_loop_of_again hturn (Nat.lt_succ_self pos) hpos.tail.le,
          ih (Nat.le_succ_of_le hmark) hpos.tail, houter]
      · have hlength := hpos.length_eq
        have hlast : tokens.length - (rest.length + 1) = pos := by
          rw [List.length_cons] at hlength
          omega
        rw [run_loop_of_leave hturn, houter, groupEnd, hlast]

/-- A search that no token ends is ended by a parenthesis. -/
theorem eq_rightParen_of_outerRest {depth : Nat} {token : Token} {after : List Token}
    (h : outerRest (fun _ => false) depth rest = token :: after) : token = .rightParen := by
  fun_induction outerRest (fun _ => false) depth rest with
  | case1 => cases h
  | case2 _ _ ih => exact ih h
  | case3 => cases h; rfl
  | case4 _ _ ih => exact ih h
  | case5 _ _ _ _ hstops => cases hstops
  | case6 _ _ _ _ _ ih => exact ih h
  | case7 _ _ _ _ _ ih => exact ih h

protected theorem Tracks.groupRest : Tracks tokens start groupRest Grammar.groupRest := by
  refine .position_bind fun mark front _ hmark pos rest hstart hpos => ?_
  have hsuffix := Grammar.outerRest_suffix (fun _ => false) 0 rest
  have hturns := run_groupTurns hstart hpos 0
  have hskip : (Grammar.skipTo fun _ => false).run rest =
      .ok ((), outerRest (fun _ => false) 0 rest) := rfl
  have htext : ∀ left, (Reader.textSince front).run left =
      .ok (Token.displayAll (front.take (front.length - left.length)), left) := fun _ => rfl
  rw [run_bind hturns, Parser.run_bind hskip, Parser.run_bind (htext _)]
  cases hleft : outerRest (fun _ => false) 0 rest with
  | nil =>
      have hlength : tokens[tokens.length]? = none := List.getElem?_eq_none (Nat.le_refl _)
      change Except.error (Halt.mismatch ⟨")", tokens[tokens.length]?⟩) = _
      rw [hlength]
      rfl
  | cons token after =>
      obtain rfl := eq_rightParen_of_outerRest hleft
      have hlast := hpos.of_suffix (hleft ▸ hsuffix)
      have hread : front.length - (after.length + 1) =
          tokens.length - (after.length + 1) - mark := by
        rw [hmark.length_eq]
        omega
      have hbody : (tokens.take (tokens.length - (after.length + 1))).drop mark =
          front.take (front.length - (after.length + 1)) := by
        rw [hread, List.drop_take, hmark.drop_eq]
      have hclose : (Reader.expectToken .rightParen ")").run (.rightParen :: after) =
          .ok ((), after) := Reader.run_expectToken_eq_ok.2 rfl
      rw [Parser.run_bind hclose, List.length_cons, ← hbody]
      exact (landing_ok hlast.tail _).symm

protected theorem Tracks.group : Tracks tokens start group Grammar.group :=
  .bind (.expectToken _ _) fun _ => .groupRest

/-- A group that may be left out is there if its first parenthesis is. -/
theorem optionalGroup_eq : Grammar.optionalGroup = Parser.peek >>= fun next =>
    if next = some .leftParen then Grammar.group >>= fun _ => pure () else pure () := by
  refine Parser.ext fun rest => ?_
  rw [Grammar.optionalGroup, Parser.run_bind Parser.run_peek]
  cases rest with
  | nil => rfl
  | cons token rest =>
      by_cases hleft : token = .leftParen
      · subst hleft
        rfl
      · rw [Parser.run_bind (Parser.run_optionalToken_of_ne hleft), List.head?_cons,
          if_neg fun h => hleft (Option.some.inj h)]
        rfl

protected theorem Tracks.optionalGroup :
    Tracks tokens start optionalGroup Grammar.optionalGroup := by
  rw [optionalGroup_eq]
  exact .bind .look_peek fun _ => .ite (.bind .group fun _ => .pure ()) (.pure ())

end Group

end Stepper
end Sql
end SchemaLint
