import SchemaLint.Proofs.Parser
import SchemaLint.Sql.Grammar

/-!
# Which statements are read

The kinds of statements that each reader can give, for a property `P` that these kinds have, and
what it takes for the text of a statement to be read (`parseStatement_eq_ok_iff`).
-/

namespace SchemaLint
namespace Sql
namespace Grammar

open SchemaLint.Parser

variable {P : Statement → Prop} {text : String}

theorem returns_createIndex (h : ∀ table key, P (.createIndex table key)) :
    Returns createIndex P := by
  unfold createIndex
  repeat' refine .bind fun _ => ?_
  exact .pure (h _ _)

theorem returns_createUser {ifNotExists : Bool} (h : ∀ creation, P (.createUser creation)) :
    Returns (createUser ifNotExists) P :=
  .bind fun _ => .bind fun _ => .pure (h _)

theorem returns_createTable {temporary : Bool} (htable : ∀ spec, P (.createTable spec))
    (hunsupported : P (.unsupported text)) : Returns (createTable temporary text) P := by
  unfold createTable
  refine .bind fun _ => .bind fun _ => .bind fun opened => ?_
  split
  · exact .bind fun _ => .pure (htable _)
  · exact .pure hunsupported

theorem returns_drop (hdatabase : ∀ name ifExists, P (.dropDatabase name ifExists))
    (htable : ∀ names ifExists, P (.dropTable names ifExists)) (hinert : ∀ kind, P (.inert kind))
    (hunsupported : P (.unsupported text)) : Returns (drop text) P := by
  unfold drop
  refine .bind fun _ => .bind fun kind => ?_
  rcases kind with _ | (_ | _ | kind)
  case none => exact .pure hunsupported
  case some.schema => exact .bind fun _ => .bind fun _ => .bind fun _ => .pure (hdatabase _ _)
  case some.table => exact .bind fun _ => .bind fun _ => .bind fun _ => .pure (htable _ _)
  case some.inert => exact .pure (hinert kind)

theorem returns_alter (htable : ∀ table actions, P (.alterTable table actions))
    (hunsupported : P (.unsupported text)) : Returns (alter text) P := by
  unfold alter
  refine .bind fun _ => .bind fun _ => .bind fun isTable => ?_
  split
  · exact .bind fun _ => .bind fun _ => .pure (htable _ _)
  · exact .pure hunsupported

theorem returns_grant (h : ∀ granted, P (.grant granted)) : Returns grant P := by
  unfold grant
  refine .bind fun _ => .bind fun on => ?_
  split
  · exact .bind fun _ => .bind fun _ => .bind fun _ => .bind fun _ => .bind fun _ => .pure (h _)
  · exact .bind fun _ => .bind fun _ => .bind fun _ => .pure (h _)

/-- Nothing that begins with `CREATE` is a grant. -/
theorem returns_create (granted : Grant) : Returns (create text) (· ≠ .grant granted) := by
  unfold create
  refine .bind fun _ => .bind fun _ => .bind fun _ => .bind fun kind => ?_
  rcases kind with _ | (_ | _ | _ | _ | _ | kind)
  case none => exact .pure (by simp)
  case some.schema => exact .bind fun _ => .bind fun _ => .bind fun _ => .pure (by simp)
  case some.table => exact .bind fun _ => returns_createTable (by simp) (by simp)
  case some.view => exact .bind fun _ => .bind fun _ => .pure (by simp)
  case some.index => exact returns_createIndex (by simp)
  case some.user => exact .bind fun _ => .bind fun _ => returns_createUser (by simp)
  case some.inert => exact .pure (by simp)

variable {tokens rest : List Token} {granted : Grant}

/-- A grant is read after the first keyword of its statement. -/
theorem run_grant_of_run_statement (h : (statement text).run tokens = .ok (.grant granted, rest)) :
    grant.run tokens.tail = .ok (.grant granted, rest) := by
  have hnone {p : Reader Statement} (hp : Returns p (· ≠ .grant granted)) :
      (next >>= fun _ => p).run tokens ≠ .ok (.grant granted, rest) :=
    fun hrun => Returns.bind (fun _ => hp) _ _ _ hrun rfl
  rw [statement, run_bind_eq_ok] at h
  obtain ⟨head, middle, hhead, h⟩ := h
  have hmiddle : middle = tokens := by
    cases hhead
    rfl
  rw [hmiddle] at h
  rcases head with _ | (_ | _ | _ | _ | _ | kind)
  case none => cases h
  case some.create => exact absurd h (hnone (returns_create granted))
  case some.drop =>
    exact absurd h (hnone (returns_drop (by simp) (by simp) (by simp) (by simp)))
  case some.alter => exact absurd h (hnone (returns_alter (by simp) (by simp)))
  case some.grant =>
    obtain ⟨_, _, hnext, h⟩ := run_bind_eq_ok.1 h
    cases hnext
    exact h
  case some.use => exact absurd h (hnone (.bind fun _ => .pure (by simp)))
  case some.inert => exact absurd h (hnone (.pure (by simp)))

end Grammar

/-- What the tokens of a text are read as is the statement of the text. -/
theorem parseStatement_eq_ok_iff {line : Nat} {text : String} {statement : Statement} :
    parseStatement line text = .ok (some statement) ↔
      ∃ tokens rest, tokenize line text = .ok tokens ∧ tokens ≠ [] ∧
        (Grammar.statement (Text.trim text)).run tokens = .ok (statement, rest) := by
  rw [parseStatement, bind_eq_ok]
  constructor
  · rintro ⟨tokens, htokens, h⟩
    cases tokens with
    | nil => cases h
    | cons token more =>
        cases hrun : (Grammar.statement (Text.trim text)).run (token :: more) with
        | error mismatch => simp [hrun, throw, throwThe, MonadExceptOf.throw] at h
        | ok result =>
            obtain ⟨read, rest⟩ := result
            obtain rfl : read = statement := by simpa [hrun, pure, Except.pure] using h
            exact ⟨token :: more, rest, htokens, List.cons_ne_nil _ _, hrun⟩
  · rintro ⟨tokens, rest, htokens, hne, hrun⟩
    obtain ⟨token, more, rfl⟩ := List.exists_cons_of_ne_nil hne
    refine ⟨token :: more, htokens, ?_⟩
    simp only [hrun]
    rfl

end Sql
end SchemaLint
