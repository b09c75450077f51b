import SchemaLint.Proofs.Parser
import SchemaLint.Sql.Grammar.Name

/-!
# Tokens that have been read

What a reader that has succeeded says about the tokens in front of it.
-/

namespace SchemaLint
namespace Sql

open SchemaLint.Parser

variable {tokens rest : List Token} {α : Type} {u : Unit}

namespace Reader

theorem run_fail (expected : String) :
    (fail expected : Reader α).run tokens = .error ⟨expected, tokens.head?⟩ := rfl

theorem run_expectToken_eq_ok {token : Token} {expected : String} :
    (expectToken token expected).run tokens = .ok (u, rest) ↔ tokens = token :: rest := by
  rw [expectToken, run_bind_eq_ok]
  simp only [run_optionalToken]
  cases tokens with
  | nil => simp [run_fail]
  | cons next tokens =>
      by_cases hnext : next = token
      · simp [hnext, run_pure]
      · simp [hnext, run_fail]

/-- A keyword that is expected is there, in some spelling. -/
theorem run_expectKeyword_eq_ok {keyword : String} :
    (expectKeyword keyword).run tokens = .ok (u, rest) ↔
      ∃ token, tokens = token :: rest ∧ token.isKeyword keyword = true := by
  rw [expectKeyword, run_bind_eq_ok]
  simp only [run_optionalKeyword]
  cases tokens with
  | nil => simp [startsWith, run_fail]
  | cons next tokens =>
      by_cases hnext : next.isKeyword keyword = true
      · simp [startsWith, HasKeywords.isKeyword, hnext, run_pure, and_assoc]
      · simp [startsWith, HasKeywords.isKeyword, hnext, run_fail, and_assoc]

/-- A value that is read is that of the first token. -/
theorem run_token_eq_ok {f : Token → Option α} {expected : String} {a : α} :
    (token f expected).run tokens = .ok (a, rest) ↔ ∃ t, tokens = t :: rest ∧ f t = some a := by
  rw [token, run_bind_eq_ok]
  simp only [run_peek]
  cases tokens with
  | nil => simp [run_fail]
  | cons next tokens =>
      cases hnext : f next with
      | none => simp [hnext, run_fail]
      | some value =>
          have hrun : (Parser.next >>= fun _ => pure value : Reader α).run (next :: tokens) =
              .ok (value, tokens) := rfl
          simp [hnext, hrun, and_comm]

/-- The text of the tokens that have been read. -/
theorem run_textSince (read : List Token) :
    (textSince (read ++ rest)).run rest = .ok (Token.displayAll read, rest) := by
  have hremaining : (remaining : Reader (List Token)).run rest = .ok (rest, rest) := rfl
  rw [textSince, run_bind hremaining, List.length_append, Nat.add_sub_cancel, List.take_left]
  rfl

end Reader

namespace Grammar

open Reader

/-- Outside parentheses a search looks at one token after another. -/
theorem outerRest_cons {stops : Token → Bool} {token : Token} (hleft : token ≠ .leftParen)
    (hright : token ≠ .rightParen) :
    outerRest stops 0 (token :: rest) =
      if stops token then token :: rest else outerRest stops 0 rest := by
  cases token <;> simp_all [outerRest]

/-- Inside parentheses it passes over all others. -/
theorem outerRest_succ_cons {stops : Token → Bool} {token : Token} (hleft : token ≠ .leftParen)
    (hright : token ≠ .rightParen) (depth : Nat) :
    outerRest stops (depth + 1) (token :: rest) = outerRest stops (depth + 1) rest := by
  cases token <;> simp_all [outerRest]

/-- What stands in the parentheses that are open is passed by every search for outer tokens. -/
theorem outerRest_of_close (stops : Token → Bool) {depth : Nat}
    (h : outerRest (fun _ => false) depth tokens = .rightParen :: rest) :
    outerRest stops (depth + 1) tokens = outerRest stops 0 rest := by
  fun_induction outerRest (fun _ => false) depth tokens with
  | case1 => cases h
  | case2 depth tokens ih => simpa [outerRest] using ih h
  | case3 tokens =>
      cases h
      simp [outerRest]
  | case4 depth tokens ih => simpa [outerRest] using ih h
  | case5 _ _ _ _ hstops => cases hstops
  | case6 token tokens _ _ _ ih => simpa [outerRest] using ih h
  | case7 depth token tokens _ _ ih => simpa [outerRest] using ih h

/-- A group that is read ends with the parenthesis that closes it. -/
theorem outerRest_of_run_groupRest {body : String} (h : groupRest.run tokens = .ok (body, rest)) :
    outerRest (fun _ => false) 0 tokens = .rightParen :: rest := by
  simp only [groupRest, run_bind_eq_ok] at h
  obtain ⟨start, _, hstart, u, middle, hskip, text, _, htext, _, last, hclose, hbody⟩ := h
  cases hstart
  cases htext
  cases hbody
  rw [run_expectToken_eq_ok] at hclose
  cases hskip
  exact hclose

end Grammar
end Sql
end SchemaLint
