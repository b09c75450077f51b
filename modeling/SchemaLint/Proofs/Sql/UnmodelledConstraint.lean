import SchemaLint.Proofs.Sql.TableLayout

/-!
# Constraints that are not modelled

Checks and foreign keys among the elements of a table are passed over.  What is passed over ends
with the first comma or closing parenthesis outside its own parentheses, so the elements around it
are read as if it were not there (`parseStatement_of_inserted_constraint`), whatever is in it.
-/

namespace SchemaLint
namespace Sql
namespace Grammar

open SchemaLint.Parser Reader

variable {rest : List Token} {x : Token}

/-- Whether all parentheses in the tokens are paired, with `depth` of them open at the beginning,
and no comma stands outside them. -/
def closes : Nat → List Token → Bool
  | depth, [] => depth == 0
  | depth, .leftParen :: tokens => closes (depth + 1) tokens
  | 0, .rightParen :: _ => false
  | depth + 1, .rightParen :: tokens => closes depth tokens
  | 0, .comma :: _ => false
  | depth, _ :: tokens => closes depth tokens

/-- Whether a constraint that is not modelled goes on with this token. -/
def beginsUnmodelled (token : Token) : Bool :=
  token.isKeyword "FOREIGN" || token.isKeyword "CHECK"

/-- The tokens of a check or a foreign key, which may have a name in backticks. -/
inductive IsUnmodelled : List Token → Prop where
  | plain {keyword : Token} {body : List Token} (hkeyword : beginsUnmodelled keyword = true)
      (hbody : closes 0 body = true) : IsUnmodelled (keyword :: body)
  | unnamed {first keyword : Token} {body : List Token}
      (hfirst : first.isKeyword "CONSTRAINT" = true) (hkeyword : beginsUnmodelled keyword = true)
      (hbody : closes 0 body = true) : IsUnmodelled (first :: keyword :: body)
  | named {first keyword : Token} {body : List Token} (name : String)
      (hfirst : first.isKeyword "CONSTRAINT" = true) (hkeyword : beginsUnmodelled keyword = true)
      (hbody : closes 0 body = true) : IsUnmodelled (first :: .quoted name :: keyword :: body)

/-- A search for the end of a clause goes past tokens that are closed. -/
theorem outerRest_of_closes {depth : Nat} {body : List Token} (h : closes depth body = true)
    (rest : List Token) :
    outerRest (· == .comma) depth (body ++ rest) = outerRest (· == .comma) 0 rest := by
  fun_induction closes depth body with
  | case1 depth => rw [List.nil_append, eq_of_beq h]
  | case2 depth tokens ih => exact ih h
  | case3 => cases h
  | case4 depth tokens ih => exact ih h
  | case5 => cases h
  | case6 depth token tokens hleft hright hdepth hcomma ih =>
      cases depth with
      | zero =>
          rw [List.cons_append, outerRest_cons hleft (hright rfl),
            if_neg (by simpa using hcomma rfl)]
          exact ih h
      | succ depth =>
          rw [List.cons_append, outerRest_succ_cons hleft (hdepth depth rfl)]
          exact ih h

theorem isKeyword_eq_false {token : Token} {keyword other : String}
    (h : token.isKeyword keyword = true) (hne : Text.lower keyword ≠ Text.lower other) :
    token.isKeyword other = false := by
  cases token with
  | word w =>
      have hword : Text.lower w = Text.lower keyword := eq_of_beq h
      exact beq_eq_false_iff_ne.2 (hword ▸ hne)
  | _ => rfl

theorem run_aheadAny_of_unmodelled {keyword : Token} (h : beginsUnmodelled keyword = true)
    {keywords : List String} (hkeywords : "FOREIGN" ∈ keywords ∧ "CHECK" ∈ keywords)
    (body rest : List Token) : (aheadAny keywords : Reader Bool).run (keyword :: body ++ rest) =
      .ok (true, keyword :: body ++ rest) := by
  have hany : keywords.any (HasKeywords.isKeyword · keyword) = true := by
    rw [List.any_eq_true]
    rcases Bool.or_eq_true_iff.1 h with hkeyword | hkeyword
    · exact ⟨"FOREIGN", hkeywords.1, hkeyword⟩
    · exact ⟨"CHECK", hkeywords.2, hkeyword⟩
  rw [run_aheadAny, List.cons_append, List.head?_cons, Option.any_some, hany]

/-- After its keyword a constraint that is not modelled is passed over up to the end of the
element. -/
theorem run_passed {keyword : Token} {body : List Token}
    (hkeyword : beginsUnmodelled keyword = true) (hbody : closes 0 body = true) (hx : IsEnd x)
    (table : TableSpec) (q : Reader TableSpec) :
    (do
      if ← aheadAny ["FOREIGN", "CHECK"] then
        skipClause
        return table
      else q : Reader TableSpec).run (keyword :: body ++ x :: rest) = .ok (table, x :: rest) := by
  have hmark : keyword ≠ .leftParen ∧ keyword ≠ .rightParen ∧ ¬ (keyword == .comma) = true := by
    refine ⟨?_, ?_, fun hcomma => ?_⟩
    · rintro rfl
      cases hkeyword
    · rintro rfl
      cases hkeyword
    · rw [eq_of_beq hcomma] at hkeyword
      cases hkeyword
  have hend : outerRest (· == .comma) 0 (x :: rest) = x :: rest := by
    cases hx <;> rfl
  have hskip : skipClause.run (keyword :: body ++ x :: rest) = .ok ((), x :: rest) := by
    change Except.ok ((), outerRest (· == .comma) 0 (keyword :: (body ++ x :: rest))) = _
    rw [outerRest_cons hmark.1 hmark.2.1, if_neg hmark.2.2, outerRest_of_closes hbody, hend]
  have hkeywords : "FOREIGN" ∈ ["FOREIGN", "CHECK"] ∧ "CHECK" ∈ ["FOREIGN", "CHECK"] := by
    decide
  rw [run_bind (run_aheadAny_of_unmodelled hkeyword hkeywords body (x :: rest)), if_pos rfl]
  exact run_bind hskip _

/-- A constraint that is not modelled leaves the table as it is. -/
theorem run_tableElement_of_unmodelled {clause : List Token} (h : IsUnmodelled clause)
    (hx : IsEnd x) (table : TableSpec) :
    (tableElement table).run (clause ++ x :: rest) = .ok (table, x :: rest) := by
  have hstarts (token : Token) (tokens : List Token) :
      startsWith ["CONSTRAINT"] (token :: tokens) = token.isKeyword "CONSTRAINT" := by
    simp [startsWith, HasKeywords.isKeyword]
  rw [tableElement, run_bind run_remaining, run_bind_optionalKeyword]
  cases h with
  | @plain keyword body hkeyword hbody =>
      have hother : keyword.isKeyword "CONSTRAINT" = false := by
        rcases Bool.or_eq_true_iff.1 hkeyword with hforeign | hcheck
        · exact isKeyword_eq_false hforeign (by decide)
        · exact isKeyword_eq_false hcheck (by decide)
      rw [List.cons_append, hstarts, hother, if_neg Bool.false_ne_true]
      exact run_passed hkeyword hbody hx table _
  | @unnamed first keyword body hfirst hkeyword hbody =>
      have hname : constraintName.run (keyword :: body ++ x :: rest) =
          .ok ((), keyword :: body ++ x :: rest) := by
        have hkeywords : "FOREIGN" ∈ ["PRIMARY", "UNIQUE", "FOREIGN", "CHECK"] ∧
            "CHECK" ∈ ["PRIMARY", "UNIQUE", "FOREIGN", "CHECK"] := by decide
        rw [constraintName,
          run_bind (run_aheadAny_of_unmodelled hkeyword hkeywords body (x :: rest))]
        rfl
      rw [List.cons_append, hstarts, hfirst, if_pos rfl]
      exact (run_bind hname _).trans (run_passed hkeyword hbody hx table _)
  | @named first keyword body name hfirst hkeyword hbody =>
      have hname : constraintName.run (.quoted name :: (keyword :: body ++ x :: rest)) =
          .ok ((), keyword :: body ++ x :: rest) := rfl
      rw [List.cons_append, hstarts, hfirst, if_pos rfl]
      exact (run_bind hname _).trans (run_passed hkeyword hbody hx table _)

theorem IsUnmodelled.isElement {clause : List Token} (h : IsUnmodelled clause) :
    IsElement clause :=
  fun table => ⟨table, run_tableElement_of_unmodelled h .rightParen table⟩

theorem IsUnmodelled.addElement_eq {clause : List Token} (h : IsUnmodelled clause)
    (table : TableSpec) : addElement table clause = table := by
  rw [addElement, run_tableElement_of_unmodelled h .rightParen table]

end Grammar

open Grammar

/-- A check or a foreign key that is put among the elements of a table definition, at any place
between, before or after them, leaves the definition as it is. -/
theorem parseStatement_of_inserted_constraint {line : Nat} {text : String} {spec : TableSpec}
    (h : parseStatement line text = .ok (some (.createTable spec))) :
    (∃ layout : TableLayout, tokenize line text = .ok layout.tokens) ∧
      ∀ layout : TableLayout, tokenize line text = .ok layout.tokens →
        ∀ above below, layout.elements = above ++ below → ∀ clause, IsUnmodelled clause →
          ∀ line' text', tokenize line' text' =
              .ok (tableTokens layout.header (above ++ clause :: below) layout.options) →
            parseStatement line' text' = .ok (some (.createTable spec)) := by
  obtain ⟨tokens, rest, htokens, -, hrun⟩ := parseStatement_eq_ok_iff.1 h
  constructor
  · obtain ⟨layout, rfl⟩ := exists_layout hrun
    exact ⟨layout, htokens⟩
  · intro layout hlayout above below helements clause hclause line' text' htext
    obtain rfl : tokens = layout.tokens := Except.ok.inj (htokens.symm.trans hlayout)
    obtain ⟨start, hopens⟩ := layout.opens
    have helement := layout.isElement
    rw [helements] at helement
    have hinserted : ∀ element ∈ above ++ clause :: below, IsElement element := by
      intro element hmem
      rw [List.mem_append, List.mem_cons] at hmem
      rcases hmem with habove | rfl | hbelow
      · exact helement element (List.mem_append_left _ habove)
      · exact hclause.isElement
      · exact helement element (List.mem_append_right _ hbelow)
    -- the clause adds nothing, so the elements make the same table with it and without it
    have hsame : (above ++ clause :: below).foldl addElement start =
        layout.elements.foldl addElement start := by
      rw [helements, List.foldl_append, List.foldl_append, List.foldl_cons, hclause.addElement_eq]
    rw [TableLayout.tokens, run_statement_tableTokens hopens layout.elements_ne_nil
      layout.isElement, ← hsame] at hrun
    refine parseStatement_eq_ok_iff.2 ⟨_, rest, htext, ?_, ?_⟩
    · simp [tableTokens]
    · rwa [run_statement_tableTokens hopens (by simp) hinserted]

/-- A foreign key with commas in its parentheses, put after the only column of a table. -/
theorem parseStatement_of_foreign_key :
    let spec : TableSpec := {
      name := { name := "t" }, columns := [{ name := "a", type := { name := "int" } }] }
    parseStatement 1 "CREATE TABLE t (a INT)" = .ok (some (.createTable spec)) ∧
      parseStatement 1
          "CREATE TABLE t (a INT, CONSTRAINT \x60c\x60 FOREIGN KEY (a) REFERENCES u (b, c))" =
        .ok (some (.createTable spec)) := by
  intro spec
  have hread : parseStatement 1 "CREATE TABLE t (a INT)" = .ok (some (.createTable spec)) := by
    decide +kernel
  have htokens : tokenize 1 "CREATE TABLE t (a INT)" =
      .ok (tableTokens [.word "CREATE", .word "TABLE", .word "t"]
        [[.word "a", .word "INT"]] []) := by
    decide +kernel
  have hopens : Opens statement [.word "CREATE", .word "TABLE", .word "t"] := by
    obtain ⟨tokens, rest, htokens', -, hrun⟩ := parseStatement_eq_ok_iff.1 hread
    obtain rfl := Except.ok.inj (htokens.symm.trans htokens')
    obtain ⟨header, body, hsplit, hopens⟩ := findsTable_statement _ _ spec rest hrun
    -- the parenthesis before the elements is the only one that opens
    have hheader := (List.append_cons_inj_of_notMem (by decide) (by decide)).1 hsplit
    rwa [hheader.1]
  have helement : IsElement [.word "a", .word "INT"] :=
    @isElement_of_run [] .rightParen _ { name := { name := "t" } } spec .rightParen
      (by decide +kernel)
  have hinserted : tokenize 1
      "CREATE TABLE t (a INT, CONSTRAINT \x60c\x60 FOREIGN KEY (a) REFERENCES u (b, c))" =
        .ok (tableTokens [.word "CREATE", .word "TABLE", .word "t"]
          [[.word "a", .word "INT"], [.word "CONSTRAINT", .quoted "c", .word "FOREIGN", .word "KEY",
            .leftParen, .word "a", .rightParen, .word "REFERENCES", .word "u", .leftParen,
            .word "b", .comma, .word "c", .rightParen]] []) := by
    decide +kernel
  exact ⟨hread, (parseStatement_of_inserted_constraint hread).2
    ⟨_, _, _, hopens, by simp, by simpa using helement⟩ htokens [[.word "a", .word "INT"]] [] rfl
    _ (.named "c" rfl rfl rfl) 1 _ hinserted⟩

end Sql
end SchemaLint
