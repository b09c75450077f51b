import SchemaLint.Proofs.Parser.Locality
import SchemaLint.Proofs.Sql.Reader
import SchemaLint.Sql.Grammar.Table

/-!
# Readers that stop at a mark

What the readers of names, columns and keys read in front of a comma or a closing parenthesis they
read in front of any other.  None of them looks past such a token, and those that look for commas
go on to the parenthesis that closes what they read.

* `carries_column`, `carries_keyClause` - the readers of the elements of a table.
-/

namespace SchemaLint
namespace Sql
namespace Grammar

open SchemaLint.Parser Reader

variable {inner : Prop} {rest other : List Token} {x y : Token} {α : Type}

section Tokens

theorem carries_fail {expected : String} {q : Reader α} :
    Carries inner rest other (fail expected) q :=
  .of_fails fun _ _ h => by cases h

theorem run_token_cons (f : Token → Option α) (expected : String) (first : Token)
    (tokens : List Token) : (token f expected).run (first :: tokens) =
      match f first with
      | some value => .ok (value, tokens)
      | none => .error ⟨expected, some first⟩ := by
  change (match f first with | some value => _ | none => fail expected : Reader α).run _ = _
  split <;> rfl

theorem carries_token (f : Token → Option α) (expected : String) :
    Carries inner (x :: rest) (y :: other) (token f expected) (token f expected) := by
  intro tokens left value _ hrun
  cases tokens with
  | nil =>
      rw [List.nil_append, run_token_cons] at hrun
      split at hrun
      · exact absurd (Prod.mk.inj (Except.ok.inj hrun)).2 (ne_append_cons left rest x)
      · cases hrun
  | cons first tokens =>
      rw [List.cons_append, run_token_cons] at hrun
      rw [List.cons_append, run_token_cons]
      split at hrun
      · next hvalue =>
          obtain ⟨rfl, htokens⟩ := Prod.mk.inj (Except.ok.inj hrun)
          rw [List.append_cancel_right htokens]
      · cases hrun

theorem carries_expectToken (token : Token) (expected : String) :
    Carries inner (x :: rest) (y :: other) (expectToken token expected)
      (expectToken token expected) := by
  intro tokens left _ _ hrun
  have htokens : tokens = token :: left :=
    List.append_cancel_right (run_expectToken_eq_ok.1 hrun)
  rw [htokens]
  exact run_expectToken_eq_ok.2 rfl

theorem takes_expectToken (token : Token) (expected : String) :
    Takes (expectToken token expected) := by
  intro tokens _ hrun
  exact ne_append_cons [] tokens token (run_expectToken_eq_ok.1 hrun)

theorem carries_expectKeyword (keyword : String) :
    Carries inner (x :: rest) (y :: other) (expectKeyword keyword) (expectKeyword keyword) := by
  intro tokens left _ _ hrun
  obtain ⟨token, htoken, hkeyword⟩ := run_expectKeyword_eq_ok.1 hrun
  have htokens : tokens = token :: left := List.append_cancel_right htoken
  rw [htokens]
  exact run_expectKeyword_eq_ok.2 ⟨token, rfl, hkeyword⟩

theorem carries_optionalToken {token : Token} (h : y = token → x = token) :
    Carries inner (x :: rest) (y :: other) (optionalToken token : Reader Bool)
      (optionalToken token) :=
  .optionalToken fun _ => h

theorem carries_optionalKeyword (hx : IsMark x) (hy : IsMark y) (keyword : String) :
    Carries inner (x :: rest) (y :: other) (optionalKeyword keyword : Reader Bool)
      (optionalKeyword keyword) :=
  .optionalKeywords hx hy [keyword]

/-- A reader that fails at some tokens, but not at the second list, reads the same where it goes
on. -/
theorem carries_unless_ahead {stops : Option Token → Prop} [DecidablePred stops]
    {expected : String} {p : Reader α} (hy : ¬ stops (some y))
    (h : Carries inner (x :: rest) (y :: other) p p) :
    Carries inner (x :: rest) (y :: other)
      (do if stops (← peek) then fail expected else p)
      (do if stops (← peek) then fail expected else p) := by
  refine .peek_bind (fun token => ?_) ?_
  · split
    · exact carries_fail
    · exact h
  · rw [if_neg hy]
    split
    · exact carries_fail
    · exact h

theorem carries_ahead (hx : IsMark x) (hy : IsMark y) (keyword : String) :
    Carries inner (x :: rest) (y :: other) (ahead keyword : Reader Bool) (ahead keyword) := by
  refine .peek_bind (fun token => .pure _) ?_
  have hnone : Option.any (HasKeywords.isKeyword keyword) (some x) =
      Option.any (HasKeywords.isKeyword keyword) (some y) := (hx keyword).trans (hy keyword).symm
  rw [hnone]
  exact .pure _

theorem carries_aheadAny (hx : IsMark x) (hy : IsMark y) (keywords : List String) :
    Carries inner (x :: rest) (y :: other) (aheadAny keywords : Reader Bool)
      (aheadAny keywords) := by
  refine .peek_bind (fun token => .pure _) ?_
  have hnone {token : Token} (htoken : IsMark token) :
      (some token).any (fun token => keywords.any (HasKeywords.isKeyword · token)) = false := by
    simpa using fun keyword _ => htoken keyword
  rw [hnone hx, hnone hy]
  exact .pure _

theorem carries_optionalEither (hx : IsMark x) (hy : IsMark y) (first second : String) :
    Carries inner (x :: rest) (y :: other) (optionalEither first second)
      (optionalEither first second) := by
  refine .bind (carries_optionalKeyword hx hy first) fun found => ?_
  cases found with
  | true => exact .pure ()
  | false => exact .bind (carries_optionalKeyword hx hy second) fun _ => .pure ()

theorem carries_clauses {κ σ : Type} {table : List (String × List String × κ)}
    {body : κ → σ → Reader σ} (hx : IsMark x) (hy : IsMark y)
    (hbody : ∀ kind state, Carries inner (x :: rest) (y :: other) (body kind state)
      (body kind state)) (state : σ) :
    Carries inner (x :: rest) (y :: other) (clauses (keywordHead table) body state)
      (clauses (keywordHead table) body state) :=
  .clauses (Carries.keywordHead_append hx hy table)
    (keywordHead_eq_none (fun entry _ => hy entry.1) other) hbody state

/-- The text of what has been read does not depend on what follows. -/
theorem carries_textSince (start : List Token) :
    Carries inner rest other (textSince (start ++ rest)) (textSince (start ++ other)) := by
  have htext : ∀ tokens last : List Token,
      (start ++ last).take ((start ++ last).length - (tokens ++ last).length) =
        start.take (start.length - tokens.length) := by
    intro tokens last
    rw [List.length_append, List.length_append, Nat.add_sub_add_right,
      List.take_append_of_le_length (Nat.sub_le _ _)]
  intro tokens left text _ hrun
  change Except.ok (Token.displayAll _, tokens ++ rest) = _ at hrun
  change Except.ok (Token.displayAll _, tokens ++ other) = _
  rw [htext] at hrun ⊢
  obtain ⟨rfl, htokens⟩ := Prod.mk.inj (Except.ok.inj hrun)
  rw [List.append_cancel_right htokens]

end Tokens

section Names

theorem carries_identifier :
    Carries inner (x :: rest) (y :: other) identifier identifier :=
  carries_token _ _

theorem carries_text : Carries inner (x :: rest) (y :: other) text text :=
  carries_token _ _

theorem carries_nameOrText : Carries inner (x :: rest) (y :: other) nameOrText nameOrText :=
  carries_token _ _

theorem carries_integer : Carries inner (x :: rest) (y :: other) integer integer :=
  carries_token _ _

theorem carries_numeral : Carries inner (x :: rest) (y :: other) numeral numeral :=
  carries_token _ _

theorem carries_objectName (h : y = .dot → x = .dot) :
    Carries inner (x :: rest) (y :: other) objectName objectName := by
  refine .bind carries_identifier fun first => .bind (carries_optionalToken h) fun qualified => ?_
  split
  · exact .bind carries_identifier fun _ => .pure _
  · exact .pure _

theorem carries_accountName (h : y = .at → x = .at) :
    Carries inner (x :: rest) (y :: other) accountName accountName := by
  refine .bind carries_nameOrText fun user => .bind (carries_optionalToken h) fun hosted => ?_
  split
  · exact .bind (carries_token _ _) fun _ => .pure _
  · exact .pure _

theorem carries_optionalEquals (h : y = .equals → x = .equals) :
    Carries inner (x :: rest) (y :: other) optionalEquals optionalEquals :=
  .bind (carries_optionalToken h) fun _ => .pure _

theorem carries_anyValue (h : y = .equals → x = .equals) :
    Carries inner (x :: rest) (y :: other) anyValue anyValue :=
  .bind (carries_optionalEquals h) fun _ => .bind .next fun _ => .pure _

end Names

section Groups

/-- One token takes a search on to the next one at some depth, or ends it, whatever follows. -/
theorem outerRest_step (stops : Token → Bool) (depth : Nat) (token : Token) :
    (∀ tokens, outerRest stops depth (token :: tokens) = token :: tokens) ∨
      ∃ next, ∀ tokens, outerRest stops depth (token :: tokens) = outerRest stops next tokens := by
  by_cases hleft : token = .leftParen
  · exact .inr ⟨depth + 1, fun tokens => by rw [hleft, outerRest]⟩
  by_cases hright : token = .rightParen
  · cases depth with
    | zero => exact .inl fun tokens => by rw [hright, outerRest]
    | succ depth => exact .inr ⟨depth, fun tokens => by rw [hright, outerRest]⟩
  cases depth with
  | zero =>
      by_cases hstops : stops token = true
      · exact .inl fun tokens => by rw [outerRest_cons hleft hright, if_pos hstops]
      · exact .inr ⟨0, fun tokens => by rw [outerRest_cons hleft hright, if_neg hstops]⟩
  | succ depth => exact .inr ⟨depth + 1, fun tokens => outerRest_succ_cons hleft hright depth⟩

/-- A search that ends in front of `x :: rest` ends in front of `y :: other` as well, if each of
the first tokens would end it. -/
theorem outerRest_append {stops : Token → Bool} {depth : Nat} {tokens left : List Token}
    (hends : left = [] → ∀ depth,
      outerRest stops depth (x :: rest) = x :: rest →
        outerRest stops depth (y :: other) = y :: other)
    (h : outerRest stops depth (tokens ++ x :: rest) = left ++ x :: rest) :
    outerRest stops depth (tokens ++ y :: other) = left ++ y :: other := by
  induction tokens generalizing depth with
  | nil =>
      have hsuffix := (outerRest_suffix stops depth (x :: rest)).length_le
      rw [List.nil_append] at h
      have hnil : left = [] := by
        rw [h, List.length_append] at hsuffix
        exact List.eq_nil_of_length_eq_zero (by omega)
      rw [hnil] at h ⊢
      exact hends hnil depth h
  | cons token tokens ih =>
      rcases outerRest_step stops depth token with hends | ⟨next, hnext⟩
      · rw [List.cons_append, hends] at h
        rw [List.cons_append, hends]
        have hleft : token :: tokens = left := List.append_cancel_right h
        rw [← hleft, List.cons_append]
      · rw [List.cons_append, hnext] at h
        rw [List.cons_append, hnext]
        exact ih h

theorem carries_skipTo {stops : Token → Bool} (hends : ¬ inner → ∀ depth,
      outerRest stops depth (x :: rest) = x :: rest →
        outerRest stops depth (y :: other) = y :: other) :
    Carries inner (x :: rest) (y :: other) (skipTo stops) (skipTo stops) := by
  intro tokens left _ hleft hrun
  have houter := (Prod.mk.inj (Except.ok.inj hrun)).2
  have hother := outerRest_append (fun hnil => hends fun hinner => hleft hinner hnil) houter
  exact congrArg (fun left => Except.ok ((), left)) hother

theorem carries_groupRest :
    Carries inner (x :: rest) (y :: other) groupRest groupRest := by
  refine .remaining_bind fun start => .bind_of_takes
    (carries_skipTo fun hinner => absurd trivial hinner) (fun _ => .bind (carries_textSince start)
      fun body => .bind (carries_expectToken _ _) fun _ => .pure body) fun _ => ?_
  exact .of_bind _ fun _ => .bind (takes_expectToken _ _) _

theorem carries_group : Carries inner (x :: rest) (y :: other) group group :=
  .bind (carries_expectToken _ _) fun _ => carries_groupRest

theorem carries_optionalGroup (h : y = .leftParen → x = .leftParen) :
    Carries inner (x :: rest) (y :: other) optionalGroup optionalGroup := by
  refine .bind (carries_optionalToken h) fun opened => ?_
  cases opened with
  | true => exact .bind carries_groupRest fun _ => .pure _
  | false => exact .pure _

end Groups

section Lists

/-- A list with commas in it is an inner part. -/
theorem carries_separated {item : Reader α}
    (hitem : Carries True (x :: rest) (y :: other) item item) :
    Carries True (x :: rest) (y :: other) (separated .comma item) (separated .comma item) :=
  .separatedFold (fun _ => .bind hitem fun _ => .pure _) []

/-- Tokens at which an element of a table ends. -/
inductive IsEnd : Token → Prop where
  | comma : IsEnd .comma
  | rightParen : IsEnd .rightParen

theorem isEnd_iff : IsEnd x ↔ x = .comma ∨ x = .rightParen := by
  refine ⟨fun h => ?_, fun h => ?_⟩
  · cases h <;> simp
  · rcases h with rfl | rfl
    · exact .comma
    · exact .rightParen

theorem IsEnd.isMark (h : IsEnd x) : IsMark x := by
  cases h <;> exact fun _ => rfl

theorem IsEnd.ne_leftParen (h : IsEnd x) : x ≠ .leftParen := by
  cases h <;> simp

theorem IsEnd.ne_equals (h : IsEnd x) : x ≠ .equals := by
  cases h <;> simp

theorem carries_leftParen (hy : IsEnd y) : Carries inner (x :: rest) (y :: other)
    (optionalToken .leftParen : Reader Bool) (optionalToken .leftParen) :=
  carries_optionalToken fun h => absurd h hy.ne_leftParen

/-- What is passed over outside parentheses ends with the element. -/
theorem carries_skipClause (hx : IsEnd x) (hy : IsEnd y) :
    Carries inner (x :: rest) (y :: other) skipClause skipClause := by
  refine carries_skipTo fun _ depth h => ?_
  have hdepth : depth = 0 := by
    cases depth with
    | zero => rfl
    | succ depth =>
        -- inside parentheses the search goes on after either end
        have hpass : ∃ next, outerRest (· == .comma) next rest = x :: rest := by
          cases hx
          · exact ⟨depth + 1, h⟩
          · exact ⟨depth, h⟩
        obtain ⟨next, hnext⟩ := hpass
        have hlength := (outerRest_suffix (· == .comma) next rest).length_le
        rw [hnext, List.length_cons] at hlength
        omega
  rw [hdepth]
  cases hy <;> rfl

end Lists

section Columns

/-- A type name goes on with keywords only. -/
theorem typeNameFrom_append (hx : IsMark x) (hy : IsMark y) {name last : String}
    {tokens left : List Token}
    (h : typeNameFrom name (tokens ++ x :: rest) = (last, left ++ x :: rest)) :
    typeNameFrom name (tokens ++ y :: other) = (last, left ++ y :: other) := by
  have hstop {token : Token} (htoken : IsMark token) (name : String) (tokens : List Token) :
      typeNameFrom name (token :: tokens) = (name, token :: tokens) := by
    have hnone : (continuations name).find? token.isKeyword = none :=
      List.find?_eq_none.2 fun word _ hword => Bool.false_ne_true ((htoken word).symm.trans hword)
    rw [typeNameFrom, hnone]
  induction tokens generalizing name with
  | nil =>
      rw [List.nil_append, hstop hx] at h
      obtain ⟨rfl, hleft⟩ := Prod.mk.inj h
      obtain rfl : left = [] := List.self_eq_append_left.1 hleft
      exact hstop hy name other
  | cons token tokens ih =>
      rw [List.cons_append, typeNameFrom] at h
      rw [List.cons_append, typeNameFrom]
      split at h
      · exact ih h
      · obtain ⟨rfl, hleft⟩ := Prod.mk.inj h
        have hleft : token :: tokens = left := List.append_cancel_right hleft
        rw [← hleft]
        rfl

theorem carries_typeName (hx : IsMark x) (hy : IsMark y) :
    Carries inner (x :: rest) (y :: other) typeName typeName := by
  refine .bind (carries_token _ _) fun first => ?_
  intro tokens left name _ hrun
  exact congrArg Except.ok (typeNameFrom_append hx hy (Except.ok.inj hrun))

theorem carries_typeArguments (type : TypeSpec) :
    Carries True (x :: rest) (y :: other) (typeArguments type) (typeArguments type) := by
  unfold typeArguments
  split
  · exact .bind (carries_separated carries_text) fun _ => .pure _
  · refine .bind carries_integer fun _ => .bind (.optionalToken (absurd trivial)) fun scaled => ?_
    split
    · exact .bind carries_integer fun _ => .pure _
    · exact .pure _

variable (hx : IsEnd x) (hy : IsEnd y)

include hx hy

theorem carries_columnType : Carries inner (x :: rest) (y :: other) columnType columnType := by
  have hsigns (type : TypeSpec) : Carries inner (x :: rest) (y :: other)
      (clauses (keywordHead signWords) (fun word type => return applySign word type) type)
      (clauses (keywordHead signWords) (fun word type => return applySign word type) type) :=
    carries_clauses hx.isMark hy.isMark (fun _ _ => .pure _) type
  refine .bind (carries_typeName hx.isMark hy.isMark) fun name =>
    .bind (carries_leftParen hy) fun opened => ?_
  cases opened with
  | true =>
      -- commas among the arguments are followed by the parenthesis that closes them
      exact .bind_of_takes (carries_typeArguments _)
        (fun type => .bind (carries_expectToken _ _) fun _ => hsigns type)
        fun _ => .bind (takes_expectToken _ _) _
  | false => exact hsigns _

theorem carries_currentTime : Carries inner (x :: rest) (y :: other) currentTime currentTime := by
  refine .bind (carries_aheadAny hx.isMark hy.isMark _) fun found => ?_
  cases found with
  | true =>
      exact .bind .next fun _ => carries_optionalGroup fun h => absurd h hy.ne_leftParen
  | false => exact carries_fail

theorem carries_wordDefault (word : String) :
    Carries inner (x :: rest) (y :: other) (wordDefault word) (wordDefault word) := by
  unfold wordDefault
  split
  · exact .pure _
  split
  · exact .pure _
  split
  · exact .pure _
  split
  · exact .bind (carries_optionalGroup fun h => absurd h hy.ne_leftParen) fun _ => .pure _
  refine .peek_bind (fun token => ?_) ?_
  · split
    · split
      · exact .bind .next fun _ => .pure _
      · exact .pure _
    · exact .bind carries_group fun _ => .pure _
    · exact .pure _
  · cases hx <;> cases hy <;> exact .pure _

theorem carries_defaultValue :
    Carries inner (x :: rest) (y :: other) defaultValue defaultValue := by
  refine .peek_bind (fun token => ?_) ?_
  · split
    · exact .bind .next fun _ => carries_wordDefault hx hy _
    · exact .bind .next fun _ => .pure _
    · exact .bind .next fun _ => .pure _
    · exact .bind .next fun _ => .pure _
    · exact .bind .next fun _ => .bind carries_numeral fun _ => .pure _
    · exact .bind .next fun _ => .bind carries_numeral fun _ => .pure _
    · exact .bind carries_group fun _ => .pure _
    · exact carries_fail
  · cases hx <;> exact carries_fail

theorem carries_columnAttribute (head : AttributeHead) (column : ColumnSpec) :
    Carries inner (x :: rest) (y :: other) (columnAttribute head column)
      (columnAttribute head column) := by
  have hcomputed (column : ColumnSpec) :
      Carries inner (x :: rest) (y :: other) (computedBy column) (computedBy column) :=
    .bind carries_group fun _ => .pure _
  cases head with
  | not => exact .bind (carries_expectKeyword _) fun _ => .pure _
  | null => exact .pure _
  | default => exact .bind (carries_defaultValue hx hy) fun _ => .pure _
  | autoIncrement => exact .pure _
  | unique => exact .bind (carries_optionalKeyword hx.isMark hy.isMark _) fun _ => .pure _
  | primary => exact .bind (carries_expectKeyword _) fun _ => .pure _
  | key => exact .pure _
  | comment => exact .bind carries_text fun _ => .pure _
  | collate =>
      exact .bind (carries_optionalEquals fun h => absurd h hy.ne_equals) fun _ =>
        .bind carries_nameOrText fun _ => .pure _
  | character =>
      exact .bind (carries_expectKeyword _) fun _ => .bind carries_nameOrText fun _ => .pure _
  | charset => exact .bind carries_nameOrText fun _ => .pure _
  | on =>
      exact .bind (carries_expectKeyword _) fun _ =>
        .bind (carries_currentTime hx hy) fun _ => .pure _
  | generated =>
      exact .bind (carries_expectKeyword _) fun _ =>
        .bind (carries_expectKeyword _) fun _ => hcomputed column
  | computed => exact hcomputed column
  | virtual => exact .pure _
  | stored => exact .pure _
  | references => exact .bind (carries_skipClause hx hy) fun _ => .pure _
  | check => exact .bind carries_group fun _ => .pure _
  | constraint =>
      refine .bind (carries_ahead hx.isMark hy.isMark _) fun unnamed => ?_
      cases unnamed with
      | true =>
          exact .bind (carries_expectKeyword _) fun _ => .bind carries_group fun _ => .pure _
      | false =>
          exact .bind carries_identifier fun _ =>
            .bind (carries_expectKeyword _) fun _ => .bind carries_group fun _ => .pure _
  | oneToken => exact .bind .next fun _ => .pure _
  | oneValue =>
      exact .bind (carries_anyValue fun h => absurd h hy.ne_equals) fun _ => .pure _
  | after => exact .bind carries_identifier fun _ => .pure _
  | bare => exact .pure _

theorem carries_column : Carries inner (x :: rest) (y :: other) column column := by
  refine .bind carries_identifier fun name => .bind (carries_columnType hx hy) fun type =>
    .bind (carries_clauses hx.isMark hy.isMark (carries_columnAttribute hx hy) _) fun column => ?_
  refine .peek_bind (fun token => ?_) ?_
  · split
    · exact .pure _
    · exact .pure _
    · exact .pure _
    · exact carries_fail
  · cases hx <;> cases hy <;> exact .pure _

end Columns

section Keys

theorem carries_keyMethod : Carries inner (x :: rest) (y :: other) keyMethod keyMethod :=
  .bind carries_identifier fun _ => .pure _

variable (hx : IsEnd x) (hy : IsEnd y)

include hx hy

theorem carries_keyPart : Carries inner (x :: rest) (y :: other) keyPart keyPart := by
  refine carries_unless_ahead (by simpa using hy.ne_leftParen) (.bind carries_identifier fun _ =>
    .bind (carries_leftParen hy) fun opened => ?_)
  cases opened with
  | true =>
      exact .bind carries_integer fun _ => .bind (carries_expectToken _ _) fun _ =>
        .bind (carries_optionalEither hx.isMark hy.isMark _ _) fun _ => .pure _
  | false =>
      exact .bind (carries_optionalEither hx.isMark hy.isMark _ _) fun _ => .pure _

theorem carries_keyParts : Carries inner (x :: rest) (y :: other) keyParts keyParts :=
  .bind (carries_expectToken _ _) fun _ =>
    .bind_of_takes (carries_separated (carries_keyPart hx hy))
      (fun _ => .bind (carries_expectToken _ _) fun _ => .pure _)
      fun _ => .bind (takes_expectToken _ _) _

theorem carries_optionalMethod :
    Carries inner (x :: rest) (y :: other) optionalMethod optionalMethod := by
  refine .bind (carries_optionalKeyword hx.isMark hy.isMark _) fun found => ?_
  cases found with
  | true => exact .bind (carries_keyMethod) fun _ => .pure _
  | false => exact .pure _

theorem carries_keyOptions (method : Option String) :
    Carries inner (x :: rest) (y :: other) (keyOptions method) (keyOptions method) := by
  refine carries_clauses hx.isMark hy.isMark (fun head method => ?_) method
  cases head with
  | method => exact .bind carries_keyMethod fun _ => .pure _
  | comment => exact .bind carries_text fun _ => .pure _
  | value => exact .bind (carries_anyValue fun h => absurd h hy.ne_equals) fun _ => .pure _
  | tokenizer => exact .bind carries_identifier fun _ => .pure _
  | visibility => exact .pure _

theorem carries_keyHead (kind : KeyKind) :
    Carries inner (x :: rest) (y :: other) (keyHead kind) (keyHead kind) := by
  have hoptional : Carries inner (x :: rest) (y :: other) (do
      let _ ← next
      optionalEither "INDEX" "KEY" : Reader Unit) (do
      let _ ← next
      optionalEither "INDEX" "KEY" : Reader Unit) :=
    .bind .next fun _ => carries_optionalEither hx.isMark hy.isMark _ _
  cases kind with
  | primary => exact .bind (carries_expectKeyword _) fun _ => carries_expectKeyword _
  | index => exact .bind .next fun _ => .pure _
  | unique => exact hoptional
  | fulltext => exact hoptional
  | spatial => exact hoptional

theorem carries_optionalKeyName :
    Carries inner (x :: rest) (y :: other) optionalKeyName optionalKeyName := by
  refine .peek_bind (fun token => ?_) ?_
  · dsimp only
    split
    · exact .pure _
    split
    · exact .bind .next fun _ => .pure _
    · exact .pure _
  · cases hx <;> cases hy <;> exact .pure _

/-- The text of a key clause is that of its own tokens. -/
theorem carries_keyClause (kind : KeyKind) (start : List Token) :
    Carries inner (x :: rest) (y :: other) (keyClause kind (start ++ x :: rest))
      (keyClause kind (start ++ y :: other)) :=
  .bind (carries_keyHead hx hy kind) fun _ => .bind (carries_optionalKeyName hx hy) fun _ =>
    .bind (carries_optionalMethod hx hy) fun method => .bind (carries_keyParts hx hy) fun _ =>
      .bind (carries_keyOptions hx hy method) fun _ => .bind (carries_textSince start) fun _ =>
        .pure _

theorem carries_constraintName :
    Carries inner (x :: rest) (y :: other) constraintName constraintName := by
  refine .bind (carries_aheadAny hx.isMark hy.isMark _) fun unnamed => ?_
  cases unnamed with
  | true => exact .pure _
  | false => exact .bind carries_identifier fun _ => .pure _

/-- The keyword and the name in front of a constraint may be left out together. -/
theorem carries_constrained {constrained : Bool} {p q : Unit → Reader α}
    (h : Carries inner (x :: rest) (y :: other) (p ()) (q ())) :
    Carries inner (x :: rest) (y :: other) (if constrained then constraintName >>= p else p ())
      (if constrained then constraintName >>= q else q ()) := by
  split
  · exact .bind (carries_constraintName hx hy) fun _ => h
  · exact h

/-- What is read as an element of a table at one end of it is so at every other. -/
theorem carries_tableElement (table : TableSpec) :
    Carries inner (x :: rest) (y :: other) (tableElement table) (tableElement table) := by
  refine .remaining_bind fun start =>
    .bind (carries_optionalKeyword hx.isMark hy.isMark _) fun constrained => ?_
  refine carries_constrained hx hy
    (.bind (carries_aheadAny hx.isMark hy.isMark _) fun skipped => ?_)
  cases skipped with
  | true => exact .bind (carries_skipClause hx hy) fun _ => .pure _
  | false =>
      have hcolumn {p q : Reader TableSpec} (hp : Carries inner (x :: rest) (y :: other) p q)
          (expected : String) : Carries inner (x :: rest) (y :: other)
            (if constrained then fail expected else p)
            (if constrained then fail expected else q) := by
        split
        · exact carries_fail
        · exact hp
      refine .peek_bind (fun token => ?_) ?_
      · rw [Option.bind_some]
        cases keyKindOf? token with
        | some kind => exact .bind (carries_keyClause hx hy kind start) fun _ => .pure _
        | none => exact hcolumn (.bind (carries_column hx hy) fun _ => .pure _) _
      · have hnone {token : Token} (h : IsEnd token) : (some token).bind keyKindOf? = none := by
          cases h <;> rfl
        rw [hnone hx, hnone hy]
        exact hcolumn (.bind (carries_column hx hy) fun _ => .pure _) _

end Keys

end Grammar
end Sql
end SchemaLint
