import SchemaLint.Proofs.Sql.Reader
import SchemaLint.Proofs.Sql.TableText

/-!
# Reading written tables

The readers of table definitions, run on the tokens of a table in canonical form.  Each lemma says
what one reader takes and that it leaves the rest, and the readers of lists are run by induction on
the list.  In the end a script that holds the text of a table is read as this table
(`WrittenTable.parseScript_text`), whatever its names, texts and numbers are.
-/

namespace SchemaLint
namespace Sql
namespace Grammar

open SchemaLint.Parser Reader

variable {rest : List Token}

theorem run_token {α : Type} {f : Token → Option α} {t : Token} {value : α} (h : f t = some value)
    (expected : String) : (token f expected).run (t :: rest) = .ok (value, rest) := by
  have hpeek : (peek : Reader (Option Token)).run (t :: rest) = .ok (some t, t :: rest) := rfl
  rw [token, run_bind hpeek, Option.bind_some, h]
  rfl

theorem run_integer (n : UInt64) :
    integer.run (.number (Decimal.text64 n) :: rest) = .ok (n, rest) :=
  run_token (Decimal.word64?_text64 n) "integer"

theorem run_keyPart (part : KeyPart) {last : Token} (hlast : last = .comma ∨ last = .rightParen) :
    keyPart.run (WrittenKey.partTokens part ++ last :: rest) = .ok (part, last :: rest) := by
  obtain ⟨column, length⟩ := part
  cases length with
  | none => rcases hlast with rfl | rfl <;> rfl
  | some n =>
      -- after the parenthesis only the number is not known
      have hstart : keyPart.run (WrittenKey.partTokens ⟨column, some n⟩ ++ last :: rest) =
          (do
            let length ← integer
            expectToken .rightParen ")"
            optionalEither "ASC" "DESC"
            return { column, length := some length } : Reader KeyPart).run
              (.number (Decimal.text64 n) :: .rightParen :: last :: rest) := rfl
      rw [hstart, run_bind (run_integer n)]
      rcases hlast with rfl | rfl <;> rfl

theorem run_keyParts {parts : List KeyPart} (hparts : parts ≠ []) :
    keyParts.run (.leftParen ::
        ([Token.comma].intercalate (parts.map WrittenKey.partTokens) ++ .rightParen :: rest)) =
      .ok (parts, rest) := by
  have hopen : ∀ more, (expectToken .leftParen "(" : Reader Unit).run (.leftParen :: more) =
      .ok ((), more) := fun _ => rfl
  have hrun : (separated .comma keyPart).run
      ([Token.comma].intercalate (parts.map WrittenKey.partTokens) ++ .rightParen :: rest) =
        .ok (parts.map id, .rightParen :: rest) :=
    run_separated (by decide) (fun part _ _ hlast => run_keyPart part hlast) hparts
  rw [keyParts, run_bind (hopen _), run_bind hrun, List.map_id]
  rfl

/-- The keywords and the name of a key. -/
theorem run_keyHead (head : WrittenKeyHead) (start more : List Token) :
    (keyClause head.kind start).run (head.tokens ++ .leftParen :: more) =
      (do
        let columns ← keyParts
        let method ← keyOptions none
        return {
          kind := head.kind, name := head.name?, columns, method
          text := ← textSince start } : Reader KeyClause).run (.leftParen :: more) := by
  cases head <;> rfl

theorem run_keyClause (key : WrittenKey) {last : Token}
    (hlast : last = .comma ∨ last = .rightParen) :
    (keyClause key.head.kind (key.tokens ++ last :: rest)).run (key.tokens ++ last :: rest) =
      .ok (key.spec, last :: rest) := by
  have hoptions : (keyOptions none).run (last :: rest) = .ok (none, last :: rest) :=
    run_clauses_of_none (by rcases hlast with rfl | rfl <;> rfl) _ _
  have htokens : key.tokens ++ last :: rest = key.head.tokens ++ .leftParen ::
      ([Token.comma].intercalate (key.parts.map WrittenKey.partTokens) ++
        .rightParen :: last :: rest) := by
    simp [WrittenKey.tokens]
  rw [htokens, run_keyHead, ← htokens, run_bind (run_keyParts key.parts_ne_nil), run_bind hoptions,
    run_bind (run_textSince key.tokens)]
  rfl

/-- The tokens that stand after a type. -/
def typeEnds : List Token :=
  [.word "NULL", .word "NOT", .word "DEFAULT", .word "AUTO_INCREMENT", .word "COMMENT", .comma,
    .rightParen]

/-- None of them, and neither a parenthesis nor a word about the sign, goes on with a type name. -/
theorem typeNameFrom_eq {name : String} {token : Token}
    (h : token ∈ .leftParen :: .word "UNSIGNED" :: typeEnds) :
    typeNameFrom name (token :: rest) = (name, token :: rest) := by
  have hwords : ∀ word ∈ continuations name,
      word ∈ ["precision", "varying", "char", "character", "varchar", "varbinary"] := by
    unfold continuations
    split <;> simp
  have hnone : (continuations name).find? token.isKeyword = none := by
    rw [List.find?_eq_none]
    intro word hword
    have hkeyword : ∀ token ∈ Token.leftParen :: .word "UNSIGNED" :: typeEnds,
        ∀ word ∈ ["precision", "varying", "char", "character", "varchar", "varbinary"],
          token.isKeyword word = false := by decide
    simp [hkeyword token h word (hwords word hword)]
  rw [typeNameFrom, hnone]

theorem run_typeName {word : String} {token : Token}
    (h : token ∈ .leftParen :: .word "UNSIGNED" :: typeEnds) :
    typeName.run (.word word :: token :: rest) = .ok (Text.lower word, token :: rest) := by
  have hlower : lowerWord? (.word word) = some (Text.lower word) := rfl
  rw [typeName, run_bind (run_token hlower "data type")]
  change Except.ok (typeNameFrom _ _) = _
  rw [typeNameFrom_eq h]

/-- The word about the sign, if there is one. -/
theorem run_sign (type : TypeSpec) (htype : type.unsigned = false) (unsigned : Bool) {token : Token}
    (h : token ∈ typeEnds) :
    (clauses (keywordHead signWords)
        (fun word type => return applySign word type : SignWord → TypeSpec → Reader TypeSpec)
        type).run (WrittenType.signTokens unsigned ++ token :: rest) =
      .ok ({ type with unsigned }, token :: rest) := by
  have hsign : ∀ token ∈ typeEnds, ∀ entry ∈ signWords, token.isKeyword entry.1 = false := by
    decide
  have hend := keywordHead_eq_none (hsign token h) rest
  cases unsigned with
  | false =>
      refine (run_clauses_of_none hend _ _).trans ?_
      rw [← htype]
  | true =>
      refine (run_clauses_cons (rfl : _ = some (SignWord.unsigned, 0)) rfl).trans ?_
      exact run_clauses_of_none hend _ _

/-- The numbers of a type that has no members. -/
theorem run_typeArguments {type : TypeSpec} (htype : ¬ (type.name = "enum" ∨ type.name = "set"))
    (first : UInt64) (second : Option UInt64) :
    (typeArguments type).run ((numbersTokens (some (first, second))).tail ++ rest) =
      .ok ({ type with length := some first, scale := second <|> type.scale },
        .rightParen :: rest) := by
  cases second with
  | none =>
      have hnumber : integer.run (.number (Decimal.text64 first) :: .rightParen :: rest) =
          .ok (first, .rightParen :: rest) := run_integer first
      rw [typeArguments, if_neg htype]
      refine (run_bind hnumber _).trans ?_
      rfl
  | some second =>
      have hnumber : ∀ more, integer.run (.number (Decimal.text64 first) :: more) =
          .ok (first, more) := fun _ => run_integer first
      have hcomma : (optionalToken .comma : Reader Bool).run
          (.comma :: .number (Decimal.text64 second) :: .rightParen :: rest) =
            .ok (true, .number (Decimal.text64 second) :: .rightParen :: rest) := rfl
      rw [typeArguments, if_neg htype]
      refine (run_bind (hnumber _) _).trans ((run_bind hcomma _).trans ?_)
      exact run_bind (run_integer second) _

theorem run_columnType (type : WrittenType) {token : Token} (h : token ∈ typeEnds) :
    columnType.run (type.tokens ++ token :: rest) = .ok (type.spec, token :: rest) := by
  obtain ⟨word, hword, hmembers, numbers, unsigned⟩ := type
  have htype : ¬ (Text.lower word = "enum" ∨ Text.lower word = "set") :=
    not_or.2 hmembers
  cases numbers with
  | none =>
      -- no parenthesis follows
      obtain ⟨head, more, htokens, hhead⟩ : ∃ head more,
          WrittenType.signTokens unsigned ++ token :: rest = head :: more ∧
            head ∈ .word "UNSIGNED" :: typeEnds := by
        cases unsigned with
        | false => exact ⟨token, rest, rfl, List.mem_cons_of_mem _ h⟩
        | true => exact ⟨_, _, rfl, List.mem_cons_self⟩
      have hne : ∀ token ∈ Token.word "UNSIGNED" :: typeEnds, token ≠ .leftParen := by decide
      have hparen : (optionalToken .leftParen : Reader Bool).run (head :: more) =
          .ok (false, head :: more) := run_optionalToken_of_ne (hne head hhead)
      change columnType.run (.word word :: (WrittenType.signTokens unsigned ++ token :: rest)) = _
      rw [htokens, columnType, run_bind (run_typeName (List.mem_cons_of_mem _ hhead)),
        run_bind hparen, ← htokens]
      exact run_sign { name := Text.lower word } rfl unsigned h
  | some numbers =>
      obtain ⟨first, second⟩ := numbers
      have hparen : ∀ more, (optionalToken .leftParen : Reader Bool).run (.leftParen :: more) =
          .ok (true, more) := fun _ => rfl
      have hclose : ∀ more, (expectToken .rightParen ")" : Reader Unit).run (.rightParen :: more) =
          .ok ((), more) := fun _ => rfl
      have htokens : WrittenType.tokens ⟨word, hword, hmembers, some (first, second), unsigned⟩ ++
          token :: rest = .word word :: .leftParen ::
            ((numbersTokens (some (first, second))).tail ++
              (WrittenType.signTokens unsigned ++ token :: rest)) := by
        cases second <;> simp [WrittenType.tokens, numbersTokens]
      have hnumbers := @run_typeArguments (WrittenType.signTokens unsigned ++ token :: rest)
        { name := Text.lower word } htype first second
      rw [htokens, columnType, run_bind (run_typeName List.mem_cons_self), run_bind (hparen _)]
      refine (run_bind hnumbers _).trans ((run_bind (hclose _) _).trans ?_)
      cases second <;> exact run_sign _ rfl unsigned h

/-- An attribute is read and added to the column. -/
theorem run_attribute (attr : WrittenAttribute) (column : ColumnSpec) :
    (clauses (keywordHead attributeHeads) columnAttribute column).run (attr.tokens ++ rest) =
      (clauses (keywordHead attributeHeads) columnAttribute (attr.add column)).run rest := by
  cases attr with
  | nullable allowed =>
      cases allowed with
      | true => exact run_clauses_cons (rfl : _ = some (AttributeHead.null, 0)) rfl
      | false => exact run_clauses_cons (rfl : _ = some (AttributeHead.not, 0)) rfl
  | default text => exact run_clauses_cons (rfl : _ = some (AttributeHead.default, 0)) rfl
  | autoIncrement =>
      exact run_clauses_cons (rfl : _ = some (AttributeHead.autoIncrement, 0)) rfl
  | comment text => exact run_clauses_cons (rfl : _ = some (AttributeHead.comment, 0)) rfl

theorem run_attributes {last : Token} (hlast : last = .comma ∨ last = .rightParen) :
    ∀ (attributes : List WrittenAttribute) (column : ColumnSpec),
      (clauses (keywordHead attributeHeads) columnAttribute column).run
          (attributes.flatMap WrittenAttribute.tokens ++ last :: rest) =
        .ok (attributes.foldl WrittenAttribute.add column, last :: rest)
  | [], column => run_clauses_of_none (by rcases hlast with rfl | rfl <;> rfl) _ _
  | attr :: attributes, column => by
      rw [List.flatMap_cons, List.append_assoc, run_attribute]
      exact run_attributes hlast attributes (attr.add column)

/-- What follows a type begins with a token that can stand there. -/
theorem exists_typeEnd {last : Token} (hlast : last = .comma ∨ last = .rightParen) :
    ∀ attributes : List WrittenAttribute, ∃ head more,
      attributes.flatMap WrittenAttribute.tokens ++ last :: rest = head :: more ∧ head ∈ typeEnds
  | [] => ⟨last, rest, rfl, by rcases hlast with rfl | rfl <;> decide⟩
  | attr :: attributes => by
      have hattr : ∃ head more, attr.tokens = head :: more ∧ head ∈ typeEnds := by
        cases attr with
        | nullable allowed => cases allowed <;> exact ⟨_, _, rfl, by decide⟩
        | _ => exact ⟨_, _, rfl, by decide⟩
      obtain ⟨head, more, htokens, hhead⟩ := hattr
      refine ⟨head, more ++ (attributes.flatMap WrittenAttribute.tokens ++ last :: rest), ?_, hhead⟩
      rw [List.flatMap_cons, htokens, List.append_assoc, List.cons_append]

theorem run_column (written : WrittenColumn) {last : Token}
    (hlast : last = .comma ∨ last = .rightParen) :
    column.run (written.tokens ++ last :: rest) = .ok (written.spec, last :: rest) := by
  have hname : ∀ more, identifier.run (.quoted written.name :: more) = .ok (written.name, more) :=
    fun more => rfl
  have htype : columnType.run (written.type.tokens ++
      (written.attributes.flatMap WrittenAttribute.tokens ++ last :: rest)) =
        .ok (written.type.spec,
          written.attributes.flatMap WrittenAttribute.tokens ++ last :: rest) := by
    obtain ⟨head, more, hmore, hhead⟩ : ∃ head more,
        written.attributes.flatMap WrittenAttribute.tokens ++ last :: rest = head :: more ∧
          head ∈ typeEnds := exists_typeEnd hlast written.attributes
    rw [hmore]
    exact run_columnType written.type hhead
  have hpeek : (peek : Reader (Option Token)).run (last :: rest) = .ok (some last, last :: rest) :=
    rfl
  have htokens : written.tokens ++ last :: rest = .quoted written.name :: (written.type.tokens ++
      (written.attributes.flatMap WrittenAttribute.tokens ++ last :: rest)) := by
    simp [WrittenColumn.tokens]
  rw [htokens, column, run_bind (hname _), run_bind htype, run_bind (run_attributes hlast _ _),
    run_bind hpeek, written.foldl_add_attributes]
  rcases hlast with rfl | rfl <;> rfl

theorem run_tableElement (element : WrittenElement) (table : TableSpec) {last : Token}
    (hlast : last = .comma ∨ last = .rightParen) :
    (tableElement table).run (element.tokens ++ last :: rest) =
      .ok (WrittenElement.add table element, last :: rest) := by
  cases element with
  | column written =>
      have hstart : (tableElement table).run (written.tokens ++ last :: rest) =
          (do return { table with columns := table.columns ++ [← column] } :
            Reader TableSpec).run (written.tokens ++ last :: rest) := rfl
      rw [WrittenElement.tokens, hstart, run_bind (run_column written hlast)]
      rfl
  | key written =>
      have hstart : (tableElement table).run (written.tokens ++ last :: rest) =
          (do return { table with keys := table.keys ++
            [← keyClause written.head.kind (written.tokens ++ last :: rest)] } :
              Reader TableSpec).run (written.tokens ++ last :: rest) := by
        obtain ⟨head, parts, hparts⟩ := written
        cases head <;> rfl
      rw [WrittenElement.tokens, hstart, run_bind (run_keyClause written hlast)]
      rfl

theorem run_tableBody (table : WrittenTable) (start : TableSpec) :
    (tableBody start).run
        ([Token.comma].intercalate (table.elements.map WrittenElement.tokens) ++ [.rightParen]) =
      .ok (table.elements.foldl WrittenElement.add start, []) := by
  have hrun : (separatedFold .comma false tableElement start).run
      ([Token.comma].intercalate (table.elements.map WrittenElement.tokens) ++ [.rightParen]) =
        .ok (table.elements.foldl WrittenElement.add start, [.rightParen]) :=
    run_separatedFold (by decide)
      (fun state element _ _ hlast => run_tableElement element state hlast)
      table.elements_ne_nil start
  have hclose : (expectToken .rightParen "\x60,\x60 or \x60)\x60" : Reader Unit).run
      [.rightParen] = .ok ((), []) := rfl
  have hoptions : ∀ read : TableSpec, (tableOptions read).run [] = .ok (read, []) := fun read => by
    rw [tableOptions, run_bind (run_clauses_nil _ _ _)]
    rfl
  rw [tableBody, run_bind hrun, run_bind hclose, hoptions]

theorem run_create_table (text : String) (rest : List Token) :
    (create text).run (.word "TABLE" :: rest) = (createTable false text).run rest := by
  have hor : (optionalKeywords ["OR", "REPLACE"] : Reader Bool).run (.word "TABLE" :: rest) =
      .ok (false, .word "TABLE" :: rest) := rfl
  rw [create, run_bind hor, run_bind (run_clauses_of_none rfl _ _)]
  rfl

/-- The tokens of a table definition are read as what it says. -/
theorem run_statement_table (table : WrittenTable) (text : String) :
    (statement text).run table.tokens = .ok (.createTable table.spec, []) := by
  have hcreate : (statement text).run table.tokens = (create text).run table.tokens.tail := rfl
  have htable : ∀ body, (createTable false text).run
      (.quoted table.schema :: .dot :: .quoted table.name :: .leftParen :: body) =
        (do
          let spec ← tableBody { name := { schema := some table.schema, name := table.name } }
          return .createTable spec : Reader Statement).run body := fun _ => rfl
  rw [hcreate]
  refine (run_create_table text _).trans ((htable _).trans ?_)
  refine (run_bind (run_tableBody table _) _).trans ?_
  rw [table.foldl_add_elements]
  rfl

end Grammar

namespace WrittenTable

/-- A table definition that is written in canonical form is read as what it says. -/
theorem parseScript_text (table : WrittenTable) :
    (parseScript (table.text ++ ";")).map (·.map ScriptStatement.statement) =
      .ok [.createTable table.spec] :=
  table.isStatementText.parseScript_eq (List.cons_ne_nil _ _)
    (Grammar.run_statement_table table (Text.trim table.text))

/-- A table with a backtick in the name of its column and a quote in its comment. -/
example : text {
      schema := "s"
      name := "t"
      columns := [{
        name := "a\x60b"
        type := { word := "VARCHAR", isWord_word := by decide, not_members := by decide,
                  arguments := some (20, none) }
        nullable := some false
        comment := some "it's" }]
      columns_ne_nil := List.cons_ne_nil _ _
      keys := [{
        head := .unique "k"
        parts := [{ column := "a\x60b", length := some 3 }]
        parts_ne_nil := List.cons_ne_nil _ _ }] } =
    "CREATE TABLE \x60s\x60.\x60t\x60 (\x60a\x60\x60b\x60 VARCHAR(20) NOT NULL COMMENT 'it''s', " ++
      "UNIQUE KEY \x60k\x60 (\x60a\x60\x60b\x60(3)))" := by
  decide +kernel

end WrittenTable

end Sql
end SchemaLint
