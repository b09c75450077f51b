import SchemaLint.Proofs.Sql.Stepper.Account
import SchemaLint.Proofs.Sql.Stepper.Alteration
import SchemaLint.Sql.Grammar

/-!
# Statements by positions

A statement is read from the first position.  Its kind is told by a look at its first word, which
some kinds pass as a keyword that they expect, and the kinds that are not read leave.

`Stepper.parseStatement` never slips, whatever the text: it is `parseStatement`, which has no
positions.
-/

namespace SchemaLint
namespace Sql
namespace Stepper

open Grammar (CreationHead CreatedKind creationHeads createdKinds droppedKinds statementHeads)

variable {κ α : Type} {tokens rest : List Token} {start : Nat} {next : Token}

/-- The rest of a part between `CREATE` and the kind of object. -/
def creationPart (head : CreationHead) : Stepper Unit := do
  match head with
  | .definer =>
      optionalEquals
      let _ ← accountName
      if ← consume .leftParen then
        expectToken .rightParen ")"
  | .algorithm => anyValue
  | .security =>
      let _ ← take

/-- The words that say that an object may be there already. -/
def optionalIfNotExists : Stepper Bool :=
  consumeKeywords ["IF", "NOT", "EXISTS"]

/-- The words that say that an object may be missing. -/
def optionalIfExists : Stepper Bool :=
  consumeKeywords ["IF", "EXISTS"]

/-- A new schema. -/
def createSchema : Stepper Statement := do
  let ifNotExists ← optionalIfNotExists
  return .createDatabase (← identifier) ifNotExists

/-- A new table. -/
def createTable (temporary : Bool) (statement : String) : Stepper Statement := do
  let ifNotExists ← optionalIfNotExists
  let name ← objectName
  if ← consume .leftParen then
    return .createTable (← tableBody { name, ifNotExists, temporary })
  else
    return .unsupported statement

/-- A statement that begins with `CREATE`, after that keyword. -/
def create (statement : String) : Stepper Statement := do
  let _ ← consumeKeywords ["OR", "REPLACE"]
  keywordClauses creationHeads (fun head _ => creationPart head) ()
  let temporary ← consumeKeyword "TEMPORARY"
  match ← kindAhead createdKinds with
  | some .schema =>
      advance
      createSchema
  | some .table =>
      expectKeyword "TABLE"
      createTable temporary statement
  | some .view =>
      advance
      return .createView (← objectName)
  | some .index => createIndex
  | some .user =>
      expectKeyword "USER"
      createUser (← optionalIfNotExists)
  | some (.inert kind) => return .inert kind
  | none => return .unsupported statement

/-- A statement that begins with `DROP`, after that keyword. -/
def drop (statement : String) : Stepper Statement := do
  let _ ← consumeKeyword "TEMPORARY"
  match ← kindAhead droppedKinds with
  | some .schema =>
      advance
      let ifExists ← optionalIfExists
      return .dropDatabase (← identifier) ifExists
  | some .table =>
      advance
      let ifExists ← optionalIfExists
      return .dropTable (← listFromFirst objectName) ifExists
  | some (.inert kind) => return .inert kind
  | none => return .unsupported statement

/-- A statement that begins with `ALTER`, after that keyword. -/
def alter (statement : String) : Stepper Statement := do
  let _ ← consumeKeyword "ONLINE"
  let _ ← consumeKeyword "IGNORE"
  if ← consumeKeyword "TABLE" then
    let table ← objectName
    return .alterTable table (← alterActions)
  else
    return .unsupported statement

/-- A statement, whose text is `statement`. -/
def statement (statement : String) : Stepper Statement := do
  match ← kindAhead statementHeads with
  | some .create =>
      expectKeyword "CREATE"
      create statement
  | some .drop =>
      expectKeyword "DROP"
      drop statement
  | some .alter =>
      expectKeyword "ALTER"
      alter statement
  | some .grant =>
      expectKeyword "GRANT"
      grant
  | some .use =>
      advance
      return .use (← identifier)
  | some (.inert kind) => return .inert kind
  | none => return .unsupported statement

/-- How the reading of a text fails. -/
inductive Failure where
  | syntaxError (error : SyntaxError)
  | slip (slip : Slip)
deriving DecidableEq, Repr

/-- The failure of a statement that begins on line `line`. -/
def Failure.ofHalt (line : Nat) : Halt → Failure
  | .mismatch mismatch => .syntaxError (mismatch.atLine line)
  | .slip wrong => .slip wrong

/-- The statement that a text is, read by positions. -/
def parseStatement (line : Nat) (text : String) : Except Failure (Option Statement) := do
  match ← (tokenize line text).mapError .syntaxError with
  | [] => return none
  | tokens =>
      let answer := ((statement (Text.trim text)).run tokens 0).map Prod.fst
      (answer.map some).mapError (.ofHalt line)

theorem run_kindAhead {pos : Nat} (hpos : StandsAt tokens pos rest)
    (table : List (String × List String × κ)) :
    (kindAhead table).run tokens pos = .ok (rest.head?.bind (keywordKind? table), pos) := by
  rw [kindAhead, run_bind (run_look hpos)]
  rfl

theorem run_readKindAhead {table : List (String × List String × κ)}
    (hsingle : ∀ entry ∈ table, entry.2.1 = []) (rest : List Token) :
    (Grammar.kindAhead table).run rest = .ok (rest.head?.bind (keywordKind? table), rest) := by
  cases rest with
  | nil => rfl
  | cons token rest =>
      change Except.ok ((Parser.keywordHead table token rest).map Prod.fst, token :: rest) = _
      rw [keywordHead_eq_map hsingle, Option.map_map, List.head?_cons, Option.bind_some]
      simp [Function.comp_def]

/-- What a stepper reads that looks at the kind of what is next is tracked if it is so for each
kind that is. -/
theorem Tracks.kindAhead_bind {table : List (String × List String × κ)}
    (hsingle : ∀ entry ∈ table, entry.2.1 = []) {f : Option κ → Stepper α}
    {g : Option κ → Reader α} (hnone : Tracks tokens start (f none) (g none))
    (h : ∀ token kind, keywordKind? table token = some kind →
      TracksBefore tokens start token (f (some kind)) (g (some kind))) :
    Tracks tokens start (kindAhead table >>= f) (Grammar.kindAhead table >>= g) := by
  refine .of_before (fun pos hstart hpos => ?_) fun token pos rest hstart hpos => ?_
  · rw [run_bind (run_kindAhead hpos table), Parser.run_bind (run_readKindAhead hsingle [])]
    exact hnone pos [] hstart hpos
  · rw [run_bind (run_kindAhead hpos table), Parser.run_bind (run_readKindAhead hsingle _),
      List.head?_cons, Option.bind_some]
    cases hkind : keywordKind? table token with
    | none => exact hnone pos _ hstart hpos
    | some kind => exact h token kind hkind pos rest hstart hpos

namespace Tracks

protected theorem creationPart (head : CreationHead) :
    Tracks tokens start (creationPart head) (Grammar.creationPart head) := by
  cases head with
  | definer =>
      exact .bind .optionalEquals fun _ => .bind .accountName fun _ => .bind (.consume _) fun _ =>
        .ite (.expectToken _ _) (.pure _)
  | algorithm => exact .anyValue
  | security => exact .bind .take fun _ => .pure _

protected theorem createSchema : Tracks tokens start createSchema Grammar.createSchema :=
  .bind (.consumeKeywords _) fun _ => .bind .identifier fun _ => .pure _

protected theorem createTable (temporary : Bool) (statement : String) :
    Tracks tokens start (createTable temporary statement)
      (Grammar.createTable temporary statement) :=
  .bind (.consumeKeywords _) fun _ => .bind .objectName fun _ => .bind (.consume _) fun _ =>
    .ite (.bind (.tableBody _) fun _ => .pure _) (.pure _)

protected theorem create (statement : String) :
    Tracks tokens start (create statement) (Grammar.create statement) := by
  refine .bind (.consumeKeywords _) fun _ =>
    .bind (.keywordClauses (fun head _ => .creationPart head) ()) fun _ =>
      .bind (.consumeKeyword _) fun temporary => ?_
  refine .kindAhead_bind (by decide) (.pure _) fun token kind hkind => ?_
  cases kind with
  | schema => exact .advance_next .createSchema
  | table =>
      exact .expectKeyword_next (isKeyword_of_keywordKind? hkind (by simp [createdKinds]))
        (.createTable temporary statement)
  | view => exact .advance_next (.bind .objectName fun _ => .pure _)
  | index => exact Tracks.createIndex.before
  | user =>
      exact .expectKeyword_next (isKeyword_of_keywordKind? hkind (by simp [createdKinds]))
        (.bind (.consumeKeywords _) fun ifNotExists => .createUser ifNotExists)
  | inert kind => exact (Tracks.pure _).before

protected theorem drop (statement : String) :
    Tracks tokens start (drop statement) (Grammar.drop statement) := by
  refine .bind (.consumeKeyword _) fun _ =>
    .kindAhead_bind (by decide) (.pure _) fun token kind _ => ?_
  cases kind with
  | schema =>
      exact .advance_next (.bind (.consumeKeywords _) fun _ => .bind .identifier fun _ => .pure _)
  | table =>
      exact .advance_next (.bind (.consumeKeywords _) fun _ =>
        .bind (.listFromFirst .objectName) fun _ => .pure _)
  | inert kind => exact (Tracks.pure _).before

protected theorem alter (statement : String) :
    Tracks tokens start (alter statement) (Grammar.alter statement) :=
  .bind (.consumeKeyword _) fun _ => .bind (.consumeKeyword _) fun _ =>
    .bind (.consumeKeyword _) fun _ => .ite
      (.bind .objectName fun _ => .bind .alterActions fun _ => .pure _) (.pure _)

end Tracks

/-- A statement is the same by positions, but for the place where it ends. -/
theorem run_statement (statement : String) (tokens : List Token) :
    ((Stepper.statement statement).run tokens 0).map Prod.fst =
      (landing tokens ((Grammar.statement statement).run tokens)).map Prod.fst := by
  cases tokens with
  | nil => rfl
  | cons token rest =>
      have hsingle : ∀ entry ∈ statementHeads, entry.2.1 = [] := by decide
      have hpos := StandsAt.start (token :: rest)
      have hanswer : ∀ {c : Stepper Statement} {p : Reader Statement},
          TracksBefore (token :: rest) 0 token c p →
          (c.run (token :: rest) 0).map Prod.fst =
            (landing (token :: rest) (p.run (token :: rest))).map Prod.fst :=
        fun h => congrArg (Except.map Prod.fst) (h 0 rest (Nat.le_refl 0) hpos)
      rw [Stepper.statement, Grammar.statement, run_bind (run_kindAhead hpos statementHeads),
        Parser.run_bind (run_readKindAhead hsingle _), List.head?_cons, Option.bind_some]
      cases hkind : keywordKind? statementHeads token with
      | none => rfl
      | some head =>
          cases head with
          | create =>
              exact hanswer (.expectKeyword_next
                (isKeyword_of_keywordKind? hkind (by simp [statementHeads])) (.create statement))
          | drop =>
              exact hanswer (.expectKeyword_next
                (isKeyword_of_keywordKind? hkind (by simp [statementHeads])) (.drop statement))
          | alter =>
              exact hanswer (.expectKeyword_next
                (isKeyword_of_keywordKind? hkind (by simp [statementHeads])) (.alter statement))
          | grant =>
              exact hanswer (.expectKeyword_next
                (isKeyword_of_keywordKind? hkind (by simp [statementHeads])) .grant)
          | use => exact hanswer (.advance_next (.bind .identifier fun _ => .pure _))
          | inert kind => rfl

/-- A text is read as the same statement, or fails with the same syntax error. -/
theorem parseStatement_eq (line : Nat) (text : String) :
    parseStatement line text = (Sql.parseStatement line text).mapError .syntaxError := by
  rw [parseStatement, Sql.parseStatement]
  cases tokenize line text with
  | error error => rfl
  | ok tokens =>
      cases tokens with
      | nil => rfl
      | cons token rest =>
          have hrun := run_statement (Text.trim text) (token :: rest)
          dsimp only [bind, Except.bind, Except.mapError]
          rw [hrun]
          cases (Grammar.statement (Text.trim text)).run (token :: rest) with
          | error mismatch => rfl
          | ok read => rfl

/-- Reading by positions never slips: it ends as the reading without positions does, with the same
statement or the same syntax error. -/
theorem parseStatement_never_slips (line : Nat) (text : String) :
    (∀ slip, parseStatement line text ≠ .error (.slip slip)) ∧
      parseStatement line text = (Sql.parseStatement line text).mapError .syntaxError := by
  refine ⟨fun slip hslip => ?_, parseStatement_eq line text⟩
  rw [parseStatement_eq] at hslip
  cases hread : Sql.parseStatement line text with
  | error error => rw [hread] at hslip; cases hslip
  | ok read => rw [hread] at hslip; cases hslip

end Stepper
end Sql
end SchemaLint
