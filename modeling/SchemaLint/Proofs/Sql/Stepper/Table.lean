import SchemaLint.Proofs.Sql.Stepper.Column
import SchemaLint.Proofs.Sql.Stepper.Key
import SchemaLint.Sql.Grammar.Table

/-!
# Tables by positions

Whether a word for a constraint stands in front of an element is told by the position, which is
then not the one where the element began.  The options of a table are read turn by turn up to the
end of the statement; a part that is not modelled moves the position there at once, in the last
turn.  The alterations of a table may end with a comma.
-/

namespace SchemaLint
namespace Sql
namespace Stepper

open Grammar (keyKindOf?)

variable {tokens rest front : List Token} {start mark pos : Nat}

section Elements

/-- An element of a table that began at a position, behind its word for constraints if it has
one. -/
def elementRest (mark : Nat) (table : TableSpec) : Stepper TableSpec := do
  if ← anyKeywordAhead ["FOREIGN", "CHECK"] then
    skipClause
    return table
  else
    match (← look).bind keyKindOf? with
    | some kind => return { table with keys := table.keys ++ [← keyClause kind mark] }
    | none =>
        if (← position) ≠ mark then
          fail "PRIMARY KEY, UNIQUE, FOREIGN KEY or CHECK"
        else
          return { table with columns := table.columns ++ [← column] }

/-- An element of a table. -/
def tableElement (table : TableSpec) : Stepper TableSpec := do
  let mark ← position
  if ← consumeKeyword "CONSTRAINT" then
    constraintName
  elementRest mark table

/-- What is read of an element behind its word for constraints, or without one. -/
def readElementRest (constrained : Bool) (front : List Token) (table : TableSpec) :
    Reader TableSpec := do
  if ← Parser.aheadAny ["FOREIGN", "CHECK"] then
    Grammar.skipClause
    return table
  else
    match (← Parser.peek).bind keyKindOf? with
    | some kind => return { table with keys := table.keys ++ [← Grammar.keyClause kind front] }
    | none =>
        if constrained then
          Reader.fail "PRIMARY KEY, UNIQUE, FOREIGN KEY or CHECK"
        else
          return { table with columns := table.columns ++ [← Grammar.column] }

/-- The rest of an element is read as behind a word for constraints if the position is another one
than that where the element began, and else as without one. -/
theorem run_elementRest (hmark : StandsAt tokens mark front) (hle : mark ≤ pos)
    (hpos : StandsAt tokens pos rest) (table : TableSpec) :
    (elementRest mark table).run tokens pos =
      landing tokens ((readElementRest (decide (pos ≠ mark)) front table).run rest) := by
  have hread : (Parser.aheadAny ["FOREIGN", "CHECK"] : Reader Bool).run rest =
      .ok (rest.head?.any fun token => ["FOREIGN", "CHECK"].any (token.isKeyword ·), rest) := rfl
  rw [elementRest, readElementRest, run_bind (run_anyKeywordAhead hpos _), Parser.run_bind hread]
  cases rest.head?.any fun token => ["FOREIGN", "CHECK"].any (token.isKeyword ·) with
  | true => exact Tracks.bind .skipClause (fun _ => .pure table) pos rest (Nat.le_refl pos) hpos
  | false =>
      rw [if_neg Bool.false_ne_true, if_neg Bool.false_ne_true, run_bind (run_look hpos),
        Parser.run_bind Parser.run_peek]
      cases hkind : rest.head?.bind keyKindOf? with
      | none =>
          dsimp only
          rw [run_bind run_position]
          by_cases hsame : pos = mark
          · rw [if_neg (not_not.2 hsame), if_neg (by simpa using hsame)]
            exact Tracks.bind .column (fun _ => .pure _) pos rest (Nat.le_refl pos) hpos
          · rw [if_pos hsame, if_pos (decide_eq_true hsame)]
            exact Tracks.fail _ pos rest (Nat.le_refl pos) hpos
      | some kind =>
          cases rest with
          | nil => cases hkind
          | cons token rest =>
              exact TracksBefore.bind (.keyClause kind hmark hle) (fun _ => .pure _) pos rest
                (Nat.le_refl pos) hpos

/-- The reader of elements, taken apart behind the word for constraints. -/
theorem tableElement_eq (table : TableSpec) :
    Grammar.tableElement table = Parser.remaining >>= fun front =>
      Parser.optionalKeyword "CONSTRAINT" >>= fun constrained =>
        (if constrained then Grammar.constraintName else pure ()) >>= fun _ =>
          readElementRest constrained front table := by
  refine congrArg _ (funext fun front => congrArg _ (funext fun constrained => ?_))
  cases constrained with
  | true => rfl
  | false => rfl

/-- The position has changed behind a word for constraints, and only there. -/
protected theorem Tracks.tableElement (table : TableSpec) :
    Tracks tokens start (tableElement table) (Grammar.tableElement table) := by
  intro mark front _ hmark
  have hrun := Tracks.consumeKeyword "CONSTRAINT" mark front (Nat.le_refl mark) hmark
  have hread : (Parser.optionalKeyword "CONSTRAINT" : Reader Bool).run front = _ :=
    Parser.run_optionalKeyword "CONSTRAINT"
  rw [tableElement_eq, tableElement, run_bind run_position,
    Parser.run_bind Parser.run_remaining]
  cases hstarts : Parser.startsWith ["CONSTRAINT"] front with
  | false =>
      rw [hstarts, if_neg Bool.false_ne_true] at hread
      rw [hread, landing_ok hmark] at hrun
      rw [run_bind hrun, Parser.run_bind hread]
      have hrest := run_elementRest hmark (Nat.le_refl mark) hmark table
      rwa [decide_eq_false (not_not.2 rfl)] at hrest
  | true =>
      have hbehind := hmark.drop (length_le_of_startsWith hstarts)
      have hrest : Tracks tokens (mark + 1) (elementRest mark table)
          (readElementRest true front table) := by
        intro pos rest hpast hpos
        have hrest := run_elementRest hmark (Nat.le_of_succ_le hpast) hpos table
        rwa [decide_eq_true (Nat.ne_of_gt hpast)] at hrest
      rw [hstarts, if_pos rfl] at hread
      rw [hread] at hrun
      rw [run_bind (hrun.trans (landing_ok hbehind true)), Parser.run_bind hread]
      exact Tracks.bind .constraintName (fun _ => hrest) _ _ (Nat.le_refl (mark + 1)) hbehind

end Elements

section Options

/-- The value of a table option. -/
def optionValue : Stepper String := do
  match ← look with
  | some .leftParen => group
  | some (.word value) | some (.quoted value) | some (.text value) | some (.number value)
  | some (.bits value) =>
      advance
      return value
  | _ => fail "option value"

/-- The options whose names are of two words, and the names that are kept. -/
def twoWordOptions : List (String × List String × String) := [
  ("CHARACTER", ["SET"], "CHARSET"),
  ("DATA", ["DIRECTORY"], "DATA DIRECTORY"),
  ("INDEX", ["DIRECTORY"], "INDEX DIRECTORY")]

/-- The keywords that begin the part of a statement that is not modelled. -/
def restKeywords : List String :=
  ["PARTITION", "AS", "SELECT", "IGNORE", "REPLACE"]

/-- A word in capitals. -/
def upperWord? : Token → Option String
  | .word w => some (Text.upper w)
  | _ => none

/-- The name of a table option. -/
def optionName : Stepper String := do
  match ← consumeHead twoWordOptions with
  | some name => return name
  | none => Stepper.token upperWord? "table option"

/-- Passes a part of the options of a table. -/
def optionTurn (table : TableSpec) : Stepper (Turn TableSpec TableSpec) := do
  if ← atEnd then
    return .leave table
  else if ← consume .comma then
    return .again table
  else if ← consumeKeyword "DEFAULT" then
    return .again table
  else if ← anyKeywordAhead restKeywords then
    toEnd
    return .leave table
  else
    let name ← optionName
    optionalEquals
    return .again { table with options := table.options ++ [(name, ← optionValue)] }

/-- The options of a table, to the end of the statement. -/
def tableOptions (table : TableSpec) : Stepper TableSpec :=
  loop optionTurn table

/-- The elements of a table after the opening parenthesis, and its options. -/
def tableBody (table : TableSpec) : Stepper TableSpec := do
  let table ← items tableElement table
  expectToken .rightParen "\x60,\x60 or \x60)\x60"
  tableOptions table

/-- What is read to the end. -/
def readRest : Reader Unit :=
  Parser.scan (fun _ => ((), [])) fun _ => List.nil_suffix

/-- The name of a table option. -/
def readOptionName : Reader String := do
  match ← Parser.clauseHead (Parser.keywordHead twoWordOptions) with
  | some name => return name
  | none => Reader.token upperWord? "table option"

/-- The rest of an option, which is named, in a turn. -/
def readNamedOption (table : TableSpec) (name : String) : Reader (Turn TableSpec TableSpec) := do
  Grammar.optionalEquals
  return .again { table with options := table.options ++ [(name, ← Grammar.optionValue)] }

/-- A turn of the options of a table. -/
def readOptionTurn (table : TableSpec) : Reader (Turn TableSpec TableSpec) := do
  if ← Parser.atEnd then
    return .leave table
  else if ← Parser.optionalToken .comma then
    return .again table
  else if ← Parser.optionalKeyword "DEFAULT" then
    return .again table
  else if ← Parser.aheadAny restKeywords then
    readRest
    return .leave table
  else
    readNamedOption table (← readOptionName)

/-- A table of heads is searched from its front to its end. -/
theorem keywordHead_append {κ : Type} (table other : List (String × List String × κ))
    (token : Token) (rest : List Token) :
    Parser.keywordHead (table ++ other) token rest =
      (Parser.keywordHead table token rest).or (Parser.keywordHead other token rest) := by
  rw [Parser.keywordHead, List.find?_append, Option.map_or]
  rfl

/-- Heads of one keyword each that stand for the same. -/
theorem keywordHead_map_same {κ : Type} (keywords : List String) (kind : κ) (token : Token)
    (rest : List Token) :
    Parser.keywordHead (keywords.map fun keyword => (keyword, [], kind)) token rest =
      if keywords.any (token.isKeyword ·) then some (kind, 0) else none := by
  induction keywords with
  | nil => rfl
  | cons keyword keywords ih =>
      rw [Parser.keywordHead] at ih ⊢
      rw [List.map_cons, List.find?_cons, List.any_cons]
      cases hkeyword : token.isKeyword keyword with
      | true => simp [HasKeywords.isKeyword, hkeyword, Parser.startsWith]
      | false => simpa [HasKeywords.isKeyword, hkeyword] using ih

theorem keywordHead_map {κ κ' : Type} (f : κ → κ') (table : List (String × List String × κ))
    (token : Token) (rest : List Token) :
    Parser.keywordHead (table.map fun entry => (entry.1, entry.2.1, f entry.2.2)) token rest =
      (Parser.keywordHead table token rest).map fun found => (f found.1, found.2) := by
  rw [Parser.keywordHead, List.find?_map, Parser.keywordHead, Option.map_map, Option.map_map]
  rfl

/-- What a word begins among the options of a table. -/
theorem optionHead_word (w : String) (rest : List Token) :
    Grammar.optionHead (.word w) rest =
      if Token.isKeyword "DEFAULT" (.word w) then some (.filler, 0)
      else if restKeywords.any (Token.isKeyword · (.word w)) then some (.rest, 0)
      else some (((Parser.keywordHead twoWordOptions (.word w) rest).map
        fun found => (.option found.1, found.2)).getD (.option (Text.upper w), 0)) := by
  have hheads : Grammar.optionHeads = ["DEFAULT"].map (fun keyword => (keyword, [], .filler)) ++
      (restKeywords.map (fun keyword => (keyword, [], .rest)) ++
        twoWordOptions.map fun entry => (entry.1, entry.2.1, .option entry.2.2)) := rfl
  rw [Grammar.optionHead, hheads, keywordHead_append, keywordHead_append, keywordHead_map_same,
    keywordHead_map_same, keywordHead_map]
  simp only [List.any_cons, List.any_nil, Bool.or_false]
  split
  · rfl
  · split
    · rfl
    · rfl

/-- The name of an option is that which its head stands for. -/
theorem run_readOptionName (w : String) (rest : List Token) :
    readOptionName.run (.word w :: rest) =
      match Parser.keywordHead twoWordOptions (.word w) rest with
      | some (name, more) => .ok (name, rest.drop more)
      | none => .ok (Text.upper w, rest) := by
  cases hhead : Parser.keywordHead twoWordOptions (.word w) rest with
  | some found =>
      obtain ⟨name, more⟩ := found
      rw [readOptionName, Parser.run_bind (Parser.run_clauseHead_of_some hhead)]
      rfl
  | none =>
      rw [readOptionName, Parser.run_bind (Parser.run_clauseHead_of_none hhead)]
      rfl

/-- A turn that begins with a word. -/
theorem run_readOptionTurn (w : String) (rest : List Token) (table : TableSpec) :
    (readOptionTurn table).run (.word w :: rest) =
      if Token.isKeyword "DEFAULT" (.word w) then .ok (.again table, rest)
      else if restKeywords.any (Token.isKeyword · (.word w)) then .ok (.leave table, [])
      else (readOptionName >>= readNamedOption table).run (.word w :: rest) := by
  have hcomma : (Parser.optionalToken .comma : Reader Bool).run (.word w :: rest) =
      .ok (false, .word w :: rest) := Parser.run_optionalToken_of_ne (by simp)
  have hahead : (Parser.aheadAny restKeywords : Reader Bool).run (.word w :: rest) =
      .ok (restKeywords.any (Token.isKeyword · (.word w)), .word w :: rest) := rfl
  have hend : (Parser.atEnd : Reader Bool).run (.word w :: rest) =
      .ok (false, .word w :: rest) := rfl
  rw [readOptionTurn, Parser.run_bind hend,
    if_neg Bool.false_ne_true, Parser.run_bind hcomma, if_neg Bool.false_ne_true,
    Parser.run_bind_optionalKeyword, Parser.startsWith, Parser.startsWith, Bool.and_true]
  refine congrArg _ ?_
  rw [if_neg Bool.false_ne_true, Parser.run_bind hahead]
  cases restKeywords.any (Token.isKeyword · (.word w)) with
  | true => rfl
  | false => rfl

theorem length_le_of_readOptionName {w name : String} {left : List Token}
    (h : readOptionName.run (.word w :: rest) = .ok (name, left)) : left.length ≤ rest.length := by
  rw [run_readOptionName] at h
  split at h
  · cases h
    exact (List.drop_suffix _ _).length_le
  · cases h
    exact Nat.le_refl _

/-- A turn with another one behind it has read a token. -/
theorem length_lt_of_readOptionTurn {table next : TableSpec} {left : List Token}
    (h : (readOptionTurn table).run rest = .ok (.again next, left)) :
    left.length < rest.length := by
  cases rest with
  | nil => cases h
  | cons token rest =>
      cases token with
      | comma =>
          cases h
          exact Nat.lt_succ_self _
      | word w =>
          rw [run_readOptionTurn] at h
          split at h
          · cases h
            exact Nat.lt_succ_self _
          · split at h
            · cases h
            · obtain ⟨name, middle, hname, hoption⟩ := Parser.run_bind_eq_ok.1 h
              exact Nat.lt_succ_of_le (Nat.le_trans ((readNamedOption table name).length_le hoption)
                (length_le_of_readOptionName hname))
      | _ => cases h

/-- An option that is named and the others are a turn and the others. -/
theorem tableOption_bind_eq (table : TableSpec) (name : String) :
    (Grammar.tableOption (.option name) table >>= Grammar.tableOptions) =
      readNamedOption table name >>= Turn.goOn Grammar.tableOptions := by
  rw [Grammar.tableOption, readNamedOption]
  simp only [Parser.bind_assoc, Parser.pure_bind, Turn.goOn]

theorem run_tableOptions_word (w : String) (rest : List Token) (table : TableSpec) :
    (Grammar.tableOptions table).run (.word w :: rest) =
      (readOptionTurn table >>= Turn.goOn Grammar.tableOptions).run (.word w :: rest) := by
  have hturn := run_readOptionTurn w rest table
  have hoption := optionHead_word w rest
  rw [Grammar.tableOptions, Parser.clauses_bind_eq]
  by_cases hdefault : Token.isKeyword "DEFAULT" (.word w) = true
  · rw [if_pos hdefault] at hoption hturn
    rw [Parser.run_bind (Parser.run_clauseHead_of_some hoption), Parser.run_bind hturn]
    rfl
  by_cases hrest : restKeywords.any (Token.isKeyword · (.word w)) = true
  · have hskip : (Grammar.tableOption .rest table).run (rest.drop 0) = .ok (table, []) := rfl
    rw [if_neg hdefault, if_pos hrest] at hoption hturn
    rw [Parser.run_bind (Parser.run_clauseHead_of_some hoption), Parser.run_bind hturn]
    dsimp only
    rw [Parser.run_bind hskip, Parser.run_bind (Parser.run_clauses_nil _ _ _)]
    rfl
  have hname := run_readOptionName w rest
  rw [if_neg hdefault, if_neg hrest] at hoption hturn
  rw [Parser.run_bind_congr hturn, Parser.bind_assoc, ← funext (tableOption_bind_eq table)]
  cases htwo : Parser.keywordHead twoWordOptions (.word w) rest with
  | some found =>
      rw [htwo] at hoption hname
      rw [Parser.run_bind (Parser.run_clauseHead_of_some hoption), Parser.run_bind hname]
      rfl
  | none =>
      rw [htwo] at hoption hname
      rw [Parser.run_bind (Parser.run_clauseHead_of_some hoption), Parser.run_bind hname]
      rfl

/-- The options of a table are one turn and the others. -/
theorem tableOptions_eq (table : TableSpec) :
    Grammar.tableOptions table = readOptionTurn table >>= Turn.goOn Grammar.tableOptions := by
  refine Parser.ext fun rest => ?_
  cases rest with
  | nil =>
      rw [Grammar.tableOptions, Parser.clauses_bind_eq]
      rfl
  | cons token rest =>
      cases token with
      | word w => exact run_tableOptions_word w rest table
      | _ =>
          rw [Grammar.tableOptions, Parser.clauses_bind_eq]
          rfl

namespace Tracks

protected theorem optionValue : Tracks tokens start optionValue Grammar.optionValue := by
  refine .look_bind (.fail _) fun token => ?_
  cases token with
  | leftParen => exact Tracks.group.before
  | word value => exact .advance_next (.pure value)
  | quoted value => exact .advance_next (.pure value)
  | text value => exact .advance_next (.pure value)
  | number value => exact .advance_next (.pure value)
  | bits value => exact .advance_next (.pure value)
  | _ => exact (Tracks.fail _).before

protected theorem toEnd : Tracks tokens start toEnd readRest :=
  fun _ _ _ _ => rfl

protected theorem optionName : Tracks tokens start optionName readOptionName := by
  refine .bind (.consumeHead twoWordOptions) fun found => ?_
  cases found with
  | some name => exact .pure name
  | none => exact .token _ _

protected theorem optionTurn (table : TableSpec) :
    Tracks tokens start (optionTurn table) (readOptionTurn table) :=
  .bind .atEnd_atEnd fun _ => .ite (.pure _) <|
    .bind (.consume _) fun _ => .ite (.pure _) <|
    .bind (.consumeKeyword _) fun _ => .ite (.pure _) <|
    .bind (.anyKeywordAhead _) fun _ => .ite (.bind .toEnd fun _ => .pure _) <|
    .bind .optionName fun _ => .bind .optionalEquals fun _ => .bind .optionValue fun _ => .pure _

protected theorem tableOptions (table : TableSpec) :
    Tracks tokens start (tableOptions table) (Grammar.tableOptions table) :=
  Tracks.loop (p := Grammar.tableOptions) .optionTurn tableOptions_eq
    (fun _ _ _ _ => length_lt_of_readOptionTurn) table

protected theorem tableBody (table : TableSpec) :
    Tracks tokens start (tableBody table) (Grammar.tableBody table) :=
  .bind (.items .tableElement table) fun table => .bind (.expectToken _ _) fun _ =>
    .tableOptions table

end Tracks

end Options

end Stepper
end Sql
end SchemaLint
