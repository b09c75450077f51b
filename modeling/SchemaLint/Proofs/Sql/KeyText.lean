import SchemaLint.Proofs.Sql.Reader
import SchemaLint.Proofs.Sql.Statement

/-!
# The texts of key clauses

A key clause keeps its text, from its first keyword or from the constraint that it is.  The tokens
of that text stand in the statement, one after another, and say what kind of key it is.

* `KeyClause.IsReadFrom` - what the text of a clause consists of;
* `KeysRead` - readers of statements all of whose key clauses are like that, with one rule for
  each way to make them;
* `isReadFrom_of_parseStatement` - the key clauses of a statement that is read.
-/

namespace SchemaLint
namespace Sql

open SchemaLint.Parser

/-- The key clause that an action adds. -/
def AlterAction.key? : AlterAction → Option KeyClause
  | .addKey key => some key
  | .addColumn _ | .unsupported _ => none

/-- The key clauses of a statement. -/
def Statement.keys : Statement → List KeyClause
  | .createTable spec => spec.keys
  | .alterTable _ actions => actions.filterMap AlterAction.key?
  | .createIndex _ key => [key]
  | _ => []

/-- What stands before the keyword of a key of some kind: nothing, or the keyword of a constraint
and its name.  The name may be left out, but not before an ordinary index. -/
inductive IsLead (kind : KeyKind) : List Token → Prop
  | nothing : IsLead kind []
  | unnamed {constraint : Token} :
      constraint.isKeyword "CONSTRAINT" = true → kind ≠ .index → IsLead kind [constraint]
  | named {constraint name : Token} :
      constraint.isKeyword "CONSTRAINT" = true → (Grammar.nameOf? name).isSome = true →
        name.isKeyword "PRIMARY" = false → IsLead kind [constraint, name]

/-- The text of a key clause is that of some tokens in a row, among them the keyword that says the
kind of the key. -/
def KeyClause.IsReadFrom (tokens : List Token) (key : KeyClause) : Prop :=
  ∃ lead head more, lead ++ head :: more <:+: tokens ∧ IsLead key.kind lead ∧
    Grammar.keyKindOf? head = some key.kind ∧
      key.text = Token.displayAll (lead ++ head :: more)

theorem KeyClause.IsReadFrom.mono {tokens others : List Token} {key : KeyClause}
    (h : key.IsReadFrom tokens) (hsub : tokens <:+: others) : key.IsReadFrom others := by
  obtain ⟨lead, head, more, hpart, hrest⟩ := h
  exact ⟨lead, head, more, hpart.trans hsub, hrest⟩

namespace Grammar

open Reader

variable {tokens rest : List Token} {u : Unit} {α : Type}

section Clauses

variable {kind : KeyKind} {key : KeyClause} {head : Token} {lead more : List Token}

/-- The keywords of a key begin with the one that says its kind. -/
theorem run_keyHead_suffix (h : (keyHead kind).run (head :: more) = .ok (u, rest)) :
    rest <:+ more := by
  have hnext {f : Option Token → Reader Unit}
      (h : (next >>= f).run (head :: more) = .ok (u, rest)) : rest <:+ more := by
    obtain ⟨_, middle, hnext, hrest⟩ := run_bind_eq_ok.1 h
    cases hnext
    exact (f _).suffix hrest
  cases kind with
  | primary =>
      obtain ⟨_, middle, hfirst, hrest⟩ := run_bind_eq_ok.1 h
      obtain ⟨_, hmiddle, -⟩ := run_expectKeyword_eq_ok.1 hfirst
      cases hmiddle
      exact (expectKeyword "KEY").suffix hrest
  | index | unique | fulltext | spatial => exact hnext h

theorem isReadFrom_of_run_keyClause {left : List Token}
    (hlead : ∀ kind, left.head?.bind keyKindOf? = some kind → IsLead kind lead)
    (hkind : left.head?.bind keyKindOf? = some kind)
    (h : (keyClause kind (lead ++ left)).run left = .ok (key, rest)) :
    key.IsReadFrom (lead ++ left) := by
  obtain ⟨head, hhead, hkeyword⟩ := Option.bind_eq_some_iff.1 hkind
  obtain ⟨more, rfl⟩ := List.head?_eq_some_iff.1 hhead
  rw [keyClause, run_bind_eq_ok] at h
  obtain ⟨_, middle, hkeywords, h⟩ := h
  obtain ⟨name, middle₁, hname, h⟩ := run_bind_eq_ok.1 h
  obtain ⟨method, middle₂, hmethod, h⟩ := run_bind_eq_ok.1 h
  obtain ⟨columns, middle₃, hcolumns, h⟩ := run_bind_eq_ok.1 h
  obtain ⟨last, middle₄, hoptions, h⟩ := run_bind_eq_ok.1 h
  -- the options leave what follows the clause
  have hsuffix : middle₄ <:+ more :=
    ((((keyOptions method).suffix hoptions).trans (keyParts.suffix hcolumns)).trans
      ((optionalMethod.suffix hmethod).trans (optionalKeyName.suffix hname))).trans
        (run_keyHead_suffix hkeywords)
  obtain ⟨front, rfl⟩ := hsuffix
  have hstart : lead ++ head :: (front ++ middle₄) = (lead ++ head :: front) ++ middle₄ := by simp
  rw [hstart, run_bind (run_textSince (lead ++ head :: front))] at h
  cases h
  exact ⟨lead, head, front, hstart ▸ (List.prefix_append _ _).isInfix, hlead kind hkind, hkeyword,
    rfl⟩

theorem isKeyword_of_keyKindOf?_index (h : keyKindOf? head = some .index) :
    head.isKeyword "INDEX" = true ∨ head.isKeyword "KEY" = true := by
  unfold keyKindOf? at h
  split_ifs at h with hprimary hunique hindex
  all_goals first | exact Bool.or_eq_true_iff.1 hindex | cases h

/-- The kind of key that a keyword begins does not depend on its case. -/
theorem keyKindOf?_of_isKeyword {keyword : String} (h : head.isKeyword keyword = true) :
    keyKindOf? head = keyKindOf? (.word keyword) := by
  cases head with
  | word w =>
      have hword : Text.lower w = Text.lower keyword := eq_of_beq h
      have hsame (other : String) :
          Token.isKeyword other (.word w) = Token.isKeyword other (.word keyword) :=
        congrArg (· == Text.lower other) hword
      rw [keyKindOf?, keyKindOf?, hsame, hsame, hsame, hsame, hsame, hsame]
  | _ => cases h

/-- What is read after the keyword of a constraint is a name, or nothing before some keywords. -/
theorem run_constraintName_eq_ok (h : constraintName.run tokens = .ok (u, rest)) :
    (rest = tokens ∧ tokens.head?.bind keyKindOf? ≠ some .index) ∨
      ∃ name, tokens = name :: rest ∧ (nameOf? name).isSome = true ∧
        name.isKeyword "PRIMARY" = false := by
  obtain ⟨omitted, middle, hahead, h⟩ := run_bind_eq_ok.1 h
  rw [run_aheadAny] at hahead
  cases hahead
  split at h
  · next homitted =>
      cases h
      cases tokens with
      | nil => cases homitted
      | cons head more =>
          obtain ⟨keyword, hmem, hkeyword⟩ := List.any_eq_true.1 homitted
          have hother : ∀ keyword ∈ ["PRIMARY", "UNIQUE", "FOREIGN", "CHECK"],
              keyKindOf? (.word keyword) ≠ some .index := by decide
          exact .inl ⟨rfl, (keyKindOf?_of_isKeyword hkeyword).trans_ne (hother keyword hmem)⟩
  · next hnamed =>
      obtain ⟨name, middle, hname, h⟩ := run_bind_eq_ok.1 h
      cases h
      obtain ⟨token, rfl, hvalue⟩ := run_token_eq_ok.1 hname
      refine .inr ⟨token, rfl, by rw [hvalue, Option.isSome_some], ?_⟩
      rw [← Bool.not_eq_true]
      exact fun hprimary => hnamed (List.any_eq_true.2 ⟨"PRIMARY", List.mem_cons_self, hprimary⟩)

/-- The tokens before the keyword of a key, whatever is read from there on. -/
theorem exists_lead_of_run {p : Unit → Reader α} {constrained : Bool} {middle : List Token} {a : α}
    (hconstraint : (optionalKeyword "CONSTRAINT" : Reader Bool).run tokens =
      .ok (constrained, middle))
    (h : (if constrained then constraintName >>= p else p ()).run middle = .ok (a, rest)) :
    ∃ lead left, tokens = lead ++ left ∧ (p ()).run left = .ok (a, rest) ∧
      ∀ kind, left.head?.bind keyKindOf? = some kind → IsLead kind lead := by
  rw [run_optionalKeyword] at hconstraint
  split at hconstraint
  · next hstart =>
      cases hconstraint
      cases tokens with
      | nil => cases hstart
      | cons constraint more =>
          have hkeyword : constraint.isKeyword "CONSTRAINT" = true :=
            (Bool.and_eq_true_iff.1 hstart).1
          obtain ⟨_, left, hread, hrest⟩ := run_bind_eq_ok.1 h
          rcases run_constraintName_eq_ok hread with
            ⟨hleft, hindex⟩ | ⟨name, hleft, hname, hprimary⟩
          · refine ⟨[constraint], left, by rw [hleft]; rfl, hrest,
              fun kind hkind => .unnamed hkeyword ?_⟩
            rintro rfl
            exact hindex (hleft ▸ hkind)
          · refine ⟨[constraint, name], left, congrArg (constraint :: ·) hleft, hrest,
              fun _ _ => .named hkeyword hname hprimary⟩
  · cases hconstraint
    exact ⟨[], tokens, rfl, h, fun _ _ => .nothing⟩

/-- A key that an element adds to a table is read from the tokens of the element. -/
theorem keys_of_run_tableElement {table result : TableSpec}
    (h : (tableElement table).run tokens = .ok (result, rest)) :
    ∀ key ∈ result.keys, key ∈ table.keys ∨ key.IsReadFrom tokens := by
  rw [tableElement, run_bind_eq_ok] at h
  obtain ⟨start, _, hstart, h⟩ := h
  cases hstart
  obtain ⟨constrained, middle, hconstraint, h⟩ := run_bind_eq_ok.1 h
  obtain ⟨lead, left, rfl, h, hlead⟩ := exists_lead_of_run hconstraint h
  obtain ⟨skipped, _, hskipped, h⟩ := run_bind_eq_ok.1 h
  rw [run_aheadAny] at hskipped
  cases hskipped
  split at h
  · obtain ⟨_, _, -, h⟩ := run_bind_eq_ok.1 h
    cases h
    exact fun key hkey => .inl hkey
  obtain ⟨token, _, hpeek, h⟩ := run_bind_eq_ok.1 h
  rw [run_peek] at hpeek
  cases hpeek
  cases hkind : left.head?.bind keyKindOf? with
  | some kind =>
      simp only [hkind] at h
      obtain ⟨added, _, hadded, h⟩ := run_bind_eq_ok.1 h
      cases h
      intro key hkey
      rcases List.mem_append.1 hkey with hold | hnew
      · exact .inl hold
      · rw [List.mem_singleton.1 hnew]
        exact .inr (isReadFrom_of_run_keyClause hlead hkind hadded)
  | none =>
      simp only [hkind] at h
      cases constrained with
      | true => cases h
      | false =>
          obtain ⟨_, _, -, h⟩ := run_bind_eq_ok.1 h
          cases h
          exact fun key hkey => .inl hkey

/-- A key that an action adds is read from the tokens of the action. -/
theorem isReadFrom_of_run_addition {start : List Token} {actions : List AlterAction}
    (h : (addition start).run tokens = .ok (actions, rest)) :
    ∀ key ∈ actions.filterMap AlterAction.key?, key.IsReadFrom tokens := by
  rw [addition, run_bind_eq_ok] at h
  obtain ⟨keyAhead, _, hahead, h⟩ := h
  rw [run_aheadAny] at hahead
  cases hahead
  obtain ⟨columnKeyword, middle, hcolumn, h⟩ := run_bind_eq_ok.1 h
  split at h
  · obtain ⟨columns, _, -, h⟩ := run_bind_eq_ok.1 h
    cases h
    simp [List.filterMap_map, Function.comp_def, AlterAction.key?]
  · next hnot =>
      -- without the keyword of a column no token has been taken
      have hmiddle : middle = tokens := by
        rw [run_optionalKeyword] at hcolumn
        split at hcolumn
        · cases hcolumn
          exact absurd rfl hnot
        · cases hcolumn
          rfl
      rw [hmiddle] at h
      obtain ⟨clause, _, hclause, h⟩ := run_bind_eq_ok.1 h
      cases hclause
      obtain ⟨constrained, _, hconstraint, h⟩ := run_bind_eq_ok.1 h
      obtain ⟨lead, left, rfl, h, hlead⟩ := exists_lead_of_run hconstraint h
      obtain ⟨token, _, hpeek, h⟩ := run_bind_eq_ok.1 h
      rw [run_peek] at hpeek
      cases hpeek
      cases hkind : left.head?.bind keyKindOf? with
      | some kind =>
          simp only [hkind] at h
          obtain ⟨added, _, hadded, h⟩ := run_bind_eq_ok.1 h
          cases h
          intro key hkey
          rw [List.mem_singleton.1 hkey]
          exact isReadFrom_of_run_keyClause hlead hkind hadded
      | none =>
          simp only [hkind] at h
          obtain ⟨_, _, -, h⟩ := run_bind_eq_ok.1 h
          obtain ⟨_, _, -, h⟩ := run_bind_eq_ok.1 h
          cases h
          exact nofun

theorem isReadFrom_of_run_alterAction {actions : List AlterAction}
    (h : alterAction.run tokens = .ok (actions, rest)) :
    ∀ key ∈ actions.filterMap AlterAction.key?, key.IsReadFrom tokens := by
  obtain ⟨start, _, hstart, h⟩ := run_bind_eq_ok.1 h
  cases hstart
  obtain ⟨added, middle, hadd, h⟩ := run_bind_eq_ok.1 h
  split at h
  · exact fun key hkey => (isReadFrom_of_run_addition h key hkey).mono
      ((optionalKeyword "ADD").suffix hadd).isInfix
  · obtain ⟨_, _, -, h⟩ := run_bind_eq_ok.1 h
    obtain ⟨_, _, -, h⟩ := run_bind_eq_ok.1 h
    cases h
    exact nofun

end Clauses

/-- All key clauses of a statement that is read are read from its tokens. -/
def KeysRead (p : Reader Statement) : Prop :=
  ∀ tokens statement rest, p.run tokens = .ok (statement, rest) →
    ∀ key ∈ statement.keys, key.IsReadFrom tokens

namespace KeysRead

theorem of_returns {p : Reader Statement} (h : Returns p (·.keys = [])) : KeysRead p := by
  intro tokens statement rest hrun key hkey
  rw [h _ _ _ hrun] at hkey
  cases hkey

protected theorem bind {p : Reader α} {f : α → Reader Statement} (h : ∀ a, KeysRead (f a)) :
    KeysRead (p >>= f) := by
  intro tokens statement rest hrun key hkey
  obtain ⟨a, middle, hp, hf⟩ := run_bind_eq_ok.1 hrun
  exact (h a _ _ _ hf key hkey).mono (p.suffix hp).isInfix

protected theorem pure {statement : Statement} (h : statement.keys = []) :
    KeysRead (pure statement) :=
  of_returns (.pure h)

end KeysRead

/-- The options of a table leave its keys alone. -/
theorem keys_of_run_tableOptions {table result : TableSpec}
    (h : (tableOptions table).run tokens = .ok (result, rest)) : result.keys = table.keys := by
  obtain ⟨filled, middle, hoptions, h⟩ := run_bind_eq_ok.1 h
  obtain ⟨ended, _, -, h⟩ := run_bind_eq_ok.1 h
  have hfilled : filled.keys = table.keys := by
    refine (run_clauses_induction (P := fun filled _ => filled.keys = table.keys) ?_ hoptions
      rfl).1
    intro token left head more state next _ _ hread hstate
    cases head with
    | filler | rest =>
        cases hread
        exact hstate
    | option name =>
        obtain ⟨_, _, -, hread⟩ := run_bind_eq_ok.1 hread
        obtain ⟨_, _, -, hread⟩ := run_bind_eq_ok.1 hread
        cases hread
        exact hstate
  split at h
  · cases h
    exact hfilled
  · cases h

theorem keysRead_tableBody {start : TableSpec} (hstart : start.keys = []) :
    KeysRead (do return .createTable (← tableBody start)) := by
  intro tokens statement rest h
  obtain ⟨table, _, hbody, h⟩ := run_bind_eq_ok.1 h
  cases h
  rw [tableBody, run_bind_eq_ok] at hbody
  obtain ⟨filled, _, helements, hbody⟩ := hbody
  obtain ⟨_, _, -, hoptions⟩ := run_bind_eq_ok.1 hbody
  change ∀ key ∈ table.keys, _
  rw [keys_of_run_tableOptions hoptions]
  refine run_separatedFold_induction (P := fun filled => ∀ key ∈ filled.keys,
    key.IsReadFrom tokens) ?_ helements (by simp [hstart])
  intro state front next left hsuffix hread hstate key hkey
  rcases keys_of_run_tableElement hread key hkey with hold | hnew
  · exact hstate key hold
  · exact hnew.mono hsuffix.isInfix

theorem keysRead_createTable (temporary : Bool) (text : String) :
    KeysRead (createTable temporary text) := by
  refine .bind fun _ => .bind fun _ => .bind fun opened => ?_
  split
  · exact keysRead_tableBody rfl
  · exact .pure rfl

theorem keysRead_alterActions (table : ObjectName) :
    KeysRead (do return .alterTable table (← alterActions)) := by
  intro tokens statement rest h
  obtain ⟨actions, _, hactions, h⟩ := run_bind_eq_ok.1 h
  cases h
  obtain ⟨ended, _, hended, hactions⟩ := run_bind_eq_ok.1 hactions
  cases hended
  split at hactions
  · cases hactions
    exact nofun
  obtain ⟨all, _, hfold, hactions⟩ := run_bind_eq_ok.1 hactions
  obtain ⟨_, _, -, hactions⟩ := run_bind_eq_ok.1 hactions
  split at hactions
  · cases hactions
    refine run_separatedFold_induction (P := fun actions => ∀ key ∈
      actions.filterMap AlterAction.key?, key.IsReadFrom tokens) ?_ hfold nofun
    intro state front next left hsuffix hread hstate key hkey
    obtain ⟨added, _, hadded, hread⟩ := run_bind_eq_ok.1 hread
    cases hread
    rw [List.filterMap_append] at hkey
    rcases List.mem_append.1 hkey with hold | hnew
    · exact hstate key hold
    · exact (isReadFrom_of_run_alterAction hadded key hnew).mono hsuffix.isInfix
  · cases hactions

/-- The keyword with which a new index begins, and what is left after `INDEX`. -/
theorem exists_head_of_run_indexKind {kind : KeyKind} {middle left : List Token}
    (hkind : indexKind.run tokens = .ok (kind, middle))
    (hindex : (expectKeyword "INDEX").run middle = .ok (u, left)) :
    ∃ head more, tokens = head :: more ∧ keyKindOf? head = some kind ∧ left <:+ more := by
  have hleft := (expectKeyword "INDEX").suffix hindex
  have hfirst {keyword : String} (hstart : startsWith [keyword] tokens = true)
      (hmiddle : tokens.drop 1 = middle) (hkeyword : keyKindOf? (.word keyword) = some kind) :
      ∃ head more, tokens = head :: more ∧ keyKindOf? head = some kind ∧ left <:+ more := by
    cases tokens with
    | nil => cases hstart
    | cons head more =>
        have hhead : head.isKeyword keyword = true := (Bool.and_eq_true_iff.1 hstart).1
        subst hmiddle
        exact ⟨head, more, rfl, (keyKindOf?_of_isKeyword hhead).trans hkeyword, hleft⟩
  rw [indexKind, run_bind_optionalKeyword] at hkind
  split at hkind
  · next hstart =>
      cases hkind
      exact hfirst hstart rfl (by decide)
  simp only [Bool.false_eq_true, if_false, run_bind_optionalKeyword] at hkind
  split_ifs at hkind with hfulltext hspatial
  · cases hkind
    exact hfirst hfulltext rfl (by decide)
  · cases hkind
    exact hfirst hspatial rfl (by decide)
  · cases hkind
    obtain ⟨head, rfl, hhead⟩ := run_expectKeyword_eq_ok.1 hindex
    exact ⟨head, left, rfl, (keyKindOf?_of_isKeyword hhead).trans (by decide),
      List.suffix_refl _⟩

theorem keysRead_createIndex : KeysRead createIndex := by
  intro tokens statement rest h
  obtain ⟨start, _, hstart, h⟩ := run_bind_eq_ok.1 h
  cases hstart
  obtain ⟨kind, middle, hkind, h⟩ := run_bind_eq_ok.1 h
  obtain ⟨_, left, hindex, h⟩ := run_bind_eq_ok.1 h
  obtain ⟨head, more, rfl, hhead, hsuffix⟩ := exists_head_of_run_indexKind hkind hindex
  obtain ⟨name, left₁, hname, h⟩ := run_bind_eq_ok.1 h
  obtain ⟨first, left₂, hfirst, h⟩ := run_bind_eq_ok.1 h
  obtain ⟨_, left₃, hon, h⟩ := run_bind_eq_ok.1 h
  obtain ⟨table, left₄, htable, h⟩ := run_bind_eq_ok.1 h
  obtain ⟨columns, left₅, hcolumns, h⟩ := run_bind_eq_ok.1 h
  obtain ⟨last, left₆, hoptions, h⟩ := run_bind_eq_ok.1 h
  have hrest : left₆ <:+ more :=
    ((((keyOptions first).suffix hoptions).trans (keyParts.suffix hcolumns)).trans
      ((objectName.suffix htable).trans ((expectKeyword "ON").suffix hon))).trans
        (((optionalMethod.suffix hfirst).trans (identifier.suffix hname)).trans hsuffix)
  obtain ⟨front, rfl⟩ := hrest
  rw [← List.cons_append, run_bind (run_textSince (head :: front))] at h
  cases h
  intro key hkey
  rw [List.mem_singleton.1 hkey]
  exact ⟨[], head, front, (List.prefix_append _ _).isInfix, .nothing, hhead, rfl⟩

theorem keysRead_create (text : String) : KeysRead (create text) := by
  refine .bind fun _ => .bind fun _ => .bind fun temporary => .bind fun kind => ?_
  rcases kind with _ | (_ | _ | _ | _ | _ | kind)
  case none => exact .pure rfl
  case some.schema => exact .bind fun _ => .bind fun _ => .bind fun _ => .pure rfl
  case some.table => exact .bind fun _ => keysRead_createTable temporary text
  case some.view => exact .bind fun _ => .bind fun _ => .pure rfl
  case some.index => exact keysRead_createIndex
  case some.user =>
    exact .bind fun _ => .bind fun _ => .of_returns (returns_createUser fun _ => rfl)
  case some.inert => exact .pure rfl

theorem keysRead_alter (text : String) : KeysRead (alter text) := by
  refine .bind fun _ => .bind fun _ => .bind fun isTable => ?_
  split
  · exact .bind fun table => keysRead_alterActions table
  · exact .pure rfl

theorem keysRead_statement (text : String) : KeysRead (statement text) := by
  refine .bind fun head => ?_
  rcases head with _ | (_ | _ | _ | _ | _ | kind)
  case none => exact .pure rfl
  case some.create => exact .bind fun _ => keysRead_create text
  case some.drop =>
    exact .bind fun _ => .of_returns
      (returns_drop (fun _ _ => rfl) (fun _ _ => rfl) (fun _ => rfl) rfl)
  case some.alter => exact .bind fun _ => keysRead_alter text
  case some.grant => exact .bind fun _ => .of_returns (returns_grant fun _ => rfl)
  case some.use => exact .bind fun _ => .bind fun _ => .pure rfl
  case some.inert => exact .bind fun _ => .pure rfl

end Grammar

/-- The text of a key clause is read from the tokens of its statement. -/
theorem isReadFrom_of_parseStatement {line : Nat} {text : String} {statement : Statement}
    (h : parseStatement line text = .ok (some statement)) :
    ∃ tokens, tokenize line text = .ok tokens ∧
      ∀ key ∈ statement.keys, key.IsReadFrom tokens := by
  obtain ⟨tokens, rest, htokens, -, hrun⟩ := parseStatement_eq_ok_iff.1 h
  exact ⟨tokens, htokens, Grammar.keysRead_statement _ tokens statement rest hrun⟩

end Sql
end SchemaLint
