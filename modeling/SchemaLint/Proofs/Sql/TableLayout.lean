import SchemaLint.Proofs.Sql.Locality
import SchemaLint.Proofs.Sql.Statement

/-!
# How table definitions are laid out

A table definition that is read consists of a header, an opening parenthesis, elements with commas
between them, a closing parenthesis and options.  The header and each element are read in the same
way whatever follows, so they can be taken out of one definition and put into another.

* `FindsTable` - readers that come to the elements of a table after a header, with one rule for
  each way to make them.
* `exists_layout` - the layout of a definition that is read.
* `run_statement_tableTokens` - what a definition of a given layout is read as.
-/

namespace SchemaLint
namespace Sql
namespace Grammar

open SchemaLint.Parser Reader

variable {rest : List Token} {x : Token}

/-- The tokens are read as one element of a table, whatever is in the table. -/
def IsElement (element : List Token) : Prop :=
  ∀ table, ∃ result,
    (tableElement table).run (element ++ [.rightParen]) = .ok (result, [.rightParen])

/-- The table with an element that its tokens say. -/
def addElement (table : TableSpec) (element : List Token) : TableSpec :=
  match (tableElement table).run (element ++ [.rightParen]) with
  | .ok (result, _) => result
  | .error _ => table

/-- Elements are added to a table without a look at it. -/
theorem leavesSame_tableElement (table other : TableSpec) :
    LeavesSame (tableElement table) (tableElement other) := by
  refine .bind _ fun start => .bind _ fun constrained => ?_
  have hrest {p q : Unit → Reader TableSpec} (h : LeavesSame (p ()) (q ())) :
      LeavesSame (if constrained then constraintName >>= p else p ())
        (if constrained then constraintName >>= q else q ()) := by
    split
    · exact .bind _ fun _ => h
    · exact h
  refine hrest (.bind _ fun skipped => ?_)
  cases skipped with
  | true => exact .bind _ fun _ => .pure _ _
  | false =>
      refine .bind _ fun token => ?_
      cases token.bind keyKindOf? with
      | some kind => exact .bind _ fun _ => .pure _ _
      | none =>
          cases constrained with
          | true => exact .refl _
          | false => exact .bind _ fun _ => .pure _ _

theorem isElement_of_run {element : List Token} {table result : TableSpec} (hx : IsEnd x)
    (h : (tableElement table).run (element ++ x :: rest) = .ok (result, x :: rest)) :
    IsElement element := by
  intro other
  obtain ⟨added, hadded⟩ := (leavesSame_tableElement table other).exists_of_run h
  exact ⟨added, @carries_tableElement False _ _ _ _ hx .rightParen other element [] added
    (absurd · id) hadded⟩

theorem IsElement.run {element : List Token} (h : IsElement element) (hx : IsEnd x)
    (table : TableSpec) :
    (tableElement table).run (element ++ x :: rest) =
      .ok (addElement table element, x :: rest) := by
  obtain ⟨result, hrun⟩ := h table
  have hresult : addElement table element = result := by
    rw [addElement, hrun]
  rw [hresult]
  exact @carries_tableElement False _ _ _ _ .rightParen hx table element [] result
    (absurd · id) hrun

/-- With these tokens before an opening parenthesis a reader comes to the elements of a table,
whatever the text of the statement is and whatever follows. -/
def Opens (p : String → Reader Statement) (header : List Token) : Prop :=
  ∃ start, ∀ text body, (p text).run (header ++ .leftParen :: body) =
    (do return .createTable (← tableBody start) : Reader Statement).run body

/-- A reader that gives the definition of a table has come to its elements after a header. -/
def FindsTable (p : String → Reader Statement) : Prop :=
  ∀ text tokens spec rest, (p text).run tokens = .ok (.createTable spec, rest) →
    ∃ header body, tokens = header ++ .leftParen :: body ∧ Opens p header

namespace FindsTable

theorem of_returns {p : String → Reader Statement}
    (h : ∀ spec text, Returns (p text) (· ≠ .createTable spec)) : FindsTable p :=
  fun text _ spec _ hrun => absurd rfl (h spec text _ _ _ hrun)

protected theorem bind {α : Type} {p : Reader α} {f : String → α → Reader Statement}
    (hp : ∀ rest other, Carries False (.leftParen :: rest) (.leftParen :: other) p p)
    (hf : ∀ a, FindsTable fun text => f text a) : FindsTable fun text => p >>= f text := by
  intro text tokens spec rest hrun
  obtain ⟨a, middle, hread, hrest⟩ := run_bind_eq_ok.1 hrun
  obtain ⟨header, body, rfl, start, hopens⟩ := hf a text middle spec rest hrest
  obtain ⟨front, rfl⟩ := p.suffix hread
  refine ⟨front ++ header, body, (List.append_assoc ..).symm, start, fun text' body' => ?_⟩
  rw [← hopens text' body']
  refine run_bind ?_ (f text')
  exact hp body body' (front ++ header) header a (absurd · id) (by rwa [List.append_assoc])

end FindsTable

section Headers

variable {other : List Token}

theorem isMark_leftParen : IsMark Token.leftParen :=
  fun _ => rfl

theorem carries_kindAhead {κ : Type} (table : List (String × List String × κ)) :
    Carries False (.leftParen :: rest) (.leftParen :: other) (kindAhead table)
      (kindAhead table) := by
  have hnone (tokens : List Token) : keywordHead table .leftParen tokens = none :=
    keywordHead_eq_none (fun _ _ => rfl) tokens
  refine .remaining_bind fun tokens => ?_
  cases tokens with
  | nil =>
      change Carries _ _ _ (pure ((keywordHead table .leftParen rest).map Prod.fst))
        (pure ((keywordHead table .leftParen other).map Prod.fst))
      rw [hnone, hnone]
      exact .pure _
  | cons token tokens =>
      change Carries _ _ _
        (pure ((keywordHead table token (tokens ++ .leftParen :: rest)).map Prod.fst))
        (pure ((keywordHead table token (tokens ++ .leftParen :: other)).map Prod.fst))
      rw [Carries.keywordHead_append isMark_leftParen isMark_leftParen table token tokens]
      exact .pure _

theorem carries_creationPart (head : CreationHead) :
    Carries False (.leftParen :: rest) (.leftParen :: other) (creationPart head)
      (creationPart head) := by
  cases head with
  | definer =>
      refine .bind (carries_optionalEquals id) fun _ =>
        .bind (carries_accountName (by simp)) fun _ =>
          .bind (carries_optionalToken id) fun called => ?_
      cases called with
      | true => exact carries_expectToken _ _
      | false => exact .pure _
  | algorithm => exact carries_anyValue id
  | security => exact .bind .next fun _ => .pure _

theorem findsTable_createTable (temporary : Bool) : FindsTable (createTable temporary) := by
  refine .bind (fun _ _ => .optionalKeywords isMark_leftParen isMark_leftParen _) fun ifNotExists =>
    .bind (fun _ _ => carries_objectName id) fun name => ?_
  intro text tokens spec rest hrun
  obtain ⟨opened, middle, hopened, hrun⟩ := run_bind_eq_ok.1 hrun
  rw [run_optionalToken, Except.ok.injEq] at hopened
  split at hopened
  · next hhead =>
      obtain ⟨body, rfl⟩ := List.head?_eq_some_iff.1 hhead
      exact ⟨[], body, rfl, _, fun _ _ => rfl⟩
  · cases hopened
    cases hrun

theorem findsTable_create : FindsTable create := by
  refine .bind (fun _ _ => .optionalKeywords isMark_leftParen isMark_leftParen _) fun _ =>
    .bind (fun _ _ => carries_clauses isMark_leftParen isMark_leftParen
      (fun head _ => carries_creationPart head) ()) fun _ =>
    .bind (fun _ _ => carries_optionalKeyword isMark_leftParen isMark_leftParen _) fun temporary =>
    .bind (fun _ _ => carries_kindAhead _) fun kind => ?_
  rcases kind with _ | (_ | _ | _ | _ | _ | kind)
  case none => exact .of_returns fun _ _ => .pure (by simp)
  case some.schema =>
    exact .of_returns fun _ _ => .bind fun _ => .bind fun _ => .bind fun _ => .pure (by simp)
  case some.table => exact .bind (fun _ _ => .next) fun _ => findsTable_createTable temporary
  case some.view => exact .of_returns fun _ _ => .bind fun _ => .bind fun _ => .pure (by simp)
  case some.index => exact .of_returns fun _ _ => returns_createIndex (by simp)
  case some.user =>
    exact .of_returns fun _ _ => .bind fun _ => .bind fun _ => returns_createUser (by simp)
  case some.inert => exact .of_returns fun _ _ => .pure (by simp)

theorem findsTable_statement : FindsTable statement := by
  refine .bind (fun _ _ => carries_kindAhead _) fun head => ?_
  rcases head with _ | (_ | _ | _ | _ | _ | kind)
  case none => exact .of_returns fun _ _ => .pure (by simp)
  case some.create => exact .bind (fun _ _ => .next) fun _ => findsTable_create
  case some.drop =>
    exact .of_returns fun _ _ =>
      .bind fun _ => returns_drop (by simp) (by simp) (by simp) (by simp)
  case some.alter =>
    exact .of_returns fun _ _ => .bind fun _ => returns_alter (by simp) (by simp)
  case some.grant => exact .of_returns fun _ _ => .bind fun _ => returns_grant (by simp)
  case some.use => exact .of_returns fun _ _ => .bind fun _ => .bind fun _ => .pure (by simp)
  case some.inert => exact .of_returns fun _ _ => .bind fun _ => .pure (by simp)

end Headers

/-- The tokens of a table definition. -/
def tableTokens (header : List Token) (elements : List (List Token)) (options : List Token) :
    List Token :=
  header ++ .leftParen :: ([Token.comma].intercalate elements ++ .rightParen :: options)

/-- The parts of a table definition. -/
structure TableLayout where
  header : List Token
  elements : List (List Token)
  options : List Token
  opens : Opens statement header
  elements_ne_nil : elements ≠ []
  isElement : ∀ element ∈ elements, IsElement element

namespace TableLayout

/-- The tokens of the parts. -/
def tokens (layout : TableLayout) : List Token :=
  tableTokens layout.header layout.elements layout.options

end TableLayout

/-- The elements of a table are added one after another. -/
theorem run_tableBody_of_elements {elements : List (List Token)} (hne : elements ≠ [])
    (helements : ∀ element ∈ elements, IsElement element) (start : TableSpec)
    (options : List Token) :
    (tableBody start).run ([Token.comma].intercalate elements ++ .rightParen :: options) =
      (tableOptions (elements.foldl addElement start)).run options := by
  obtain ⟨items, rfl⟩ : ∃ items : List {element // IsElement element},
      items.map Subtype.val = elements :=
    ⟨elements.attachWith IsElement helements, List.attachWith_map_subtype_val helements⟩
  have hitem (table : TableSpec) (item : {element // IsElement element}) (next : Token)
      (more : List Token) (hnext : next = .comma ∨ next = .rightParen) :
      (tableElement table).run (item.val ++ next :: more) =
        .ok (addElement table item.val, next :: more) :=
    item.property.run (isEnd_iff.2 hnext) table
  have hrun : (separatedFold .comma false tableElement start).run
      ([Token.comma].intercalate (items.map Subtype.val) ++ .rightParen :: options) =
        .ok (items.foldl (fun table item => addElement table item.val) start,
          .rightParen :: options) :=
    run_separatedFold (by decide) hitem (by rintro rfl; exact hne rfl) start
  have hclose : (expectToken .rightParen "\x60,\x60 or \x60)\x60").run (.rightParen :: options) =
      .ok ((), options) := run_expectToken_eq_ok.2 rfl
  rw [tableBody, run_bind hrun, List.foldl_map, run_bind hclose]

/-- What is read after a header are the elements and the options. -/
theorem run_statement_tableTokens {header : List Token} {start : TableSpec}
    (hopens : ∀ text body, (statement text).run (header ++ .leftParen :: body) =
      (do return .createTable (← tableBody start) : Reader Statement).run body)
    {elements : List (List Token)} (hne : elements ≠ [])
    (helements : ∀ element ∈ elements, IsElement element) (options : List Token) (text : String) :
    (statement text).run (tableTokens header elements options) =
      (do return .createTable (← tableOptions (elements.foldl addElement start)) :
        Reader Statement).run options := by
  rw [tableTokens, hopens]
  exact run_bind_congr (run_tableBody_of_elements hne helements start options) _

/-- A table definition that is read has such a layout. -/
theorem exists_layout {text : String} {tokens : List Token} {spec : TableSpec}
    (h : (statement text).run tokens = .ok (.createTable spec, rest)) :
    ∃ layout : TableLayout, tokens = layout.tokens := by
  obtain ⟨header, body, rfl, hopens⟩ := findsTable_statement text tokens spec rest h
  obtain ⟨start, hstart⟩ := id hopens
  rw [hstart] at h
  obtain ⟨table, middle, hbody, -⟩ := run_bind_eq_ok.1 h
  rw [tableBody, run_bind_eq_ok] at hbody
  obtain ⟨filled, middle, helements, hbody⟩ := hbody
  obtain ⟨_, options, hclose, -⟩ := run_bind_eq_ok.1 hbody
  obtain rfl := run_expectToken_eq_ok.1 hclose
  obtain ⟨elements, hne, rfl, hread⟩ := exists_items_of_run helements
  refine ⟨⟨header, elements, options, hopens, hne, fun element helement => ?_⟩, rfl⟩
  obtain ⟨before, after, next, more, hnext, hrun⟩ := hread element helement
  exact isElement_of_run (isEnd_iff.2 hnext) hrun

end Grammar
end Sql
end SchemaLint
