import SchemaLint.Proofs.Digest.Name

/-!
# Named queries and lexical scoping

Lexical scoping lets a named query be seen in the queries that follow it in the same query and in
what is nested in them.  The walk over a digest knows one set of names for the whole digest, and
takes a table for a named query if any of the names met before is its own.

* `ScopedLexically` - the walk takes for named queries what lexical scoping does;
* `Grounded` - what is visible was defined before, which is the invariant of the syntax trees;
* `scopedLexically_iff` - the two agree exactly if no table is overlooked, and none has the name of
  an earlier named query that is not visible where it stands.
-/

namespace SchemaLint

namespace NameSet

theorem contains_add (set : NameSet) (name other : String) :
    NameMap.contains (add set name) other = true ↔
      name = other ∨ NameMap.contains set other = true := by
  by_cases h : name = other
  · subst h
    simp [NameMap.contains, add, NameMap.get?_insert_self]
  · simp [NameMap.contains, add, NameMap.get?_insert_of_ne _ _ (Ne.symm h), h]

end NameSet

namespace Digest

namespace Mention

/-- The name is a single identifier, the same as one of these names but for the case of letters. -/
def NamesOneOf (mention : Mention) (names : List String) : Prop :=
  ∃ identifier, mention.name = [identifier] ∧
    ∃ name ∈ names, Text.lower name = Text.lower identifier.value

/-- Lexical scoping says that a named query is meant. -/
def NamesVisible (mention : Mention) : Prop :=
  mention.NamesOneOf mention.visible

theorem NamesOneOf.mono {mention : Mention} {names others : List String}
    (h : mention.NamesOneOf names) (hsub : names ⊆ others) : mention.NamesOneOf others := by
  obtain ⟨identifier, hname, name, hmem, hsame⟩ := h
  exact ⟨identifier, hname, name, hsub hmem, hsame⟩

end Mention

/-- The walk takes a table for a named query exactly if lexical scoping does, and records every
other table, none of which is overlooked. -/
structure ScopedLexically (statements : List Statement) : Prop where
  taken : ∀ before mention after, events statements = before ++ .table mention :: after →
    ((Scope.reference? mention.name).any (Scope.reached before).isToNamed = true ↔
      mention.NamesVisible)
  recorded : ∀ before mention after, events statements = before ++ .table mention :: after →
    ¬ mention.NamesVisible →
      (Scope.reached before).meet (.table mention) = { Scope.reached before with
        tables := (Scope.reached before).tables.insert mention.key mention.reference }
  entered : ∀ mention, .overlooked mention ∈ events statements → mention.NamesVisible

/-- Every table sees only names that are given, or that were defined before it. -/
inductive Grounded : List String → List Event → Prop
  | nil {given} : Grounded given []
  | definition {given name rest} :
      Grounded (name :: given) rest → Grounded given (.definition name :: rest)
  | table {given mention rest} :
      mention.visible ⊆ given → Grounded given rest → Grounded given (.table mention :: rest)
  | overlooked {given mention rest} :
      Grounded given rest → Grounded given (.overlooked mention :: rest)

namespace Grounded

variable {given others : List String} {front back : List Event}

/-- Later events may see what the events before them define. -/
theorem append (hfront : Grounded given front)
    (hback : ∀ others, given ⊆ others → defined front ⊆ others → Grounded others back) :
    Grounded given (front ++ back) := by
  induction hfront with
  | nil => exact hback _ (List.Subset.refl _) (List.nil_subset _)
  | definition _ ih =>
      refine .definition (ih fun others hgiven hdefined => ?_)
      obtain ⟨hname, hgiven⟩ := List.cons_subset.1 hgiven
      exact hback others hgiven (List.cons_subset.2 ⟨hname, hdefined⟩)
  | table hvisible _ ih => exact .table hvisible (ih hback)
  | overlooked _ ih => exact .overlooked (ih hback)

theorem overlook (events : List Event) : Grounded given (events.filterMap Event.overlook?) := by
  induction events with
  | nil => exact .nil
  | cons event events ih =>
      cases event with
      | definition name => exact ih
      | table mention => exact .overlooked ih
      | overlooked mention => exact .overlooked ih

/-- What a table sees was given, or was defined before it. -/
theorem visible_subset {events before after : List Event} {mention : Mention}
    (h : Grounded given events) (hsplit : events = before ++ .table mention :: after) :
    mention.visible ⊆ defined before ++ given := by
  induction before generalizing given events with
  | nil =>
      subst hsplit
      cases h with
      | table hvisible _ => exact hvisible
  | cons event before ih =>
      subst hsplit
      cases h with
      | definition hrest =>
          refine List.Subset.trans (ih hrest rfl) (List.append_subset.2 ⟨?_, ?_⟩) <;> simp
      | table _ hrest => exact ih hrest rfl
      | overlooked hrest => exact ih hrest rfl

end Grounded

/-- The names of named queries are all defined. -/
theorem Definitions.names_subset (recursive : Bool) (visible : List String) :
    (definitions : Definitions) →
      definitions.names ⊆ defined (definitions.events recursive visible)
  | .nil => List.nil_subset _
  | .cons name query rest => by
      have hrest := rest.names_subset recursive (name :: visible)
      rw [names, events, defined_cons_definition, defined_append]
      exact List.cons_subset_cons name (List.Subset.trans hrest (List.subset_append_right _ _))

mutual

theorem Query.grounded {given visible : List String} (query : Query) (h : visible ⊆ given) :
    Grounded given (query.events visible) := by
  obtain ⟨recursive, definitions, body⟩ := query
  rw [Query.events]
  refine (definitions.grounded recursive h).append fun others hgiven hdefined => ?_
  -- the body sees the names in front of it, all of which have been defined
  exact body.grounded (List.append_subset.2
    ⟨List.Subset.trans (definitions.names_subset recursive visible) hdefined,
      List.Subset.trans h hgiven⟩)
termination_by structural query

theorem Definitions.grounded {given visible : List String} (definitions : Definitions)
    (recursive : Bool) (h : visible ⊆ given) :
    Grounded given (definitions.events recursive visible) := by
  cases definitions with
  | nil => exact .nil
  | cons name query rest =>
      have hnamed : name :: visible ⊆ name :: given := List.cons_subset_cons name h
      have hown : (if recursive then name :: visible else visible) ⊆ name :: given := by
        split
        · exact hnamed
        · exact List.Subset.trans h (List.subset_cons_self name given)
      refine .definition ((query.grounded hown).append fun others hgiven _ => ?_)
      exact rest.grounded recursive (List.Subset.trans hnamed hgiven)
termination_by structural definitions

theorem Body.grounded {given visible : List String} (body : Body) (h : visible ⊆ given) :
    Grounded given (body.events visible) := by
  cases body with
  | select sources => exact sources.grounded h
  | parenthesized query => exact query.grounded h
  | combine left right =>
      exact (left.grounded h).append fun others hgiven _ =>
        right.grounded (List.Subset.trans h hgiven)
  | update target => exact Grounded.overlook _
  | insert rows => exact Grounded.overlook _
  | rows => exact .nil
termination_by structural body

theorem Sources.grounded {given visible : List String} (sources : Sources) (h : visible ⊆ given) :
    Grounded given (sources.events visible) := by
  cases sources with
  | nil => exact .nil
  | cons source rest =>
      exact (source.grounded h).append fun others hgiven _ =>
        rest.grounded (List.Subset.trans h hgiven)
termination_by structural sources

theorem Source.grounded {given visible : List String} (source : Source) (h : visible ⊆ given) :
    Grounded given (source.events visible) := by
  cases source with
  | table name alternative => exact .table h .nil
  | derived query => exact query.grounded h
  | nested sources => exact sources.grounded h
  | other => exact .nil
termination_by structural source

end

theorem Statement.grounded {given : List String} (statement : Statement) :
    Grounded given statement.events := by
  cases statement with
  | query top => exact top.grounded (List.nil_subset _)
  | update target => exact target.grounded (List.nil_subset _)
  | insert rows => exact Grounded.overlook _
  | delete sources => exact Grounded.overlook _
  | other => exact .nil

theorem grounded_events (statements : List Statement) {given : List String} :
    Grounded given (events statements) := by
  induction statements generalizing given with
  | nil => exact .nil
  | cons statement statements ih =>
      exact statement.grounded.append fun others _ _ => ih

namespace Scope

theorem named_addTable (scope : Scope) (name : List Identifier) (alternative : Option String) :
    (scope.addTable name alternative).named = scope.named := by
  unfold addTable
  split
  · rfl
  · split <;> rfl

/-- Names pile up on the walk. -/
theorem isNamed_foldl_meet {name : String} (scope : Scope) (events : List Event) :
    (events.foldl meet scope).isNamed name = true ↔
      scope.isNamed name = true ∨ ∃ other ∈ defined events, Text.lower other = Text.lower name := by
  induction events generalizing scope with
  | nil => simp
  | cons event events ih =>
      rw [List.foldl_cons, ih]
      cases event with
      | definition other =>
          simp only [meet, define, isNamed, NameSet.contains_add, defined_cons_definition,
            List.exists_mem_cons_iff]
          tauto
      | table mention => simp only [meet, isNamed, named_addTable, defined_cons_table]
      | overlooked mention => rfl

/-- A reference is one to a named query if its name was defined anywhere before. -/
theorem isToNamed_reached {mention : Mention} (h : mention.name ≠ []) (before : List Event) :
    (reached before).isToNamed mention.reference = true ↔ mention.NamesOneOf (defined before) := by
  obtain ⟨name, alternative, visible⟩ := mention
  have hempty (n : String) : ({} : Scope).isNamed n = false := rfl
  simp only [isToNamed, reached, Bool.and_eq_true, isNamed_foldl_meet, hempty]
  rcases name with _ | ⟨identifier, _ | ⟨second, rest⟩⟩
  · exact absurd rfl h
  · simp [Mention.reference, Mention.NamesOneOf]
  · -- a name of several identifiers has a schema, and is no name of a query
    simp [Mention.reference, Mention.NamesOneOf, List.getLast?_cons]

end Scope

variable {statements : List Statement}

/-- The walk agrees with lexical scoping exactly if no table is overlooked, and none has the name
of an earlier named query that is not visible where it stands. -/
theorem scopedLexically_iff
    (hplain : ∀ mention ∈ (events statements).filterMap Event.table?, mention.IsPlain) :
    ScopedLexically statements ↔
      (∀ mention, .overlooked mention ∈ events statements → mention.NamesVisible) ∧
        ∀ before mention after, events statements = before ++ .table mention :: after →
          mention.NamesOneOf (defined before) → mention.NamesVisible := by
  have hmention : ∀ before mention after, events statements = before ++ .table mention :: after →
      mention.IsPlain := fun before mention after hsplit =>
    hplain mention (by simp [hsplit, Event.table?])
  -- the walk asks whether the name was defined anywhere before
  have htaken : ∀ before mention after, events statements = before ++ .table mention :: after →
      ((Scope.reference? mention.name).any (Scope.reached before).isToNamed = true ↔
        mention.NamesOneOf (defined before)) := by
    intro before mention after hsplit
    have hread := hmention before mention after hsplit
    rw [hread.readsBack.reference?_eq, Option.any_some, Scope.isToNamed_reached hread.1]
  constructor
  · intro h
    exact ⟨h.entered, fun before mention after hsplit hnames =>
      (h.taken before mention after hsplit).1 ((htaken before mention after hsplit).2 hnames)⟩
  · rintro ⟨hentered, hscoped⟩
    refine ⟨fun before mention after hsplit => ?_, fun before mention after hsplit hnot => ?_,
      hentered⟩
    · rw [htaken before mention after hsplit]
      refine ⟨hscoped before mention after hsplit, fun hvisible => hvisible.mono ?_⟩
      have hgrounded : Grounded [] (events statements) := grounded_events statements
      simpa using hgrounded.visible_subset hsplit
    · have hread := hmention before mention after hsplit
      have hfree : ¬ (Scope.reached before).isToNamed mention.reference = true := fun h =>
        hnot (hscoped before mention after hsplit ((Scope.isToNamed_reached hread.1 before).1 h))
      rw [Scope.meet, Scope.addTable, hread.readsBack.reference?_eq]
      simp only [if_neg hfree]
      rfl

/-- A named query is seen in what follows it, and a table of the same name in a schema is another
one. -/
theorem scopedLexically_of_recent :
    let statements : List Statement := [.query (.mk false
      (.cons "recent" (.mk false .nil (.select (.cons (.table [⟨"orders", none⟩] none) .nil))) .nil)
      (.select (.cons (.table [⟨"Recent", none⟩] none)
        (.cons (.table [⟨"shop", none⟩, ⟨"recent", none⟩] (some "r")) .nil))))]
    parse? "WITH recent AS (SELECT * FROM orders) SELECT * FROM Recent JOIN shop.recent r ON ?" =
        some statements ∧
      (∀ mention ∈ (events statements).filterMap Event.table?, mention.IsPlain) ∧
      ScopedLexically statements := by
  intro statements
  have hplain : ∀ mention ∈ (events statements).filterMap Event.table?, mention.IsPlain := by decide
  have hevents : events statements = [.definition "recent",
    .table { name := [⟨"orders", none⟩], alternative := none, visible := [] },
    .table { name := [⟨"Recent", none⟩], alternative := none, visible := ["recent"] },
    .table {
      name := [⟨"shop", none⟩, ⟨"recent", none⟩]
      alternative := some "r"
      visible := ["recent"] }] := rfl
  refine ⟨by decide +kernel, hplain,
    (scopedLexically_iff hplain).2 ⟨?_, ?_⟩⟩
  · simp [hevents]
  · intro before mention after hsplit hnames
    rw [hevents] at hsplit
    match before, hsplit with
    | [], hsplit => cases hsplit
    | [_], hsplit =>
        cases hsplit
        obtain ⟨_, hname, other, hmem, hsame⟩ := hnames
        cases hname
        cases List.mem_singleton.1 hmem
        exact absurd hsame (by decide)
    | [_, _], hsplit =>
        cases hsplit
        exact hnames
    | [_, _, _], hsplit =>
        -- a table in a schema names no query
        cases hsplit
        obtain ⟨_, hname, -⟩ := hnames
        cases hname
    | _ :: _ :: _ :: _ :: _, hsplit => simp at hsplit

/-- The name of a query inside a derived table hides the table beside it. -/
theorem not_scopedLexically_of_derived_table :
    ∃ statements,
      parse? "SELECT * FROM (WITH x AS (SELECT * FROM t) SELECT * FROM x) y JOIN x ON ? = ?" =
        some statements ∧ ¬ ScopedLexically statements := by
  let x (visible : List String) : Mention :=
    { name := [⟨"x", none⟩], alternative := none, visible }
  let derived : Query := .mk false
    (.cons "x" (.mk false .nil (.select (.cons (.table [⟨"t", none⟩] none) .nil))) .nil)
    (.select (.cons (.table [⟨"x", none⟩] none) .nil))
  let statements : List Statement := [.query (.mk false .nil
    (.select (.cons (.derived derived) (.cons (.table [⟨"x", none⟩] none) .nil))))]
  refine ⟨statements, by decide +kernel, fun h => ?_⟩
  have hsplit : events statements = [.definition "x",
    .table { name := [⟨"t", none⟩], alternative := none, visible := [] }, .table (x ["x"])] ++
      .table (x []) :: [] := rfl
  -- no name is visible beside the derived table
  obtain ⟨_, _, _, hmem, _⟩ := (h.taken _ _ _ hsplit).1 (by decide)
  exact List.not_mem_nil hmem

end Digest
end SchemaLint
