import SchemaLint.Digest.Scope

/-!
# The walk over a digest as a list of events

The tables of a digest are collected in one walk over its statements.  What the walk meets on its
way is laid out here as a list of events, each with what lexical scoping makes visible at its
place:

* `Query.events` and its companions, one for each kind of syntax tree;
* `Scope.meet` - what one event does to the scope;
* `Scope.ofStatements_eq` - the scope of a digest is what its events make of the empty scope.

The body of a named query is met right after its name, so names pile up in the order in which they
are defined.  Nothing takes them away again.
-/

namespace SchemaLint
namespace Digest

/-- A table that is named as a source, and the named queries that are visible there. -/
structure Mention where
  name : List Identifier
  alternative : Option String
  visible : List String
deriving DecidableEq

/-- What the walk over a digest meets. -/
inductive Event where
  | definition (name : String)
  | table (mention : Mention)
  /-- A table in a part of the digest that the walk does not enter. -/
  | overlooked (mention : Mention)
deriving DecidableEq

namespace Event

/-- The name that is defined. -/
def defined? : Event → Option String
  | .definition name => some name
  | .table _ | .overlooked _ => none

/-- The table that is met. -/
def table? : Event → Option Mention
  | .table mention => some mention
  | .definition _ | .overlooked _ => none

/-- What is left of an event in a part that the walk does not enter. -/
def overlook? : Event → Option Event
  | .definition _ => none
  | .table mention | .overlooked mention => some (.overlooked mention)

end Event

/-- The names that events define. -/
def defined (events : List Event) : List String :=
  events.filterMap Event.defined?

@[simp] theorem defined_nil : defined [] = [] := rfl

@[simp] theorem defined_cons_definition (name : String) (events : List Event) :
    defined (.definition name :: events) = name :: defined events := rfl

@[simp] theorem defined_cons_table (mention : Mention) (events : List Event) :
    defined (.table mention :: events) = defined events := rfl

@[simp] theorem defined_cons_overlooked (mention : Mention) (events : List Event) :
    defined (.overlooked mention :: events) = defined events := rfl

@[simp] theorem defined_append (events others : List Event) :
    defined (events ++ others) = defined events ++ defined others :=
  List.filterMap_append

/-- The names of named queries in front of a query. -/
def Definitions.names : Definitions → List String
  | .nil => []
  | .cons name _ rest => name :: rest.names
termination_by structural definitions => definitions

mutual

/-- The events of a query where some names are visible. -/
def Query.events : Query → List String → List Event
  | .mk recursive definitions body, visible =>
      definitions.events recursive visible ++ body.events (definitions.names ++ visible)
termination_by structural query => query

/-- The events of named queries.  A name is visible in those that follow, and in its own query if
they are recursive. -/
def Definitions.events : Definitions → Bool → List String → List Event
  | .nil, _, _ => []
  | .cons name query rest, recursive, visible =>
      .definition name :: (query.events (if recursive then name :: visible else visible) ++
        rest.events recursive (name :: visible))
termination_by structural definitions => definitions

/-- The events of a body. -/
def Body.events : Body → List String → List Event
  | .select sources, visible => sources.events visible
  | .parenthesized query, visible => query.events visible
  | .combine left right, visible => left.events visible ++ right.events visible
  | .update target, visible => (target.events visible).filterMap Event.overlook?
  | .insert rows, visible => (rows.events visible).filterMap Event.overlook?
  | .rows, _ => []
termination_by structural body => body

/-- The events of a list of sources. -/
def Sources.events : Sources → List String → List Event
  | .nil, _ => []
  | .cons source rest, visible => source.events visible ++ rest.events visible
termination_by structural sources => sources

/-- The events of a source. -/
def Source.events : Source → List String → List Event
  | .table name alternative, visible => [.table { name, alternative, visible }]
  | .derived query, visible => query.events visible
  | .nested sources, visible => sources.events visible
  | .other, _ => []
termination_by structural source => source

end

/-- The events of a statement, in which no name is visible at first. -/
def Statement.events : Statement → List Event
  | .query top => top.events []
  | .update target => target.events []
  | .insert rows => (rows.events []).filterMap Event.overlook?
  | .delete sources => (sources.events []).filterMap Event.overlook?
  | .other => []

/-- The events of a digest. -/
def events (statements : List Statement) : List Event :=
  statements.flatMap Statement.events

namespace Scope

/-- The scope after one more event. -/
def meet (scope : Scope) : Event → Scope
  | .definition name => scope.define name
  | .table mention => scope.addTable mention.name mention.alternative
  | .overlooked _ => scope

/-- What is overlooked leaves no trace. -/
theorem foldl_meet_overlook (scope : Scope) (events : List Event) :
    (events.filterMap Event.overlook?).foldl meet scope = scope := by
  induction events with
  | nil => rfl
  | cons event events ih => cases event <;> exact ih

mutual

theorem addQuery_eq (scope : Scope) (query : Query) (visible : List String) :
    scope.addQuery query = (query.events visible).foldl meet scope := by
  obtain ⟨recursive, definitions, body⟩ := query
  rw [addQuery, Query.events, List.foldl_append, ← addDefinitions_eq, ← addBody_eq]
termination_by structural query

theorem addDefinitions_eq (scope : Scope) (definitions : Definitions) (recursive : Bool)
    (visible : List String) :
    scope.addDefinitions definitions = (definitions.events recursive visible).foldl meet scope := by
  cases definitions with
  | nil => rfl
  | cons name query rest =>
      rw [addDefinitions, Definitions.events, List.foldl_cons, List.foldl_append, ← addQuery_eq,
        ← addDefinitions_eq]
      rfl
termination_by structural definitions

theorem addBody_eq (scope : Scope) (body : Body) (visible : List String) :
    scope.addBody body = (body.events visible).foldl meet scope := by
  cases body with
  | select sources => exact addSources_eq scope sources visible
  | parenthesized query => exact addQuery_eq scope query visible
  | combine left right =>
      rw [addBody, Body.events, List.foldl_append, ← addBody_eq, ← addBody_eq]
  | update target => exact (foldl_meet_overlook scope _).symm
  | insert rows => exact (foldl_meet_overlook scope _).symm
  | rows => rfl
termination_by structural body

theorem addSources_eq (scope : Scope) (sources : Sources) (visible : List String) :
    scope.addSources sources = (sources.events visible).foldl meet scope := by
  cases sources with
  | nil => rfl
  | cons source rest =>
      rw [addSources, Sources.events, List.foldl_append, ← addSource_eq, ← addSources_eq]
termination_by structural sources

theorem addSource_eq (scope : Scope) (source : Source) (visible : List String) :
    scope.addSource source = (source.events visible).foldl meet scope := by
  cases source with
  | table name alternative => rfl
  | derived query => exact addQuery_eq scope query visible
  | nested sources => exact addSources_eq scope sources visible
  | other => rfl
termination_by structural source

end

theorem addStatement_eq (scope : Scope) (statement : Statement) :
    scope.addStatement statement = statement.events.foldl meet scope := by
  cases statement with
  | query query => exact addQuery_eq scope query []
  | update target => exact addSources_eq scope target []
  | insert rows => exact (foldl_meet_overlook scope _).symm
  | delete sources => exact (foldl_meet_overlook scope _).symm
  | other => rfl

/-- The scope that events lead to. -/
def reached (events : List Event) : Scope :=
  events.foldl meet {}

/-- The scope of a digest is the one that its events lead to. -/
theorem ofStatements_eq (statements : List Statement) :
    ofStatements statements = reached (events statements) := by
  rw [reached, events, List.foldl_flatMap, ofStatements]
  congr 1
  funext scope statement
  exact addStatement_eq scope statement

end Scope
end Digest
end SchemaLint
