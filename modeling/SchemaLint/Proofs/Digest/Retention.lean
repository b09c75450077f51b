import SchemaLint.Proofs.Digest.Scoping

/-!
# Which tables of a digest are kept

The walk over a digest records a table under the name by which the digest calls it.  A table that
is recorded stays, unless another one is recorded under the same name later on: the map has one
place for each name, while a digest may call several tables by one.

Which statements a digest holds is left to the parser.  What is asked of a mention is that the name
it is written with is read back (`Mention.ReadsBack`), whatever stands between its quotes.

* `Scope.get?_key_reached` - what stands under the name of a table at the end of a walk.
* `Query.mem_values_resolve` - a table stays, or the name it is called by was given away later.
-/

namespace SchemaLint

namespace NameMap

variable {α : Type}

/-- Of several values that are put under a name, the last one stays. -/
theorem get?_foldl_insert (map : NameMap α) (entries : List (String × α)) (name : String) :
    (entries.foldl (fun map entry => map.insert entry.1 entry.2) map).get? name =
      ((entries.reverse.find? (·.1 == name)).map Prod.snd).or (map.get? name) := by
  induction entries generalizing map with
  | nil => rfl
  | cons entry entries ih =>
      rw [List.foldl_cons, ih, List.reverse_cons, List.find?_append]
      cases entries.reverse.find? (·.1 == name) with
      | some later => rfl
      | none =>
          by_cases hname : entry.1 = name
          · subst hname
            simp [get?_insert_self]
          · simp [get?_insert_of_ne _ _ (Ne.symm hname), hname]

theorem mem_values_of_get? {map : NameMap α} {name : String} {value : α}
    (h : map.get? name = some value) : value ∈ map.values := by
  obtain ⟨entry, hfind, rfl⟩ := Option.map_eq_some_iff.1 h
  exact List.mem_map_of_mem (List.mem_of_find?_eq_some hfind)

end NameMap

namespace Digest
namespace Scope

/-- What the scope records of a table: its reference, and the name by which the digest calls it. -/
def record? (scope : Scope) (mention : Mention) : Option (String × TableReference) :=
  (reference? mention.name).bind fun reference =>
    if scope.isToNamed reference then none
    else some (mention.alternative.getD reference.table, reference)

/-- What is recorded on the way through some events. -/
def recorded (scope : Scope) : List Event → List (String × TableReference)
  | [] => []
  | event :: rest => (event.table?.bind scope.record?).toList ++ recorded (scope.meet event) rest

/-- One event puts what is recorded of it into the map. -/
theorem tables_meet (scope : Scope) (event : Event) : (scope.meet event).tables =
    (event.table?.bind scope.record?).toList.foldl
      (fun map entry => map.insert entry.1 entry.2) scope.tables := by
  cases event with
  | definition name => rfl
  | overlooked mention => rfl
  | table mention =>
      rw [meet, addTable, Event.table?, Option.bind_some, record?]
      cases reference? mention.name with
      | none => rfl
      | some reference =>
          rw [Option.bind_some]
          dsimp only
          split <;> rfl

/-- The tables after some events are those that were recorded, the later over the earlier ones. -/
theorem tables_foldl_meet (scope : Scope) (events : List Event) :
    (events.foldl meet scope).tables = (scope.recorded events).foldl
      (fun map entry => map.insert entry.1 entry.2) scope.tables := by
  induction events generalizing scope with
  | nil => rfl
  | cons event events ih => rw [List.foldl_cons, ih, tables_meet, recorded, List.foldl_append]

/-- A table whose name was not defined before is recorded. -/
theorem record?_reached {before : List Event} {mention : Mention} (hreads : mention.ReadsBack)
    (hfree : ¬ mention.NamesOneOf (defined before)) :
    (reached before).record? mention = some (mention.key, mention.reference) := by
  have hnamed : (reached before).isToNamed mention.reference = false :=
    Bool.eq_false_iff.2 fun h => hfree ((isToNamed_reached hreads.nonempty before).1 h)
  simp [record?, hreads.reference?_eq, hnamed, Mention.key]

/-- Under the name of a table that was recorded stands this table, or the last one that was
recorded under the name afterwards. -/
theorem get?_key_reached {before : List Event} {mention : Mention} (hreads : mention.ReadsBack)
    (hfree : ¬ mention.NamesOneOf (defined before)) (after : List Event) :
    (reached (before ++ .table mention :: after)).tables.get? mention.key =
      ((((reached (before ++ [.table mention])).recorded after).reverse.find?
        (·.1 == mention.key)).map Prod.snd).or (some mention.reference) := by
  have hmet : (reached (before ++ [.table mention])).tables =
      (reached before).tables.insert mention.key mention.reference := by
    rw [reached, List.foldl_append, List.foldl_cons, List.foldl_nil, tables_meet]
    change ((reached before).record? mention).toList.foldl _ (reached before).tables = _
    rw [record?_reached hreads hfree]
    rfl
  have hreached : reached (before ++ .table mention :: after) =
      after.foldl meet (reached (before ++ [.table mention])) := by
    rw [reached, reached, ← List.foldl_append, List.append_assoc, List.singleton_append]
  rw [hreached, tables_foldl_meet, NameMap.get?_foldl_insert, hmet, NameMap.get?_insert_self]

end Scope
end Digest

namespace Query

open Digest

theorem tables_resolve {parse : StatementParser} {query : Query} {statements : List Statement}
    (h : parse (withPlaceholders query.digestText) = some statements) :
    (query.resolve parse).tables = (Scope.reached (events statements)).tables := by
  rw [resolve, h, ← Scope.ofStatements_eq]

/-- A table that a digest reads, and that has the name of no query defined before it, is among the
tables of the digest, or else the name by which it is called was given to another table later.
This is so for all statements that any parser finds in the digest. -/
theorem mem_values_resolve {parse : StatementParser} {query : Query} {statements : List Statement}
    {before after : List Event} {mention : Mention}
    (hparse : parse (withPlaceholders query.digestText) = some statements)
    (hsplit : events statements = before ++ .table mention :: after) (hreads : mention.ReadsBack)
    (hfree : ¬ mention.NamesOneOf (defined before)) :
    mention.reference ∈ (query.resolve parse).tables.values ∨
      ∃ later ∈ (Scope.reached (before ++ [.table mention])).recorded after,
        later.1 = mention.key ∧
          (query.resolve parse).tables.get? mention.key = some later.2 := by
  have hget := Scope.get?_key_reached hreads hfree after
  rw [← hsplit, ← tables_resolve hparse] at hget
  cases hlater : ((Scope.reached (before ++ [.table mention])).recorded after).reverse.find?
      (·.1 == mention.key) with
  | none =>
      rw [hlater] at hget
      exact .inl (NameMap.mem_values_of_get? hget)
  | some later =>
      rw [hlater] at hget
      exact .inr ⟨later, List.mem_reverse.1 (List.mem_of_find?_eq_some hlater),
        by simpa using List.find?_some hlater, hget⟩

/-- The statements of a digest, without the text with the placeholders being built. -/
theorem parse?_withPlaceholders (digest : String) :
    parse? (withPlaceholders digest) = (scan (Text.replaceList "...".toList "?".toList 0
      (Text.replaceList "(...)".toList "(?)".toList 0 digest.toList))).bind fun tokens =>
        (Grammar.statements.run tokens).toOption.map Prod.fst := by
  have htext : (withPlaceholders digest).toList = Text.replaceList "...".toList "?".toList 0
      (Text.replaceList "(...)".toList "(?)".toList 0 digest.toList) := by
    simp only [withPlaceholders, Text.replace, String.toList_ofList]
  rw [← htext]
  refine congrArg (Option.bind (scan _)) (funext fun tokens => ?_)
  cases Grammar.statements.run tokens <;> rfl

/-- A table stays if another one of its name is called by a different one, whatever its quotes
hold. -/
theorem mem_values_resolve_of_alias :
    let query : Query := {
      digestText := "SELECT * FROM shop.`or\"ders` UNION SELECT * FROM archive.`or\"ders` AS o" }
    let mention : Mention := {
      name := [⟨"shop", none⟩, ⟨"or\"ders", some '\x60'⟩]
      alternative := none
      visible := [] }
    let statements : List Statement := [.query (.mk false .nil (.combine
      (.select (.cons (.table [⟨"shop", none⟩, ⟨"or\"ders", some '\x60'⟩] none) .nil))
      (.select (.cons
        (.table [⟨"archive", none⟩, ⟨"or\"ders", some '\x60'⟩] (some "o")) .nil))))]
    parse? (withPlaceholders query.digestText) = some statements ∧ mention.ReadsBack ∧
      ¬ mention.NamesOneOf (defined []) ∧
      mention.reference ∈ (query.resolve parse?).tables.values := by
  intro query mention statements
  have hparse : parse? (withPlaceholders query.digestText) = some statements :=
    (parse?_withPlaceholders _).trans (by decide +kernel)
  have hwritten : ∀ identifier ∈ mention.name, identifier.IsWritten := by
    simp [mention, Identifier.IsWritten]
  have hreads : mention.ReadsBack := by
    refine .of_reference? (List.cons_ne_nil _ _) hwritten ?_
    decide
  have hfree : ¬ mention.NamesOneOf (defined []) := by
    rintro ⟨_, hname, -⟩
    cases hname
  let after : List Event := [.table {
    name := [⟨"archive", none⟩, ⟨"or\"ders", some '\x60'⟩]
    alternative := some "o"
    visible := [] }]
  have hother : ∀ later ∈ (Scope.reached ([] ++ [.table mention])).recorded after,
      later.1 ≠ mention.key := by decide
  have hsplit : events statements = [] ++ .table mention :: after := rfl
  refine ⟨hparse, hreads, hfree, (mem_values_resolve hparse hsplit hreads hfree).resolve_right ?_⟩
  rintro ⟨later, hlater, hname, -⟩
  exact hother later hlater hname

/-- Two tables of one name in different schemas have one place in the map. -/
theorem not_mem_values_resolve_of_same_name :
    ¬ ∀ (query : Query) (statements : List Statement) (mention : Mention),
      parse? (withPlaceholders query.digestText) = some statements →
        .table mention ∈ events statements → ¬ mention.NamesVisible →
          mention.reference ∈ (query.resolve parse?).tables.values := by
  intro h
  let query : Query := {
    digestText := "SELECT * FROM shop.orders JOIN archive.orders ON ? = ?" }
  let statements : List Statement := [.query (.mk false .nil (.select
    (.cons (.table [⟨"shop", none⟩, ⟨"orders", none⟩] none)
      (.cons (.table [⟨"archive", none⟩, ⟨"orders", none⟩] none) .nil))))]
  let mention : Mention := {
    name := [⟨"shop", none⟩, ⟨"orders", none⟩]
    alternative := none
    visible := [] }
  have hparse : parse? (withPlaceholders query.digestText) = some statements :=
    (parse?_withPlaceholders _).trans (by decide +kernel)
  have hnames : ¬ mention.NamesVisible := fun ⟨_, hname, _⟩ => by cases hname
  have hkept := h query statements mention hparse List.mem_cons_self hnames
  rw [tables_resolve hparse] at hkept
  exact absurd hkept (by decide)

end Query
end SchemaLint
