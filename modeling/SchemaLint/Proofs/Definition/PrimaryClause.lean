import SchemaLint.Proofs.Definition.Key
import SchemaLint.Proofs.Definition.PrimaryKeyText

/-!
# Key clauses and their kinds

Whether a key clause is for the primary key is known from its kind, but an ordinary index is taken
for one too if its text declares one.

* `KeyClause.PosesAsPrimary` - when this happens to a clause that is read;
* `KeyClause.AddedByKind` - the clause is added as the primary key exactly if this is its kind;
* `Statement.addsKeysByKind_iff` - all keys of a statement are exactly if none of them poses.
-/

namespace SchemaLint

open Sql

namespace Definition

/-- Key parts whose columns are all there are resolved. -/
theorem exists_resolveParts {table : Table} {parts : List KeyPart}
    (h : ∀ part ∈ parts, (table.column? part.column).isSome = true) :
    ∃ columns, resolveParts table parts = .ok columns := by
  unfold resolveParts
  induction parts with
  | nil => exact ⟨[], rfl⟩
  | cons part parts ih =>
      obtain ⟨hpart, hparts⟩ := List.forall_mem_cons.1 h
      obtain ⟨column, hcolumn⟩ := Option.isSome_iff_exists.1 hpart
      obtain ⟨columns, hcolumns⟩ := ih hparts
      refine ⟨(column.name, part.length) :: columns, ?_⟩
      rw [List.mapM_cons, resolvePart, hcolumn, hcolumns]
      rfl

/-- An ordinary index is not the same as a primary key over its columns. -/
theorem exists_addPrimaryKey_ne {key : KeyClause} (hkind : key.kind = .index) :
    ∃ table, addPrimaryKey table key.columns ≠ addSecondaryIndex table key := by
  let table : Table := {
    name := ""
    columns := key.columns.map fun part => { name := part.column } }
  have hfound : ∀ part ∈ key.columns, (table.column? part.column).isSome = true := by
    intro part hpart
    rw [Table.column?, List.find?_isSome]
    exact ⟨_, List.mem_map_of_mem hpart, beq_self_eq_true _⟩
  obtain ⟨columns, hcolumns⟩ := exists_resolveParts hfound
  refine ⟨table, fun hsame => ?_⟩
  rw [addPrimaryKey_eq_ok.2 ⟨rfl, columns, hcolumns, rfl⟩] at hsame
  obtain ⟨-, others, hothers, hresult⟩ := addSecondaryIndex_eq_ok.1 hsame.symm
  have hindexes := congrArg (fun table => table.indexes.map Index.unique) hresult
  simp [Table.pushIndex, indexes_markAllPrimary, indexes_markLeading, table, hkind] at hindexes

end Definition

namespace Sql
namespace KeyClause

variable {key : KeyClause} {tokens : List Token}

/-- An ordinary index without a name of its own, whose constraint has a name that spells a primary
key. -/
structure PosesAsPrimary (key : KeyClause) : Prop where
  kind : key.kind = .index
  name : key.name.all (Text.sameLetters · Index.primaryName) = true
  text : ∃ constraint symbol more, constraint.isKeyword "CONSTRAINT" = true ∧
    key.text = Token.displayAll (constraint :: .quoted symbol :: more) ∧
      Definition.SpellsPrimaryKey symbol

/-- The clause is added as the primary key exactly if this is its kind. -/
def AddedByKind (key : KeyClause) : Prop :=
  ∀ table, Definition.addKey table key =
    if key.kind = .primary then Definition.addPrimaryKey table key.columns
    else Definition.addSecondaryIndex table key

theorem PosesAsPrimary.isPrimaryClause (h : key.PosesAsPrimary) :
    Definition.isPrimaryClause key = true := by
  obtain ⟨constraint, symbol, more, hconstraint, htext, hsymbol⟩ := h.text
  rw [Definition.isPrimaryClause, h.kind, h.name, htext,
    hsymbol.declaresPrimaryKey hconstraint more]
  rfl

/-- What poses as a primary key is added as one though it is none. -/
theorem PosesAsPrimary.not_addedByKind (h : key.PosesAsPrimary) : ¬ key.AddedByKind := by
  intro hadded
  obtain ⟨table, hne⟩ := Definition.exists_addPrimaryKey_ne h.kind
  have hsame := hadded table
  rw [Definition.addKey_eq, if_pos h.isPrimaryClause, if_neg (by simp [h.kind])] at hsame
  exact hne hsame

/-- A key clause that is read is taken for the primary key by its kind, or because it poses as
one. -/
theorem IsReadFrom.kind_or_poses (h : key.IsReadFrom tokens)
    (hwords : ∀ w, .word w ∈ tokens → IsWord w)
    (hprimary : Definition.isPrimaryClause key = true) :
    key.kind = .primary ∨ key.PosesAsPrimary := by
  rw [Definition.isPrimaryClause, Bool.or_eq_true, Bool.and_eq_true, Bool.and_eq_true, beq_iff_eq,
    beq_iff_eq] at hprimary
  refine hprimary.imp_right ?_
  rintro ⟨⟨hkind, hname⟩, hdeclares⟩
  obtain ⟨lead, head, more, hpart, hlead, hhead, htext⟩ := h
  rw [hkind] at hhead hlead
  rw [htext] at hdeclares
  cases hlead with
  | nothing =>
      rw [List.nil_append, Definition.declaresPrimaryKey_of_index hhead] at hdeclares
      cases hdeclares
  | unnamed _ hnot => exact absurd rfl hnot
  | @named constraint name hconstraint hsymbol hnot =>
      cases name with
      | word w =>
          have hw : IsWord w := hwords w (hpart.subset (by simp))
          rw [List.cons_append, List.singleton_append,
            Definition.declaresPrimaryKey_of_word hconstraint hw hnot hhead] at hdeclares
          cases hdeclares
      | quoted symbol =>
          exact ⟨hkind, hname, constraint, symbol, head :: more, hconstraint, htext,
            (Definition.declaresPrimaryKey_of_quoted_iff hconstraint hhead symbol more).1 hdeclares⟩
      | _ => cases hsymbol

/-- A key clause that is read is added by its kind exactly if it does not pose as a primary key. -/
theorem IsReadFrom.addedByKind_iff (h : key.IsReadFrom tokens)
    (hwords : ∀ w, .word w ∈ tokens → IsWord w) : key.AddedByKind ↔ ¬ key.PosesAsPrimary := by
  constructor
  · exact fun hadded hposes => hposes.not_addedByKind hadded
  · intro hposes table
    rw [Definition.addKey_eq]
    by_cases hkind : key.kind = .primary
    · have hclause : Definition.isPrimaryClause key = true := by
        simp [Definition.isPrimaryClause, hkind]
      rw [if_pos hclause, if_pos hkind]
    · have hclause : ¬ Definition.isPrimaryClause key = true := fun hclause =>
        (h.kind_or_poses hwords hclause).elim hkind hposes
      rw [if_neg hclause, if_neg hkind]

end KeyClause

namespace Statement

variable {line : Nat} {text : String} {statement : Statement}

/-- All key clauses of the statement are added by their kinds. -/
def AddsKeysByKind (statement : Statement) : Prop :=
  ∀ key ∈ statement.keys, key.AddedByKind

/-- The keys of a statement that is read are added by their kinds exactly if none of them poses as
a primary key. -/
theorem addsKeysByKind_iff (h : parseStatement line text = .ok (some statement)) :
    statement.AddsKeysByKind ↔ ∀ key ∈ statement.keys, ¬ key.PosesAsPrimary := by
  obtain ⟨tokens, htokens, hkeys⟩ := isReadFrom_of_parseStatement h
  have hwords : ∀ w, .word w ∈ tokens → IsWord w := fun w hw =>
    (scans_of_scan htokens).isWord hw
  exact forall₂_congr fun key hkey => (hkeys key hkey).addedByKind_iff hwords

/-- An ordinary index is added as one whatever its comment says, and though its constraint has the
first word of a primary key for a name. -/
theorem addsKeysByKind_of_comment :
    let index : KeyClause := {
      kind := .index
      columns := [{ column := "b" }]
      text := "CONSTRAINT \x60primary\x60 KEY ( b ) COMMENT 'PRIMARY KEY'" }
    let primary : KeyClause := {
      kind := .primary
      columns := [{ column := "a" }]
      text := "CONSTRAINT pk PRIMARY KEY ( a )" }
    let statement : Statement := .alterTable { name := "t" } [.addKey index, .addKey primary]
    let text := "ALTER TABLE t ADD CONSTRAINT \x60primary\x60 KEY (b) COMMENT 'PRIMARY KEY'," ++
      " ADD CONSTRAINT pk PRIMARY KEY (a)"
    parseStatement 1 text = .ok (some statement) ∧ statement.AddsKeysByKind := by
  intro index primary statement text
  have hread : parseStatement 1 text = .ok (some statement) := by decide +kernel
  refine ⟨hread, (addsKeysByKind_iff hread).2 fun key hkey hposes => ?_⟩
  have hkeys : key ∈ [index, primary] := hkey
  rcases List.mem_pair.1 hkeys with rfl | rfl
  · exact absurd hposes.isPrimaryClause (by decide +kernel)
  · exact absurd hposes.kind (by decide)

/-- A constraint can be named so that its index is taken for the primary key. -/
theorem not_addsKeysByKind_of_constraint_name :
    ∃ statement,
      parseStatement 1 "CREATE TABLE t (a INT, CONSTRAINT \x60x primary key\x60 KEY (a))" =
        .ok (some statement) ∧ ¬ statement.AddsKeysByKind := by
  let key : KeyClause := {
    kind := .index
    columns := [{ column := "a" }]
    text := "CONSTRAINT \x60x primary key\x60 KEY ( a )" }
  let spec : TableSpec := {
    name := { name := "t" }
    columns := [{ name := "a", type := { name := "int" } }]
    keys := [key] }
  refine ⟨.createTable spec, by decide +kernel, fun h => ?_⟩
  have hadded := h key List.mem_cons_self { name := "t", columns := [{ name := "a" }] }
  revert hadded
  decide +kernel

end Statement
end Sql
end SchemaLint
