import SchemaLint.Digest.Grammar
import SchemaLint.Proofs.Digest.Walk
import SchemaLint.Proofs.Text.Pieces

/-!
# Names of tables by their identifiers

The walk over a digest writes the name of a table out, cuts the text at its points and strips the
quotes again.  The last identifier of the name should be the table, and the one before it the
schema.

* `Identifier.ReadsBack` - what is cut and stripped of an identifier is its value;
* `Mention.ReadsBack` - this holds of the identifiers that tell the table;
* `Mention.ResolvesByIdentifier` - the table is recorded by the last identifiers of its name;
* `Mention.resolvesByIdentifier_iff` - it is exactly if these identifiers read back.

Plain identifiers, in which neither a point nor a quote stands, all read back.
-/

namespace SchemaLint
namespace Digest

namespace Identifier

/-- An identifier that is bare, or in quotes of a kind that there is. -/
def IsWritten (identifier : Identifier) : Prop :=
  identifier.quote ∈ [none, some '\x60', some '"', some '\'']

/-- The quotes that are stripped of the value of an identifier.  In double quotes it is safe from
the stripping of back quotes. -/
def stripped (identifier : Identifier) : List Char :=
  if identifier.quote = some '"' then ['"'] else ['\x60', '"']

/-- No point stands in the identifier, no quote is doubled in it nor stripped from its ends, and it
is not in single quotes, which are never stripped. -/
structure ReadsBack (identifier : Identifier) : Prop where
  undivided : '.' ∉ identifier.value.toList
  undoubled : ∀ quote, identifier.quote = some quote →
    doubleQuotes quote '\x00' identifier.value.toList = identifier.value.toList
  bare : ∀ mark ∈ identifier.stripped, Text.Bare (· == mark) identifier.value.toList
  stripping : identifier.quote ≠ some '\''

section DoubleQuotes

variable {quote c : Char}

theorem doubleQuotes_of_not_mem :
    ∀ {cs : List Char} {previous : Char}, quote ∉ cs → doubleQuotes quote previous cs = cs
  | [], _, _ => rfl
  | [c], _, h => by
      have hc : c ≠ quote := fun heq => h (heq ▸ List.mem_cons_self)
      rw [doubleQuotes, if_neg fun hquote => hc hquote.1]
  | c :: d :: rest, _, h => by
      obtain ⟨hc, hrest⟩ := List.ne_and_not_mem_of_not_mem_cons h
      rw [doubleQuotes, if_neg (Ne.symm hc), doubleQuotes_of_not_mem hrest]

theorem head?_doubleQuotes (quote previous : Char) (cs : List Char) :
    (doubleQuotes quote previous cs).head? = cs.head? := by
  fun_cases doubleQuotes quote previous cs <;> rfl

theorem getLast?_doubleQuotes (quote previous : Char) (cs : List Char) :
    (doubleQuotes quote previous cs).getLast? = cs.getLast? := by
  fun_induction doubleQuotes quote previous cs <;> simp_all [List.getLast?_cons]

/-- Characters are only added, and only quotes are. -/
theorem sublist_doubleQuotes (quote previous : Char) (cs : List Char) :
    cs.Sublist (doubleQuotes quote previous cs) := by
  fun_induction doubleQuotes quote previous cs <;> simp_all

theorem count_doubleQuotes (h : c ≠ quote) (previous : Char) (cs : List Char) :
    (doubleQuotes quote previous cs).count c = cs.count c := by
  fun_induction doubleQuotes quote previous cs <;> simp_all [List.count_cons, Ne.symm h]

theorem mem_doubleQuotes_iff (h : c ≠ quote) (previous : Char) (cs : List Char) :
    c ∈ doubleQuotes quote previous cs ↔ c ∈ cs := by
  rw [← List.count_pos_iff, count_doubleQuotes h, List.count_pos_iff]

/-- The ends of a text are bare together with those of the text as it is written. -/
theorem bare_doubleQuotes {p : Char → Bool} {previous : Char} {cs : List Char}
    (h : Text.Bare p cs) : Text.Bare p (doubleQuotes quote previous cs) :=
  h.of_ends (head?_doubleQuotes quote previous cs) (getLast?_doubleQuotes quote previous cs)

end DoubleQuotes

section Stripping

variable {cs : List Char}

/-- Both kinds of quotes taken from the ends of a text, back quotes first. -/
def strip (cs : List Char) : List Char :=
  Text.trimList (· == '"') (Text.trimList (· == '\x60') cs)

theorem unquoted_eq_iff {text value : String} :
    Scope.unquoted text = value ↔ strip text.toList = value.toList := by
  rw [Scope.unquoted, Text.trimChar, Text.trimChar, String.toList_ofList]
  constructor
  · rintro rfl
    rw [String.toList_ofList, strip]
  · intro h
    rw [strip] at h
    rw [h, String.ofList_toList]

theorem strip_back_iff :
    strip ('\x60' :: doubleQuotes '\x60' '\x00' cs ++ ['\x60']) = cs ↔
      doubleQuotes '\x60' '\x00' cs = cs ∧
        Text.Bare (· == '\x60') cs ∧ Text.Bare (· == '"') cs := by
  rw [strip, Text.trimList_between (p := (· == '\x60')) rfl]
  constructor
  · intro h
    -- no double quote is lost, as the text between the back quotes has as many as the value
    have hcount : (Text.trimList (· == '\x60') (doubleQuotes '\x60' '\x00' cs)).count '"' ≤
        (Text.trimList (· == '"')
          (Text.trimList (· == '\x60') (doubleQuotes '\x60' '\x00' cs))).count '"' := by
      have hsame : (doubleQuotes '\x60' '\x00' cs).count '"' = cs.count '"' :=
        count_doubleQuotes (by decide) _ _
      rw [h, ← hsame]
      exact (Text.sublist_trimList _ _).count_le _
    have hback := Text.trimList_eq_self_of_count_le hcount
    rw [h] at hback
    have hbareBack : Text.Bare (· == '\x60') cs := by
      rw [hback]
      exact Text.bare_trimList _ _
    have hbareDouble : Text.Bare (· == '"') cs := by
      rw [← h]
      exact Text.bare_trimList _ _
    rw [(bare_doubleQuotes hbareBack).trimList_eq] at hback
    exact ⟨hback.symm, hbareBack, hbareDouble⟩
  · rintro ⟨hsame, hback, hdouble⟩
    rw [hsame, hback.trimList_eq, hdouble.trimList_eq]

theorem strip_double_iff :
    strip ('"' :: doubleQuotes '"' '\x00' cs ++ ['"']) = cs ↔
      doubleQuotes '"' '\x00' cs = cs ∧ Text.Bare (· == '"') cs := by
  rw [strip, (Text.bare_between (p := (· == '\x60')) (by decide) _).trimList_eq,
    Text.trimList_between (p := (· == '"')) rfl]
  constructor
  · intro h
    have hbare : Text.Bare (· == '"') cs := by
      rw [← h]
      exact Text.bare_trimList _ _
    rw [(bare_doubleQuotes hbare).trimList_eq] at h
    exact ⟨h, hbare⟩
  · rintro ⟨hsame, hbare⟩
    rw [hsame, hbare.trimList_eq]

theorem strip_single_ne : strip ('\'' :: doubleQuotes '\'' '\x00' cs ++ ['\'']) ≠ cs := by
  rw [strip, (Text.bare_between (p := (· == '\x60')) (by decide) _).trimList_eq,
    (Text.bare_between (p := (· == '"')) (by decide) _).trimList_eq]
  intro h
  have hlength := congrArg List.length h
  have hle := (sublist_doubleQuotes '\'' '\x00' cs).length_le
  simp only [List.length_append, List.length_cons, List.length_nil] at hlength
  omega

end Stripping

variable {identifier : Identifier}

theorem text_of_none (h : identifier.quote = none) : identifier.text = identifier.value := by
  rw [text, h]

theorem toList_text_of_some {quote : Char} (h : identifier.quote = some quote) :
    identifier.text.toList =
      quote :: doubleQuotes quote '\x00' identifier.value.toList ++ [quote] := by
  rw [text, h, String.toList_ofList]

theorem mem_text_iff (h : identifier.IsWritten) :
    '.' ∈ identifier.text.toList ↔ '.' ∈ identifier.value.toList := by
  cases hquote : identifier.quote with
  | none => rw [text_of_none hquote]
  | some quote =>
      have hne : '.' ≠ quote := by
        rintro rfl
        rw [IsWritten, hquote] at h
        exact absurd h (by decide)
      rw [toList_text_of_some hquote]
      simp [hne, mem_doubleQuotes_iff hne]

/-- An identifier without points reads back if stripping its text leaves its value. -/
theorem unquoted_text_iff (h : identifier.IsWritten) (hpoint : '.' ∉ identifier.value.toList) :
    Scope.unquoted identifier.text = identifier.value ↔ identifier.ReadsBack := by
  rw [unquoted_eq_iff]
  cases hquote : identifier.quote with
  | none =>
      rw [text_of_none hquote, strip, Text.trimList_trimList_eq_self_iff]
      constructor
      · rintro ⟨hback, hdouble⟩
        exact ⟨hpoint, by simp [hquote], by simp [stripped, hquote, hback, hdouble],
          by simp [hquote]⟩
      · intro hreads
        exact ⟨hreads.bare _ (by simp [stripped, hquote]),
          hreads.bare _ (by simp [stripped, hquote])⟩
  | some quote =>
      rw [toList_text_of_some hquote]
      have hmem : quote ∈ ['\x60', '"', '\''] := by simpa [IsWritten, hquote] using h
      rcases List.mem_cons.1 hmem with rfl | hmem
      · rw [strip_back_iff]
        constructor
        · rintro ⟨hsame, hback, hdouble⟩
          exact ⟨hpoint, by simp [hquote, hsame], by simp [stripped, hquote, hback, hdouble],
            by simp [hquote]⟩
        · intro hreads
          exact ⟨hreads.undoubled _ hquote, hreads.bare _ (by simp [stripped, hquote]),
            hreads.bare _ (by simp [stripped, hquote])⟩
      rcases List.mem_pair.1 hmem with rfl | rfl
      · rw [strip_double_iff]
        constructor
        · rintro ⟨hsame, hdouble⟩
          exact ⟨hpoint, by simp [hquote, hsame], by simp [stripped, hquote, hdouble],
            by simp [hquote]⟩
        · intro hreads
          exact ⟨hreads.undoubled _ hquote, hreads.bare _ (by simp [stripped, hquote])⟩
      · exact iff_of_false strip_single_ne fun hreads => hreads.stripping hquote

/-- What the text of an identifier gives when it is cut and stripped. -/
def pieces (identifier : Identifier) : List String :=
  (Text.split '.' identifier.text).map Scope.unquoted

theorem pieces_ne_nil (identifier : Identifier) : identifier.pieces ≠ [] := by
  simpa [pieces] using Text.split_ne_nil '.' identifier.text

theorem pieces_of_not_mem (h : identifier.IsWritten) (hpoint : '.' ∉ identifier.value.toList) :
    identifier.pieces = [Scope.unquoted identifier.text] := by
  rw [pieces, Text.split, Text.splitList_of_not_mem (mt (mem_text_iff h).1 hpoint),
    List.map_singleton, String.ofList_toList, List.map_singleton]

theorem ReadsBack.pieces_eq (h : identifier.IsWritten) (hreads : identifier.ReadsBack) :
    identifier.pieces = [identifier.value] := by
  rw [pieces_of_not_mem h hreads.undivided, (unquoted_text_iff h hreads.undivided).2 hreads]

/-- It is told by the last piece whether an identifier reads back. -/
theorem getLast?_pieces_iff (h : identifier.IsWritten) :
    identifier.pieces.getLast? = some identifier.value ↔ identifier.ReadsBack := by
  constructor
  · intro hlast
    -- a piece has no point, so neither has the value
    have hmem := List.mem_of_getLast? hlast
    obtain ⟨piece, hpiece, hvalue⟩ := List.mem_map.1 hmem
    obtain ⟨cs, hcs, rfl⟩ := List.mem_map.1 hpiece
    have hpoint : '.' ∉ identifier.value.toList := by
      rw [unquoted_eq_iff, String.toList_ofList] at hvalue
      rw [← hvalue]
      intro hin
      have hsub := (Text.sublist_trimList (· == '"') _).trans
        (Text.sublist_trimList (· == '\x60') cs)
      exact Text.not_mem_of_mem_splitList hcs (hsub.subset hin)
    rw [pieces_of_not_mem h hpoint, List.getLast?_singleton, Option.some_inj] at hlast
    exact (unquoted_text_iff h hpoint).1 hlast
  · intro hreads
    rw [hreads.pieces_eq h, List.getLast?_singleton]

/-- An identifier that is bare, or in back or double quotes, and holds neither a point nor such a
quote. -/
def IsPlain (identifier : Identifier) : Prop :=
  identifier.quote ∈ [none, some '\x60', some '"'] ∧
    ∀ c ∈ identifier.value.toList, c ∉ ['.', '\x60', '"']

-- it is the characters of the value that are looked through, and not all characters there are
instance (identifier : Identifier) : Decidable identifier.IsPlain :=
  @instDecidableAnd _ _ inferInstance (List.decidableBAll _ _)

theorem IsPlain.isWritten (h : identifier.IsPlain) : identifier.IsWritten :=
  List.mem_append_left [some '\''] h.1

theorem IsPlain.readsBack (h : identifier.IsPlain) : identifier.ReadsBack where
  undivided hc := h.2 '.' hc List.mem_cons_self
  undoubled quote hquote := by
    have hmem : quote ∈ ['\x60', '"'] := by simpa [hquote] using h.1
    exact doubleQuotes_of_not_mem fun hc => h.2 quote hc (List.mem_cons_of_mem _ hmem)
  bare mark hmark := by
    have hmem : mark ∈ ['\x60', '"'] := by
      rw [stripped] at hmark
      split at hmark
      · exact List.mem_cons_of_mem _ hmark
      · exact hmark
    exact Text.bare_of_forall fun c hc => beq_false_of_ne fun heq =>
      h.2 c hc (heq ▸ List.mem_cons_of_mem _ hmem)
  stripping hquote := absurd h.1 (by simp [hquote])

end Identifier

namespace Mention

/-- A name of plain identifiers. -/
def IsPlain (mention : Mention) : Prop :=
  mention.name ≠ [] ∧ ∀ identifier ∈ mention.name, identifier.IsPlain

instance (mention : Mention) : Decidable mention.IsPlain :=
  inferInstanceAs (Decidable (_ ∧ _))

/-- The table that is mentioned: the last identifier of the name, in the schema of the one before
it. -/
def reference (mention : Mention) : TableReference where
  schema := mention.name.dropLast.getLast?.map Identifier.value
  table := (mention.name.getLast?.map Identifier.value).getD ""

/-- The name by which the digest calls the table. -/
def key (mention : Mention) : String :=
  mention.alternative.getD mention.reference.table

/-- The walk takes the table for the one that the last identifiers of its name say, and records it
as that unless it is a named query. -/
def ResolvesByIdentifier (mention : Mention) : Prop :=
  ∀ scope : Scope, scope.meet (.table mention) =
    if scope.isToNamed mention.reference then scope
    else { scope with tables := scope.tables.insert mention.key mention.reference }

/-- The identifiers that tell which table is meant, the last one and the one before it, are written
so that they read back.  Nothing is asked of those in front of them. -/
structure ReadsBack (mention : Mention) : Prop where
  nonempty : mention.name ≠ []
  isWritten : ∀ identifier ∈ mention.name.reverse.take 2, identifier.IsWritten
  readsBack : ∀ identifier ∈ mention.name.reverse.take 2, identifier.ReadsBack

variable {mention : Mention}

theorem nameParts_eq_flatMap {name : List Identifier} (h : name ≠ []) :
    Scope.nameParts name = name.flatMap Identifier.pieces := by
  have hsplit : Text.split '.' (Text.join "." (name.map Identifier.text)) =
      (name.map Identifier.text).flatMap (Text.split '.') :=
    Text.split_join_eq_flatMap (by simpa using h)
  rw [Scope.nameParts, hsplit, List.flatMap_map, List.map_flatMap]
  rfl

theorem reference?_eq_some_iff {name : List Identifier} {reference : TableReference} :
    Scope.reference? name = some reference ↔
      (Scope.nameParts name).getLast? = some reference.table ∧
        (Scope.nameParts name).dropLast.getLast? = reference.schema := by
  rw [Scope.reference?]
  rcases List.eq_nil_or_concat (Scope.nameParts name) with hnil | ⟨front, table, hparts⟩
  · simp [hnil]
  · obtain ⟨schema?, name⟩ := reference
    rcases List.eq_nil_or_concat front with rfl | ⟨rest, schema, rfl⟩ <;> simp [hparts, and_comm]

theorem getLast?_flatMap_pieces (front : List Identifier) (last : Identifier) :
    ((front ++ [last]).flatMap Identifier.pieces).getLast? = last.pieces.getLast? := by
  rw [List.flatMap_append, List.flatMap_singleton, List.getLast?_append]
  exact Option.or_of_isSome (by simpa using last.pieces_ne_nil)

/-- The walk finds the table that the last identifiers of a name say exactly if they read back. -/
theorem reference?_eq_iff (h : ∀ identifier ∈ mention.name.reverse.take 2, identifier.IsWritten) :
    Scope.reference? mention.name = some mention.reference ↔
      ∀ identifier ∈ mention.name.reverse.take 2, identifier.ReadsBack := by
  rcases List.eq_nil_or_concat' mention.name with hname | ⟨front, table, hname⟩
  · simp only [reference, hname]
    exact iff_of_true rfl nofun
  rw [hname] at h
  have htable : table.IsWritten := h table (by simp)
  have hparts := nameParts_eq_flatMap (List.append_ne_nil_of_right_ne_nil front
    (List.cons_ne_nil table []))
  rw [reference?_eq_some_iff, hname, hparts, getLast?_flatMap_pieces]
  -- the schema is looked for once the table is known to be a single piece
  have hschema (hreads : table.ReadsBack) :
      ((front ++ [table]).flatMap Identifier.pieces).dropLast =
        front.flatMap Identifier.pieces := by
    rw [List.flatMap_append, List.flatMap_singleton, hreads.pieces_eq htable, List.dropLast_concat]
  rcases List.eq_nil_or_concat' front with rfl | ⟨rest, schema, rfl⟩
  · have htake : (([] ++ [table]).reverse.take 2) = [table] := rfl
    have hreference : mention.reference = { table := table.value } := by simp [reference, hname]
    rw [htake, hreference, Identifier.getLast?_pieces_iff htable]
    constructor
    · rintro ⟨hreads, -⟩ identifier hmem
      rwa [List.mem_singleton.1 hmem]
    · intro hall
      have hreads := hall table List.mem_cons_self
      exact ⟨hreads, by rw [hschema hreads]; rfl⟩
  · have hwritten : schema.IsWritten := h schema (by simp)
    have htake : ((rest ++ [schema] ++ [table]).reverse.take 2) = [table, schema] := by simp
    have hreference : mention.reference =
        { schema := some schema.value, table := table.value } := by simp [reference, hname]
    rw [htake, hreference, Identifier.getLast?_pieces_iff htable]
    constructor
    · rintro ⟨hreads, hlast⟩ identifier hmem
      rw [hschema hreads, getLast?_flatMap_pieces] at hlast
      rcases List.mem_pair.1 hmem with rfl | rfl
      · exact hreads
      · exact (Identifier.getLast?_pieces_iff hwritten).1 hlast
    · intro hall
      have hreads := hall table List.mem_cons_self
      refine ⟨hreads, ?_⟩
      rw [hschema hreads, getLast?_flatMap_pieces]
      exact (Identifier.getLast?_pieces_iff hwritten).2 (hall schema (by simp))

theorem resolvesByIdentifier_iff_reference? :
    mention.ResolvesByIdentifier ↔ Scope.reference? mention.name = some mention.reference := by
  constructor
  · intro h
    have hempty : ∀ reference : TableReference, Scope.isToNamed {} reference = false := fun _ =>
      Bool.and_false _
    have hfirst := h {}
    rw [Scope.meet, Scope.addTable, hempty, if_neg Bool.false_ne_true] at hfirst
    cases hread : Scope.reference? mention.name with
    | none =>
        rw [hread] at hfirst
        have htables : ([] : List (String × TableReference)) = [(mention.key, mention.reference)] :=
          congrArg (fun scope => scope.tables.entries) hfirst
        exact absurd htables (List.cons_ne_nil _ _).symm
    | some read =>
        simp only [hread, hempty, Bool.false_eq_true, if_false] at hfirst
        have htables : [(mention.alternative.getD read.table, read)] =
            [(mention.key, mention.reference)] :=
          congrArg (fun scope => scope.tables.entries) hfirst
        rw [(Prod.mk.inj (List.singleton_inj.1 htables)).2]
  · intro h scope
    rw [Scope.meet, Scope.addTable, h]
    rfl

/-- A name resolves by its identifiers exactly if the last two of them read back.  What stands in
front of these two is of no account. -/
theorem resolvesByIdentifier_iff (h : ∀ identifier ∈ mention.name, identifier.IsWritten) :
    mention.ResolvesByIdentifier ↔
      ∀ identifier ∈ mention.name.reverse.take 2, identifier.ReadsBack :=
  resolvesByIdentifier_iff_reference?.trans (reference?_eq_iff fun identifier hmem =>
    h identifier (List.mem_reverse.1 (List.mem_of_mem_take hmem)))

/-- A point does no harm in front of the schema, nor do doubled quotes inside an identifier, nor
back quotes within double quotes. -/
theorem resolvesByIdentifier_of_quotes :
    let mention : Mention := {
      name := [⟨"a.b", some '\x60'⟩, ⟨"my\x60\x60shop", some '\x60'⟩, ⟨"\x60orders\x60", some '"'⟩]
      alternative := none
      visible := [] }
    (∀ identifier ∈ mention.name, identifier.IsWritten) ∧
      (∀ identifier ∈ mention.name.reverse.take 2, identifier.ReadsBack) ∧
      mention.ResolvesByIdentifier ∧
      mention.reference = { schema := some "my\x60\x60shop", table := "\x60orders\x60" } := by
  intro mention
  have hwritten : ∀ identifier ∈ mention.name, identifier.IsWritten := by
    simp [mention, Identifier.IsWritten]
  have hreads : ∀ identifier ∈ mention.name.reverse.take 2, identifier.ReadsBack := by
    intro identifier hmem
    have hlast : identifier ∈
        [⟨"\x60orders\x60", some '"'⟩, ⟨"my\x60\x60shop", some '\x60'⟩] := hmem
    refine (Identifier.unquoted_text_iff
      (hwritten identifier (List.mem_reverse.1 (List.mem_of_mem_take hmem))) ?_).1 ?_ <;>
    rcases List.mem_pair.1 hlast with rfl | rfl <;>
    decide
  exact ⟨hwritten, hreads, (resolvesByIdentifier_iff hwritten).2 hreads, rfl⟩

/-- A point inside back quotes cuts the name of the table. -/
theorem not_resolvesByIdentifier_of_point :
    ∃ statements mention, parse? "SELECT * FROM \x60a.b\x60 q" = some statements ∧
      .table mention ∈ events statements ∧ ¬ mention.ResolvesByIdentifier := by
  let name : List Identifier := [⟨"a.b", some '\x60'⟩]
  refine ⟨[.query (.mk false .nil (.select (.cons (.table name (some "q")) .nil)))],
    { name, alternative := some "q", visible := [] }, by decide +kernel,
    List.mem_cons_self, fun h => ?_⟩
  -- the table is taken for one of the schema `a`
  have hread := resolvesByIdentifier_iff_reference?.1 h
  exact absurd hread (by decide)

/-- The walk reads a name by its identifiers if the last ones read back. -/
theorem ReadsBack.reference?_eq (h : mention.ReadsBack) :
    Scope.reference? mention.name = some mention.reference :=
  (reference?_eq_iff h.isWritten).2 h.readsBack

/-- Where the walk reads a name by its identifiers, the last ones read back. -/
theorem ReadsBack.of_reference? (h : mention.name ≠ [])
    (hwritten : ∀ identifier ∈ mention.name, identifier.IsWritten)
    (href : Scope.reference? mention.name = some mention.reference) : mention.ReadsBack where
  nonempty := h
  isWritten identifier hmem := hwritten identifier (List.mem_reverse.1 (List.mem_of_mem_take hmem))
  readsBack := (reference?_eq_iff fun identifier hmem =>
    hwritten identifier (List.mem_reverse.1 (List.mem_of_mem_take hmem))).1 href

theorem IsPlain.readsBack (h : mention.IsPlain) : mention.ReadsBack where
  nonempty := h.1
  isWritten identifier hmem :=
    (h.2 identifier (List.mem_reverse.1 (List.mem_of_mem_take hmem))).isWritten
  readsBack identifier hmem :=
    (h.2 identifier (List.mem_reverse.1 (List.mem_of_mem_take hmem))).readsBack

end Mention
end Digest
end SchemaLint
