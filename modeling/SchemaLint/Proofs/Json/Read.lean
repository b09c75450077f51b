import SchemaLint.Proofs.Json.Scan

/-!
# Reading printed text

The reader puts the tokens of a value together again, so a printed value is read back as it was.
-/

namespace SchemaLint
namespace Json

namespace ReaderState

theorem foldlM_append (first second : List Token) (state : ReaderState) :
    (first ++ second).foldlM step state =
      (first.foldlM step state).bind fun next => second.foldlM step next :=
  List.foldlM_append

end ReaderState

open ReaderState (step put)

/-- What the reader makes of the tokens of a value, at a place where a value may stand. -/
def ReadsBack (value : Json) : Prop :=
  ∀ stack place, place = .value ∨ place = .firstItem →
    value.tokens.foldlM step ⟨stack, place⟩ = put stack value

theorem step_value {place : Place} (h : place = .value ∨ place = .firstItem)
    (stack : List Container) (token : Token) (htoken : token ≠ .endArray) :
    step ⟨stack, place⟩ token = ReaderState.beginValue stack token := by
  rcases h with rfl | rfl
  · rfl
  · cases token <;> first | rfl | exact absurd rfl htoken

theorem readsBack_items {items : List Json} (h : ∀ item ∈ items, ReadsBack item)
    (stack : List Container) (done : List Json) (place : Place)
    (hplace : place = .value ∨ place = .firstItem) (hne : items ≠ []) :
    (itemTokens items).foldlM step ⟨.array done :: stack, place⟩ =
      some ⟨.array (items.reverse ++ done) :: stack, .next⟩ := by
  -- the items that were read wait in reverse order
  induction items generalizing done place with
  | nil => exact absurd rfl hne
  | cons item items ih =>
      rw [List.forall_mem_cons] at h
      rw [itemTokens, ReaderState.foldlM_append, ReaderState.foldlM_append,
        h.1 _ _ hplace]
      cases items with
      | nil => rfl
      | cons next items =>
          have hrest := ih h.2 (item :: done) .value (.inl rfl) (List.cons_ne_nil _ _)
          refine hrest.trans ?_
          simp

theorem readsBack_members {members : List (String × Json)}
    (h : ∀ member ∈ members, ReadsBack member.2) (stack : List Container)
    (done : List (String × Json)) (place : Place) (hplace : place = .name ∨ place = .firstName)
    (hne : members ≠ []) :
    (memberTokens members).foldlM step ⟨.object (some done) :: stack, place⟩ =
      some ⟨.object (some (members.reverse ++ done)) :: stack, .next⟩ := by
  induction members generalizing done place with
  | nil => exact absurd rfl hne
  | cons member members ih =>
      obtain ⟨name, value⟩ := member
      rw [List.forall_mem_cons] at h
      have hname : step ⟨.object (some done) :: stack, place⟩ (.text name) =
          some ⟨.member (some name) (some done) :: stack, .colon⟩ := by
        rcases hplace with rfl | rfl <;> rfl
      -- the name waits in the container until its value is there
      have hvalue : (Token.text name :: Token.colon :: value.tokens).foldlM step
          ⟨.object (some done) :: stack, place⟩ =
            some ⟨.object (some ((name, value) :: done)) :: stack, .next⟩ := by
        rw [List.foldlM_cons, hname]
        exact h.1 (.member (some name) (some done) :: stack) .value (.inl rfl)
      rw [memberTokens, ReaderState.foldlM_append, ReaderState.foldlM_append, hvalue]
      cases members with
      | nil => rfl
      | cons next members =>
          have hrest := ih h.2 ((name, value) :: done) .name (.inl rfl)
            (List.cons_ne_nil _ _)
          refine hrest.trans ?_
          simp

/-- The reader puts the tokens of a value together again. -/
theorem Plain.readsBack {value : Json} (h : value.Plain) : ReadsBack value := by
  have hsingle : ∀ {value : Json} (token : Token), value.tokens = [token] → token ≠ .endArray →
      (∀ stack, ReaderState.beginValue stack token = put stack value) → ReadsBack value := by
    intro value token htokens htoken hbegin stack place hplace
    rw [htokens, List.foldlM_cons, step_value hplace stack token htoken, hbegin]
    cases put stack value <;> rfl
  have hclose : ∀ (state : Option ReaderState), (state >>= fun next => some next) = state :=
    fun state => by cases state <;> rfl
  induction h with
  | null => exact hsingle .null (by rw [tokens]) (by simp) fun _ => rfl
  | boolean b => exact hsingle (.boolean b) (by rw [tokens]) (by simp) fun _ => rfl
  | natural n => exact hsingle (.number (.natural n)) (by rw [tokens]) (by simp) fun _ => rfl
  | text s => exact hsingle (.text s) (by rw [tokens]) (by simp) fun _ => rfl
  | @array items _ ih =>
      intro stack place hplace
      rw [tokens, List.cons_append, List.foldlM_cons,
        step_value hplace stack .beginArray (by simp)]
      change (itemTokens items ++ [Token.endArray]).foldlM step
        ⟨.array [] :: stack, .firstItem⟩ = _
      rw [ReaderState.foldlM_append]
      cases items with
      | nil => exact hclose (put stack (.array []))
      | cons item items =>
          rw [readsBack_items ih stack [] .firstItem (.inr rfl) (List.cons_ne_nil _ _)]
          refine (hclose (put stack _)).trans ?_
          rw [List.append_nil, List.reverse_reverse]
  | @object members _ ih =>
      intro stack place hplace
      rw [tokens, List.cons_append, List.foldlM_cons,
        step_value hplace stack .beginObject (by simp)]
      change (memberTokens members ++ [Token.endObject]).foldlM step
        ⟨.object (some []) :: stack, .firstName⟩ = _
      rw [ReaderState.foldlM_append]
      cases members with
      | nil => exact hclose (put stack (.object []))
      | cons member members =>
          rw [readsBack_members ih stack [] .firstName (.inr rfl) (List.cons_ne_nil _ _)]
          refine (hclose (put stack _)).trans ?_
          rw [List.append_nil, Option.elim_some, List.reverse_reverse]

/-- A printed value is read back as it was. -/
theorem parse?_pretty {value : Json} (h : value.Plain) : parse? value.pretty = some value := by
  have hscan := h.scan 0 [] Text.stops_nil
  have hread := h.readsBack [] .value (.inl rfl)
  have hempty : Token.scan [] = some [] := by rw [Token.scan]
  rw [List.append_nil, hempty, Option.map_some, List.append_nil] at hscan
  rw [parse?, toList_pretty, hscan, Option.bind_some, ofTokens?, ReaderState.start, hread]
  rfl

end Json
end SchemaLint
