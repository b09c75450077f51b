import SchemaLint.Json.Members
import SchemaLint.Proofs.Json.Text

/-!
# Decoding what was encoded

Each decoder undoes the encoder of its kind: of strings and numbers, of values that may be
absent, of lists, maps and sets, and of records whose members are written in the order of their
fields.
-/

namespace SchemaLint

namespace NameMap

variable {α : Type}

theorem eq_of_entries {first second : NameMap α} (h : first.entries = second.entries) :
    first = second := by
  cases first
  cases second
  cases h
  rfl

/-- An entry after all others is put at the end. -/
theorem insertEntry_eq_append {name : String} {value : α} {entries : List (String × α)}
    (h : ∀ entry ∈ entries, entry.1 < name) :
    insertEntry name value entries = entries ++ [(name, value)] := by
  induction entries with
  | nil => rfl
  | cons head rest ih =>
      obtain ⟨other, old⟩ := head
      rw [List.forall_mem_cons] at h
      have hbefore : ¬ name < other := String.lt_asymm h.1
      have hother : name ≠ other := by
        rintro rfl
        exact hbefore h.1
      rw [insertEntry, if_neg hbefore, if_neg hother, ih h.2, List.cons_append]

/-- Inserting entries in ascending order appends them. -/
theorem entries_foldl_insert (rest : List (String × α)) (map : NameMap α)
    (h : (map.entries ++ rest).Pairwise fun a b => a.1 < b.1) :
    (rest.foldl (fun map entry => map.insert entry.1 entry.2) map).entries =
      map.entries ++ rest := by
  induction rest generalizing map with
  | nil => simp
  | cons entry rest ih =>
      -- the entries that are there already are smaller than the next one
      have hlast : (map.insert entry.1 entry.2).entries = map.entries ++ [entry] := by
        refine insertEntry_eq_append fun other hother => ?_
        exact (List.pairwise_append.1 h).2.2 other hother entry List.mem_cons_self
      rw [List.foldl_cons, ih, hlast, List.append_assoc, List.singleton_append]
      rw [hlast, List.append_assoc, List.singleton_append]
      exact h

/-- A map is made of its entries. -/
@[simp] theorem ofList_entries (map : NameMap α) : ofList map.entries = map := by
  refine eq_of_entries ((entries_foldl_insert map.entries empty ?_).trans (List.nil_append _))
  exact map.ascending

end NameMap

namespace NameSet

/-- A set is made of its names. -/
@[simp] theorem ofNames_names (set : NameSet) : ofNames (NameMap.names set) = set := by
  have hentries : ofNames (NameMap.names set) = NameMap.ofList set.entries := by
    rw [ofNames, NameMap.names, List.foldl_map]
    rfl
  rw [hentries, NameMap.ofList_entries]

end NameSet

namespace Json

section Plain

@[simp] theorem plain_text (s : String) : (Json.text s).Plain := .text s

@[simp] theorem plain_boolean (b : Bool) : (Json.boolean b).Plain := .boolean b

@[simp] theorem plain_natural (n : UInt64) : (natural n).Plain := .natural n

@[simp] theorem plain_count (n : Nat) : (count n).Plain := .natural (UInt64.ofNat n)

@[simp] theorem plain_object {members : List (String × Json)} :
    (Json.object members).Plain ↔ ∀ member ∈ members, member.2.Plain :=
  ⟨fun | .object h => h, .object⟩

theorem plain_optional {α : Type} {encode : α → Json} {value : Option α}
    (h : ∀ x ∈ value, (encode x).Plain) : (optional encode value).Plain := by
  cases value with
  | none => exact .null
  | some x => exact h x rfl

@[simp] theorem plain_optional_text (value : Option String) :
    (optional Json.text value).Plain :=
  plain_optional fun s _ => .text s

@[simp] theorem plain_optional_natural (value : Option UInt64) : (optional natural value).Plain :=
  plain_optional fun n _ => .natural n

theorem plain_list {α : Type} {encode : α → Json} {items : List α}
    (h : ∀ item ∈ items, (encode item).Plain) : (Json.array (items.map encode)).Plain := by
  refine .array fun value hvalue => ?_
  obtain ⟨item, hitem, rfl⟩ := List.mem_map.1 hvalue
  exact h item hitem

@[simp] theorem plain_texts (items : List String) : (texts items).Plain :=
  plain_list fun s _ => .text s

theorem plain_ofMap {α : Type} {encode : α → Json} {map : NameMap α}
    (h : ∀ entry ∈ map.entries, (encode entry.2).Plain) : (ofMap encode map).Plain := by
  refine .object fun member hmember => ?_
  obtain ⟨entry, hentry, rfl⟩ := List.mem_map.1 hmember
  exact h entry hentry

end Plain

section Decoders

variable {α : Type} {encode : α → Json} {decode : Decoder α}

@[simp] theorem text?_text (s : String) : text? (.text s) = some s := rfl

@[simp] theorem boolean?_boolean (b : Bool) : boolean? (.boolean b) = some b := rfl

@[simp] theorem word64?_natural (n : UInt64) : word64? (natural n) = some n := rfl

@[simp] theorem word32?_count (n : UInt32) : word32? (count n.toNat) = some n := by
  have hbound : n.toNat < UInt32.size := n.toNat_lt_size
  -- the number is written in 64 bits, and fits into 32 again
  have hword : (UInt64.ofNat n.toNat).toNat = n.toNat :=
    UInt64.toNat_ofNat_of_lt' (Nat.lt_trans hbound (by decide))
  have hback : (UInt64.ofNat n.toNat).toUInt32 = n := by
    rw [← UInt32.toNat_inj, UInt64.toNat_toUInt32, hword]
    exact Nat.mod_eq_of_lt hbound
  change (if (UInt64.ofNat n.toNat).toNat < UInt32.size then
    some (UInt64.ofNat n.toNat).toUInt32 else none) = _
  rw [hword, if_pos hbound, hback]

theorem nullable?_optional (encode : α → Json) (value : Option α) (hnull : ∀ x, encode x ≠ .null)
    (h : ∀ x ∈ value, decode (encode x) = some x) :
    nullable? decode (optional encode value) = some value := by
  cases value with
  | none => rfl
  | some x =>
      have hx := h x rfl
      rw [optional]
      unfold nullable?
      split
      · next heq => exact absurd heq (hnull x)
      · rw [hx, Option.map_some]

@[simp] theorem nullable?_text (value : Option String) :
    nullable? text? (optional Json.text value) = some value :=
  nullable?_optional .text value nofun fun _ _ => rfl

@[simp] theorem nullable?_natural (value : Option UInt64) :
    nullable? word64? (optional natural value) = some value :=
  nullable?_optional natural value nofun fun _ _ => rfl

theorem mapM_map {β γ : Type} {encode : α → β} {decode : β → Option γ} {f : α → γ}
    (items : List α) (h : ∀ item ∈ items, decode (encode item) = some (f item)) :
    (items.map encode).mapM decode = some (items.map f) := by
  induction items with
  | nil => rfl
  | cons item items ih =>
      rw [List.forall_mem_cons] at h
      rw [List.map_cons, List.mapM_cons, h.1, ih h.2]
      rfl

theorem list?_map_of {f : α → α} (items : List α)
    (h : ∀ item ∈ items, decode (encode item) = some (f item)) :
    list? decode (.array (items.map encode)) = some (items.map f) := by
  rw [list?, mapM_map items h]

theorem list?_map (items : List α) (h : ∀ item ∈ items, decode (encode item) = some item) :
    list? decode (.array (items.map encode)) = some items := by
  rw [list?_map_of (f := id) items h, List.map_id]

@[simp] theorem list?_texts (items : List String) : list? text? (texts items) = some items :=
  list?_map items fun _ _ => rfl

theorem map?_ofMap (encode : α → Json) (map : NameMap α)
    (h : ∀ entry ∈ map.entries, decode (encode entry.2) = some entry.2) :
    map? decode (ofMap encode map) = some map := by
  have hentries : (map.entries.map fun entry => (entry.1, encode entry.2)).mapM
      (fun member => (decode member.2).map fun value => (member.1, value)) =
        some (map.entries.map id) := by
    refine mapM_map map.entries fun entry hentry => ?_
    rw [h entry hentry]
    rfl
  rw [ofMap, map?, hentries, List.map_id, Option.map_some, NameMap.ofList_entries]

@[simp] theorem names?_texts (set : NameSet) : names? (texts (NameMap.names set)) = some set := by
  rw [names?, list?_texts, Option.map_some, NameSet.ofNames_names]

/-- A record whose members are some of its fields in order has exactly these members. -/
theorem record?_object {fields : List String} {members : List (String × Json)}
    (hnodup : fields.Nodup) (hsub : (members.map Prod.fst).Sublist fields) :
    record? fields (.object members) = some ⟨members⟩ := by
  -- members of unknown names would be left out, but there are none
  have hknown : (members.filter fun member => fields.contains member.1) = members := by
    refine List.filter_eq_self.2 fun member hmember => ?_
    exact List.elem_eq_true_of_mem (hsub.subset (List.mem_map_of_mem hmember))
  rw [record?]
  simp only [hknown, if_pos (hsub.nodup hnodup)]

end Decoders

/-- What was decoded goes to what follows.  This comes before the unfolding of `>>=`, after which
all that follows would be simplified anew at each member. -/
@[simp high] theorem some_bind {α β : Type} (a : α) (f : α → Option β) : (some a >>= f) = f a :=
  rfl

namespace Members

variable {name other : String} {value : Json} {rest : List (String × Json)}

@[simp] theorem find?_nil (name : String) : (Members.mk []).find? name = none := rfl

@[simp] theorem find?_cons_self : (Members.mk ((name, value) :: rest)).find? name = some value := by
  simp [find?]

@[simp] theorem find?_cons_of_ne (h : other ≠ name) :
    (Members.mk ((other, value) :: rest)).find? name = (Members.mk rest).find? name := by
  simp [find?, h]

end Members

end Json
end SchemaLint
