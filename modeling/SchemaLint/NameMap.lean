/-!
# Maps from names

Finite maps from strings, kept as a list of entries in ascending order of their names.  The
order is part of the type, so equal maps are equal lists, and looking a name up after an
insertion gives the inserted value for that name and the old one for every other.
-/

namespace SchemaLint

/-- A finite map from names, in ascending order. -/
structure NameMap (α : Type) where
  entries : List (String × α)
  ascending : entries.Pairwise fun a b => a.1 < b.1
deriving DecidableEq

namespace NameMap

variable {α β : Type}

/-- The map without entries. -/
def empty : NameMap α := ⟨[], .nil⟩

instance : Inhabited (NameMap α) := ⟨empty⟩

/-- Puts an entry at its place in an ascending list, over an entry of the same name. -/
def insertEntry (name : String) (value : α) : List (String × α) → List (String × α)
  | [] => [(name, value)]
  | (other, old) :: rest =>
      if name < other then
        (name, value) :: (other, old) :: rest
      else if name = other then
        (name, value) :: rest
      else
        (other, old) :: insertEntry name value rest

theorem mem_insertEntry {name : String} {value : α} {entries : List (String × α)}
    {entry : String × α} (h : entry ∈ insertEntry name value entries) :
    entry = (name, value) ∨ entry ∈ entries := by
  induction entries with
  | nil => simpa [insertEntry] using h
  | cons head rest ih =>
      obtain ⟨other, old⟩ := head
      simp only [insertEntry] at h
      split at h
      · simpa using h
      · split at h
        · rcases List.mem_cons.1 h with h | h
          · exact .inl h
          · exact .inr (List.mem_cons_of_mem _ h)
        · rcases List.mem_cons.1 h with h | h
          · exact .inr (by simp [h])
          · rcases ih h with h | h
            · exact .inl h
            · exact .inr (List.mem_cons_of_mem _ h)

theorem insertEntry_ascending {name : String} {value : α} {entries : List (String × α)}
    (h : entries.Pairwise fun a b => a.1 < b.1) :
    (insertEntry name value entries).Pairwise fun a b => a.1 < b.1 := by
  induction entries with
  | nil => simp [insertEntry]
  | cons head rest ih =>
      obtain ⟨other, old⟩ := head
      rw [List.pairwise_cons] at h
      simp only [insertEntry]
      split
      · next hlt =>
          refine List.pairwise_cons.2 ⟨fun entry hentry => ?_, List.pairwise_cons.2 h⟩
          rcases List.mem_cons.1 hentry with rfl | hentry
          · exact hlt
          · exact String.lt_trans hlt (h.1 entry hentry)
      · next hnot =>
          split
          · next heq =>
              subst heq
              exact List.pairwise_cons.2 ⟨h.1, h.2⟩
          · next hne =>
              refine List.pairwise_cons.2 ⟨fun entry hentry => ?_, ih h.2⟩
              rcases mem_insertEntry hentry with rfl | hentry
              · exact Std.lt_of_le_of_ne (String.not_lt.1 hnot) (Ne.symm hne)
              · exact h.1 entry hentry

/-- The map with `value` under `name`. -/
def insert (map : NameMap α) (name : String) (value : α) : NameMap α :=
  ⟨insertEntry name value map.entries, insertEntry_ascending map.ascending⟩

/-- The value under `name`. -/
def get? (map : NameMap α) (name : String) : Option α :=
  (map.entries.find? (·.1 == name)).map Prod.snd

/-- Whether there is a value under `name`. -/
def contains (map : NameMap α) (name : String) : Bool :=
  (map.get? name).isSome

/-- The names in ascending order. -/
def names (map : NameMap α) : List String :=
  map.entries.map Prod.fst

/-- The values in ascending order of their names. -/
def values (map : NameMap α) : List α :=
  map.entries.map Prod.snd

/-- Whether the map has no entries. -/
def isEmpty (map : NameMap α) : Bool :=
  map.entries.isEmpty

/-- Every value replaced by its image; the names stay. -/
def mapValues (f : α → β) (map : NameMap α) : NameMap β where
  entries := map.entries.map fun entry => (entry.1, f entry.2)
  ascending := by
    rw [List.pairwise_map]
    exact map.ascending

/-- The value under `name`, if there is one, replaced by its image. -/
def modify (map : NameMap α) (name : String) (f : α → α) : NameMap α where
  entries := map.entries.map fun entry =>
    (entry.1, if entry.1 == name then f entry.2 else entry.2)
  ascending := by
    rw [List.pairwise_map]
    exact map.ascending

/-- The map of a list of entries; a later entry replaces an earlier one of the same name. -/
def ofList (entries : List (String × α)) : NameMap α :=
  entries.foldl (fun map entry => map.insert entry.1 entry.2) empty

theorem get?_empty (name : String) : (empty : NameMap α).get? name = none := rfl

theorem get?_insert_self (map : NameMap α) (name : String) (value : α) :
    (map.insert name value).get? name = some value := by
  simp only [get?, insert]
  generalize map.entries = entries
  induction entries with
  | nil => simp [insertEntry]
  | cons head rest ih =>
      obtain ⟨other, old⟩ := head
      simp only [insertEntry]
      split
      · simp
      · split
        · simp
        · next hne => simpa [Ne.symm hne] using ih

theorem get?_insert_of_ne (map : NameMap α) {name other : String} (value : α)
    (h : other ≠ name) : (map.insert name value).get? other = map.get? other := by
  simp only [get?, insert]
  generalize map.entries = entries
  induction entries with
  | nil => simp [insertEntry, Ne.symm h]
  | cons head rest ih =>
      obtain ⟨third, old⟩ := head
      simp only [insertEntry]
      split
      · simp [List.find?_cons, Ne.symm h]
      · split
        · next heq =>
            subst heq
            simp [Ne.symm h]
        · by_cases hthird : third = other
          · simp [hthird]
          · simpa [hthird] using ih

end NameMap

/-- A finite set of names, in ascending order. -/
abbrev NameSet := NameMap Unit

namespace NameSet

/-- The set with `name` in it. -/
def add (set : NameSet) (name : String) : NameSet :=
  NameMap.insert set name ()

/-- The set of a list of names. -/
def ofNames (names : List String) : NameSet :=
  names.foldl add NameMap.empty

end NameSet
end SchemaLint
