import Mathlib.Data.List.Basic

/-!
# Computations that may fail

What it takes for a computation in `Except` to succeed, the error with which it fails, and what a
fold that succeeds keeps.
-/

namespace SchemaLint

variable {ε α β σ : Type}

theorem bind_eq_ok {x : Except ε α} {f : α → Except ε β} {b : β} :
    (x >>= f) = .ok b ↔ ∃ a, x = .ok a ∧ f a = .ok b := by
  cases x with
  | error e => simp [bind, Except.bind]
  | ok a => simp [bind, Except.bind]

theorem bind_eq_error {x : Except ε α} {f : α → Except ε β} {e : ε} :
    (x >>= f) = .error e ↔ x = .error e ∨ ∃ a, x = .ok a ∧ f a = .error e := by
  cases x with
  | error e => simp [bind, Except.bind]
  | ok a => simp [bind, Except.bind]

theorem map_eq_ok {x : Except ε α} {f : α → β} {b : β} :
    x.map f = .ok b ↔ ∃ a, x = .ok a ∧ f a = b := by
  cases x with
  | error e => simp [Except.map]
  | ok a => simp [Except.map]

theorem map_eq_error {x : Except ε α} {f : α → β} {e : ε} : x.map f = .error e ↔ x = .error e := by
  cases x with
  | error e => simp [Except.map]
  | ok a => simp [Except.map]

theorem mapError_eq_ok {ε' : Type} {x : Except ε α} {f : ε → ε'} {a : α} :
    x.mapError f = .ok a ↔ x = .ok a := by
  cases x with
  | error e => simp [Except.mapError]
  | ok a => simp [Except.mapError]

/-- The error that a computation ends with, if any. -/
def errorOf? : Except ε α → Option ε
  | .error error => some error
  | .ok _ => none

theorem errorOf?_eq_some {x : Except ε α} {error : ε} :
    errorOf? x = some error ↔ x = .error error := by
  cases x <;> simp [errorOf?]

theorem errorOf?_map (f : α → β) (x : Except ε α) : errorOf? (x.map f) = errorOf? x := by
  cases x <;> rfl

/-- Of two computations, one after the other, the first one that fails gives the error. -/
theorem errorOf?_then (first second : Except ε Unit) :
    errorOf? (do first; second) = (errorOf? first).or (errorOf? second) := by
  cases first <;> rfl

/-- A pass over a list gives the error of the first item that fails. -/
theorem errorOf?_forM (f : α → Except ε Unit) (items : List α) :
    errorOf? (items.forM f) = items.findSome? fun item => errorOf? (f item) := by
  induction items with
  | nil => rfl
  | cons item items ih =>
      change errorOf? (do f item; items.forM f) = _
      rw [errorOf?_then, ih, List.findSome?_cons]
      cases errorOf? (f item) <;> rfl

/-- A search through joined lists searches one list after another. -/
theorem findSome?_flatMap {γ : Type} (f : β → Option γ) (g : α → List β) :
    ∀ items : List α, (items.flatMap g).findSome? f = items.findSome? fun x => (g x).findSome? f
  | [] => rfl
  | item :: items => by
      rw [List.flatMap_cons, List.findSome?_append, findSome?_flatMap f g items,
        List.findSome?_cons]
      cases (g item).findSome? f <;> rfl

/-- A pass over a list fails with the error of its first item that fails. -/
theorem mapM_eq_error_iff {f : α → Except ε β} {items : List α} {error : ε} :
    items.mapM f = .error error ↔ ∃ above item below, items = above ++ item :: below ∧
      (∀ other ∈ above, ∃ value, f other = .ok value) ∧ f item = .error error := by
  constructor
  · intro h
    induction items with
    | nil => cases h
    | cons item items ih =>
        rw [List.mapM_cons] at h
        cases hitem : f item with
        | error e =>
            rw [hitem] at h
            cases h
            exact ⟨[], item, items, rfl, nofun, hitem⟩
        | ok value =>
            rw [hitem] at h
            have hrest : items.mapM f = .error error := map_eq_error.1 h
            obtain ⟨above, other, below, rfl, habove, hother⟩ := ih hrest
            exact ⟨item :: above, other, below, rfl,
              List.forall_mem_cons.2 ⟨⟨value, hitem⟩, habove⟩, hother⟩
  · rintro ⟨above, item, below, rfl, habove, hitem⟩
    induction above with
    | nil =>
        rw [List.nil_append, List.mapM_cons, hitem]
        rfl
    | cons other above ih =>
        obtain ⟨⟨value, hvalue⟩, habove⟩ := List.forall_mem_cons.1 habove
        rw [List.cons_append, List.mapM_cons, hvalue]
        exact map_eq_error.2 (ih habove)

theorem exists_of_mapM_eq_error {f : α → Except ε β} {items : List α} {error : ε}
    (h : items.mapM f = .error error) : ∃ item ∈ items, f item = .error error := by
  obtain ⟨above, item, below, rfl, -, hitem⟩ := mapM_eq_error_iff.1 h
  exact ⟨item, List.mem_append_right _ List.mem_cons_self, hitem⟩

/-- Every result of a list comes from an item of it. -/
theorem exists_of_mem_mapM {f : α → Except ε β} {items : List α} {results : List β}
    (h : items.mapM f = .ok results) {result : β} (hresult : result ∈ results) :
    ∃ item ∈ items, f item = .ok result := by
  induction items generalizing results with
  | nil =>
      cases h
      cases hresult
  | cons item items ih =>
      rw [List.mapM_cons, bind_eq_ok] at h
      obtain ⟨first, hfirst, h⟩ := h
      rw [bind_eq_ok] at h
      obtain ⟨rest, hrest, h⟩ := h
      cases h
      rcases List.mem_cons.1 hresult with rfl | hresult
      · exact ⟨item, List.mem_cons_self, hfirst⟩
      · obtain ⟨other, hother, hread⟩ := ih hrest hresult
        exact ⟨other, List.mem_cons_of_mem _ hother, hread⟩

/-- A fold that succeeds keeps what each of its steps keeps. -/
theorem foldlM_keeps {P : σ → Prop} {step : σ → α → Except ε σ} {items : List α}
    (hstep : ∀ state item result, item ∈ items → P state → step state item = .ok result → P result)
    {state result : σ} (h : P state) (hfold : items.foldlM step state = .ok result) :
    P result := by
  induction items generalizing state with
  | nil =>
      rw [List.foldlM_nil] at hfold
      cases hfold
      exact h
  | cons item items ih =>
      rw [List.foldlM_cons, bind_eq_ok] at hfold
      obtain ⟨next, hnext, hrest⟩ := hfold
      exact ih
        (fun state item result hitem => hstep state item result (List.mem_cons_of_mem _ hitem))
        (hstep state item next List.mem_cons_self h hnext) hrest

/-- A fold that fails does so in one of its steps. -/
theorem exists_of_foldlM_eq_error {step : σ → α → Except ε σ} {items : List α} {state : σ}
    {error : ε} (h : items.foldlM step state = .error error) :
    ∃ item ∈ items, ∃ before, step before item = .error error := by
  induction items generalizing state with
  | nil => cases h
  | cons item items ih =>
      rw [List.foldlM_cons] at h
      obtain hitem | ⟨next, -, hrest⟩ := bind_eq_error.1 h
      · exact ⟨item, List.mem_cons_self, state, hitem⟩
      · obtain ⟨failing, hfailing, hstep⟩ := ih hrest
        exact ⟨failing, List.mem_cons_of_mem _ hfailing, hstep⟩

/-- A change that takes the steps of one fold to the steps of another takes the folds to each
other. -/
theorem foldlM_map {τ : Type} {P : σ → Prop} {f : σ → τ} {step : σ → α → Except ε σ}
    {step' : τ → α → Except ε τ} {items : List α}
    (hstep : ∀ state item, item ∈ items → P state →
      step' (f state) item = (step state item).map f)
    (hkeep : ∀ state item result, item ∈ items → P state → step state item = .ok result →
      P result)
    {state : σ} (h : P state) :
    items.foldlM step' (f state) = (items.foldlM step state).map f := by
  induction items generalizing state with
  | nil => rfl
  | cons item items ih =>
      rw [List.foldlM_cons, List.foldlM_cons, hstep state item List.mem_cons_self h]
      cases hnext : step state item with
      | error error => rfl
      | ok next =>
          exact ih (fun state item hitem => hstep state item (List.mem_cons_of_mem _ hitem))
            (fun state item result hitem => hkeep state item result (List.mem_cons_of_mem _ hitem))
            (hkeep state item next List.mem_cons_self h hnext)

/-- A fold over joined lists folds one list after another. -/
theorem foldlM_flatMap {step : σ → α → Except ε σ} (parts : β → List α) (items : List β)
    (state : σ) :
    (items.flatMap parts).foldlM step state =
      items.foldlM (fun state item => (parts item).foldlM step state) state := by
  induction items generalizing state with
  | nil => rfl
  | cons item items ih =>
      rw [List.flatMap_cons, List.foldlM_append, List.foldlM_cons]
      exact congrArg _ (funext ih)

end SchemaLint
