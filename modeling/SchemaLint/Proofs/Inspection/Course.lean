import SchemaLint.Inspection

/-!
# The course of an inspection

An inspection whose rules have fixed answers does a fixed list of things: it asks each rule that
applies, and tells all observers of what was found before it goes on.  This holds whatever effects
asking and telling have.

* `events` - what happens at a list of pairs, and `findings` - what is found there.
* `conduct_append` - pairs at which no rule fails have their events, and the inspection goes on.
* `conduct_followsCourse` - the whole course, up to the end or to the first failure.
-/

namespace SchemaLint
namespace Inspection

/-- What happens in the course of an inspection. -/
inductive Event (α κ ω φ : Type) where
  /-- A rule is asked about a subject. -/
  | asked (subject : α) (rule : κ)
  /-- An observer is told of a finding. -/
  | told (observer : ω) (finding : φ)

namespace Event

variable {m : Type → Type} {α κ ω φ : Type}

/-- Makes an event happen, where asking a rule has an effect of its own. -/
def perform (effect : κ → α → m Unit) : Event α κ (φ → m Unit) φ → m Unit
  | .asked subject rule => effect rule subject
  | .told observer finding => observer finding

/-- The subject and the rule, when a rule is asked. -/
def asked? : Event α κ ω φ → Option (α × κ)
  | .asked subject rule => some (subject, rule)
  | .told _ _ => none

/-- The observer and the finding, when an observer is told. -/
def told? : Event α κ ω φ → Option (ω × φ)
  | .asked _ _ => none
  | .told observer finding => some (observer, finding)

end Event

section Course

variable {m : Type → Type} {α κ ω φ ε : Type} (applies : κ → α → Bool)
  (answer : κ → α → Except ε (Option φ))

/-- What an answer says was found. -/
def finding? : Except ε (Option φ) → Option φ
  | .ok found => found
  | .error _ => none

/-- The pairs in which the rule applies to the subject. -/
def applicable (pairs : List (α × κ)) : List (α × κ) :=
  pairs.filter fun pair => applies pair.2 pair.1

/-- No rule fails on a subject that it applies to. -/
def NoneFails (pairs : List (α × κ)) : Prop :=
  ∀ pair ∈ applicable applies pairs, ∃ found, answer pair.2 pair.1 = .ok found

/-- What is found at pairs. -/
def findings (pairs : List (α × κ)) : List φ :=
  (applicable applies pairs).filterMap fun pair => finding? (answer pair.2 pair.1)

/-- What happens at a pair in which the rule applies. -/
def eventsAt (observers : List ω) (pair : α × κ) : List (Event α κ ω φ) :=
  .asked pair.1 pair.2 ::
    (finding? (answer pair.2 pair.1)).toList.flatMap fun finding =>
      observers.map fun observer => .told observer finding

/-- What happens at pairs. -/
def events (observers : List ω) (pairs : List (α × κ)) : List (Event α κ ω φ) :=
  (applicable applies pairs).flatMap (eventsAt answer observers)

/-- Asking a rule has an effect, and the rule gives its fixed answer. -/
def asking [Monad m] (effect : κ → α → m Unit) (rule : κ) (subject : α) :
    m (Except ε (Option φ)) := do
  effect rule subject
  return answer rule subject

variable {applies answer} [Monad m] {effect : κ → α → m Unit} {observers : List (φ → m Unit)}
  {subject : α} {rule : κ} {rest : List (α × κ)}

/-- A rule that is asked without effect just answers. -/
theorem asking_of_no_effect [LawfulMonad m] :
    asking answer (fun _ _ => pure ()) =
      fun rule subject => (pure (answer rule subject) : m (Except ε (Option φ))) := by
  funext rule subject
  rw [asking, pure_bind]

theorem conduct_nil : conduct applies (asking answer effect) observers [] = pure (.ok []) := rfl

theorem conduct_of_not_applies (h : applies rule subject = false) :
    conduct applies (asking answer effect) observers ((subject, rule) :: rest) =
      conduct applies (asking answer effect) observers rest := by
  rw [conduct, h]
  rfl

variable [LawfulMonad m]

theorem conduct_of_failure (h : applies rule subject = true) {error : ε}
    (hanswer : answer rule subject = .error error) :
    conduct applies (asking answer effect) observers ((subject, rule) :: rest) = do
      effect rule subject
      return .error error := by
  simp [conduct, asking, h, hanswer]

theorem map_nil_append (result : Except ε (List φ)) : result.map ([] ++ ·) = result := by
  cases result <;> rfl

theorem map_append_map (first second : List φ) (result : Except ε (List φ)) :
    (result.map (second ++ ·)).map (first ++ ·) = result.map (first ++ second ++ ·) := by
  cases result <;> simp [Except.map]

/-- A pair without a failure has its events, and what it finds comes first. -/
theorem conduct_of_success (h : applies rule subject = true) {found : Option φ}
    (hanswer : answer rule subject = .ok found) :
    conduct applies (asking answer effect) observers ((subject, rule) :: rest) = do
      forM (eventsAt answer observers (subject, rule)) (Event.perform effect)
      let result ← conduct applies (asking answer effect) observers rest
      return result.map (found.toList ++ ·) := by
  cases found with
  | none =>
      simp only [Option.toList_none, map_nil_append]
      simp [conduct, asking, h, hanswer, eventsAt, finding?, Event.perform]
  | some finding =>
      simp [conduct, asking, h, hanswer, eventsAt, finding?, Event.perform, List.forM_map]

/-- Pairs at which no rule fails have their events, and then the inspection goes on. -/
theorem conduct_append {earlier : List (α × κ)} (h : NoneFails applies answer earlier) :
    conduct applies (asking answer effect) observers (earlier ++ rest) = do
      forM (events applies answer observers earlier) (Event.perform effect)
      let result ← conduct applies (asking answer effect) observers rest
      return result.map (findings applies answer earlier ++ ·) := by
  induction earlier with
  | nil =>
      simp only [findings, applicable, List.filter_nil, List.filterMap_nil, map_nil_append]
      simp [events, applicable]
  | cons pair earlier ih =>
      obtain ⟨subject, rule⟩ := pair
      rw [List.cons_append]
      cases happlies : applies rule subject with
      | false =>
          -- the pair is passed over, and it has no part in the lists either
          have hskip : applicable applies ((subject, rule) :: earlier) =
              applicable applies earlier := by simp [applicable, happlies]
          rw [NoneFails, hskip] at h
          have hevents : events applies answer observers ((subject, rule) :: earlier) =
              events applies answer observers earlier := by rw [events, hskip, events]
          have hfindings : findings applies answer ((subject, rule) :: earlier) =
              findings applies answer earlier := by rw [findings, hskip, findings]
          rw [conduct_of_not_applies happlies, ih h, hevents, hfindings]
      | true =>
          have hask : applicable applies ((subject, rule) :: earlier) =
              (subject, rule) :: applicable applies earlier := by simp [applicable, happlies]
          rw [NoneFails, hask, List.forall_mem_cons] at h
          obtain ⟨⟨found, hfound⟩, hrest⟩ := h
          have hevents : events applies answer observers ((subject, rule) :: earlier) =
              eventsAt answer observers (subject, rule) ++
                events applies answer observers earlier := by
            rw [events, hask, List.flatMap_cons, events]
          have hfindings : findings applies answer ((subject, rule) :: earlier) =
              found.toList ++ findings applies answer earlier := by
            rw [findings, hask, List.filterMap_cons, hfound, findings]
            cases found <;> rfl
          rw [conduct_of_success happlies hfound, ih hrest, hevents, hfindings, List.forM_append]
          simp only [bind_assoc, pure_bind, map_append_map]

/-- The rules that are asked at pairs are those that apply. -/
theorem asked_events (observers : List ω) (pairs : List (α × κ)) :
    (events applies answer observers pairs).filterMap Event.asked? = applicable applies pairs := by
  have hat : ∀ pair : α × κ,
      (eventsAt answer observers pair).filterMap Event.asked? = [pair] := fun pair => by
    cases hfound : finding? (answer pair.2 pair.1) <;>
      simp [eventsAt, hfound, Event.asked?, List.filterMap_map, Function.comp_def]
  simp [events, List.filterMap_flatMap, hat]

/-- All observers are told of one finding before the next. -/
theorem told_events (observers : List ω) (pairs : List (α × κ)) :
    (events applies answer observers pairs).filterMap Event.told? =
      (findings applies answer pairs).flatMap fun finding =>
        observers.map fun observer => (observer, finding) := by
  have hround : ∀ finding : φ, (observers.map fun observer =>
      (.told observer finding : Event α κ ω φ)).filterMap Event.told? =
        observers.map fun observer => (observer, finding) := fun finding => by
    rw [List.filterMap_map, ← List.filterMap_eq_map]
    rfl
  rw [events, findings]
  induction applicable applies pairs with
  | nil => rfl
  | cons pair pairs ih =>
      rw [List.flatMap_cons, List.filterMap_append, ih, List.filterMap_cons, eventsAt,
        List.filterMap_cons_none rfl]
      cases finding? (answer pair.2 pair.1) with
      | none => rfl
      | some finding => simp [hround]

variable (applies answer) in
/-- Either no rule fails, or there is a first one that does. -/
theorem noneFails_or_exists (visits : List (α × κ)) : NoneFails applies answer visits ∨
    ∃ earlier subject rule later error, visits = earlier ++ (subject, rule) :: later ∧
      NoneFails applies answer earlier ∧ applies rule subject = true ∧
      answer rule subject = .error error := by
  induction visits with
  | nil => exact .inl nofun
  | cons pair visits ih =>
      obtain ⟨subject, rule⟩ := pair
      -- the first pair may fail itself, and else it can be put in front of those that do not
      by_cases hfails : applies rule subject = true ∧ ∃ error, answer rule subject = .error error
      · obtain ⟨happlies, error, herror⟩ := hfails
        exact .inr ⟨[], subject, rule, visits, error, rfl, nofun, happlies, herror⟩
      · have hcons : ∀ {pairs}, NoneFails applies answer pairs →
            NoneFails applies answer ((subject, rule) :: pairs) := by
          intro pairs hpairs pair hpair
          obtain ⟨hmem, happlies⟩ := List.mem_filter.1 hpair
          rcases List.mem_cons.1 hmem with rfl | hmem
          · cases hanswer : answer rule subject with
            | ok found => exact ⟨found, rfl⟩
            | error error => exact absurd ⟨happlies, error, hanswer⟩ hfails
          · exact hpairs pair (List.mem_filter.2 ⟨hmem, happlies⟩)
        rcases ih with hnone | ⟨earlier, failing, asked, later, error, rfl, hnone, hrest⟩
        · exact .inl (hcons hnone)
        · exact .inr ⟨(subject, rule) :: earlier, failing, asked, later, error, rfl,
            hcons hnone, hrest⟩

/-- What an inspection of subjects by rules does, and how it ends.  Every rule has a fixed answer
for every subject; asking it and telling observers may have any effects. -/
structure FollowsCourse (applies : κ → α → Bool) (answer : κ → α → Except ε (Option φ))
    (effect : κ → α → m Unit) (observers : List (φ → m Unit)) (visits : List (α × κ))
    (inspection : m (Except ε (List φ))) : Prop where
  /-- If no rule fails, all findings are told and returned. -/
  complete : NoneFails applies answer visits →
    inspection = do
      forM (events applies answer observers visits) (Event.perform effect)
      return .ok (findings applies answer visits)
  /-- Otherwise the first rule that fails is the last one that is asked, and its error is the
  result. -/
  aborted : ¬ NoneFails applies answer visits →
    ∃ earlier subject rule later error, visits = earlier ++ (subject, rule) :: later ∧
      NoneFails applies answer earlier ∧ applies rule subject = true ∧
      answer rule subject = .error error ∧
      inspection = do
        forM (events applies answer observers earlier) (Event.perform effect)
        effect rule subject
        return .error error
  /-- Only rules that apply are asked, each once and in order. -/
  asked : ∀ visited : List (α × κ),
    (events applies answer observers visited).filterMap Event.asked? =
      visited.filter fun pair => applies pair.2 pair.1
  /-- Observers are told of all findings in order, and all of them of one before the next. -/
  told : ∀ visited : List (α × κ),
    (events applies answer observers visited).filterMap Event.told? =
      (findings applies answer visited).flatMap fun finding =>
        observers.map fun observer => (observer, finding)

/-- An inspection visits every subject with every rule, subject by subject, and follows its
course. -/
theorem conduct_followsCourse (applies : κ → α → Bool) (answer : κ → α → Except ε (Option φ))
    (effect : κ → α → m Unit) (observers : List (φ → m Unit)) (rules : List κ)
    (subjects : List α) :
    FollowsCourse applies answer effect observers
      (subjects.flatMap fun subject => rules.map fun rule => (subject, rule))
      (conduct applies (asking answer effect) observers (pairs rules subjects)) := by
  refine ⟨fun hnone => ?_, fun hfails => ?_, asked_events observers, told_events observers⟩
  · have hall : conduct applies (asking answer effect) observers (pairs rules subjects ++ []) = _ :=
      conduct_append hnone
    rw [List.append_nil] at hall
    rw [hall, conduct_nil, pairs]
    simp [Except.map]
  · rcases noneFails_or_exists applies answer (pairs rules subjects) with
      hnone | ⟨earlier, subject, rule, later, error, hvisits, hnone, happlies, herror⟩
    · exact absurd hnone hfails
    · refine ⟨earlier, subject, rule, later, error, hvisits, hnone, happlies, herror, ?_⟩
      rw [hvisits, conduct_append hnone, conduct_of_failure happlies herror]
      simp [Except.map]

end Course

/-- A rule fails for a table whose counter was never looked at, after another rule found that the
table has no primary key.  Every step is logged. -/
theorem conduct_followsCourse_of_missing_fact :
    let log (text : String) : StateM (List String) Unit := modify (· ++ [text])
    let asked (rule : Rule) (subject : Subject) := log (rule.name ++ "? " ++ subject.name)
    let told (finding : Finding) := log (finding.rule ++ "!")
    let counting : Table := {
      name := "t"
      schemaName := "s"
      columns := [{
        name := "a"
        info := { dataType := "int", columnType := "int", extra := "auto_increment" } }] }
    let subjects : List Subject := [.table counting, .table { name := "u", schemaName := "s" }]
    let rules : List Rule := [Rule.primaryKey, Rule.autoIncrementCapacity]
    LawfulMonad (StateM (List String)) ∧
      FollowsCourse Rule.applies Rule.found asked [told, told]
        (subjects.flatMap fun subject => rules.map fun rule => (subject, rule))
        (conduct Rule.applies (asking Rule.found asked) [told, told] (pairs rules subjects)) ∧
      ((conduct Rule.applies (asking Rule.found asked) [told, told]
        (pairs rules subjects)).run []).2 =
          ["primary_key? s.t", "primary_key!", "primary_key!", "auto_increment_capacity? s.t"] := by
  intro log asked told counting subjects rules
  exact ⟨inferInstance, conduct_followsCourse Rule.applies Rule.found asked [told, told] rules
    subjects, by decide +kernel⟩

end Inspection
end SchemaLint
