import SchemaLint.Proofs.Except
import SchemaLint.Proofs.Inspection.Course

/-!
# Inspections without some rules

A rule has no part in what another rule finds, and every finding carries the name of its rule.  So
an inspection without some rules finds what the whole one finds, less the findings of these rules.
Which calls disabled the rules does not matter, only the set of their names.

* `findings_filter` - what is found at some of the pairs is some of what is found.
* `run_eq_ok` - an inspection succeeds exactly if no rule fails, with all that is found.
* `without_onlyFilters` - both together, for the rules that are built in.
-/

namespace SchemaLint
namespace Inspection

section Course

variable {α κ φ ε : Type} {applies : κ → α → Bool} {answer : κ → α → Except ε (Option φ)}
  {visits : List (α × κ)}

/-- Fewer rules make fewer pairs, in the same order. -/
theorem pairs_filter (keep : κ → Bool) (rules : List κ) (subjects : List α) :
    pairs (rules.filter keep) subjects = (pairs rules subjects).filter fun pair => keep pair.2 := by
  simp [pairs, List.filter_flatMap, List.filter_map, Function.comp_def]

/-- Where no rule fails, none fails at some of the pairs. -/
theorem NoneFails.filter (h : NoneFails applies answer visits) (keep : α × κ → Bool) :
    NoneFails applies answer (visits.filter keep) := by
  intro pair hpair
  obtain ⟨hmem, happlies⟩ := List.mem_filter.1 hpair
  exact h pair (List.mem_filter.2 ⟨(List.mem_filter.1 hmem).1, happlies⟩)

/-- If a finding shows whether its pair is kept, the findings at the pairs that are kept can be
told from the others afterwards. -/
theorem findings_filter {keep : α × κ → Bool} {kept : φ → Bool}
    (h : ∀ pair finding, finding? (answer pair.2 pair.1) = some finding →
      kept finding = keep pair) :
    findings applies answer (visits.filter keep) =
      (findings applies answer visits).filter kept := by
  induction visits with
  | nil => rfl
  | cons pair visits ih =>
      cases happlies : applies pair.2 pair.1 with
      | false =>
          -- a pair at which nothing is asked counts on neither side
          have hskip : findings applies answer (pair :: visits) =
              findings applies answer visits := by simp [findings, applicable, happlies]
          rw [hskip, ← ih]
          cases hkeep : keep pair <;> simp [findings, applicable, happlies, hkeep]
      | true =>
          have hask : ∀ rest, findings applies answer (pair :: rest) =
              (finding? (answer pair.2 pair.1)).toList ++ findings applies answer rest := by
            intro rest
            cases hfound : finding? (answer pair.2 pair.1) <;>
              simp [findings, applicable, happlies, hfound]
          rw [hask, List.filter_append, ← ih]
          cases hfound : finding? (answer pair.2 pair.1) with
          | none => cases hkeep : keep pair <;> simp [hkeep, hask, hfound]
          | some finding =>
              have hkept := h pair finding hfound
              cases hkeep : keep pair <;> simp [hkeep, hask, hfound, hkept]

end Course

section Runs

variable {σ : Type} {observers : List (Observer σ)} {state : σ} {rules : List Rule}
  {subjects : List Subject} {found : List Finding}

/-- An inspection succeeds if and only if no rule fails, and its result is all that is found. -/
theorem run_eq_ok : (run observers state rules subjects).2 = .ok found ↔
    NoneFails Rule.applies Rule.found (pairs rules subjects) ∧
      findings Rule.applies Rule.found (pairs rules subjects) = found := by
  let told : List (Finding → StateM σ Unit) :=
    observers.map fun observer finding => modify (observer finding)
  have hrun : (run observers state rules subjects).2 =
      ((conduct Rule.applies (asking Rule.found fun _ _ => pure ()) told
        (pairs rules subjects)).run state).1 := by
    rw [asking_of_no_effect]
    rfl
  rw [hrun]
  rcases noneFails_or_exists Rule.applies Rule.found (pairs rules subjects) with
    hnone | ⟨earlier, subject, rule, later, error, hvisits, hnone, happlies, herror⟩
  · have hall : conduct Rule.applies (asking Rule.found fun _ _ => pure ()) told
        (pairs rules subjects ++ []) = _ := conduct_append hnone
    rw [List.append_nil] at hall
    rw [hall, and_iff_right hnone]
    change Except.ok (findings Rule.applies Rule.found (pairs rules subjects) ++ []) = _ ↔ _
    rw [List.append_nil, Except.ok.injEq]
  · -- the rule that fails is among the pairs, so both sides are false
    refine iff_of_false (fun hok => ?_) fun h => ?_
    · rw [hvisits, conduct_append hnone, conduct_of_failure happlies herror] at hok
      cases hok
    · have hmem : (subject, rule) ∈ pairs rules subjects := by simp [hvisits]
      obtain ⟨answered, hanswered⟩ := h.1 _ (List.mem_filter.2 ⟨hmem, happlies⟩)
      rw [herror] at hanswered
      cases hanswered

/-- A finding carries the name of the rule that made it. -/
theorem rule_eq_name {rule : Rule} {subject : Subject} {finding : Finding}
    (h : finding? (rule.found subject) = some finding) : finding.rule = rule.name := by
  unfold Rule.found at h
  cases hanswer : rule.answer subject with
  | error error =>
      rw [hanswer] at h
      cases h
  | ok verdict =>
      rw [hanswer] at h
      obtain ⟨verdict, -, rfl⟩ := Option.map_eq_some_iff.1 h
      rfl

/-- Without some rules an inspection that succeeds finds the same, less their findings. -/
theorem run_without (h : (run observers state rules subjects).2 = .ok found)
    (names : List String) : (run observers state (without names rules) subjects).2 =
      .ok (found.filter fun finding => !names.contains finding.rule) := by
  obtain ⟨hnone, rfl⟩ := run_eq_ok.1 h
  rw [run_eq_ok, without, pairs_filter]
  refine ⟨hnone.filter _, findings_filter fun pair finding hfound => ?_⟩
  rw [rule_eq_name hfound]

theorem without_without (names more : List String) (rules : List Rule) :
    without more (without names rules) = without (names ++ more) rules := by
  simp [without, List.filter_filter, Bool.and_comm]

/-- Only the set of the names counts. -/
theorem without_congr {names others : List String} (h : ∀ name, name ∈ names ↔ name ∈ others)
    (rules : List Rule) : without names rules = without others rules := by
  simp [without, h]

/-- Several calls disable what one call with all their names does. -/
theorem foldl_without (calls : List (List String)) (rules : List Rule) :
    calls.foldl (fun rules names => without names rules) rules = without calls.flatten rules := by
  induction calls generalizing rules with
  | nil => exact (List.filter_eq_self.2 fun _ _ => rfl).symm
  | cons names calls ih => rw [List.foldl_cons, ih, without_without, List.flatten_cons]

end Runs

/-- Disabling built-in rules only takes their findings out of an inspection that succeeds.  Calls
that disable rules one after another, in whatever order and with whatever repetitions, are as good
as one call with all their names, also for an inspection that fails. -/
theorem without_onlyFilters {σ : Type} (observers : List (Observer σ)) (state : σ) (today : Date)
    (catalog : Catalog) (names : List String) :
    let inspect (rules : List Rule) := run observers state rules (Subject.ofCatalog catalog)
    (∀ found, (inspect (rules today)).2 = .ok found →
      (inspect (without names (rules today))).2 =
        .ok (found.filter fun finding => !names.contains finding.rule)) ∧
    ∀ calls : List (List String), (∀ name, name ∈ names ↔ ∃ call ∈ calls, name ∈ call) →
      inspect (calls.foldl (fun rules call => without call rules) (rules today)) =
        inspect (without names (rules today)) := by
  intro inspect
  refine ⟨fun found hfound => run_without hfound names, fun calls hcalls => ?_⟩
  have hsame : ∀ name, name ∈ calls.flatten ↔ name ∈ names := fun name => by
    rw [hcalls, List.mem_flatten]
  rw [foldl_without, without_congr hsame]

/-- A table without a key and a server without a version are not mentioned any more when two calls
disable the rules about them, one of them twice. -/
theorem without_onlyFilters_of_two_calls :
    let inspect (rules : List Rule) := run ([] : List (Observer Unit)) () rules
      (Subject.ofCatalog { schemas := [{ name := "s", tables := [{ name := "t" }] }] })
    let today : Date := { year := 2025, month := 1, day := 1 }
    let names := ["version_support", "primary_key"]
    let calls := [["version_support"], ["primary_key", "version_support"]]
    ∃ found, (inspect (rules today)).2 = .ok found ∧
      found.map Finding.rule =
        ["version_support", "primary_key", "redundant_indexes", "empty_table"] ∧
      (∀ name, name ∈ names ↔ ∃ call ∈ calls, name ∈ call) ∧
      (inspect (calls.foldl (fun rules call => without call rules) (rules today))).2 =
        .ok (found.filter fun finding => !names.contains finding.rule) := by
  intro inspect today names calls
  have hrules : (inspect (rules today)).2.map (·.map Finding.rule) =
      .ok ["version_support", "primary_key", "redundant_indexes", "empty_table"] := by
    decide +kernel
  obtain ⟨found, hfound, hnamed⟩ := map_eq_ok.1 hrules
  have hcalls : ∀ name, name ∈ names ↔ ∃ call ∈ calls, name ∈ call := fun name => by
    simp only [names, calls, List.mem_cons, List.not_mem_nil, or_false, exists_eq_or_imp,
      exists_eq_left]
    tauto
  have hfilters := without_onlyFilters ([] : List (Observer Unit)) () today
    { schemas := [{ name := "s", tables := [{ name := "t" }] }] } names
  refine ⟨found, hfound, hnamed, hcalls, ?_⟩
  exact (congrArg Prod.snd (hfilters.2 calls hcalls)).trans (hfilters.1 found hfound)

end Inspection
end SchemaLint
