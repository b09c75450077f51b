import SchemaLint.Proofs.Session.Accounts
import SchemaLint.Proofs.Sql.GrantTarget

/-!
# Grants for all schemas

Only a grant that is global gives privileges to accounts.  Whether it is global is decided by the
text of its target, which does not say what was quoted, so a name in quotes can pass for the signs.

* `Session.holds_apply` and `Session.exists_grant_of_holds` - where privileges come from, in a step
  and in the run of a script.
* `isGlobal_iff` - what the target of a global grant looks like in the text.
* `Session.grantsAsWritten_iff` - the texts in which global grants are those that are written so.
-/

namespace SchemaLint

open Sql

namespace Sql

/-- The statement of a chunk is this one. -/
def Chunk.Reads (chunk : Chunk) (statement : Statement) : Prop :=
  parseStatement chunk.line chunk.text = .ok (some statement)

instance (chunk : Chunk) (statement : Statement) : Decidable (chunk.Reads statement) :=
  inferInstanceAs (Decidable (parseStatement chunk.line chunk.text = .ok (some statement)))

/-- The target of the grant in a chunk is these tokens. -/
def Chunk.Targets (chunk : Chunk) (target : List Token) : Prop :=
  ∃ tokens, tokenize chunk.line chunk.text = .ok tokens ∧ targetTokens? tokens = some target

/-- The grant in a chunk is written as a global one. -/
def Chunk.WritesGlobal (chunk : Chunk) : Prop :=
  chunk.Targets starDotStar

/-- Some name in these tokens is quoted. -/
def Quotes (target : List Token) : Prop :=
  ∃ name, .quoted name ∈ target

/-- A chunk is a grant, and its target has a quoted name and is spelled like a global one. -/
def Chunk.QuotesStars (chunk : Chunk) : Prop :=
  ∃ granted target, chunk.Reads (.grant granted) ∧ chunk.Targets target ∧ Quotes target ∧
    spelled target = "*.*"

theorem Chunk.Targets.eq {chunk : Chunk} {target other : List Token} (h : chunk.Targets target)
    (hother : chunk.Targets other) : target = other := by
  obtain ⟨tokens, htokens, htarget⟩ := h
  obtain ⟨tokens', htokens', hother⟩ := hother
  cases htokens.symm.trans htokens'
  exact Option.some.inj (htarget.symm.trans hother)

variable {chunk : Chunk} {granted : Grant}

/-- A grant is global if it has a target that is spelled so. -/
theorem isGlobal_iff_spelled (h : chunk.Reads (.grant granted)) :
    granted.isGlobal = true ↔ ∃ target, chunk.Targets target ∧ spelled target = "*.*" := by
  obtain ⟨tokens, htokens, htarget, -⟩ := target_of_parseStatement h
  rw [Grant.isGlobal, beq_iff_eq, htarget, Option.map_eq_some_iff]
  constructor
  · rintro ⟨target, hsome, hspelled⟩
    exact ⟨target, ⟨tokens, htokens, hsome⟩, hspelled⟩
  · rintro ⟨target, ⟨tokens', htokens', hsome⟩, hspelled⟩
    cases htokens.symm.trans htokens'
    exact ⟨target, hsome, hspelled⟩

/-- A grant is global if it is written so, or has quotes in its target that spell the same. -/
theorem isGlobal_iff (h : chunk.Reads (.grant granted)) :
    granted.isGlobal = true ↔ chunk.WritesGlobal ∨ chunk.QuotesStars := by
  rw [isGlobal_iff_spelled h]
  constructor
  · rintro ⟨target, htarget, hspelled⟩
    by_cases hquotes : Quotes target
    · exact .inr ⟨granted, target, h, htarget, hquotes, hspelled⟩
    · obtain ⟨tokens, htokens, -, hplain⟩ := target_of_parseStatement h
      obtain ⟨tokens', htokens', hsome⟩ := htarget
      cases htokens.symm.trans htokens'
      have hparts := hplain target hsome fun name hname => hquotes ⟨name, hname⟩
      have hstars : target = starDotStar :=
        (spelled_eq_spelled_iff forall_isSign_starDotStar hparts).1 hspelled
      exact .inl ⟨tokens, htokens, hstars ▸ hsome⟩
  · rintro (hwritten | ⟨-, target, -, htarget, -, hspelled⟩)
    · exact ⟨starDotStar, hwritten, rfl⟩
    · exact ⟨target, htarget, hspelled⟩

/-- What is written as a global grant has no quotes. -/
theorem Chunk.WritesGlobal.not_quotes (h : chunk.WritesGlobal) {target : List Token}
    (htarget : chunk.Targets target) : ¬ Quotes target := by
  rintro ⟨name, hname⟩
  rw [htarget.eq h] at hname
  simp [starDotStar] at hname

/-- A statement of a script is the one of some chunk. -/
theorem exists_reads_of_parseScript {script : String} {statements : List ScriptStatement}
    (h : parseScript script = .ok statements) {statement : ScriptStatement}
    (hstatement : statement ∈ statements) :
    ∃ chunk ∈ Script.chunks script, chunk.Reads statement.statement := by
  rw [parseScript, map_eq_ok] at h
  obtain ⟨parsed, hparsed, rfl⟩ := h
  obtain ⟨result, hresult, hsome⟩ := List.mem_filterMap.1 hstatement
  obtain ⟨chunk, hchunk, hread⟩ := exists_of_mem_mapM hparsed hresult
  rw [Chunk.parse, map_eq_ok] at hread
  obtain ⟨read, hread, heq⟩ := hread
  cases hsome
  obtain ⟨statement, rfl, rfl⟩ := Option.map_eq_some_iff.1 heq
  exact ⟨chunk, hchunk, hread⟩

end Sql

namespace Session

variable {session : Session} {key privilege : String}

/-- The account under a key holds a privilege. -/
def Holds (session : Session) (key privilege : String) : Prop :=
  ∃ account, session.catalog.accounts.get? key = some account ∧
    account.privileges.contains privilege = true

/-- A new account holds no privilege. -/
theorem holds_of_addUser {creation : UserCreation} {spec : UserSpec} {catalog : Catalog}
    (h : (session.withCatalog (addUser creation catalog spec)).Holds key privilege) :
    (session.withCatalog catalog).Holds key privilege := by
  obtain ⟨account, hfound, hheld⟩ := h
  change (addUser creation catalog spec).accounts.get? key = _ at hfound
  unfold addUser at hfound
  split at hfound
  · exact ⟨account, hfound, hheld⟩
  · by_cases hkey : key = (accountOf creation spec).key
    · rw [hkey, Catalog.addAccount, NameMap.get?_insert_self] at hfound
      cases hfound
      cases hheld
    · rw [Catalog.addAccount, NameMap.get?_insert_of_ne _ _ hkey] at hfound
      exact ⟨account, hfound, hheld⟩

/-- A statement that gives a privilege is a global grant. -/
theorem holds_apply {statement : Statement}
    (h : (session.apply statement).1.Holds key privilege) :
    session.Holds key privilege ∨
      ∃ granted, statement = .grant granted ∧ granted.isGlobal = true := by
  by_cases hcreate : ∃ creation, statement = .createUser creation
  · obtain ⟨creation, rfl⟩ := hcreate
    exact .inl (List.foldlRecOn
      (motive := fun catalog =>
        (session.withCatalog catalog).Holds key privilege → session.Holds key privilege)
      creation.users (addUser creation) id
      (fun _ hcatalog _ _ hadded => hcatalog (holds_of_addUser hadded)) h)
  · by_cases hgrant : ∃ granted, statement = .grant granted ∧ granted.isGlobal = true
    · exact .inr hgrant
    · refine .inl ?_
      rwa [Holds, accounts_apply session (fun creation hsame => hcreate ⟨creation, hsame⟩)
        fun granted hsame => by simpa using fun hglobal => hgrant ⟨granted, hsame, hglobal⟩] at h

/-- Statements that give a privilege have a global grant among them. -/
theorem holds_runAll {statements : List ScriptStatement}
    (h : (Outcome.runAll applyAt session statements).1.Holds key privilege) :
    session.Holds key privilege ∨ ∃ statement ∈ statements, ∃ granted,
      statement.statement = .grant granted ∧ granted.isGlobal = true := by
  induction statements generalizing session with
  | nil => exact .inl h
  | cons statement statements ih =>
      have hfirst : (session.applyAt statement).1.Holds key privilege ∨
          ∃ later ∈ statements, ∃ granted,
            later.statement = .grant granted ∧ granted.isGlobal = true := by
        rw [Outcome.runAll] at h
        split at h
        · next hstep => exact .inl (by rwa [hstep])
        · next hstep =>
            rw [hstep]
            exact ih h
      rcases hfirst with hfirst | ⟨later, hlater, hgrant⟩
      · rcases holds_apply hfirst with hbefore | hgrant
        · exact .inl hbefore
        · exact .inr ⟨statement, List.mem_cons_self, hgrant⟩
      · exact .inr ⟨later, List.mem_cons_of_mem _ hlater, hgrant⟩

/-- A script that gives a privilege has a global grant in one of its chunks. -/
theorem exists_grant_of_holds {script : String}
    (h : (session.run script).1.Holds key privilege) :
    session.Holds key privilege ∨ ∃ chunk ∈ Script.chunks script, ∃ granted,
      chunk.Reads (.grant granted) ∧ granted.isGlobal = true := by
  unfold run at h
  split at h
  · exact .inl h
  · next statements hparse =>
      rcases holds_runAll h with hbefore | ⟨statement, hstatement, granted, hgrant, hglobal⟩
      · exact .inl hbefore
      · obtain ⟨chunk, hchunk, hreads⟩ := exists_reads_of_parseScript hparse hstatement
        exact .inr ⟨chunk, hchunk, granted, hgrant ▸ hreads, hglobal⟩

/-- Among the chunks the global grants are those that are written so, and no others have an effect
on accounts. -/
structure GrantsAsWritten (chunks : List Chunk) : Prop where
  isGlobal_iff : ∀ chunk ∈ chunks, ∀ granted, chunk.Reads (.grant granted) →
    (granted.isGlobal = true ↔ chunk.WritesGlobal)
  /-- A grant on a name in quotes is ignored. -/
  ignored : ∀ chunk ∈ chunks, ∀ granted target, chunk.Reads (.grant granted) →
    chunk.Targets target → Quotes target →
      ∀ session : Session, session.apply (.grant granted) = (session, .ok ())
  /-- Privileges come from grants that are written as global ones. -/
  source : ∀ script, Script.chunks script = chunks → ∀ (session : Session) key privilege,
    (session.run script).1.Holds key privilege →
      session.Holds key privilege ∨
        ∃ chunk ∈ chunks, ∃ granted, chunk.Reads (.grant granted) ∧ chunk.WritesGlobal

/-- Global grants are those that are written so exactly if no target that has a quoted name is
spelled like theirs. -/
theorem grantsAsWritten_iff (chunks : List Chunk) :
    GrantsAsWritten chunks ↔ ∀ chunk ∈ chunks, ¬ chunk.QuotesStars := by
  constructor
  · rintro h chunk hchunk hstars
    obtain ⟨granted, target, hreads, htarget, hquotes, -⟩ := id hstars
    have hwritten := (h.isGlobal_iff chunk hchunk granted hreads).1
      ((isGlobal_iff hreads).2 (.inr hstars))
    exact hwritten.not_quotes htarget hquotes
  · intro hnone
    have hiff : ∀ chunk ∈ chunks, ∀ granted, chunk.Reads (.grant granted) →
        (granted.isGlobal = true ↔ chunk.WritesGlobal) := fun chunk hchunk granted hreads => by
      rw [Sql.isGlobal_iff hreads, or_iff_left (hnone chunk hchunk)]
    constructor
    case isGlobal_iff => exact hiff
    case ignored =>
      intro chunk hchunk granted target hreads htarget hquotes session
      have hlocal : ¬ granted.isGlobal = true := fun hglobal =>
        ((hiff chunk hchunk granted hreads).1 hglobal).not_quotes htarget hquotes
      rw [apply, grantPrivileges, if_neg hlocal]
    case source =>
      rintro script rfl session key privilege hheld
      refine (exists_grant_of_holds hheld).imp_right ?_
      rintro ⟨chunk, hchunk, granted, hreads, hglobal⟩
      exact ⟨chunk, hchunk, granted, hreads, (hiff chunk hchunk granted hreads).1 hglobal⟩

/-- A grant on an object `*` of a schema `*` passes for a global one. -/
theorem not_grantsAsWritten_of_quoted_stars :
    ¬ GrantsAsWritten [⟨"GRANT SUPER ON \x60*\x60.\x60*\x60 TO a", 1⟩] := by
  intro h
  have hreads : Chunk.Reads ⟨"GRANT SUPER ON \x60*\x60.\x60*\x60 TO a", 1⟩ (.grant {
      privileges := ["SUPER"], target := some "*.*", grantees := [("a", "%")] }) := by
    decide +kernel
  have htarget : Chunk.Targets ⟨"GRANT SUPER ON \x60*\x60.\x60*\x60 TO a", 1⟩
      [.quoted "*", .dot, .quoted "*"] :=
    ⟨[.word "GRANT", .word "SUPER", .word "ON", .quoted "*", .dot, .quoted "*", .word "TO",
      .word "a"], by decide +kernel, by decide +kernel⟩
  have hwritten := (h.isGlobal_iff _ List.mem_cons_self _ hreads).1 rfl
  exact hwritten.not_quotes htarget ⟨"*", List.mem_cons_self⟩

end Session
end SchemaLint
