import SchemaLint.Proofs.Sql.Reader
import SchemaLint.Proofs.Sql.Scan
import SchemaLint.Proofs.Sql.Statement
import SchemaLint.Proofs.Text.Class

/-!
# Targets of grants

The target of a grant is kept as one text, in which a quoted name is spelled like the signs around
it.  Here the tokens of the target are taken from the tokens of the statement, and the text is what
they spell.

* `targetTokens?` - the tokens between the first outer `ON` and `TO`, without the kind of object.
* `target_of_parseStatement` - the target of a grant that is read.
* `spelled_eq_spelled_iff` - signs are spelled by themselves only, where no name is quoted.
-/

namespace SchemaLint
namespace Sql

open Grammar

/-- The tokens after the kind of object that a grant is on, if there is one. -/
def afterObjectKind : List Token → List Token
  | [] => []
  | token :: rest =>
      if ["TABLE", "FUNCTION", "PROCEDURE"].any token.isKeyword then rest else token :: rest

/-- The tokens of the target of a grant; a grant of roles has none. -/
def targetTokens? (tokens : List Token) : Option (List Token) :=
  match outerRest endsPrivileges 0 (tokens.drop 1) with
  | [] => none
  | token :: rest =>
      if token.isKeyword "ON" then
        some ((afterObjectKind rest).takeWhile (!·.isKeyword "TO"))
      else
        none

/-- What the tokens of a target spell together. -/
def spelled (target : List Token) : String :=
  String.join (target.map fun token => (targetPart? token).getD "")

/-- The target of a global grant as it is to be written. -/
def starDotStar : List Token :=
  [.symbol '*', .dot, .symbol '*']

theorem afterObjectKind_suffix (tokens : List Token) : afterObjectKind tokens <:+ tokens := by
  fun_cases afterObjectKind tokens with
  | case1 => exact List.suffix_refl _
  | case2 => exact List.suffix_cons _ _
  | case3 => exact List.suffix_refl _

/-- The target of a grant is a part of its statement. -/
theorem subset_of_targetTokens? {tokens target : List Token}
    (h : targetTokens? tokens = some target) : target ⊆ tokens := by
  have houter := (outerRest_suffix endsPrivileges 0 (tokens.drop 1)).trans
    (List.drop_suffix 1 tokens)
  unfold targetTokens? at h
  split at h
  · cases h
  · next token rest hrest =>
      rw [hrest] at houter
      split at h
      · cases h
        intro part hpart
        have hmem : part ∈ afterObjectKind rest := (List.takeWhile_prefix _).subset hpart
        exact (((afterObjectKind_suffix rest).trans (List.suffix_cons _ _)).trans houter).subset
          hmem
      · cases h

@[simp]
theorem spelled_cons (token : Token) (target : List Token) :
    spelled (token :: target) = (targetPart? token).getD "" ++ spelled target := by
  simp [spelled]

namespace Grammar

open SchemaLint.Parser Reader

variable {tokens rest : List Token}

/-- Reading one part of a list of privileges does not change where the list ends. -/
theorem outerRest_of_privilege {part : PrivilegePart} {list next : PrivilegeList} {token : Token}
    (hpart : privilegePart? token = some part)
    (h : (privilege part list).run tokens = .ok (next, rest)) :
    outerRest endsPrivileges 0 (token :: tokens) = outerRest endsPrivileges 0 rest := by
  unfold privilegePart? at hpart
  split at hpart
  · cases hpart
  · next hends =>
      cases token with
      | comma =>
          cases hpart
          cases h
          exact outerRest_cons (by simp) (by simp)
      | leftParen =>
          cases hpart
          rw [privilege, run_bind_eq_ok] at h
          obtain ⟨body, middle, hgroup, hnext⟩ := h
          cases hnext
          rw [outerRest, outerRest_of_close _ (outerRest_of_run_groupRest hgroup)]
      | word text =>
          cases hpart
          cases h
          rw [outerRest_cons (by simp) (by simp), if_neg hends]
      | quoted text =>
          cases hpart
          cases h
          exact outerRest_cons (by simp) (by simp)
      | _ => cases hpart

/-- A list of privileges ends at the first outer keyword that ends it. -/
theorem outerRest_of_run_privileges {names : List String}
    (h : privileges.run tokens = .ok (names, rest)) :
    ∃ token more, rest = token :: more ∧ endsPrivileges token = true ∧
      outerRest endsPrivileges 0 tokens = rest := by
  rw [privileges, run_bind_eq_ok] at h
  obtain ⟨list, middle, hlist, h⟩ := h
  simp only [run_bind_eq_ok, run_peek] at h
  obtain ⟨next, _, hpeek, h⟩ := h
  cases hpeek
  have houter := (run_clauses_induction
    (P := fun _ left => outerRest endsPrivileges 0 tokens = outerRest endsPrivileges 0 left)
    (fun token rest part more list next left hhead hread hleft => by
      obtain ⟨_, hpart, heq⟩ := Option.map_eq_some_iff.1 hhead
      cases heq
      exact hleft.trans (outerRest_of_privilege hpart hread)) hlist rfl).1
  cases middle with
  | nil => cases h
  | cons token more =>
      change (if _ then _ else _ : Reader _).run _ = _ at h
      split at h
      · next hends =>
          cases h
          have hparen : token ≠ .leftParen ∧ token ≠ .rightParen := by
            constructor <;> (rintro rfl; cases hends)
          refine ⟨token, more, rfl, hends, ?_⟩
          rw [houter, outerRest_cons hparen.1 hparen.2, if_pos hends]
      · cases h

/-- The tokens of a target are those before the keyword after it.  All of them are parts, and the
target is what they spell. -/
theorem run_grantTarget_eq_ok {target : String} (h : grantTarget.run tokens = .ok (target, rest)) :
    target = spelled (tokens.takeWhile (!·.isKeyword "TO")) ∧
      ∀ token ∈ tokens.takeWhile (!·.isKeyword "TO"), (targetPart? token).isSome = true := by
  rw [grantTarget, run_bind_eq_ok] at h
  obtain ⟨read, middle, hread, h⟩ := h
  simp only [run_bind_eq_ok, run_atEnd, run_ahead, Except.ok.injEq, Prod.mk.injEq, and_assoc,
    exists_and_left, exists_eq_left'] at h
  -- the text so far and the spelling of what is left make up the whole
  have hspelled := (run_clauses_induction
    (P := fun read left => ∃ front, read = spelled front ∧
      (∀ token ∈ front, (targetPart? token).isSome = true) ∧
        tokens.takeWhile (!·.isKeyword "TO") = front ++ left.takeWhile (!·.isKeyword "TO"))
    (fun token rest part more read next left hhead hnext hleft => by
      obtain ⟨front, hfront, hparts, htokens⟩ := hleft
      obtain ⟨_, hpart, heq⟩ := Option.map_eq_some_iff.1 hhead
      cases heq
      cases hnext
      have hto : token.isKeyword "TO" = false := by
        unfold targetPart? at hpart
        split at hpart
        · cases hpart
        · next hto => simpa using hto
      rw [List.takeWhile_cons_of_pos (by simp [hto])] at htokens
      refine ⟨front ++ [token], ?_, ?_, by simpa using htokens⟩
      · simp [hfront, spelled, hpart]
      · simpa [or_imp, forall_and, hpart] using hparts) hread ⟨[], rfl, by simp, rfl⟩).1
  split at h
  · next hfinished =>
      cases h
      have hstops : rest.takeWhile (!·.isKeyword "TO") = [] := by
        cases rest with
        | nil => rfl
        | cons token rest =>
            have hto : token.isKeyword "TO" = true := by
              simpa [HasKeywords.isKeyword] using (Bool.and_eq_true_iff.1 hfinished).1
            simp [hto]
      obtain ⟨front, hfront, hparts, htokens⟩ := hspelled
      rw [htokens, hstops, List.append_nil]
      exact ⟨hfront, hparts⟩
  · cases h

theorem run_optionalObjectKind :
    optionalObjectKind.run tokens = .ok ((), afterObjectKind tokens) := by
  simp only [optionalObjectKind, optionalEither, run_bind_optionalKeyword, if_true,
    Bool.false_eq_true, if_false, run_pure]
  cases tokens with
  | nil => rfl
  | cons token tokens =>
      cases htable : token.isKeyword "TABLE" <;> cases hfunction : token.isKeyword "FUNCTION" <;>
        cases hprocedure : token.isKeyword "PROCEDURE" <;>
          simp [startsWith, HasKeywords.isKeyword, afterObjectKind, htable, hfunction, hprocedure]

/-- The target of a grant that is read is what the tokens of its target spell, which are all
parts. -/
theorem target_of_run_grant {token : Token} {granted : Grant}
    (h : grant.run tokens = .ok (.grant granted, rest)) :
    granted.target = (targetTokens? (token :: tokens)).map spelled ∧
      ∀ target, targetTokens? (token :: tokens) = some target →
        ∀ part ∈ target, (targetPart? part).isSome = true := by
  rw [grant, run_bind_eq_ok] at h
  obtain ⟨names, middle, hnames, h⟩ := h
  obtain ⟨next, more, rfl, hends, houter⟩ := outerRest_of_run_privileges hnames
  have hstarts : startsWith ["ON"] (next :: more) = next.isKeyword "ON" := by
    simp [startsWith, HasKeywords.isKeyword]
  rw [targetTokens?, List.drop_one, List.tail_cons, houter]
  rw [run_bind_optionalKeyword, hstarts] at h
  cases hon : next.isKeyword "ON" with
  | false =>
      simp only [hon, Bool.false_eq_true, if_false, run_bind_eq_ok] at h
      obtain ⟨_, _, -, _, _, -, _, _, -, h⟩ := h
      cases h
      simp [hon]
  | true =>
      simp only [hon, if_true, run_bind_eq_ok, run_optionalObjectKind] at h
      obtain ⟨_, _, hkind, target, _, htarget, _, _, -, _, _, -, _, _, -, h⟩ := h
      cases hkind
      cases h
      obtain ⟨htarget, hparts⟩ := run_grantTarget_eq_ok htarget
      simpa [hon, htarget] using hparts

end Grammar

/-- The text of a word: a character that begins words, and others that go on with it. -/
def IsWord (w : String) : Prop :=
  ∃ c tail, w.toList = c :: tail ∧ Lexeme.startsWord c = true ∧
    ∀ d ∈ tail, Lexeme.continuesWord d = true

theorem Spelled.isWord {spelling rest : List Char} {w : String}
    (h : Spelled spelling (.word w) rest) : IsWord w := by
  generalize htoken : Token.word w = token at h
  cases h with
  | @word c tail rest hc hmark htail hrest =>
      cases htoken
      exact ⟨c, tail, String.toList_ofList, hc, htail⟩
  | punctuation =>
      unfold Scanned.punctuation at htoken
      split at htoken <;> cases htoken
  | _ => cases htoken

/-- The words that are scanned are words. -/
theorem Scans.isWord {text : List Char} {tokens : List Token} (h : Scans text tokens) {w : String}
    (hw : .word w ∈ tokens) : IsWord w := by
  induction h with
  | nil => cases hw
  | @step _ _ token _ hstep _ ih =>
      rcases List.mem_append.1 hw with hfirst | hrest
      · rw [Option.mem_toList.1 hfirst] at hstep
        cases hstep with
        | token _ _ _ hspelled => exact hspelled.isWord
      · exact ih hrest

/-- A sign in a target, and the character that it is. -/
inductive IsSign : Token → Char → Prop where
  | star : IsSign (.symbol '*') '*'
  | dot : IsSign .dot '.'

/-- A part of a target without quotes. -/
inductive IsPlainPart : Token → Prop where
  | sign {token : Token} {c : Char} : IsSign token c → IsPlainPart token
  | word {w : String} : IsWord w → targetPart? (.word w) = some w → IsPlainPart (.word w)

variable {token sign : Token} {signs target : List Token} {c d : Char}

theorem isPlainPart_of_isSome (hpart : (targetPart? token).isSome = true)
    (hword : ∀ w, token = .word w → IsWord w) (hquoted : ∀ name, token ≠ .quoted name) :
    IsPlainPart token := by
  obtain ⟨part, hpart⟩ := Option.isSome_iff_exists.1 hpart
  have hsome := hpart
  unfold targetPart? at hpart
  split at hpart
  · cases hpart
  · split at hpart
    · exact .sign .star
    · exact .sign .dot
    · cases token with
      | word w =>
          cases hpart
          exact .word (hword _ rfl) hsome
      | quoted name => exact absurd rfl (hquoted name)
      | _ => cases hpart

namespace IsSign

theorem toList_spelled (h : IsSign token c) (target : List Token) :
    (spelled (token :: target)).toList = c :: (spelled target).toList := by
  cases h <;> simp [targetPart?, Token.isKeyword]

theorem eq_of_char (h : IsSign token c) (hsign : IsSign sign c) : token = sign := by
  cases h <;> cases hsign <;> rfl

theorem startsWord_eq_false (h : IsSign token c) : Lexeme.startsWord c = false := by
  cases h <;> rfl

end IsSign

namespace IsPlainPart

/-- A word is not spelled as a sign, for no word begins with one. -/
theorem eq_of_spelled (h : IsPlainPart token) (hsign : IsSign sign c)
    (hsame : spelled (token :: target) = spelled (sign :: signs)) :
    token = sign ∧ spelled target = spelled signs := by
  have hlist := congrArg String.toList hsame
  rw [hsign.toList_spelled] at hlist
  cases h with
  | sign hother =>
      rw [hother.toList_spelled, List.cons.injEq, String.toList_inj] at hlist
      obtain ⟨rfl, hrest⟩ := hlist
      exact ⟨hother.eq_of_char hsign, hrest⟩
  | word hword hpart =>
      obtain ⟨d, tail, hw, hd, -⟩ := hword
      rw [spelled_cons, hpart, Option.getD_some, String.toList_append, hw, List.cons_append,
        List.cons.injEq] at hlist
      rw [hlist.1, hsign.startsWord_eq_false] at hd
      cases hd

theorem spelled_ne_empty (h : IsPlainPart token) (target : List Token) :
    spelled (token :: target) ≠ "" := by
  intro hempty
  cases h with
  | sign hsign => simpa [hempty] using hsign.toList_spelled target
  | word hword hpart =>
      obtain ⟨d, tail, hw, -, -⟩ := hword
      simp [hpart] at hempty
      simp [hempty.1] at hw

end IsPlainPart

/-- Plain parts that spell signs are these signs. -/
theorem spelled_eq_spelled_iff (hsigns : ∀ token ∈ signs, ∃ c, IsSign token c)
    (h : ∀ token ∈ target, IsPlainPart token) :
    spelled target = spelled signs ↔ target = signs := by
  refine ⟨fun hsame => ?_, fun heq => heq ▸ rfl⟩
  induction signs generalizing target with
  | nil =>
      cases target with
      | nil => rfl
      | cons token target => exact absurd hsame ((h token List.mem_cons_self).spelled_ne_empty _)
  | cons sign signs ih =>
      obtain ⟨c, hsign⟩ := hsigns sign List.mem_cons_self
      cases target with
      | nil => exact absurd hsame.symm ((IsPlainPart.sign hsign).spelled_ne_empty _)
      | cons token target =>
          obtain ⟨rfl, hrest⟩ := (h token List.mem_cons_self).eq_of_spelled hsign hsame
          rw [List.forall_mem_cons] at hsigns h
          rw [ih hsigns.2 h.2 hrest]

theorem forall_isSign_starDotStar : ∀ token ∈ starDotStar, ∃ c, IsSign token c := by
  simp only [starDotStar, List.forall_mem_cons]
  exact ⟨⟨_, .star⟩, ⟨_, .dot⟩, ⟨_, .star⟩, nofun⟩

/-- The target of a grant that a text is read as. -/
theorem target_of_parseStatement {line : Nat} {text : String} {granted : Grant}
    (h : parseStatement line text = .ok (some (.grant granted))) :
    ∃ tokens, tokenize line text = .ok tokens ∧
      granted.target = (targetTokens? tokens).map spelled ∧
        ∀ target, targetTokens? tokens = some target →
          (∀ name, .quoted name ∉ target) → ∀ part ∈ target, IsPlainPart part := by
  obtain ⟨tokens, rest, htokens, hne, hrun⟩ := parseStatement_eq_ok_iff.1 h
  obtain ⟨token, more, rfl⟩ := List.exists_cons_of_ne_nil hne
  obtain ⟨htarget, hparts⟩ :=
    @target_of_run_grant more rest token granted (run_grant_of_run_statement hrun)
  refine ⟨token :: more, htokens, htarget, fun target hsome hquoted part hpart => ?_⟩
  have hmem := subset_of_targetTokens? hsome hpart
  exact isPlainPart_of_isSome (hparts target hsome part hpart)
    (fun w hw => (scans_of_scan htokens).isWord (hw ▸ hmem))
    (fun name hname => hquoted name (hname ▸ hpart))

end Sql
end SchemaLint
