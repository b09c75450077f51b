import SchemaLint.Proofs.Sql.Reader
import SchemaLint.Proofs.Sql.Stepper.Loop
import SchemaLint.Sql.Grammar.Name

/-!
# Keywords and names by positions

Keywords are looked for before the position is moved over them, and so are names and literals.
Only a host is taken first, and given back if it is none.
-/

namespace SchemaLint
namespace Sql
namespace Stepper

variable {α κ σ : Type} {tokens : List Token} {start : Nat}

section Keywords

/-- Whether the next token is this keyword. -/
def keywordAhead (keyword : String) : Stepper Bool :=
  return (← look).any (Token.isKeyword keyword)

/-- Whether the next token is one of these keywords. -/
def anyKeywordAhead (keywords : List String) : Stepper Bool :=
  return (← look).any fun token => keywords.any (token.isKeyword ·)

/-- Whether the tokens some places ahead are these keywords. -/
def keywordsAhead : List String → Nat → Stepper Bool
  | [], _ => return true
  | keyword :: keywords, distance => do
      if (← lookAt distance).any (Token.isKeyword keyword) then
        keywordsAhead keywords (distance + 1)
      else
        return false

/-- Passes this keyword if it is next, and says whether it is. -/
def consumeKeyword (keyword : String) : Stepper Bool := do
  if ← keywordAhead keyword then
    advance
    return true
  else
    return false

/-- Passes these keywords if all of them are next, and says whether they are. -/
def consumeKeywords (keywords : List String) : Stepper Bool := do
  if ← keywordsAhead keywords 0 then
    advanceBy keywords.length
    return true
  else
    return false

/-- Passes this token, which is expected. -/
def expectToken (token : Token) (expected : String) : Stepper Unit := do
  unless ← consume token do
    fail expected

/-- Passes this keyword, which is expected. -/
def expectKeyword (keyword : String) : Stepper Unit := do
  unless ← consumeKeyword keyword do
    fail keyword

/-- Passes the keywords of the first entry of which all are next. -/
def consumeHead : List (String × List String × κ) → Stepper (Option κ)
  | [] => return none
  | (keyword, keywords, kind) :: table => do
      if ← consumeKeywords (keyword :: keywords) then
        return some kind
      else
        consumeHead table

/-- Clauses, each of which begins with the keywords of an entry. -/
def keywordClauses (table : List (String × List String × κ)) (body : κ → σ → Stepper σ)
    (state : σ) : Stepper σ :=
  loop (fun state => do
    match ← consumeHead table with
    | some kind => return .again (← body kind state)
    | none => return .leave state) state

/-- What a token stands for as the only keyword of an entry. -/
def keywordKind? (table : List (String × List String × κ)) (token : Token) : Option κ :=
  (Parser.keywordHead table token []).map Prod.fst

/-- What the next token stands for as the only keyword of an entry. -/
def kindAhead (table : List (String × List String × κ)) : Stepper (Option κ) :=
  return (← look).bind (keywordKind? table)

/-- A token that stands for something is the only keyword for it, if there is one. -/
theorem isKeyword_of_keywordKind? {table : List (String × List String × κ)} {token : Token}
    {kind : κ} {keyword : String} (h : keywordKind? table token = some kind)
    (honly : ∀ entry ∈ table, entry.2.2 = kind → entry.1 = keyword) :
    token.isKeyword keyword = true := by
  rw [keywordKind?, Parser.keywordHead, Option.map_map, Option.map_eq_some_iff] at h
  obtain ⟨entry, hfind, hkind⟩ := h
  have hfound := List.find?_some hfind
  rw [Bool.and_eq_true] at hfound
  rw [← honly entry (List.mem_of_find?_eq_some hfind) hkind]
  exact hfound.1

/-- Heads of one keyword each are found by the next token alone. -/
theorem keywordHead_eq_map {table : List (String × List String × κ)}
    (hsingle : ∀ entry ∈ table, entry.2.1 = []) (token : Token) (rest : List Token) :
    Parser.keywordHead table token rest = (keywordKind? table token).map (·, 0) := by
  rw [keywordKind?, Parser.keywordHead, Parser.keywordHead]
  induction table with
  | nil => rfl
  | cons entry table ih =>
      have hentry := hsingle entry List.mem_cons_self
      have ih := ih fun other hother => hsingle other (List.mem_cons_of_mem entry hother)
      rw [List.find?_cons, List.find?_cons, hentry]
      simp only [Parser.startsWith, Bool.and_true]
      cases HasKeywords.isKeyword entry.1 token with
      | true => simp only [Option.map_some, hentry, List.length_nil]
      | false => exact ih

theorem run_anyKeywordAhead {pos : Nat} {rest : List Token} (hpos : StandsAt tokens pos rest)
    (keywords : List String) :
    (anyKeywordAhead keywords).run tokens pos =
      .ok (rest.head?.any fun token => keywords.any (token.isKeyword ·), pos) := by
  rw [anyKeywordAhead, run_bind (run_look hpos)]
  rfl

theorem length_le_of_startsWith {keywords : List String} {rest : List Token}
    (h : Parser.startsWith keywords rest = true) : keywords.length ≤ rest.length := by
  induction keywords generalizing rest with
  | nil => exact Nat.zero_le _
  | cons keyword keywords ih =>
      cases rest with
      | nil => cases h
      | cons token rest =>
          rw [Parser.startsWith, Bool.and_eq_true] at h
          exact Nat.succ_le_succ (ih h.2)

theorem run_keywordsAhead {pos : Nat} {rest : List Token} (hpos : StandsAt tokens pos rest)
    (keywords : List String) (distance : Nat) :
    (keywordsAhead keywords distance).run tokens pos =
      .ok (Parser.startsWith keywords (rest.drop distance), pos) := by
  induction keywords generalizing distance with
  | nil => rfl
  | cons keyword keywords ih =>
      have hlook : (lookAt distance).run tokens pos = .ok ((rest.drop distance).head?, pos) := by
        change Except.ok (tokens[pos + distance]?, pos) = _
        rw [hpos.getElem?_add, List.head?_drop]
      have hrest : rest.drop (distance + 1) = (rest.drop distance).tail := by simp
      rw [keywordsAhead, run_bind hlook]
      cases hdrop : rest.drop distance with
      | nil => rfl
      | cons token after =>
          have ih := ih (distance + 1)
          rw [hrest, hdrop, List.tail_cons] at ih
          rw [List.head?_cons, Option.any_some, Parser.startsWith]
          cases hkeyword : token.isKeyword keyword with
          | true => simpa [HasKeywords.isKeyword, hkeyword] using ih
          | false =>
              simp [HasKeywords.isKeyword, hkeyword]
              rfl

theorem TracksAtEnd.keywordAhead_left {keyword : String} {f : Bool → Stepper α} {p : Reader α}
    (h : TracksAtEnd tokens start (f false) p) :
    TracksAtEnd tokens start (keywordAhead keyword >>= f) p := by
  rw [keywordAhead, bind_assoc]
  exact .look_left h

theorem TracksBefore.keywordAhead_left {token : Token} {keyword : String} {f : Bool → Stepper α}
    {p : Reader α} (h : TracksBefore tokens start token (f (token.isKeyword keyword)) p) :
    TracksBefore tokens start token (keywordAhead keyword >>= f) p := by
  rw [keywordAhead, bind_assoc]
  exact .look_left h

namespace Tracks

protected theorem keywordAhead (keyword : String) :
    Tracks tokens start (keywordAhead keyword) (Parser.ahead keyword : Reader Bool) :=
  .bind look_peek fun _ => .pure _

protected theorem anyKeywordAhead (keywords : List String) :
    Tracks tokens start (anyKeywordAhead keywords) (Parser.aheadAny keywords : Reader Bool) :=
  .bind look_peek fun _ => .pure _

/-- Where one of these keywords is next, there is a token that may be passed. -/
theorem anyKeywordAhead_bind {keywords : List String} {f : Bool → Stepper α} {g : Bool → Reader α}
    (hother : Tracks tokens start (f false) (g false))
    (h : ∀ token, TracksBefore tokens start token (f true) (g true)) :
    Tracks tokens start (anyKeywordAhead keywords >>= f) (Parser.aheadAny keywords >>= g) := by
  refine .of_before (fun pos hstart hpos => ?_) fun token pos rest hstart hpos => ?_
  · have hread : (Parser.aheadAny keywords : Reader Bool).run [] = .ok (false, []) := rfl
    rw [run_bind (run_anyKeywordAhead hpos keywords), Parser.run_bind hread]
    exact hother pos [] hstart hpos
  · have hread : (Parser.aheadAny keywords : Reader Bool).run (token :: rest) =
        .ok (keywords.any (token.isKeyword ·), token :: rest) := rfl
    rw [run_bind (run_anyKeywordAhead hpos keywords), Parser.run_bind hread, List.head?_cons,
      Option.any_some]
    cases keywords.any (token.isKeyword ·) with
    | false => exact hother pos _ hstart hpos
    | true => exact h token pos rest hstart hpos

protected theorem consumeKeywords (keywords : List String) :
    Tracks tokens start (consumeKeywords keywords)
      (Parser.optionalKeywords keywords : Reader Bool) := by
  intro pos rest _ hpos
  change _ = landing tokens (.ok (if Parser.startsWith keywords rest then _ else _))
  rw [consumeKeywords, run_bind (run_keywordsAhead hpos keywords 0), List.drop_zero]
  cases hstarts : Parser.startsWith keywords rest with
  | false => exact (landing_ok hpos false).symm
  | true =>
      have hafter := hpos.drop (length_le_of_startsWith hstarts)
      rw [if_pos rfl, if_pos rfl, run_bind (run_advanceBy hafter.le)]
      exact (landing_ok hafter true).symm

protected theorem consumeKeyword (keyword : String) :
    Tracks tokens start (consumeKeyword keyword)
      (Parser.optionalKeyword keyword : Reader Bool) := by
  refine .of_before (.keywordAhead_left (.pure rfl)) fun token => .keywordAhead_left ?_
  intro pos rest _ hpos
  rw [Parser.run_optionalKeyword, Parser.startsWith, Parser.startsWith, Bool.and_true]
  cases hkeyword : token.isKeyword keyword with
  | false =>
      simp only [HasKeywords.isKeyword, hkeyword, Bool.false_eq_true, if_false]
      exact (landing_ok hpos false).symm
  | true =>
      simp only [HasKeywords.isKeyword, hkeyword, if_true]
      rw [run_bind (TracksBefore.run_advance hpos)]
      exact (landing_ok hpos.tail true).symm

protected theorem expectToken (token : Token) (expected : String) :
    Tracks tokens start (expectToken token expected) (Reader.expectToken token expected) := by
  refine .bind (.consume token) fun found => ?_
  cases found with
  | true => exact .pure ()
  | false => exact .fail expected

protected theorem expectKeyword (keyword : String) :
    Tracks tokens start (expectKeyword keyword) (Reader.expectKeyword keyword) := by
  refine .bind (.consumeKeyword keyword) fun found => ?_
  cases found with
  | true => exact .pure ()
  | false => exact .fail keyword

/-- The head of a clause is looked up entry by entry. -/
theorem clauseHead_cons (keyword : String) (keywords : List String) (kind : κ)
    (table : List (String × List String × κ)) :
    (Parser.clauseHead (Parser.keywordHead ((keyword, keywords, kind) :: table)) :
        Reader (Option κ)) =
      Parser.optionalKeywords (keyword :: keywords) >>= fun found =>
        if found then pure (some kind) else Parser.clauseHead (Parser.keywordHead table) := by
  refine Parser.ext fun rest => ?_
  cases rest with
  | nil => rfl
  | cons token rest =>
      have hrun : (Parser.optionalKeywords (keyword :: keywords) : Reader Bool).run
          (token :: rest) = .ok (if Parser.startsWith (keyword :: keywords) (token :: rest)
            then (true, rest.drop keywords.length) else (false, token :: rest)) := rfl
      cases hstarts : Parser.startsWith (keyword :: keywords) (token :: rest) with
      | true =>
          rw [hstarts, if_pos rfl] at hrun
          rw [Parser.run_bind hrun]
          rw [Parser.startsWith] at hstarts
          simp only [Parser.clauseHead, Parser.keywordHead, List.find?_cons, hstarts,
            Option.map_some]
          rfl
      | false =>
          rw [hstarts, if_neg Bool.false_ne_true] at hrun
          rw [Parser.run_bind hrun]
          rw [Parser.startsWith] at hstarts
          simp only [Parser.clauseHead, Parser.keywordHead, List.find?_cons, hstarts]
          rfl

protected theorem consumeHead (table : List (String × List String × κ)) :
    Tracks tokens start (consumeHead table)
      (Parser.clauseHead (Parser.keywordHead table) : Reader (Option κ)) := by
  induction table with
  | nil =>
      intro pos rest _ hpos
      have hnone : (Parser.clauseHead (Parser.keywordHead []) : Reader (Option κ)).run rest =
          .ok (none, rest) := by cases rest <;> rfl
      rw [hnone, landing_ok hpos]
      rfl
  | cons entry table ih =>
      rw [clauseHead_cons]
      exact .bind (.consumeKeywords _) fun _ => .ite (.pure _) ih

protected theorem keywordClauses {table : List (String × List String × κ)}
    {body : κ → σ → Stepper σ} {body' : κ → σ → Reader σ}
    (hbody : ∀ kind state, Tracks tokens start (body kind state) (body' kind state)) (state : σ) :
    Tracks tokens start (keywordClauses table body state)
      (Parser.clauses (Parser.keywordHead table) body' state) := by
  rw [← Parser.bind_pure (Parser.clauses _ _ _)]
  refine Tracks.clauses (fun state => .bind (.consumeHead table) fun found => ?_) state
  cases found with
  | some kind => exact .bind (hbody kind state) fun _ => .pure _
  | none => exact .pure _

end Tracks

/-- A token that is known to be next and is passed as one that is expected. -/
theorem TracksBefore.expectToken_next {token : Token} {expected : String} {f : Unit → Stepper α}
    {g : Option Token → Reader α} (h : Tracks tokens (start + 1) (f ()) (g (some token))) :
    TracksBefore tokens start token (expectToken token expected >>= f) (Parser.next >>= g) := by
  refine .passes_next (fun pos rest hstart hpos => ?_) h
  rw [Tracks.expectToken token expected pos _ hstart hpos, Reader.run_expectToken_eq_ok.2 rfl,
    landing_ok hpos.tail]

/-- A keyword that is known to be next and is passed as one that is expected. -/
theorem TracksBefore.expectKeyword_next {token : Token} {keyword : String}
    (hkeyword : token.isKeyword keyword = true) {f : Unit → Stepper α}
    {g : Option Token → Reader α} (h : Tracks tokens (start + 1) (f ()) (g (some token))) :
    TracksBefore tokens start token (expectKeyword keyword >>= f) (Parser.next >>= g) := by
  refine .passes_next (fun pos rest hstart hpos => ?_) h
  rw [Tracks.expectKeyword keyword pos _ hstart hpos,
    Reader.run_expectKeyword_eq_ok.2 ⟨token, rfl, hkeyword⟩, landing_ok hpos.tail]

end Keywords

section Names

/-- Passes a token that `f` maps to a value. -/
def token (f : Token → Option α) (expected : String) : Stepper α := do
  match (← look).bind f with
  | some value =>
      advance
      return value
  | none => fail expected

/-- A name. -/
def identifier : Stepper String :=
  token Grammar.nameOf? "identifier"

/-- A name, or a text in its place. -/
def nameOrText : Stepper String :=
  token Grammar.nameOrTextOf? "identifier"

/-- A string literal. -/
def text : Stepper String :=
  token Grammar.textOf? "string literal"

/-- A number as written. -/
def numeral : Stepper String :=
  token Grammar.digitsOf? "number"

/-- An integer of 64 bits. -/
def integer : Stepper UInt64 :=
  token (fun t => (Grammar.digitsOf? t).bind Decimal.word64?) "integer"

/-- A name that may be qualified. -/
def objectName : Stepper ObjectName := do
  let first ← identifier
  if ← consume .dot then
    return { schema := some first, name := ← identifier }
  else
    return { name := first }

/-- The host of an account; a token that is none is given back. -/
def host : Stepper String := do
  match ← take with
  | none => fail "host name"
  | some token =>
      match Grammar.hostOf? token with
      | some host => return host
      | none =>
          stepBack
          fail "host name"

/-- The user and host of an account. -/
def accountName : Stepper (String × String) := do
  let user ← nameOrText
  if ← consume .at then
    return (user, ← host)
  else
    return (user, "%")

/-- An equals sign that may be left out. -/
def optionalEquals : Stepper Unit := do
  let _ ← consume .equals

/-- One of two keywords, or neither. -/
def optionalEither (first second : String) : Stepper Unit := do
  unless ← consumeKeyword first do
    let _ ← consumeKeyword second

/-- Any one token after an equals sign that may be left out. -/
def anyValue : Stepper Unit := do
  optionalEquals
  let _ ← take

namespace Tracks

protected theorem token (f : Token → Option α) (expected : String) :
    Tracks tokens start (token f expected) (Reader.token f expected) := by
  refine .look_bind (.fail expected) fun token => ?_
  rw [Option.bind_some]
  cases f token with
  | none => exact (Tracks.fail expected).before
  | some value => exact .advance_next (.pure value)

protected theorem identifier : Tracks tokens start identifier Grammar.identifier :=
  .token _ _

protected theorem nameOrText : Tracks tokens start nameOrText Grammar.nameOrText :=
  .token _ _

protected theorem text : Tracks tokens start text Grammar.text :=
  .token _ _

protected theorem numeral : Tracks tokens start numeral Grammar.numeral :=
  .token _ _

protected theorem integer : Tracks tokens start integer Grammar.integer :=
  .token _ _

protected theorem objectName : Tracks tokens start objectName Grammar.objectName :=
  .bind .identifier fun _ => .bind (.consume _) fun _ =>
    .ite (.bind .identifier fun _ => .pure _) (.pure _)

protected theorem host :
    Tracks tokens start host (Reader.token Grammar.hostOf? "host name") := by
  refine .of_before (.take_left (.fail rfl)) fun token => .peek_right ?_
  rw [Option.bind_some]
  cases hhost : Grammar.hostOf? token with
  | none =>
      exact .take_stepBack (g := fun _ => fail "host name") (by simp only [hhost])
        (Tracks.fail _).before
  | some value =>
      refine .take_next ?_
      simp only [hhost]
      exact .pure value

protected theorem accountName : Tracks tokens start accountName Grammar.accountName :=
  .bind .nameOrText fun _ => .bind (.consume _) fun _ =>
    .ite (.bind .host fun _ => .pure _) (.pure _)

protected theorem optionalEquals : Tracks tokens start optionalEquals Grammar.optionalEquals :=
  .bind (.consume _) fun _ => .pure _

protected theorem optionalEither (first second : String) :
    Tracks tokens start (optionalEither first second) (Grammar.optionalEither first second) := by
  refine .bind (.consumeKeyword first) fun found => ?_
  cases found with
  | true => exact .pure ()
  | false => exact .bind (.consumeKeyword second) fun _ => .pure ()

/-- Any one token, if there is one. -/
protected theorem take :
    Tracks tokens start take (Parser.next : Reader (Option Token)) := by
  refine .of_before (.look_left (.pure rfl)) fun token pos rest _ hpos => ?_
  rw [TracksBefore.run_take hpos]
  exact (landing_ok hpos.tail (some token)).symm

protected theorem anyValue : Tracks tokens start anyValue Grammar.anyValue :=
  .bind .optionalEquals fun _ => .bind .take fun _ => .pure _

end Tracks

/-- A token that is known to have a value and is passed for it. -/
theorem TracksBefore.token_next {β : Type} {next : Token} {f : Token → Option α} {value : α}
    {expected : String} (hvalue : f next = some value) {g : α → Stepper β}
    {k : Option Token → Reader β} (h : Tracks tokens (start + 1) (g value) (k (some next))) :
    TracksBefore tokens start next (token f expected >>= g) (Parser.next >>= k) := by
  refine .passes_next (fun pos rest hstart hpos => ?_) h
  rw [Tracks.token f expected pos _ hstart hpos, Reader.run_token_eq_ok.2 ⟨next, rfl, hvalue⟩,
    landing_ok hpos.tail]

end Names
end Stepper
end Sql
end SchemaLint
