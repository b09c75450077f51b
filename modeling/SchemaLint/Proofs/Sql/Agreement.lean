import SchemaLint.Proofs.Sql.Script

/-!
# The splitter and the scanner agree

A script can be cut at its delimiters before it is scanned or after.  Both ways give the same
statements, unless the two disagree about dashes: to the scanner two dashes always begin a
comment, to the splitter only before white space.
-/

namespace SchemaLint
namespace Sql
namespace Script

open Lexeme
open Text (Stops isWhite)

/-- The tokens of each statement of a script, cut before they are scanned. -/
def chunkTokens (chunks : List Chunk) : Except SyntaxError (List (List Token)) :=
  chunks.mapM fun chunk => tokenize chunk.line chunk.text

/-- Tokens of a script cut at their semicolons. -/
def statementTokens (tokens : List Token) : List (List Token) :=
  tokens.splitOn .semicolon

/-- If the scanner accepts a script, its statements are the same whether it is cut before or
after.  Statements without tokens do not count. -/
def CutsAsScanned (script : String) : Prop :=
  ∀ tokens, tokenize 1 script = .ok tokens →
    (chunkTokens (chunks script)).map (·.filter (· ≠ [])) =
      .ok ((statementTokens tokens).filter (· ≠ []))

/-- The places at which the scanner stands while it reads a text. -/
inductive Place : List Char → List Char → Prop where
  | start (text : List Char) : Place text text
  | step {text rest place : List Char} {token : Option Token} :
      Step text token rest → Place rest place → Place text place

theorem Place.suffix {text place : List Char} (h : Place text place) : place <:+ text := by
  induction h with
  | start => exact List.suffix_refl _
  | step hstep _ ih => exact ih.trans hstep.suffix

/-- Whether the splitter takes what the scanner reads next for the same: dashes are a comment to
both, or to the splitter they are none and the rest of their line has no marks, and a number
does not end with a sign that begins a comment to the splitter. -/
def undisputed : List Char → Bool
  | '-' :: '-' :: rest =>
      beginsComment '-' ('-' :: rest) || (!beginsComment '-' rest && unmarked rest)
  | c :: cs => !(c.isDigit && (numberTail c cs).1.getLast? == some '-' &&
      beginsComment '-' (numberTail c cs).2)
  | [] => true

theorem beginsComment_of_undisputed {c : Char} {cs : List Char} (h : undisputed (c :: cs) = true)
    (hc : c.isDigit = true) (hlast : (numberTail c cs).1.getLast? = some '-') :
    beginsComment '-' (numberTail c cs).2 = false := by
  have hdash : c ≠ '-' := by
    rintro rfl
    cases hc
  rw [undisputed] at h
  · simpa [hc, hlast] using h
  · exact fun rest heq _ => hdash heq

/-- What the splitter holds of the chunk that it reads: before every text that goes on like the
rest the scanner reads these tokens from it, and it does so at the end. -/
structure Held (held : List Char) (read : List Token) (rest : List Char) : Prop where
  goesOn : ∀ other tokens, Follows rest other → Scans other tokens →
    Scans (held ++ other) (read ++ tokens)
  ends : Scans (held.rdropWhile isWhite) read

namespace Held

variable {held : List Char} {read : List Token} {c : Char} {cs rest : List Char}

theorem nil (rest : List Char) : Held [] [] rest where
  goesOn := fun _ _ _ h => h
  ends := .nil

theorem white (h : Held held read (c :: cs)) (hc : isWhite c = true) :
    Held (held ++ [c]) read cs where
  goesOn := by
    intro other tokens _ hscans
    rw [List.append_assoc, List.singleton_append]
    exact h.goesOn _ _ (.cons c cs other) (.pass (.white hc other) hscans)
  ends := by
    rw [List.rdropWhile_concat_pos _ _ _ hc]
    exact h.ends

/-- After a comment that ends with its line only the end of the line can follow. -/
theorem lineComment (h : Held held read (c :: cs)) : Held held read (afterLineComment cs) where
  goesOn := by
    intro other tokens hfollows hscans
    have hend := hfollows.lineEnd (Text.stops_dropWhile _ _)
    refine h.goesOn other tokens ⟨fun d hd => .inl ?_, fun _ => hend⟩ hscans
    have hfeed : d = '\n' := by simpa using hend d hd
    rw [hfeed]
    rfl
  ends := h.ends

/-- A comment to the scanner that the splitter takes into the chunk. -/
theorem dashes (h : Held held read ('-' :: '-' :: cs)) {run : List Char}
    (hrun : ∀ d ∈ run, d ≠ '\n') :
    Held (held ++ '-' :: '-' :: run) read (afterLineComment cs) := by
  have hscans : ∀ (front other : List Char) (tokens : List Token), (∀ d ∈ front, d ≠ '\n') →
      Stops (· != '\n') other → Scans other tokens →
      Scans ('-' :: '-' :: (front ++ other)) tokens := by
    intro front other tokens hfront hother hscans
    have hskip : afterLineComment (('-' :: front) ++ other) = other :=
      Text.dropWhile_run (List.forall_mem_cons.2 ⟨by decide, by simpa using hfront⟩) hother
    have hstep := @Step.lineComment '-' (('-' :: front) ++ other) (by simp [beginsLineComment])
    rw [hskip] at hstep
    exact .pass hstep hscans
  refine ⟨?_, ?_⟩
  · intro other tokens hfollows hother
    have hend := hfollows.lineEnd (Text.stops_dropWhile _ _)
    rw [List.append_assoc]
    exact h.goesOn _ _ (.cons '-' _ _) (hscans run other tokens hrun hend hother)
  · have htrim := h.goesOn ('-' :: '-' :: run.rdropWhile isWhite) [] (.cons '-' _ _) (by
      have hfront := hscans (run.rdropWhile isWhite) [] []
        (fun d hd => hrun d ((List.rdropWhile_prefix _ _).subset hd)) Text.stops_nil .nil
      rwa [List.append_nil] at hfront)
    have hinner := @Text.rdropWhile_append_cons _ isWhite '-' rfl [] run
    rw [List.nil_append, List.nil_append] at hinner
    rwa [Text.rdropWhile_append_cons rfl, hinner, ← List.append_nil read]

/-- A space takes the place of a comment in marks. -/
theorem blockComment (h : Held held read ('/' :: '*' :: cs)) (rest : List Char) :
    Held (held ++ [' ']) read rest where
  goesOn := by
    intro other tokens _ hscans
    rw [List.append_assoc, List.singleton_append]
    refine h.goesOn _ _ ⟨fun d hd => .inl ?_, fun hend => ?_⟩ (.pass (.white rfl other) hscans)
    · cases hd
      rfl
    · exact absurd (hend '/' rfl) (by decide)
  ends := by
    rw [List.rdropWhile_concat_pos _ _ _ rfl]
    exact h.ends

theorem token {spelling : List Char} {token : Token} (h : Held held read (c :: (spelling ++ rest)))
    (hc : isWhite c = false) (hline : beginsLineComment c (spelling ++ rest) = false)
    (hblock : beginsBlockComment c (spelling ++ rest) = false)
    (hspelled : Spelled (c :: spelling) token rest) :
    Held (held ++ c :: spelling) (read ++ [token]) rest := by
  have hgoesOn : ∀ other tokens, Follows rest other → Scans other tokens →
      Scans (held ++ c :: spelling ++ other) (read ++ [token] ++ tokens) := by
    intro other tokens hfollows hscans
    have hstep := Step.token_resumes hfollows.head hc hline hblock hspelled
    rw [List.append_assoc, List.append_assoc]
    exact h.goesOn _ _ (.cons c _ _) (.read hstep hscans)
  refine ⟨hgoesOn, ?_⟩
  -- a token does not end with white space, so nothing is taken away after it
  have hlast : (held ++ c :: spelling).rdropWhile isWhite = held ++ c :: spelling := by
    rw [List.rdropWhile_eq_self_iff]
    intro hne
    rw [List.getLast_append_of_ne_nil hne (List.cons_ne_nil _ _), hspelled.isWhite_getLast hc]
    exact Bool.false_ne_true
  have hempty : Follows rest [] := ⟨nofun, fun _ => Text.stops_nil⟩
  have hscans := hgoesOn [] [] hempty .nil
  rwa [List.append_nil, List.append_nil, ← hlast] at hscans

end Held

/-- What the splitter has read of a chunk, when it stands where the scanner stands. -/
structure Holds (cursor : Cursor) (read : List Token) (rest : List Char) : Prop where
  delimiter : cursor.delimiter = [';']
  held : Held cursor.held read rest
  /-- Only a chunk that has begun has tokens. -/
  begun : cursor.pending = none → read = []
  whole : Token.semicolon ∉ read

namespace Holds

variable {cursor next : Cursor} {read : List Token} {text rest : List Char} {c : Char}

/-- Before a chunk has begun nothing has been read. -/
theorem start (hdelimiter : cursor.delimiter = [';']) (hpending : cursor.pending = none)
    (text : List Char) : Holds cursor [] text where
  delimiter := hdelimiter
  held := by
    rw [cursor.held_of_none hpending]
    exact .nil text
  begun := fun _ => rfl
  whole := nofun

/-- White space counts only in a chunk that has begun. -/
theorem take (h : Holds cursor read text) (hc : isWhite c = true)
    (hheld : Held (cursor.held ++ [c]) read rest) (hdelimiter : next.delimiter = [';'])
    (hpending : next.pending = (cursor.take c).pending) : Holds next read rest := by
  have hsame : next.held = (cursor.take c).held := by rw [Cursor.held, hpending, Cursor.held]
  refine ⟨hdelimiter, ?_, ?_, h.whole⟩
  · rw [hsame]
    cases hbegun : cursor.pending with
    | none =>
        rw [Cursor.held_of_none _ (cursor.pending_take_of_isWhite c hbegun hc), h.begun hbegun]
        exact .nil rest
    | some pending =>
        rw [(cursor.held_take c fun hnone => by simp [hnone] at hbegun).2]
        exact hheld
  · intro hnone
    cases hbegun : cursor.pending with
    | none => exact h.begun hbegun
    | some pending =>
        have hsome := (cursor.held_take c fun hnone => by simp [hnone] at hbegun).1
        rw [← hpending, hnone] at hsome
        cases hsome

/-- A run that does not begin with white space gets into the chunk with its tokens. -/
theorem takeAll (h : Holds cursor read text) (hc : isWhite c = false) {cs : List Char}
    {tokens : List Token} (hheld : Held (cursor.held ++ c :: cs) (read ++ tokens) rest)
    (htokens : Token.semicolon ∉ tokens) :
    Holds (cursor.takeAll (c :: cs)) (read ++ tokens) rest := by
  obtain ⟨hsome, hsame⟩ := cursor.held_takeAll_cons c hc cs
  refine ⟨(cursor.takeAll_delimiter _).trans h.delimiter, hsame ▸ hheld, fun hnone => ?_, ?_⟩
  · rw [hnone] at hsome
    cases hsome
  · rw [List.mem_append, not_or]
    exact ⟨h.whole, htokens⟩

/-- While the scanner takes a step other than a semicolon, the splitter passes to the same
place. -/
theorem step {token : Option Token} (h : Holds cursor read text) (hstep : Step text token rest)
    (hcommandless : Commandless cursor text) (hundisputed : undisputed text = true)
    (htoken : token ≠ some .semicolon) :
    ∃ next, Passes cursor text next rest ∧ Holds next (read ++ token.toList) rest := by
  have hnothing : read ++ (none : Option Token).toList = read := List.append_nil read
  cases hstep with
  | white hc cs =>
      obtain ⟨next, hpasses, hdelimiter, hpending⟩ :=
        passes_white h.delimiter hcommandless.command?_eq_none hc
      rw [hnothing]
      exact ⟨next, hpasses, h.take hc (h.held.white hc) hdelimiter hpending⟩
  | @lineComment c cs hline =>
      cases hcomment : beginsComment c cs with
      | true =>
          rw [hnothing]
          exact ⟨cursor.inLine, passes_comment hcommandless.command?_eq_none hcomment,
            ⟨h.delimiter, h.held.lineComment, h.begun, h.whole⟩⟩
      | false =>
          -- only dashes are a comment to the scanner alone
          obtain ⟨rest, rfl, rfl⟩ : ∃ rest, c = '-' ∧ cs = '-' :: rest := by
            simp only [beginsComment, Bool.or_eq_false_iff] at hcomment
            rw [beginsLineComment, hcomment.1, Bool.false_or, Bool.and_eq_true, beq_iff_eq,
              beq_iff_eq, List.head?_eq_some_iff] at hline
            exact ⟨_, hline.1, hline.2.choose_spec⟩
          rw [undisputed, hcomment, Bool.false_or, Bool.and_eq_true, Bool.not_eq_true']
            at hundisputed
          obtain ⟨hsecond, hunmarked⟩ := hundisputed
          obtain ⟨run, hrun, hpasses⟩ := passes_dashes h.delimiter
            hcommandless.command?_eq_none hcomment hsecond hunmarked
          refine ⟨_, hpasses, h.takeAll rfl ?_ List.not_mem_nil⟩
          rw [hnothing]
          exact h.held.dashes hrun
  | @blockComment line last cs rest hblock =>
      obtain ⟨reached, hpasses⟩ := passes_blockComment hcommandless.command?_eq_none hblock
      have hmoved : Holds { cursor with line := reached } read ('/' :: '*' :: cs) :=
        ⟨h.delimiter, h.held, h.begun, h.whole⟩
      rw [hnothing]
      exact ⟨_, hpasses, hmoved.take rfl (h.held.blockComment rest)
        ((Cursor.take_delimiter _ _).trans h.delimiter) rfl⟩
  | @token c spelling rest token hc hline hblock hspelled =>
      have hother : token ≠ .semicolon := fun heq => htoken (congrArg some heq)
      have hpasses := passes_spelled hspelled hother hc hline hblock
        (beginsComment_of_undisputed hundisputed) h.delimiter
        hcommandless.command?_eq_none
      exact ⟨_, hpasses, h.takeAll hc (h.held.token hc hline hblock hspelled)
        (by simpa using Ne.symm hother)⟩

end Holds

theorem chunkTokens_append {first second : List Chunk}
    {firstTokens secondTokens : List (List Token)} (hfirst : chunkTokens first = .ok firstTokens)
    (hsecond : chunkTokens second = .ok secondTokens) :
    chunkTokens (first ++ second) = .ok (firstTokens ++ secondTokens) := by
  rw [chunkTokens] at hfirst hsecond
  rw [chunkTokens, List.mapM_append, hfirst, hsecond]
  rfl

/-- A chunk that is finished has the tokens that were read. -/
theorem chunkTokens_finished {cursor : Cursor} {read : List Token} {rest : List Char}
    (h : Holds cursor read rest) : ∃ lists, chunkTokens cursor.finished = .ok lists ∧
      lists.filter (· ≠ []) = [read].filter (· ≠ []) := by
  cases hpending : cursor.pending with
  | none =>
      refine ⟨[], ?_, by simp [h.begun hpending]⟩
      rw [cursor.finished_of_none hpending]
      rfl
  | some pending =>
      obtain ⟨line, hfinished⟩ := cursor.exists_finished (by rw [hpending]; rfl)
      have hscan : tokenize line (String.ofList (cursor.held.rdropWhile isWhite)) = .ok read := by
        rw [tokenize, String.toList_ofList]
        exact scan_eq_ok_iff.2 h.held.ends
      refine ⟨[read], ?_, rfl⟩
      rw [hfinished, chunkTokens, List.mapM_cons, hscan, List.mapM_nil]
      rfl

/-- The splitter finishes the statements that the scanner reads, in the same order. -/
theorem chunkTokens_chunksFrom {text : List Char} {tokens : List Token} (h : Scans text tokens) :
    ∀ {cursor : Cursor} {read : List Token}, Holds cursor read text → Commandless cursor text →
      (∀ place, Place text place → undisputed place = true) →
      ∃ lists, chunkTokens (chunksFrom cursor text) = .ok lists ∧
        lists.filter (· ≠ []) = (statementTokens (read ++ tokens)).filter (· ≠ []) := by
  -- on the steps of the scanner; the cursor follows it from place to place
  induction h with
  | nil =>
      intro cursor read hholds _ _
      rw [chunksFrom.eq_def, List.append_nil, statementTokens,
        List.splitOn_eq_singleton hholds.whole]
      exact chunkTokens_finished hholds
  | @step text rest token tokens hstep _ ih =>
      intro cursor read hholds hcommandless hundisputed
      have hrest : ∀ place, Place rest place → undisputed place = true :=
        fun place hplace => hundisputed place (.step hstep hplace)
      by_cases htoken : token = some .semicolon
      · subst htoken
        obtain rfl := hstep.eq_of_semicolon
        have hchunks := chunksFrom_delimiter hholds.delimiter hcommandless.command?_eq_none
        obtain ⟨first, hfirst, hread⟩ := chunkTokens_finished hholds
        -- the next chunk has not begun yet
        have hstart : Holds { cursor.inLine with pending := none } [] rest := by
          refine .start ?_ rfl rest
          exact hholds.delimiter
        obtain ⟨lists, hlists, hsame⟩ := ih hstart
          (hcommandless.delimiter hholds.delimiter) hrest
        refine ⟨first ++ lists, hchunks ▸ chunkTokens_append hfirst hlists, ?_⟩
        rw [Option.toList_some, List.singleton_append, statementTokens,
          List.splitOn_append_cons_self_of_not_mem hholds.whole, List.filter_append, hread, hsame,
          List.nil_append, ← List.filter_append]
        rfl
      · obtain ⟨next, hpasses, hnext⟩ :=
          hholds.step hstep hcommandless (hundisputed text (.start text)) htoken
        obtain ⟨lists, hlists, hsame⟩ := ih hnext (hpasses.commandless hcommandless) hrest
        rw [List.append_assoc] at hsame
        exact ⟨lists, hpasses.chunksFrom_eq ▸ hlists, hsame⟩

/-- A script without commands can be cut before or after it is scanned, if the two do not
disagree about dashes. -/
theorem cutsAsScanned_of_undisputed {script : String} (hcommandless : Commandless {} script.toList)
    (hundisputed : ∀ place, Place script.toList place → undisputed place = true) :
    CutsAsScanned script := by
  intro tokens htokens
  obtain ⟨lists, hlists, hsame⟩ := chunkTokens_chunksFrom (scan_eq_ok_iff.1 htokens)
    (.start rfl rfl script.toList) hcommandless hundisputed
  rw [chunks, hlists, ← List.nil_append tokens, ← hsame]
  rfl

/-- Comments, quoted semicolons and a signed exponent are no obstacle. -/
theorem cutsAsScanned_of_comments :
    tokenize 1 "USE `a;b`; --x\nSELECT 1e-3 -- ;" =
        .ok [.word "USE", .quoted "a;b", .semicolon, .word "SELECT", .number "1e-3"] ∧
      CutsAsScanned "USE `a;b`; --x\nSELECT 1e-3 -- ;" := by
  have hundisputed : ∀ place ∈ "USE `a;b`; --x\nSELECT 1e-3 -- ;".toList.tails,
      undisputed place = true := by decide +kernel
  exact ⟨by decide +kernel, cutsAsScanned_of_undisputed (commandless_of_tails _ (by decide +kernel))
    fun place hplace => hundisputed place ((List.mem_tails _ _).2 hplace.suffix)⟩

/-- Two dashes before a number begin a comment to the scanner, which then misses the rest of the
line, but not to the splitter. -/
theorem not_cutsAsScanned_of_tight_dashes :
    Commandless {} "SELECT 1--2; USE shop".toList ∧ ¬ CutsAsScanned "SELECT 1--2; USE shop" := by
  refine ⟨commandless_of_tails _ (by decide +kernel), fun h => ?_⟩
  have hscan : tokenize 1 "SELECT 1--2; USE shop" = .ok [.word "SELECT", .number "1"] := by
    decide +kernel
  have hcut := h _ hscan
  revert hcut
  decide +kernel

end Script
end Sql
end SchemaLint
