import SchemaLint.Proofs.Sql.Origin

/-!
# The line of a literal that is never closed

The scanner counts lines in the chunk, from the line on which the chunk begins.  A comment in marks
is a space there, with no line feed, so the line of a literal that is never closed is too small by
the line feeds of such comments in front of it.

* `LeavesOpen` - where in a text a literal opens that is never closed.
* `scan_eq_unterminatedQuote_iff` - the scanner fails there.
* `Script.OpenLiteral` - a literal of a script that is never closed, with its place.
* `Script.OpenLiteral.line_eq` - the lines that are missing from the count.
* `Script.openLiteral_line_iff` - when the line of the error is that of the quote.
-/

namespace SchemaLint
namespace Sql

open Text (isWhite lineFeeds)

namespace Lexeme

theorem quotedBody_eq_none {quote : Char} {cs : List Char} {line : Nat}
    (h : quotedBody quote line cs = none) (other : Nat) : quotedBody quote other cs = none := by
  have hzero : quotedBody quote 0 cs = none := by
    rw [← Nat.zero_add line, quotedBody_add] at h
    exact Option.map_eq_none_iff.1 h
  rw [← Nat.zero_add other, quotedBody_add, hzero, Option.map_none]

end Lexeme

open Script (isQuote)

namespace Scanned

theorem ofQuoted_of_none {line : Nat} {quote : Char} {cs : List Char} (make : String → Token)
    (h : Lexeme.quotedBody quote line cs = none) :
    ofQuoted line quote make cs = .error (.unterminatedQuote line quote) := by
  rw [ofQuoted, h]

theorem quotedBody_of_ofQuoted {line : Nat} {quote : Char} {make : String → Token} {cs : List Char}
    {error : SyntaxError} (h : ofQuoted line quote make cs = .error error) :
    Lexeme.quotedBody quote line cs = none ∧ error = .unterminatedQuote line quote := by
  unfold ofQuoted at h
  split at h
  · next hnone =>
      cases h
      exact ⟨hnone, rfl⟩
  · cases h

theorem lineFeeds_mark {mark : Char} (h : marksBits mark = true) : lineFeeds [mark] = 0 := by
  simp only [marksBits, Bool.or_eq_true, beq_iff_eq] at h
  rcases h with ((rfl | rfl) | rfl) | rfl <;> rfl

end Scanned

/-- Behind a front of the text opens a literal in these quotes that is never closed. -/
inductive LeavesOpen (quote : Char) : List Char → List Char → Prop where
  | quoted {body : List Char} (hquote : isQuote quote = true)
      (hbody : ∀ line, Lexeme.quotedBody quote line body = none) :
      LeavesOpen quote [] (quote :: body)
  /-- The mark of bits stands before the quote. -/
  | bits {mark : Char} {body : List Char} (hmark : Scanned.marksBits mark = true)
      (hquote : quote = '\'') (hbody : ∀ line, Lexeme.quotedBody quote line body = none) :
      LeavesOpen quote [mark] (mark :: quote :: body)
  | step {passed rest front : List Char} {token : Option Token}
      (hstep : Step (passed ++ rest) token rest) :
      LeavesOpen quote front rest → LeavesOpen quote (passed ++ front) (passed ++ rest)

namespace LeavesOpen

variable {quote : Char} {front text rest : List Char} {line last : Nat} {token : Option Token}

/-- The quote stands behind the front. -/
theorem exists_body (h : LeavesOpen quote front text) :
    isQuote quote = true ∧ ∃ body, text = front ++ quote :: body := by
  induction h with
  | @quoted body hquote _ => exact ⟨hquote, body, rfl⟩
  | @bits mark body _ hquote _ => exact ⟨by rw [hquote]; rfl, body, rfl⟩
  | @step passed _ _ _ _ _ ih =>
      obtain ⟨hquote, body, hbody⟩ := ih
      exact ⟨hquote, body, by rw [hbody, List.append_assoc]⟩

/-- A step in front of the literal. -/
theorem of_step {found : Nat} (hstep : Step text token rest)
    (hline : last + lineFeeds rest = line + lineFeeds text)
    (h : ∃ front, LeavesOpen quote front rest ∧ found = last + lineFeeds front) :
    ∃ front, LeavesOpen quote front text ∧ found = line + lineFeeds front := by
  obtain ⟨front, hopen, rfl⟩ := h
  obtain ⟨passed, rfl⟩ := hstep.suffix
  refine ⟨passed ++ front, .step hstep hopen, ?_⟩
  rw [Text.lineFeeds_append] at hline ⊢
  omega

/-- The scanner fails on the line of the quote, as far as line feeds are in the text. -/
theorem scan (h : LeavesOpen quote front text) (line : Nat) :
    scan line text = .error (.unterminatedQuote (line + lineFeeds front) quote) := by
  induction h generalizing line with
  | @quoted body hquote hbody =>
      have hfeeds : line + lineFeeds [] = line := rfl
      simp only [isQuote, Bool.or_eq_true, beq_iff_eq] at hquote
      rcases hquote with (rfl | rfl) | rfl <;>
      · rw [hfeeds, scan_cons, if_neg (by decide), if_neg (by simp [beginsLineComment]),
          if_neg (by simp [beginsBlockComment])]
        simp [Scanned.ofCharacters, Scanned.ofQuoted_of_none _ (hbody line)]
  | @bits mark body hmark hquote hbody =>
      have hfeeds : line + lineFeeds [mark] = line := by
        rw [Scanned.lineFeeds_mark hmark, Nat.add_zero]
      subst hquote
      rw [hfeeds]
      simp only [Scanned.marksBits, Bool.or_eq_true, beq_iff_eq] at hmark
      rcases hmark with ((rfl | rfl) | rfl) | rfl <;>
      · rw [scan_cons, if_neg (by decide), if_neg (by simp [beginsLineComment]),
          if_neg (by simp [beginsBlockComment])]
        simp [Scanned.ofCharacters, Scanned.marksBits, Scanned.ofQuoted_of_none _ (hbody line)]
  | @step passed rest front token hstep _ ih =>
      obtain ⟨last, hline, hscan⟩ := hstep.scan line
      rw [Text.lineFeeds_append] at hline ⊢
      have hlast : last + lineFeeds front = line + (lineFeeds passed + lineFeeds front) := by omega
      rw [hscan, ih, hlast]
      rfl

end LeavesOpen

/-- A character at which the scanner fails opens a literal, or marks one. -/
theorem leavesOpen_of_ofCharacters {line : Nat} {c : Char} {cs : List Char} {error : SyntaxError}
    (h : Scanned.ofCharacters line c cs = .error error) :
    ∃ quote front, LeavesOpen quote front (c :: cs) ∧
      error = .unterminatedQuote (line + lineFeeds front) quote := by
  unfold Scanned.ofCharacters at h
  split at h
  · next hquote =>
      obtain ⟨hbody, rfl⟩ := Scanned.quotedBody_of_ofQuoted h
      have hopens : isQuote c = true := by rcases hquote with rfl | rfl <;> rfl
      exact ⟨c, [], .quoted hopens (Lexeme.quotedBody_eq_none hbody), rfl⟩
  split at h
  · next hquote =>
      obtain ⟨hbody, rfl⟩ := Scanned.quotedBody_of_ofQuoted h
      have hopens : isQuote c = true := by rw [hquote]; rfl
      exact ⟨c, [], .quoted hopens (Lexeme.quotedBody_eq_none hbody), rfl⟩
  split at h
  · next hbits =>
      obtain ⟨hmark, hhead⟩ := hbits
      obtain ⟨body, rfl⟩ := List.head?_eq_some_iff.1 hhead
      obtain ⟨hbody, rfl⟩ := Scanned.quotedBody_of_ofQuoted h
      refine ⟨'\'', [c], .bits hmark rfl (Lexeme.quotedBody_eq_none hbody), ?_⟩
      rw [Scanned.lineFeeds_mark hmark, Nat.add_zero]
  split_ifs at h

/-- The scanner fails for an open literal exactly if there is one, on the line up to which the text
in front of it goes. -/
theorem scan_eq_unterminatedQuote_iff {line found : Nat} {quote : Char} {text : List Char} :
    scan line text = .error (.unterminatedQuote found quote) ↔
      ∃ front, LeavesOpen quote front text ∧ found = line + lineFeeds front := by
  constructor
  · intro h
    fun_induction scan line text with
    | case1 => cases h
    | case2 line c cs hwhite ih =>
        have hline := Lexeme.lineAfter_add_lineFeeds line c cs
        exact LeavesOpen.of_step (.white hwhite cs) hline (ih h)
    | case3 line c cs hwhite hcomment _ ih =>
        have hfeed : c ≠ '\n' := by
          rintro rfl
          exact hwhite rfl
        refine LeavesOpen.of_step (.lineComment hcomment) ?_ (ih h)
        rw [Lexeme.lineFeeds_afterLineComment, Text.lineFeeds_cons_of_ne hfeed]
    | case4 => cases h
    | case5 line c cs hwhite hline hblock last rest hcomment _ ih =>
        obtain ⟨cs, rfl, rfl⟩ : ∃ rest, c = '/' ∧ cs = '*' :: rest := by
          simpa [beginsBlockComment, List.head?_eq_some_iff] using hblock
        have hrest : Lexeme.afterBlockComment line cs = (last, some rest) := hcomment
        refine LeavesOpen.of_step (.blockComment hrest) ?_ (ih h)
        rw [Lexeme.afterBlockComment_line hrest, Text.lineFeeds_cons_of_ne (by decide),
          Text.lineFeeds_cons_of_ne (by decide)]
    | case6 line c cs hwhite hline hblock error herror =>
        cases h
        obtain ⟨other, front, hopen, herror⟩ := leavesOpen_of_ofCharacters herror
        cases herror
        exact ⟨front, hopen, rfl⟩
    | case7 line c cs hwhite hline hblock scanned hscanned _ ih =>
        obtain ⟨spelling, rfl, hspelled⟩ := Scanned.exists_spelled hscanned
        have hsame := (hspelled.ofCharacters line).symm.trans hscanned
        have hfeed : c ≠ '\n' := by
          rintro rfl
          exact hwhite rfl
        have hstep : Step (c :: (spelling ++ scanned.rest)) (some scanned.token) scanned.rest :=
          .token (by simpa using hwhite) (by simpa using hline) (by simpa using hblock) hspelled
        refine LeavesOpen.of_step hstep ?_ (ih (map_eq_error.1 h))
        rw [← Except.ok.inj hsame, Text.lineFeeds_cons_of_ne hfeed, Text.lineFeeds_append,
          Nat.add_assoc]
  · rintro ⟨front, hopen, rfl⟩
    exact hopen.scan line

theorem Mismatch.atLine_ne_unterminatedQuote (line found : Nat) (quote : Char)
    (mismatch : Mismatch) : mismatch.atLine line ≠ .unterminatedQuote found quote := by
  unfold atLine
  split <;> nofun

/-- A chunk has an open literal exactly if the scanner finds one. -/
theorem Chunk.parse_eq_unterminatedQuote_iff {chunk : Chunk} {found : Nat} {quote : Char} :
    chunk.parse = .error (.unterminatedQuote found quote) ↔
      scan chunk.line chunk.text.toList = .error (.unterminatedQuote found quote) := by
  rw [Chunk.parse, map_eq_error, parseStatement, tokenize]
  cases scan chunk.line chunk.text.toList with
  | error error =>
      constructor <;>
      · intro h
        cases h
        rfl
  | ok tokens =>
      refine iff_of_false ?_ nofun
      cases tokens with
      | nil => nofun
      | cons token tokens =>
          cases hrun : (Grammar.statement (Text.trim chunk.text)).run (token :: tokens) with
          | ok result => simp [hrun, bind, Except.bind, pure, Except.pure]
          | error mismatch =>
              simp [hrun, bind, Except.bind, throw, throwThe, MonadExceptOf.throw,
                mismatch.atLine_ne_unterminatedQuote]

namespace Script

/-- A character in the text of some pieces is kept, unless it is a space. -/
theorem exists_kept {pieces : List Piece} {front rest : List Char} {c : Char} (hc : c ≠ ' ')
    (h : pieces.flatMap Piece.text = front ++ c :: rest) :
    ∃ earlier run back later, pieces = earlier ++ .kept (run ++ c :: back) :: later ∧
      front = earlier.flatMap Piece.text ++ run := by
  induction pieces generalizing front with
  | nil => simp at h
  | cons piece pieces ih =>
      rw [List.flatMap_cons, List.append_eq_append_iff] at h
      rcases h with ⟨front, rfl, h⟩ | ⟨back, hpiece, h⟩
      · obtain ⟨earlier, run, back, later, rfl, rfl⟩ := ih h
        exact ⟨piece :: earlier, run, back, later, rfl, by simp⟩
      · cases back with
        | nil =>
            -- the character is the first one of the other pieces
            obtain ⟨earlier, run, back, later, rfl, hfront⟩ := @ih [] h.symm
            refine ⟨piece :: earlier, run, back, later, rfl, ?_⟩
            rw [List.flatMap_cons, List.append_assoc, ← hfront, hpiece, List.append_nil,
              List.append_nil]
        | cons d back =>
            obtain ⟨rfl, rfl⟩ := List.cons.inj h
            cases piece with
            | kept cs =>
                have hcs : cs = front ++ c :: back := hpiece
                exact ⟨[], front, back, pieces, by rw [hcs]; rfl, rfl⟩
            | lineComment cs => simp [Piece.text] at hpiece
            | blockComment cs =>
                have hspace := congrArg (c ∈ ·) hpiece
                simp [Piece.text, hc] at hspace

/-- A literal of a script that is never closed.  It is in the first chunk that cannot be read,
behind some pieces and the front of another one. -/
structure OpenLiteral (script : String) where
  quote : Char
  above : List Chunk
  chunk : Chunk
  below : List Chunk
  trace : Trace
  earlier : List Piece
  run : List Char
  back : List Char
  later : List Piece
  chunks_eq : chunks script = above ++ chunk :: below
  above_parse : ∀ other ∈ above, ∃ statement, other.parse = .ok statement
  trace_eq : (traces script)[above.length]? = some trace
  pieces_eq : trace.pieces = earlier ++ .kept (run ++ quote :: back) :: later
  leavesOpen : LeavesOpen quote (earlier.flatMap Piece.text ++ run) chunk.text.toList

namespace OpenLiteral

variable {script : String} (literal : OpenLiteral script)

/-- The place of the opening quote in the script. -/
def place : Nat :=
  (literal.trace.before ++ literal.earlier.flatMap Piece.source ++ literal.run).length

/-- The comments in marks between the beginning of the chunk and the quote. -/
def comments : List (List Char) :=
  markedComments literal.earlier

/-- The line that the scanner has counted to. -/
def countedLine : Nat :=
  literal.chunk.line + lineFeeds (literal.earlier.flatMap Piece.text ++ literal.run)

/-- The line of the opening quote in the script. -/
def line : Nat :=
  1 + lineFeeds (script.toList.take literal.place)

/-- The error of a script with an open literal. -/
theorem parseScript_eq :
    parseScript script = .error (.unterminatedQuote literal.countedLine literal.quote) := by
  rw [parseScript, map_eq_error, mapM_eq_error_iff]
  refine ⟨literal.above, literal.chunk, literal.below, literal.chunks_eq, literal.above_parse, ?_⟩
  rw [Chunk.parse_eq_unterminatedQuote_iff, scan_eq_unterminatedQuote_iff]
  exact ⟨_, literal.leavesOpen, rfl⟩

theorem records : Records script.toList literal.trace literal.chunk := by
  have hchunk : (chunks script)[literal.above.length]? = some literal.chunk := by
    simp [literal.chunks_eq]
  obtain ⟨trace, htrace, hrecords⟩ := exists_trace hchunk
  cases literal.trace_eq.symm.trans htrace
  exact hrecords

/-- The script up to the quote, and behind it. -/
theorem exists_script_eq : ∃ after, script.toList =
    (literal.trace.before ++ literal.earlier.flatMap Piece.source ++ literal.run) ++
      literal.quote :: after := by
  obtain ⟨after, hscript⟩ := literal.records.script_eq
  refine ⟨literal.back ++ literal.later.flatMap Piece.source ++ after, ?_⟩
  rw [← hscript, Trace.source, literal.pieces_eq]
  simp [Piece.source]

theorem getElem?_place : script.toList[literal.place]? = some literal.quote := by
  obtain ⟨after, hscript⟩ := literal.exists_script_eq
  rw [hscript, place, List.getElem?_append_right (Nat.le_refl _), Nat.sub_self]
  rfl

/-- The lines of comments in marks are missing from the count. -/
theorem line_eq : literal.line = literal.countedLine + lineFeeds literal.comments.flatten := by
  obtain ⟨after, hscript⟩ := literal.exists_script_eq
  have hpieces : ∀ piece ∈ literal.earlier, piece.WellFormed := fun piece hmem =>
    literal.records.wellFormed piece (by rw [literal.pieces_eq]; exact List.mem_append_left _ hmem)
  have hsource := lineFeeds_source hpieces
  rw [line, countedLine, literal.records.line_eq, place, hscript, List.take_left, comments]
  simp only [Text.lineFeeds_append]
  omega

end OpenLiteral

theorem ne_space_of_isQuote {c : Char} (h : isQuote c = true) : c ≠ ' ' := by
  rintro rfl
  cases h

/-- A script that fails so has an open literal. -/
theorem exists_openLiteral {script : String} {found : Nat} {quote : Char}
    (h : parseScript script = .error (.unterminatedQuote found quote)) :
    Nonempty (OpenLiteral script) := by
  rw [parseScript, map_eq_error, mapM_eq_error_iff] at h
  obtain ⟨above, chunk, below, hchunks, habove, hchunk⟩ := h
  rw [Chunk.parse_eq_unterminatedQuote_iff, scan_eq_unterminatedQuote_iff] at hchunk
  obtain ⟨front, hopen, -⟩ := hchunk
  obtain ⟨hquote, body, hbody⟩ := hopen.exists_body
  have hget : (chunks script)[above.length]? = some chunk := by simp [hchunks]
  obtain ⟨trace, htrace, hrecords⟩ := exists_trace hget
  -- the chunk is the text of its pieces without white space at the end
  obtain ⟨white, hwhite⟩ := List.rdropWhile_prefix isWhite (l := trace.text)
  rw [← hrecords.text_eq, hbody, List.append_assoc, List.cons_append] at hwhite
  obtain ⟨earlier, run, back, later, hpieces, rfl⟩ :=
    exists_kept (ne_space_of_isQuote hquote) hwhite.symm
  exact ⟨{
    quote := quote
    above := above
    chunk := chunk
    below := below
    trace := trace
    earlier := earlier
    run := run
    back := back
    later := later
    chunks_eq := hchunks
    above_parse := habove
    trace_eq := htrace
    pieces_eq := hpieces
    leavesOpen := hopen }⟩

/-- A script that fails for an open literal has one, and the line of the error is that of its quote
exactly if no comment in marks between the beginning of the statement and the quote goes over a line
feed. -/
theorem openLiteral_line_iff {script : String} {found : Nat} {quote : Char}
    (h : parseScript script = .error (.unterminatedQuote found quote)) :
    Nonempty (OpenLiteral script) ∧
      ∀ literal : OpenLiteral script,
        literal.quote = quote ∧ script.toList[literal.place]? = some quote ∧
          (found = literal.line ↔ ∀ comment ∈ literal.comments, '\n' ∉ comment) := by
  refine ⟨exists_openLiteral h, fun literal => ?_⟩
  have hsame := literal.parseScript_eq.symm.trans h
  obtain ⟨rfl, rfl⟩ := SyntaxError.unterminatedQuote.inj (Except.error.inj hsame)
  refine ⟨rfl, literal.getElem?_place, ?_⟩
  have hfeeds : lineFeeds literal.comments.flatten = 0 ↔
      ∀ comment ∈ literal.comments, '\n' ∉ comment := by
    rw [lineFeeds, List.count_eq_zero, List.mem_flatten]
    push Not
    rfl
  rw [literal.line_eq, ← hfeeds]
  omega

/-- A comment in marks that stays in its line, and line comments, do no harm: the error is on the
third line, where the only quote stands. -/
theorem openLiteral_line_of_comments :
    let script := "USE a; -- b\nCREATE TABLE t (a INT /* c */ # d\n COMMENT 'oops"
    parseScript script = .error (.unterminatedQuote 3 '\'') ∧ Nonempty (OpenLiteral script) ∧
      ∀ literal : OpenLiteral script,
        literal.quote = '\'' ∧ script.toList[literal.place]? = some '\'' ∧
          3 = literal.line ∧ ∀ comment ∈ literal.comments, '\n' ∉ comment := by
  intro script
  have herror : parseScript script = .error (.unterminatedQuote 3 '\'') := by decide +kernel
  have hquotes : ∀ place < script.length, script.toList[place]? = some '\'' →
      3 = 1 + lineFeeds (script.toList.take place) := by
    decide +kernel
  obtain ⟨hopen, hliterals⟩ := openLiteral_line_iff herror
  refine ⟨herror, hopen, fun literal => ?_⟩
  obtain ⟨hquote, hplace, hiff⟩ := hliterals literal
  have hbound : literal.place < script.length := (List.getElem?_eq_some_iff.1 hplace).1
  have hline : 3 = literal.line := hquotes literal.place hbound hplace
  exact ⟨hquote, hplace, hline, hiff.1 hline⟩

/-- The quote stands on the second line, and the error is on the first one, where no quote is. -/
theorem not_openLiteral_line_of_comment :
    ¬ ∀ (script : String) (found : Nat) (quote : Char),
      parseScript script = .error (.unterminatedQuote found quote) →
        ∃ place, script.toList[place]? = some quote ∧
          found = 1 + lineFeeds (script.toList.take place) := by
  intro h
  have herror : parseScript "CREATE TABLE t (a INT /*\n*/ COMMENT 'oops" =
      .error (.unterminatedQuote 1 '\'') := by decide +kernel
  have hquotes : ∀ place < 41,
      "CREATE TABLE t (a INT /*\n*/ COMMENT 'oops".toList[place]? = some '\'' →
        1 ≠ 1 + lineFeeds ("CREATE TABLE t (a INT /*\n*/ COMMENT 'oops".toList.take place) := by
    decide +kernel
  obtain ⟨place, hplace, hline⟩ := h _ _ _ herror
  have hbound : place < 41 := (List.getElem?_eq_some_iff.1 hplace).1
  exact hquotes place hbound hplace hline

end Script
end Sql
end SchemaLint
