import SchemaLint.Proofs.Sql.Lines
import SchemaLint.Proofs.Sql.Script
import SchemaLint.Proofs.Text.Runs

/-!
# Scripts one below the other

A script that ends outside of statements, quoted text and comments, with the delimiter that scripts
begin with, leaves the splitter where it begins, only further down.  So a script that is written
below it is read as on its own, and has its lines moved by as much.

* `move` - one turn of the splitter, commands among them; `endFrom` follows the turns to the end.
* `move_append` - a turn that comes to its end is the same in a longer text.
* `line_of_endFrom` - the splitter counts the line feeds that it passes.
* `chunksFrom_shift` - a splitter that begins further down cuts the text in the same way.
-/

namespace SchemaLint
namespace Sql
namespace Script

open Lexeme
open Text (Stops isWhite lineFeeds lineFeeds_append_of_not_mem lineFeeds_cons_of_ne)

/-- Whether quoted text comes to its closing quote.  The opening quote has been read. -/
def quoteCloses (quote : Char) : List Char → Bool
  | [] => false
  | [c] => c == quote
  | c :: d :: rest =>
      if c = '\\' ∧ quote ≠ '\x60' then
        quoteCloses quote rest
      else if c = quote then
        if d = quote then quoteCloses quote rest else true
      else
        quoteCloses quote (d :: rest)

/-- Whether a comment comes to the mark that ends it. -/
def commentCloses : List Char → Bool
  | [] => false
  | '*' :: '/' :: _ => true
  | _ :: rest => commentCloses rest

/-- Whether what `c` opens before this text is closed in it. -/
def closes (c : Char) (cs : List Char) : Bool :=
  if isQuote c then quoteCloses c cs
  else if c = '/' ∧ cs.head? = some '*' then commentCloses (cs.drop 1)
  else true

/-- One turn of the splitter: past a command up to the end of its line, or past what stands in its
place. -/
def move (cursor : Cursor) (c : Char) (cs : List Char) : Turn :=
  match command? cursor (c :: cs) with
  | some delimiter => ⟨[], { cursor with delimiter }, afterLineComment cs⟩
  | none => turn cursor c cs

theorem move_suffix (cursor : Cursor) (c : Char) (cs : List Char) :
    (move cursor c cs).rest <:+ cs := by
  unfold move
  split
  · exact List.dropWhile_suffix _
  · exact turn_suffix cursor c cs

/-- Where the splitter stands at the end of a text; nowhere, if the end is in quoted text or in a
comment that has to be closed. -/
def endFrom (cursor : Cursor) (text : List Char) : Option Cursor :=
  match text with
  | [] => some cursor
  | c :: cs =>
      have := (move_suffix cursor c cs).length_le
      if (command? cursor (c :: cs)).isSome || closes c cs then
        endFrom (move cursor c cs).cursor (move cursor c cs).rest
      else
        none
termination_by text.length
decreasing_by
  simp only [List.length_cons]
  omega

/-- The end of the script is in no statement, in no quoted text and in no comment that has to be
closed, and the delimiter there is the semicolon. -/
def EndsClean (script : String) : Prop :=
  ∃ last ∈ endFrom {} script.toList, last.pending.isNone = true ∧ last.delimiter = [';']

instance (script : String) : Decidable (EndsClean script) :=
  inferInstanceAs (Decidable (∃ last ∈ endFrom {} script.toList,
    last.pending.isNone = true ∧ last.delimiter = [';']))

theorem chunksFrom_move (cursor : Cursor) (c : Char) (cs : List Char) :
    chunksFrom cursor (c :: cs) = (move cursor c cs).chunks ++
      chunksFrom (move cursor c cs).cursor (move cursor c cs).rest := by
  unfold move
  split
  · next delimiter hcommand =>
      rw [chunksFrom.eq_def]
      simp only [hcommand]
      rfl
  · next hcommand => exact chunksFrom_cons hcommand

/-! ### The delimiter -/

section Delimiter

variable {cursor : Cursor} {c : Char} {cs : List Char}

theorem quoted_delimiter (quote : Char) (cursor : Cursor) (cs : List Char) :
    (quoted quote cursor cs).1.delimiter = cursor.delimiter := by
  fun_induction quoted quote cursor cs with
  | case1 => rfl
  | case2 cursor c => exact cursor.push_delimiter c
  | case3 cursor c d rest next _ ih =>
      rw [ih]
      exact (next.push_delimiter d).trans (cursor.push_delimiter c)
  | case4 cursor rest next _ ih =>
      rw [ih]
      exact (next.push_delimiter quote).trans (cursor.push_delimiter quote)
  | case5 cursor => exact cursor.push_delimiter quote
  | case6 cursor c d rest next _ _ ih =>
      rw [ih]
      exact cursor.push_delimiter c

theorem blockComment_delimiter (cursor : Cursor) (cs : List Char) :
    (blockComment cursor cs).1.delimiter = cursor.delimiter := by
  fun_induction blockComment cursor cs with
  | case1 => rfl
  | case2 => rfl
  | case3 _ _ _ _ ih => exact ih

/-- Only commands change the delimiter. -/
theorem turn_cursor_delimiter (cursor : Cursor) (c : Char) (cs : List Char) :
    (turn cursor c cs).cursor.delimiter = cursor.delimiter := by
  unfold turn
  split_ifs
  · exact cursor.push_delimiter c
  · exact (quoted_delimiter _ _ _).trans (cursor.inLine.push_delimiter c)
  · rfl
  · exact (Cursor.push_delimiter _ _).trans (blockComment_delimiter _ _)
  · rfl
  · exact cursor.inLine.push_delimiter c

/-- The delimiter of a command is a word. -/
theorem not_mem_of_delimiterCommand? {line delimiter : List Char}
    (h : delimiterCommand? line = some delimiter) : '\n' ∉ delimiter := by
  intro hmem
  unfold delimiterCommand? at h
  split at h
  · next command second runs hruns =>
      split at h
      · cases h
        have hrun : delimiter ∈ Text.runsOutside isWhite line := by simp [hruns]
        exact absurd (Text.eq_false_of_mem_runsOutside hrun hmem) (by decide)
      · cases h
  · cases h

/-- The delimiter never has a line feed. -/
theorem not_mem_move_delimiter (h : '\n' ∉ cursor.delimiter) :
    '\n' ∉ (move cursor c cs).cursor.delimiter := by
  unfold move
  split
  · next delimiter hcommand =>
      unfold command? at hcommand
      split at hcommand
      · exact not_mem_of_delimiterCommand? hcommand
      · cases hcommand
  · rwa [turn_cursor_delimiter]

end Delimiter

/-! ### A longer text -/

section Append

variable {cursor : Cursor} {c : Char} {cs rest : List Char}

theorem quoted_append {quote : Char} (hquote : isQuote quote = true)
    (h : quoteCloses quote cs = true) :
    quoted quote cursor (cs ++ '\n' :: rest) =
      ((quoted quote cursor cs).1, (quoted quote cursor cs).2 ++ '\n' :: rest) := by
  have hfeed : '\n' ≠ quote := by
    rintro rfl
    cases hquote
  have hback : ¬ (quote = '\\' ∧ quote ≠ '\x60') := by
    rintro ⟨rfl, -⟩
    cases hquote
  fun_induction quoted quote cursor cs with
  | case1 => cases h
  | case2 cursor c =>
      obtain rfl : c = quote := by simpa [quoteCloses] using h
      rw [List.singleton_append, quoted, if_neg hback, if_pos rfl, if_neg hfeed]
      rfl
  | case3 cursor c d cs next hescape ih =>
      rw [quoteCloses, if_pos hescape] at h
      rw [List.cons_append, List.cons_append, quoted, if_pos hescape]
      exact ih h
  | case4 cursor cs next hescape ih =>
      rw [quoteCloses, if_neg hescape, if_pos rfl, if_pos rfl] at h
      rw [List.cons_append, List.cons_append, quoted, if_neg hescape, if_pos rfl, if_pos rfl]
      exact ih h
  | case5 cursor d cs hd next hescape =>
      rw [List.cons_append, List.cons_append, quoted, if_neg hescape, if_pos rfl, if_neg hd]
  | case6 cursor c d cs next hescape hc ih =>
      rw [quoteCloses, if_neg hescape, if_neg hc] at h
      rw [List.cons_append, List.cons_append, quoted, if_neg hescape, if_neg hc]
      exact ih h

theorem blockComment_append (h : commentCloses cs = true) :
    blockComment cursor (cs ++ '\n' :: rest) =
      ((blockComment cursor cs).1, (blockComment cursor cs).2 ++ '\n' :: rest) := by
  fun_induction blockComment cursor cs with
  | case1 => cases h
  | case2 => rfl
  | case3 cursor c cs hend ih =>
      rw [commentCloses] at h
      · rw [List.cons_append, blockComment]
        · exact ih h
        · intro tail hc htail
          cases cs with
          | nil => cases htail
          | cons d cs =>
              cases htail
              exact hend _ hc rfl
      · exact hend

theorem isPrefixOf_append {delimiter : List Char} (h : '\n' ∉ delimiter) (cs rest : List Char) :
    delimiter.isPrefixOf (cs ++ '\n' :: rest) = delimiter.isPrefixOf cs := by
  induction delimiter generalizing cs with
  | nil => rfl
  | cons d delimiter ih =>
      rw [List.mem_cons, not_or] at h
      cases cs with
      | nil =>
          have hd : (d == '\n') = false := by simpa using Ne.symm h.1
          rw [List.nil_append, List.isPrefixOf_cons_cons, hd]
          rfl
      | cons c cs =>
          rw [List.cons_append, List.isPrefixOf_cons_cons, List.isPrefixOf_cons_cons, ih h.2]

theorem beginsComment_append (c : Char) (cs rest : List Char) :
    beginsComment c (cs ++ '\n' :: rest) = beginsComment c cs := by
  have hwhite : isWhite '\n' = true := by decide
  rcases cs with _ | ⟨d, _ | ⟨e, cs⟩⟩ <;> simp [beginsComment, hwhite]

theorem beginsBlockComment_append (c : Char) (cs rest : List Char) :
    (c = '/' ∧ (cs ++ '\n' :: rest).head? = some '*') ↔ (c = '/' ∧ cs.head? = some '*') := by
  cases cs <;> simp

/-- The line that the splitter looks at for a command ends with the line feed. -/
theorem command?_append (cursor : Cursor) (text rest : List Char) :
    command? cursor (text ++ '\n' :: rest) = command? cursor text := by
  rw [command?, command?, Stops.takeWhile_append (Text.stops_cons (by decide))]

/-- No command stands on a line without characters. -/
theorem command?_feed (cursor : Cursor) (cs : List Char) : command? cursor ('\n' :: cs) = none := by
  unfold command?
  split <;> rfl

/-- A turn in a text that goes on behind it. -/
def Turn.followedBy (turn : Turn) (text : List Char) : Turn :=
  { turn with rest := turn.rest ++ text }

/-- A turn that closes what it opens is the same in a longer text. -/
theorem turn_append (hdelimiter : '\n' ∉ cursor.delimiter) (hcloses : closes c cs = true) :
    turn cursor c (cs ++ '\n' :: rest) = (turn cursor c cs).followedBy ('\n' :: rest) := by
  have hprefix : cursor.delimiter.isPrefixOf (c :: (cs ++ '\n' :: rest)) =
      cursor.delimiter.isPrefixOf (c :: cs) := isPrefixOf_append hdelimiter (c :: cs) rest
  unfold turn
  simp only [beginsComment_append, beginsBlockComment_append, hprefix]
  split_ifs with hfeed hquote hcomment hblock hend
  · rfl
  · rw [closes, if_pos hquote] at hcloses
    rw [quoted_append hquote hcloses]
    rfl
  · rw [afterLineComment_append]
    rfl
  · rw [closes, if_neg hquote, if_pos hblock] at hcloses
    have hlength : 1 ≤ cs.length := by
      cases cs with
      | nil => cases hblock.2
      | cons d cs => simp
    rw [List.drop_append_of_le_length hlength, blockComment_append hcloses]
    rfl
  · have hlength := (List.isPrefixOf_iff_prefix.1 hend).length_le
    rw [List.length_cons] at hlength
    rw [List.drop_append_of_le_length (by omega)]
    rfl
  · rfl

theorem move_append (hdelimiter : '\n' ∉ cursor.delimiter)
    (hcloses : ((command? cursor (c :: cs)).isSome || closes c cs) = true) :
    move cursor c (cs ++ '\n' :: rest) = (move cursor c cs).followedBy ('\n' :: rest) := by
  have hcommand : command? cursor (c :: (cs ++ '\n' :: rest)) = command? cursor (c :: cs) :=
    command?_append cursor (c :: cs) rest
  unfold move
  rw [hcommand]
  split
  · rw [afterLineComment_append]
    rfl
  · next hnone =>
      rw [hnone] at hcloses
      exact turn_append hdelimiter hcloses

/-- The chunks of a text that goes on after its end, where no chunk is being read. -/
theorem chunksFrom_append {text : List Char} {last : Cursor} (hdelimiter : '\n' ∉ cursor.delimiter)
    (hlast : endFrom cursor text = some last) (hpending : last.pending = none) :
    chunksFrom cursor (text ++ '\n' :: rest) =
      chunksFrom cursor text ++ chunksFrom last ('\n' :: rest) := by
  fun_induction endFrom cursor text with
  | case1 cursor =>
      cases hlast
      rw [chunksFrom, Cursor.finished_of_none last hpending]
      rfl
  | case2 cursor c cs _ hcloses ih =>
      rw [List.cons_append, chunksFrom_move, chunksFrom_move, move_append hdelimiter hcloses,
        List.append_assoc]
      exact congrArg _ (ih (not_mem_move_delimiter hdelimiter) hlast)
  | case3 => cases hlast

end Append

/-! ### Lines that are passed -/

section Lines

variable {cursor : Cursor} {c : Char} {cs : List Char}

namespace Cursor

theorem push_line (cursor : Cursor) (c : Char) : (cursor.push c).line = cursor.line := by
  unfold push
  split
  · rfl
  · split <;> rfl

/-- A character that is read moves the cursor past its own line feed only. -/
theorem push_advance_line (cursor : Cursor) (c : Char) (cs : List Char) :
    ((cursor.push c).advance c).line + lineFeeds cs = cursor.line + lineFeeds (c :: cs) := by
  rw [advance, push_line, lineAfter_add_lineFeeds]

end Cursor

theorem quoted_line {quote : Char} (hquote : quote ≠ '\n') (cursor : Cursor) (cs : List Char) :
    (quoted quote cursor cs).1.line + lineFeeds (quoted quote cursor cs).2 =
      cursor.line + lineFeeds cs := by
  fun_induction quoted quote cursor cs with
  | case1 => rfl
  | case2 cursor c => exact cursor.push_advance_line c []
  | case3 cursor c d rest next _ ih =>
      rw [ih, next.push_advance_line d rest, cursor.push_advance_line c]
  | case4 cursor rest next _ ih =>
      rw [ih, Cursor.push_line, ← lineFeeds_cons_of_ne hquote rest, cursor.push_advance_line]
  | case5 cursor d rest _ next => exact cursor.push_advance_line quote (d :: rest)
  | case6 cursor c d rest next _ _ ih => rw [ih, cursor.push_advance_line c]

theorem blockComment_line (cursor : Cursor) (cs : List Char) :
    (blockComment cursor cs).1.line + lineFeeds (blockComment cursor cs).2 =
      cursor.line + lineFeeds cs := by
  fun_induction blockComment cursor cs with
  | case1 => rfl
  | case2 cursor rest =>
      rw [lineFeeds_cons_of_ne (by decide), lineFeeds_cons_of_ne (by decide)]
  | case3 cursor c rest _ ih => rw [ih, Cursor.advance, lineAfter_add_lineFeeds]

theorem lineFeeds_drop_delimiter {delimiter : List Char} (hdelimiter : '\n' ∉ delimiter)
    (h : delimiter.isPrefixOf (c :: cs) = true) :
    lineFeeds (cs.drop (delimiter.length - 1)) = lineFeeds cs := by
  cases delimiter with
  | nil => rfl
  | cons d delimiter =>
      rw [List.isPrefixOf_cons_cons, Bool.and_eq_true, List.isPrefixOf_iff_prefix] at h
      obtain ⟨-, rest, rfl⟩ := h
      rw [List.length_cons, Nat.add_sub_cancel, List.drop_left,
        lineFeeds_append_of_not_mem fun h => hdelimiter (List.mem_cons_of_mem _ h)]

/-- A turn counts the line feeds that it passes. -/
theorem turn_line (hdelimiter : '\n' ∉ cursor.delimiter) (c : Char) (cs : List Char) :
    (turn cursor c cs).cursor.line + lineFeeds (turn cursor c cs).rest =
      cursor.line + lineFeeds (c :: cs) := by
  unfold turn
  split_ifs with hfeed hquote hcomment hblock hend
  · exact cursor.push_advance_line c cs
  · rw [quoted_line hfeed, Cursor.push_line, lineFeeds_cons_of_ne hfeed]
    rfl
  · rw [lineFeeds_afterLineComment, lineFeeds_cons_of_ne hfeed]
    rfl
  · obtain ⟨rest, rfl⟩ := List.head?_eq_some_iff.1 hblock.2
    rw [Cursor.pushGap, Cursor.push_line, blockComment_line, lineFeeds_cons_of_ne hfeed,
      lineFeeds_cons_of_ne (by decide)]
    rfl
  · rw [lineFeeds_cons_of_ne hfeed, lineFeeds_drop_delimiter hdelimiter hend]
    rfl
  · rw [Cursor.push_line, lineFeeds_cons_of_ne hfeed]
    rfl

theorem move_line (hdelimiter : '\n' ∉ cursor.delimiter) (c : Char) (cs : List Char) :
    (move cursor c cs).cursor.line + lineFeeds (move cursor c cs).rest =
      cursor.line + lineFeeds (c :: cs) := by
  unfold move
  split
  · next delimiter hcommand =>
      have hfeed : c ≠ '\n' := by
        rintro rfl
        rw [command?_feed] at hcommand
        cases hcommand
      rw [lineFeeds_afterLineComment, lineFeeds_cons_of_ne hfeed]
  · exact turn_line hdelimiter c cs

/-- The splitter counts the line feeds of a text. -/
theorem line_of_endFrom {text : List Char} {last : Cursor} (hdelimiter : '\n' ∉ cursor.delimiter)
    (hlast : endFrom cursor text = some last) : last.line = cursor.line + lineFeeds text := by
  fun_induction endFrom cursor text with
  | case1 cursor =>
      cases hlast
      rfl
  | case2 cursor c cs _ _ ih =>
      rw [ih (not_mem_move_delimiter hdelimiter) hlast, move_line hdelimiter]
  | case3 => cases hlast

end Lines

/-! ### Beginning further down -/

section Shift

variable (lines : Nat)

/-- A cursor that stands some lines further down, with the chunk that it is reading. -/
def Cursor.shift (cursor : Cursor) : Cursor :=
  { cursor with
    line := cursor.line + lines
    pending := cursor.pending.map fun pending => { pending with line := pending.line + lines } }

/-- A turn that is made some lines further down. -/
def Turn.shift (turn : Turn) : Turn where
  chunks := turn.chunks.map (·.shift lines)
  cursor := turn.cursor.shift lines
  rest := turn.rest

namespace Cursor

variable (cursor : Cursor) (c : Char)

theorem shift_push : (cursor.shift lines).push c = (cursor.push c).shift lines := by
  rcases cursor with ⟨delimiter, line, lineStart, _ | pending⟩
  · simp only [shift, push, Option.map_none]
    split <;> rfl
  · rfl

theorem shift_advance : (cursor.shift lines).advance c = (cursor.advance c).shift lines := by
  simp only [advance, shift, lineAfter_add]

theorem shift_finished : (cursor.shift lines).finished = cursor.finished.map (·.shift lines) := by
  rcases cursor with ⟨delimiter, line, lineStart, _ | pending⟩ <;> rfl

end Cursor

theorem quoted_shift (quote : Char) (cursor : Cursor) (cs : List Char) :
    quoted quote (cursor.shift lines) cs =
      ((quoted quote cursor cs).1.shift lines, (quoted quote cursor cs).2) := by
  fun_induction quoted quote cursor cs with
  | case1 => rfl
  | case2 cursor c => rw [quoted, Cursor.shift_push, Cursor.shift_advance]
  | case3 cursor c d rest next hescape ih =>
      rw [quoted, if_pos hescape, Cursor.shift_push, Cursor.shift_advance, Cursor.shift_push,
        Cursor.shift_advance, ih]
  | case4 cursor rest next hescape ih =>
      rw [quoted, if_neg hescape, if_pos rfl, if_pos rfl, Cursor.shift_push, Cursor.shift_advance,
        Cursor.shift_push, ih]
  | case5 cursor d rest hd next hescape =>
      rw [quoted, if_neg hescape, if_pos rfl, if_neg hd, Cursor.shift_push, Cursor.shift_advance]
  | case6 cursor c d rest next hescape hc ih =>
      rw [quoted, if_neg hescape, if_neg hc, Cursor.shift_push, Cursor.shift_advance, ih]

theorem blockComment_shift (cursor : Cursor) (cs : List Char) :
    blockComment (cursor.shift lines) cs =
      ((blockComment cursor cs).1.shift lines, (blockComment cursor cs).2) := by
  fun_induction blockComment cursor cs with
  | case1 => rfl
  | case2 => rfl
  | case3 cursor c rest hend ih =>
      rw [blockComment, Cursor.shift_advance, ih]
      exact hend

theorem command?_shift (cursor : Cursor) (text : List Char) :
    command? (cursor.shift lines) text = command? cursor text := by
  simp [command?, Cursor.shift]

theorem turn_shift (cursor : Cursor) (c : Char) (cs : List Char) :
    turn (cursor.shift lines) c cs = (turn cursor c cs).shift lines := by
  have hinLine : (cursor.shift lines).inLine = cursor.inLine.shift lines := rfl
  have hdelimiter : (cursor.shift lines).delimiter = cursor.delimiter := rfl
  unfold turn
  simp only [hinLine, hdelimiter, Cursor.shift_push, Cursor.shift_advance, Cursor.shift_finished,
    Cursor.pushGap, quoted_shift, blockComment_shift]
  split_ifs <;> rfl

theorem move_shift (cursor : Cursor) (c : Char) (cs : List Char) :
    move (cursor.shift lines) c cs = (move cursor c cs).shift lines := by
  unfold move
  rw [command?_shift]
  split
  · rfl
  · exact turn_shift lines cursor c cs

/-- A splitter that begins some lines further down cuts a text in the same way. -/
theorem chunksFrom_shift (cursor : Cursor) (text : List Char) :
    chunksFrom (cursor.shift lines) text = (chunksFrom cursor text).map (·.shift lines) := by
  match text with
  | [] => rw [chunksFrom, chunksFrom, Cursor.shift_finished]
  | c :: cs =>
      have := (move_suffix cursor c cs).length_le
      rw [chunksFrom_move, chunksFrom_move, move_shift, List.map_append]
      exact congrArg _ (chunksFrom_shift (move cursor c cs).cursor (move cursor c cs).rest)
termination_by text.length
decreasing_by
  simp only [List.length_cons]
  omega

end Shift

/-- The line feed behind a clean script leaves the splitter where it begins, further down by the
line feeds of the script and one more. -/
theorem move_feed {last : Cursor} (hpending : last.pending = none)
    (hdelimiter : last.delimiter = [';']) {lines : Nat} (hline : last.line = 1 + lines)
    (cs : List Char) : move last '\n' cs = ⟨[], Cursor.shift (lines + 1) {}, cs⟩ := by
  obtain ⟨_, _, lineStart, _⟩ := last
  subst hpending hdelimiter hline
  unfold move
  rw [command?_feed]
  rfl

/-- The chunks of a clean script with another one below it. -/
theorem chunks_append {first : String} (h : EndsClean first) (second : String) :
    chunks (first ++ "\n" ++ second) =
      chunks first ++ (chunks second).map (·.shift (lineFeeds first.toList + 1)) := by
  obtain ⟨last, hlast, hpending, hdelimiter⟩ := h
  have hnone : last.pending = none := Option.isNone_iff_eq_none.1 hpending
  have hline : last.line = 1 + lineFeeds first.toList := line_of_endFrom (by decide) hlast
  have htext : (first ++ "\n" ++ second).toList = first.toList ++ '\n' :: second.toList := by
    simp
  rw [chunks, htext, chunksFrom_append (by decide) hlast hnone, chunksFrom_move,
    move_feed hnone hdelimiter hline, List.nil_append, chunksFrom_shift]
  rfl

end Script

/-- A clean script with another one below it has the statements of both, those of the second one on
lines further down, or the first error of the two. -/
theorem parseScript_append {first : String} (hfirst : Script.EndsClean first) (second : String) :
    let lines := Text.lineFeeds first.toList + 1
    (parseScript (first ++ "\n" ++ second) =
      match parseScript first, parseScript second with
      | .error error, _ => .error error
      | .ok _, .error error => .error (error.shift lines)
      | .ok above, .ok below => .ok (above ++ below.map (·.shift lines))) ∧
    ∀ error, parseScript second = .error error →
      (error.shift lines).line = error.line + lines ∧
        (error.shift lines).reason = error.reason := by
  intro lines
  constructor
  · rw [parseScript, parseScript, parseScript, Script.chunks_append hfirst, List.mapM_append,
      mapM_parse_shift]
    cases (Script.chunks first).mapM Chunk.parse with
    | error error => rfl
    | ok above =>
        cases (Script.chunks second).mapM Chunk.parse with
        | error error => rfl
        | ok below =>
            have hbelow : (below.map (Option.map (·.shift lines))).filterMap id =
                (below.filterMap id).map (·.shift lines) := by
              rw [List.filterMap_map, List.map_filterMap]
              rfl
            change Except.ok ((above ++ below.map (Option.map (·.shift lines))).filterMap id) = _
            rw [List.filterMap_append, hbelow]
            rfl
  · intro error herror
    have hdigest : error ≠ .unreadableDigest := by
      rintro rfl
      exact parseScript_ne_unreadableDigest second herror
    exact ⟨error.line_shift lines hdigest, error.reason_shift lines⟩

/-- A script that sets the delimiter back and ends with a comment, and one below it that is read or
fails six lines further down. -/
theorem parseScript_append_of_delimiters :
    let first := "DELIMITER //\nUSE a; -- x\n// # ;\nDELIMITER ;\nUSE \x60b;\x60; /* end\n */"
    let above : List ScriptStatement := [⟨2, "USE a;", .use "a"⟩, ⟨5, "USE \x60b;\x60", .use "b;"⟩]
    Script.EndsClean first ∧
      parseScript (first ++ "\n" ++ "-- c\nUSE c;") = .ok (above ++ [⟨8, "USE c", .use "c"⟩]) ∧
      parseScript (first ++ "\n" ++ "USE d;\nUSE") = .error (.unexpectedEnd 8 "identifier") := by
  intro first above
  have hclean : Script.EndsClean first := by decide +kernel
  have hlines : Text.lineFeeds first.toList + 1 = 6 := by decide +kernel
  have habove : parseScript first = .ok above := by decide +kernel
  have hbelow : parseScript "-- c\nUSE c;" = .ok [⟨2, "USE c", .use "c"⟩] := by decide +kernel
  have herror : parseScript "USE d;\nUSE" = .error (.unexpectedEnd 2 "identifier") := by
    decide +kernel
  refine ⟨hclean, ?_, ?_⟩
  · rw [(parseScript_append hclean "-- c\nUSE c;").1, habove, hbelow, hlines]
    rfl
  · rw [(parseScript_append hclean "USE d;\nUSE").1, habove, herror, hlines]
    rfl

end Sql
end SchemaLint
