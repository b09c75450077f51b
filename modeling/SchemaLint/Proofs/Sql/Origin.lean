import SchemaLint.Proofs.Sql.Placement

/-!
# Where the text of a chunk comes from

From its first character on a chunk is made of pieces of the script: characters that are kept,
comments that are left out, and comments in the place of which a space stands.  The splitter does
not say which; a trace follows its moves and does.

* `Piece` - a piece of a chunk: what stands in the script, and what gets into the chunk.
* `piece_move` - what one move adds to the chunk.
* `traces` - the pieces of all chunks of a script.
* `traces_record` - the chunks are what their traces say.
* `Trace.lineFeeds_source` - only comments in marks hide line feeds.
-/

namespace SchemaLint
namespace Sql
namespace Script

open Text (isWhite lineFeeds)

/-- A piece of a script inside a chunk. -/
inductive Piece where
  /-- Characters that get into the chunk. -/
  | kept (cs : List Char)
  /-- A comment that ends with its line, without the line feed. -/
  | lineComment (cs : List Char)
  /-- A comment in marks, with its marks. -/
  | blockComment (cs : List Char)
deriving DecidableEq

namespace Piece

/-- What stands in the script. -/
def source : Piece → List Char
  | kept cs | lineComment cs | blockComment cs => cs

/-- What gets into the chunk. -/
def text : Piece → List Char
  | kept cs => cs
  | lineComment _ => []
  | blockComment _ => [' ']

/-- A comment in marks. -/
def marked? : Piece → Option (List Char)
  | blockComment cs => some cs
  | kept _ | lineComment _ => none

/-- A comment begins with its marks, or stays in its line. -/
def WellFormed : Piece → Prop
  | kept _ => True
  | lineComment cs => '\n' ∉ cs
  | blockComment cs => ['/', '*'] <+: cs

/-- The line feeds of a piece get into the chunk, unless they are in a comment in marks. -/
theorem WellFormed.lineFeeds_source {piece : Piece} (h : piece.WellFormed) :
    lineFeeds piece.source = lineFeeds piece.text + lineFeeds (piece.marked?.getD []) := by
  cases piece with
  | kept cs => rfl
  | lineComment cs => exact List.count_eq_zero_of_not_mem h
  | blockComment cs => exact (Nat.zero_add _).symm

end Piece

/-- The comments in marks of some pieces. -/
def markedComments (pieces : List Piece) : List (List Char) :=
  pieces.filterMap Piece.marked?

theorem lineFeeds_source {pieces : List Piece} (h : ∀ piece ∈ pieces, piece.WellFormed) :
    lineFeeds (pieces.flatMap Piece.source) =
      lineFeeds (pieces.flatMap Piece.text) + lineFeeds (markedComments pieces).flatten := by
  induction pieces with
  | nil => rfl
  | cons piece pieces ih =>
      obtain ⟨hpiece, hpieces⟩ := List.forall_mem_cons.1 h
      have hmarked : lineFeeds (markedComments (piece :: pieces)).flatten =
          lineFeeds (piece.marked?.getD []) + lineFeeds (markedComments pieces).flatten := by
        cases hcomment : piece.marked? with
        | none => 
            rw [markedComments, List.filterMap_cons_none hcomment]
            exact (Nat.zero_add _).symm
        | some cs =>
            rw [markedComments, List.filterMap_cons_some hcomment, List.flatten_cons,
              Text.lineFeeds_append]
            rfl
      rw [List.flatMap_cons, List.flatMap_cons, Text.lineFeeds_append, Text.lineFeeds_append,
        hpiece.lineFeeds_source, ih hpieces, hmarked]
      omega

/-! ### One move -/

section Move

variable {cursor : Cursor} {c : Char} {cs : List Char}

/-- What a move passes. -/
def passed (cursor : Cursor) (c : Char) (cs : List Char) : List Char :=
  (c :: cs).take (cs.length + 1 - (move cursor c cs).rest.length)

/-- The piece that a move passes inside a chunk. -/
def piece (cursor : Cursor) (c : Char) (cs : List Char) : Piece :=
  if c = '\n' then .kept (passed cursor c cs)
  else if isQuote c then .kept (passed cursor c cs)
  else if beginsComment c cs then .lineComment (passed cursor c cs)
  else if c = '/' ∧ cs.head? = some '*' then .blockComment (passed cursor c cs)
  else .kept (passed cursor c cs)

theorem source_piece (cursor : Cursor) (c : Char) (cs : List Char) :
    (piece cursor c cs).source = passed cursor c cs := by
  unfold piece
  split_ifs <;> rfl

theorem passed_eq {front : List Char} (h : front ++ (move cursor c cs).rest = c :: cs) :
    passed cursor c cs = front := by
  have hlength := congrArg List.length h
  rw [List.length_append, List.length_cons] at hlength
  rw [passed, ← h, List.take_left' (by omega)]

theorem passed_append (cursor : Cursor) (c : Char) (cs : List Char) :
    passed cursor c cs ++ (move cursor c cs).rest = c :: cs := by
  obtain ⟨front, hfront⟩ := move_suffix cursor c cs
  have hall : c :: front ++ (move cursor c cs).rest = c :: cs := congrArg (c :: ·) hfront
  rw [passed_eq hall, hall]

/-- A character that gets into the chunk, or with which one begins on the line of the cursor. -/
theorem Cursor.pending_push {cursor : Cursor} {c : Char}
    (h : (cursor.push c).pending.isSome = true) : (cursor.push c).pending =
      some ((cursor.pending.getD ⟨cursor.line, []⟩).extend [c]) := by
  unfold push at h ⊢
  split
  · next pending hpending => simp [Pending.extend, hpending]
  · next hpending =>
      rw [hpending] at h
      split
      · next hwhite => simp [hwhite, hpending] at h
      · simp [Pending.extend, hpending]

theorem Cursor.pending_push_of_isWhite {cursor : Cursor} {c : Char}
    (hpending : cursor.pending = none) (hc : isWhite c = true) :
    (cursor.push c).pending = none := by
  simp [push, hpending, hc]

theorem Cursor.pending_of_push {cursor : Cursor} {c : Char} (h : (cursor.push c).pending = none) :
    cursor.pending = none := by
  cases hpending : cursor.pending with
  | none => rfl
  | some pending => simp [push, hpending] at h

/-- Where a chunk may be read, no command is. -/
theorem move_eq_turn (h : (move cursor c cs).cursor.pending.isSome = true) :
    move cursor c cs = turn cursor c cs := by
  unfold move at h ⊢
  split
  · next delimiter hcommand =>
      rw [hcommand] at h
      unfold command? at hcommand
      split at hcommand
      · next hplace =>
          obtain ⟨-, hnone⟩ := Bool.and_eq_true_iff.1 hplace
          rw [Option.isNone_iff_eq_none] at hnone
          simp [hnone] at h
      · cases hcommand
  · rfl

/-- A piece of a chunk that is being read after the move is well-formed.  Its text is the last part
of the chunk, and all of it if the move has begun the chunk. -/
theorem piece_move (h : (move cursor c cs).cursor.pending.isSome = true) :
    (piece cursor c cs).WellFormed ∧ (move cursor c cs).cursor.pending =
      some ((cursor.pending.getD ⟨cursor.line, []⟩).extend (piece cursor c cs).text.reverse) := by
  have hpassed := @passed_eq cursor c cs
  have hturn := move_eq_turn h
  unfold piece
  rw [hturn] at h hpassed ⊢
  -- the cases of the piece are those of the turn
  unfold turn at h hpassed ⊢
  split_ifs at h hpassed ⊢ with hfeed hquote hcomment hblock hend
  · rw [@hpassed [c] rfl]
    exact ⟨trivial, Cursor.pending_push h⟩
  · have hpush : (cursor.inLine.push c).pending.isSome = true :=
      (cursor.held_take c fun _ => isWhite_eq_false_of_isQuote hquote).1
    obtain ⟨front, hfront, hgains⟩ := gains_quoted c _ cs hpush
    refine ⟨trivial, ?_⟩
    rw [@hpassed (c :: front) (congrArg (c :: ·) hfront), hgains, Cursor.pending_push hpush]
    simp [Pending.extend, Piece.text, Cursor.inLine]
  · obtain ⟨pending, hpending⟩ := Option.isSome_iff_exists.1 h
    have hsame : cursor.pending = some pending := hpending
    have hfront : (c :: cs.takeWhile (· != '\n')) ++ Lexeme.afterLineComment cs = c :: cs :=
      congrArg (c :: ·) List.takeWhile_append_dropWhile
    rw [hpassed hfront, hpending, hsame]
    refine ⟨fun hmem => ?_, rfl⟩
    rcases List.mem_cons.1 hmem with heq | hmem
    · exact hfeed heq.symm
    · simpa using List.mem_takeWhile_imp hmem
  · obtain ⟨rfl, hstar⟩ := hblock
    obtain ⟨rest, rfl⟩ := List.head?_eq_some_iff.1 hstar
    obtain ⟨front, hfront⟩ := blockComment_suffix cursor.inLine rest
    have hpass : (blockComment cursor.inLine rest).1.pending = cursor.pending :=
      blockComment_pending _ _
    rw [@hpassed ('/' :: '*' :: front) (congrArg ('/' :: '*' :: ·) hfront)]
    refine ⟨⟨front, rfl⟩, ?_⟩
    change ((blockComment cursor.inLine rest).1.push ' ').pending.isSome = true at h
    change ((blockComment cursor.inLine rest).1.push ' ').pending = _
    rw [Cursor.pending_push h, hpass]
    cases hpending : cursor.pending with
    | some pending => rfl
    | none =>
        -- a space begins no chunk
        rw [Cursor.pending_push_of_isWhite (hpass.trans hpending) rfl] at h
        cases h
  · cases h
  · rw [@hpassed [c] rfl]
    exact ⟨trivial, Cursor.pending_push h⟩

/-- A move finishes a chunk if none is being read after it. -/
theorem chunks_move (cursor : Cursor) (c : Char) (cs : List Char) :
    (move cursor c cs).chunks =
      if (move cursor c cs).cursor.pending.isSome then [] else cursor.finished := by
  rcases move_cases cursor c cs with ⟨hchunks, hkeeps⟩ | ⟨hchunks, hnone⟩
  · rw [hchunks]
    split
    · rfl
    · next hnone =>
        -- a move that begins no chunk and finishes none has come to none
        refine (cursor.finished_of_none ?_).symm
        rw [Bool.not_eq_true, Option.isSome_eq_false_iff, Option.isNone_iff_eq_none] at hnone
        rcases hkeeps with hkeeps | hkeeps
        · exact hkeeps.pending_of_none hnone
        · exact @Cursor.pending_of_push cursor.inLine c (hkeeps.pending_of_none hnone)
  · rw [hchunks, hnone]
    rfl

end Move

/-! ### Traces -/

/-- What the splitter has passed of a script: all up to the chunk that is being read, and the pieces
of that chunk. -/
structure Trace where
  before : List Char
  pieces : List Piece

namespace Trace

/-- What stands in the script from the beginning of the chunk on. -/
def source (trace : Trace) : List Char :=
  trace.pieces.flatMap Piece.source

/-- What is in the chunk. -/
def text (trace : Trace) : List Char :=
  trace.pieces.flatMap Piece.text

/-- The trace after one more piece of the chunk. -/
def add (trace : Trace) (piece : Piece) : Trace :=
  { trace with pieces := trace.pieces ++ [piece] }

/-- The trace after what is in no chunk. -/
def skip (trace : Trace) (cs : List Char) : Trace where
  before := trace.before ++ trace.source ++ cs
  pieces := []

end Trace

/-- The traces of the chunks of a text, from a cursor on. -/
def tracesFrom (cursor : Cursor) (trace : Trace) (text : List Char) : List Trace :=
  match text with
  | [] => if cursor.pending.isSome then [trace] else []
  | c :: cs =>
      have := (move_suffix cursor c cs).length_le
      let next := move cursor c cs
      if next.cursor.pending.isSome then
        tracesFrom next.cursor (trace.add (piece cursor c cs)) next.rest
      else
        (if cursor.pending.isSome then [trace] else []) ++
          tracesFrom next.cursor (trace.skip (passed cursor c cs)) next.rest
termination_by text.length
decreasing_by
  all_goals
    simp only [List.length_cons]
    omega

/-- The traces of the chunks of a script. -/
def traces (script : String) : List Trace :=
  tracesFrom {} ⟨[], []⟩ script.toList

/-- How far the splitter has come in a script, and that the trace says so. -/
structure Tracks (script : List Char) (cursor : Cursor) (trace : Trace) (text : List Char) :
    Prop where
  script_eq : trace.before ++ trace.source ++ text = script
  delimiter : '\n' ∉ cursor.delimiter
  line_eq : cursor.line = 1 + lineFeeds (trace.before ++ trace.source)
  wellFormed : ∀ piece ∈ trace.pieces, piece.WellFormed
  pieces_eq : cursor.pending = none → trace.pieces = []
  pending_eq : ∀ pending ∈ cursor.pending,
    pending = ⟨1 + lineFeeds trace.before, trace.text.reverse⟩

/-- The chunk is made of the pieces that stand in the script behind what is before it. -/
structure Records (script : List Char) (trace : Trace) (chunk : Chunk) : Prop where
  script_eq : ∃ after, trace.before ++ trace.source ++ after = script
  wellFormed : ∀ piece ∈ trace.pieces, piece.WellFormed
  text_eq : chunk.text.toList = trace.text.rdropWhile isWhite
  line_eq : chunk.line = 1 + lineFeeds trace.before

variable {script text : List Char} {cursor : Cursor} {trace : Trace}

theorem Tracks.finished (h : Tracks script cursor trace text) :
    List.Forall₂ (Records script) (if cursor.pending.isSome then [trace] else [])
      cursor.finished := by
  cases hpending : cursor.pending with
  | none =>
      rw [cursor.finished_of_none hpending]
      exact .nil
  | some pending =>
      have hsame := h.pending_eq pending hpending
      have hfinished : cursor.finished = [pending.chunk] := by
        rw [Cursor.finished, hpending]
        rfl
      rw [hfinished, hsame]
      exact .cons ⟨⟨text, h.script_eq⟩, h.wellFormed, String.toList_ofList, rfl⟩ .nil

theorem Tracks.line_move {c : Char} {cs : List Char} (h : Tracks script cursor trace (c :: cs)) :
    (move cursor c cs).cursor.line =
      1 + lineFeeds (trace.before ++ trace.source ++ passed cursor c cs) := by
  have hmove := move_line h.delimiter c cs
  have hcs := congrArg lineFeeds (passed_append cursor c cs)
  rw [Text.lineFeeds_append] at hcs
  rw [h.line_eq] at hmove
  rw [Text.lineFeeds_append]
  omega

/-- A move inside a chunk, or one that begins it. -/
theorem Tracks.inside {c : Char} {cs : List Char} (h : Tracks script cursor trace (c :: cs))
    (hsome : (move cursor c cs).cursor.pending.isSome = true) :
    Tracks script (move cursor c cs).cursor (trace.add (piece cursor c cs))
      (move cursor c cs).rest := by
  have hsource : (trace.add (piece cursor c cs)).source = trace.source ++ passed cursor c cs := by
    simp [Trace.source, Trace.add, source_piece]
  have htext : (trace.add (piece cursor c cs)).text = trace.text ++ (piece cursor c cs).text := by
    simp [Trace.text, Trace.add]
  have hbefore : (trace.add (piece cursor c cs)).before = trace.before := rfl
  -- the chunk so far, or an empty one if the move begins it
  have hpending : cursor.pending.getD ⟨cursor.line, []⟩ =
      ⟨1 + lineFeeds trace.before, trace.text.reverse⟩ := by
    cases hpending : cursor.pending with
    | some pending => exact h.pending_eq pending hpending
    | none =>
        have hpieces := h.pieces_eq hpending
        rw [h.line_eq]
        simp [Trace.source, Trace.text, hpieces]
  constructor
  case script_eq =>
    rw [hbefore, hsource, List.append_assoc, List.append_assoc, passed_append, ← List.append_assoc,
      h.script_eq]
  case delimiter => exact not_mem_move_delimiter h.delimiter
  case line_eq => rw [hbefore, hsource, ← List.append_assoc, h.line_move]
  case wellFormed =>
    intro other hmem
    rcases List.mem_append.1 hmem with hmem | hmem
    · exact h.wellFormed other hmem
    · rw [List.mem_singleton.1 hmem]
      exact (piece_move hsome).1
  case pieces_eq =>
    intro hnone
    rw [hnone] at hsome
    cases hsome
  case pending_eq =>
    intro pending hmem
    rw [(piece_move hsome).2, hpending] at hmem
    cases hmem
    rw [hbefore, htext, List.reverse_append]
    rfl

/-- A move that is in no chunk, or past the end of one. -/
theorem Tracks.outside {c : Char} {cs : List Char} (h : Tracks script cursor trace (c :: cs))
    (hnone : (move cursor c cs).cursor.pending = none) :
    Tracks script (move cursor c cs).cursor (trace.skip (passed cursor c cs))
      (move cursor c cs).rest where
  script_eq := by
    change trace.before ++ trace.source ++ passed cursor c cs ++ [] ++ _ = script
    rw [List.append_nil, List.append_assoc, passed_append, h.script_eq]
  delimiter := not_mem_move_delimiter h.delimiter
  line_eq := by
    change _ = 1 + lineFeeds (trace.before ++ trace.source ++ passed cursor c cs ++ [])
    rw [List.append_nil, h.line_move]
  wellFormed := nofun
  pieces_eq := fun _ => rfl
  pending_eq := by
    rw [hnone]
    nofun

/-- From wherever it has come, the splitter finishes chunks that are made of the pieces of their
traces. -/
theorem Tracks.records {script text : List Char} {cursor : Cursor} {trace : Trace}
    (h : Tracks script cursor trace text) :
    List.Forall₂ (Records script) (tracesFrom cursor trace text) (chunksFrom cursor text) := by
  match text with
  | [] =>
      rw [tracesFrom, chunksFrom]
      exact h.finished
  | c :: cs =>
      have hlength := (move_suffix cursor c cs).length_le
      rw [tracesFrom, chunksFrom_move, chunks_move]
      cases hpending : (move cursor c cs).cursor.pending with
      | some pending =>
          have hsome : (move cursor c cs).cursor.pending.isSome = true := by rw [hpending]; rfl
          exact (h.inside hsome).records
      | none =>
          exact List.rel_append h.finished (h.outside hpending).records
termination_by text.length
decreasing_by
  all_goals
    simp only [List.length_cons]
    omega

/-- The chunks of a script are made of the pieces of their traces. -/
theorem traces_record (script : String) :
    List.Forall₂ (Records script.toList) (traces script) (chunks script) :=
  Tracks.records {
    script_eq := rfl
    delimiter := by decide
    line_eq := rfl
    wellFormed := nofun
    pieces_eq := fun _ => rfl
    pending_eq := nofun }

/-- Every chunk has a trace at its place. -/
theorem exists_trace {script : String} {index : Nat} {chunk : Chunk}
    (h : (chunks script)[index]? = some chunk) :
    ∃ trace, (traces script)[index]? = some trace ∧ Records script.toList trace chunk := by
  obtain ⟨hlength, hrecords⟩ := List.forall₂_iff_get.1 (traces_record script)
  obtain ⟨hbound, rfl⟩ := List.getElem?_eq_some_iff.1 h
  have htrace : index < (traces script).length := hlength ▸ hbound
  exact ⟨_, List.getElem?_eq_getElem htrace, hrecords index htrace hbound⟩

/-- A character is a piece, and so is quoted text or a comment. -/
example : (traces "-- a\nx/*\n*/'b' # c\n;").map Trace.pieces =
    [[.kept ['x'], .blockComment "/*\n*/".toList, .kept "'b'".toList, .kept [' '],
      .lineComment "# c".toList, .kept ['\n']]] := by
  decide +kernel

end Script
end Sql
end SchemaLint
