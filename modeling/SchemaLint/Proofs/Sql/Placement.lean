import Mathlib.Data.List.Forall2
import SchemaLint.Proofs.Sql.Concatenation

/-!
# Where chunks begin

A chunk begins with the first character that is not white after the chunk before it, outside of
comments and commands.  The splitter notes its line when it comes to that character, and it has
counted all line feeds up to there.

* `Cursor.KeepsOn` - what is read after a chunk has begun does not change where it began.
* `Cursor.Gains` - what is read gets into the chunk in whole.
* `Begun` - what is known of the chunk at every turn of the splitter.
* `Stands.inOrder` - all chunks from wherever the splitter stands.
* `chunks_beginInOrder` - all chunks of a script, whatever commands are in it.
-/

namespace SchemaLint
namespace Sql
namespace Script

open Text (Stops isWhite lineFeeds)

/-! ### The chunk that is being read -/

/-- The pending chunk with more characters behind it, the last of them first. -/
def Pending.extend (later : List Char) (pending : Pending) : Pending :=
  { pending with reversed := later ++ pending.reversed }

/-- The pending chunk begins with this character, which is not white. -/
def Pending.BeginsWith (pending : Pending) (c : Char) : Prop :=
  isWhite c = false ∧ ∃ later, pending.reversed = later ++ [c]

theorem Pending.BeginsWith.extend {pending : Pending} {c : Char} (h : pending.BeginsWith c)
    (later : List Char) : (pending.extend later).BeginsWith c := by
  obtain ⟨hc, front, hfront⟩ := h
  exact ⟨hc, later ++ front, by rw [Pending.extend, hfront, List.append_assoc]⟩

/-- The chunk keeps its first character, and has no white space at its ends. -/
theorem Pending.BeginsWith.text {pending : Pending} {c : Char} (h : pending.BeginsWith c) :
    pending.chunk.text.toList.head? = some c ∧
      Text.trim pending.chunk.text = pending.chunk.text := by
  obtain ⟨hc, later, hreversed⟩ := h
  have hstops : Stops isWhite [c] := Text.stops_cons hc
  have htext : pending.chunk.text.toList = c :: (later.dropWhile isWhite).reverse := by
    rw [Pending.chunk, String.toList_ofList, hreversed, hstops.dropWhile_append,
      List.reverse_append]
    rfl
  refine ⟨by rw [htext, List.head?_cons], ?_⟩
  have hfront : (c :: (later.dropWhile isWhite).reverse).dropWhile isWhite =
      c :: (later.dropWhile isWhite).reverse := (Text.stops_cons hc).dropWhile_eq
  have hback : (later.dropWhile isWhite ++ [c]).dropWhile isWhite =
      later.dropWhile isWhite ++ [c] := by
    rw [hstops.dropWhile_append, (Text.stops_dropWhile isWhite later).dropWhile_eq]
  rw [Text.trim, Text.trimList, htext, hfront, List.reverse_cons, List.reverse_reverse, hback,
    List.reverse_append, List.reverse_singleton, List.singleton_append, ← htext,
    String.ofList_toList]

namespace Cursor

variable {first second third : Cursor}

/-- The second cursor has read on, and no chunk has begun since the first one. -/
def KeepsOn (first second : Cursor) : Prop :=
  ∃ later, second.pending = first.pending.map (·.extend later)

theorem KeepsOn.of_pending_eq (h : second.pending = first.pending) : KeepsOn first second :=
  ⟨[], by rw [h]; cases first.pending <;> rfl⟩

theorem KeepsOn.trans (h : KeepsOn first second) (h' : KeepsOn second third) :
    KeepsOn first third := by
  obtain ⟨later, hlater⟩ := h
  obtain ⟨last, hlast⟩ := h'
  refine ⟨last ++ later, ?_⟩
  rw [hlast, hlater, Option.map_map]
  refine congrArg (first.pending.map ·) (funext fun pending => ?_)
  simp [Pending.extend]

/-- White space begins no chunk, and nothing does while one is being read. -/
theorem keepsOn_push (cursor : Cursor) {c : Char}
    (h : cursor.pending = none → isWhite c = true) : KeepsOn cursor (cursor.push c) := by
  cases hpending : cursor.pending with
  | none => exact .of_pending_eq (by simp [push, hpending, h hpending])
  | some pending => exact ⟨[c], by simp [push, hpending, Pending.extend]⟩

theorem KeepsOn.pending_of_none (h : KeepsOn first second) (hnone : second.pending = none) :
    first.pending = none := by
  obtain ⟨later, hlater⟩ := h
  rw [hlater] at hnone
  exact Option.map_eq_none_iff.1 hnone

/-- The second cursor has read on, and all of this text got into the chunk. -/
def Gains (first second : Cursor) (text : List Char) : Prop :=
  second.pending = first.pending.map (·.extend text.reverse)

protected theorem Gains.refl (cursor : Cursor) : Gains cursor cursor [] := by
  unfold Gains
  cases cursor.pending <;> rfl

theorem Gains.trans {front back : List Char} (h : Gains first second front)
    (h' : Gains second third back) : Gains first third (front ++ back) := by
  rw [Gains, h', h, Option.map_map]
  refine congrArg (first.pending.map ·) (funext fun pending => ?_)
  simp [Pending.extend]

theorem Gains.isSome_eq {text : List Char} (h : Gains first second text) :
    second.pending.isSome = first.pending.isSome := by
  rw [h, Option.isSome_map]

end Cursor

open Cursor (KeepsOn Gains)

variable {cursor : Cursor} {c : Char} {cs : List Char}

/-- Quoted text gets into the chunk in whole. -/
theorem gains_quoted (quote : Char) (cursor : Cursor) (cs : List Char)
    (h : cursor.pending.isSome = true) : ∃ front, front ++ (quoted quote cursor cs).2 = cs ∧
      Gains cursor (quoted quote cursor cs).1 front := by
  have hpush : ∀ (other : Cursor) (c : Char), other.pending.isSome = true →
      Gains other (other.push c) [c] := fun other c hsome => by
    obtain ⟨pending, hpending⟩ := Option.isSome_iff_exists.1 hsome
    simp [Gains, Cursor.push, hpending, Pending.extend]
  fun_induction quoted quote cursor cs with
  | case1 cursor => exact ⟨[], rfl, .refl cursor⟩
  | case2 cursor c => exact ⟨[c], rfl, hpush cursor c h⟩
  | case3 cursor c d rest next _ ih =>
      have hnext : Gains cursor next [c] := hpush cursor c h
      have hsome : next.pending.isSome = true := hnext.isSome_eq.trans h
      have hlast : Gains next ((next.push d).advance d) [d] := hpush next d hsome
      obtain ⟨front, hfront, hrest⟩ := ih (hlast.isSome_eq.trans hsome)
      exact ⟨c :: d :: front, congrArg (c :: d :: ·) hfront, (hnext.trans hlast).trans hrest⟩
  | case4 cursor rest next _ ih =>
      have hnext : Gains cursor next [quote] := hpush cursor quote h
      have hsome : next.pending.isSome = true := hnext.isSome_eq.trans h
      have hlast : Gains next (next.push quote) [quote] := hpush next quote hsome
      obtain ⟨front, hfront, hrest⟩ := ih (hlast.isSome_eq.trans hsome)
      exact ⟨quote :: quote :: front, congrArg (quote :: quote :: ·) hfront,
        (hnext.trans hlast).trans hrest⟩
  | case5 cursor => exact ⟨[quote], rfl, hpush cursor quote h⟩
  | case6 cursor c d rest next _ _ ih =>
      have hnext : Gains cursor next [c] := hpush cursor c h
      obtain ⟨front, hfront, hrest⟩ := ih (hnext.isSome_eq.trans h)
      exact ⟨c :: front, congrArg (c :: ·) hfront, hnext.trans hrest⟩

theorem keepsOn_quoted (quote : Char) (cursor : Cursor) (cs : List Char)
    (h : cursor.pending.isSome = true) : KeepsOn cursor (quoted quote cursor cs).1 := by
  obtain ⟨front, -, hgains⟩ := gains_quoted quote cursor cs h
  exact ⟨front.reverse, hgains⟩

theorem blockComment_pending (cursor : Cursor) (cs : List Char) :
    (blockComment cursor cs).1.pending = cursor.pending := by
  fun_induction blockComment cursor cs with
  | case1 => rfl
  | case2 => rfl
  | case3 _ _ _ _ ih => exact ih

theorem isWhite_eq_false_of_isQuote (h : isQuote c = true) : isWhite c = false := by
  simp only [isQuote, Bool.or_eq_true, beq_iff_eq] at h
  rcases h with (rfl | rfl) | rfl <;> rfl

/-- A turn finishes the chunk that is being read.  If not, it may begin one with the character at
which it is made. -/
theorem turn_cases (cursor : Cursor) (c : Char) (cs : List Char) :
    ((turn cursor c cs).chunks = [] ∧
      (KeepsOn cursor (turn cursor c cs).cursor ∨
        KeepsOn (cursor.inLine.push c) (turn cursor c cs).cursor)) ∨
    ((turn cursor c cs).chunks = cursor.finished ∧
      (turn cursor c cs).cursor.pending = none) := by
  unfold turn
  split_ifs with hfeed hquote hcomment hblock hend
  · have hpush : KeepsOn cursor (cursor.push c) := cursor.keepsOn_push fun _ => by rw [hfeed]; rfl
    exact .inl ⟨rfl, .inl (hpush.trans (.of_pending_eq rfl))⟩
  · -- the quote that opens the text is in the chunk already
    have hsome : (cursor.inLine.push c).pending.isSome = true :=
      (cursor.held_take c fun _ => isWhite_eq_false_of_isQuote hquote).1
    exact .inl ⟨rfl, .inr (keepsOn_quoted c _ cs hsome)⟩
  · exact .inl ⟨rfl, .inl (.of_pending_eq rfl)⟩
  · have hpass := KeepsOn.of_pending_eq (blockComment_pending cursor.inLine (cs.drop 1))
    have hgap := Cursor.keepsOn_push (blockComment cursor.inLine (cs.drop 1)).1 (c := ' ')
      fun _ => rfl
    exact .inl ⟨rfl, .inl (hpass.trans hgap)⟩
  · exact .inr ⟨rfl, rfl⟩
  · exact .inl ⟨rfl, .inr (.of_pending_eq rfl)⟩

theorem move_cases (cursor : Cursor) (c : Char) (cs : List Char) :
    ((move cursor c cs).chunks = [] ∧
      (KeepsOn cursor (move cursor c cs).cursor ∨
        KeepsOn (cursor.inLine.push c) (move cursor c cs).cursor)) ∨
    ((move cursor c cs).chunks = cursor.finished ∧
      (move cursor c cs).cursor.pending = none) := by
  unfold move
  split
  · exact .inl ⟨rfl, .inl (.of_pending_eq rfl)⟩
  · exact turn_cases cursor c cs

/-! ### Places in a script -/

/-- The character stands at this place of the script, on this line. -/
structure StandsAt (script : List Char) (place : Nat) (c : Char) (line : Nat) : Prop where
  here : script[place]? = some c
  line_eq : line = 1 + lineFeeds (script.take place)

/-- The chunk has no white space at its ends, and its first character stands at this place of the
script, on the line that the chunk has. -/
def BeginsAt (script : List Char) (place : Nat) (chunk : Chunk) : Prop :=
  Text.trim chunk.text = chunk.text ∧
    ∃ c, StandsAt script place c chunk.line ∧ chunk.text.toList.head? = some c

/-- The chunks begin in the script one behind the other, and none before `low`. -/
def InOrder (script : List Char) (low : Nat) (chunks : List Chunk) : Prop :=
  ∃ places : List Nat, places.Pairwise (· < ·) ∧ (∀ place ∈ places, low ≤ place) ∧
    List.Forall₂ (BeginsAt script) places chunks

/-- The chunk that is being read, if there is one, begins in the script at a place from `low` on
and before `bound`. -/
def Begun (script : List Char) (low bound : Nat) (cursor : Cursor) : Prop :=
  ∀ pending ∈ cursor.pending, ∃ place c, low ≤ place ∧ place < bound ∧
    StandsAt script place c pending.line ∧ pending.BeginsWith c

variable {script : List Char} {low bound : Nat}

theorem InOrder.nil : InOrder script low [] :=
  ⟨[], .nil, nofun, .nil⟩

theorem InOrder.cons {place : Nat} {chunk : Chunk} {chunks : List Chunk} (hlow : low ≤ place)
    (hbegins : BeginsAt script place chunk) (h : InOrder script (place + 1) chunks) :
    InOrder script low (chunk :: chunks) := by
  obtain ⟨places, hpairwise, hlater, hforall⟩ := h
  refine ⟨place :: places, List.pairwise_cons.2 ⟨hlater, hpairwise⟩, ?_, .cons hbegins hforall⟩
  exact List.forall_mem_cons.2 ⟨hlow, fun later hmem => by have := hlater later hmem; omega⟩

namespace Begun

theorem of_none (h : cursor.pending = none) : Begun script low bound cursor := by
  intro pending hpending
  rw [h] at hpending
  cases hpending

theorem mono (h : Begun script low bound cursor) {later : Nat} (hlater : bound ≤ later) :
    Begun script low later cursor := by
  intro pending hpending
  obtain ⟨place, c, hlow, hplace, hstands⟩ := h pending hpending
  exact ⟨place, c, hlow, hplace.trans_le hlater, hstands⟩

theorem keepsOn (h : Begun script low bound cursor) {next : Cursor} (hnext : KeepsOn cursor next) :
    Begun script low bound next := by
  intro pending hpending
  obtain ⟨later, hlater⟩ := hnext
  rw [hlater] at hpending
  obtain ⟨old, hold, rfl⟩ := Option.map_eq_some_iff.1 hpending
  obtain ⟨place, c, hlow, hplace, hstands, hbegins⟩ := h old hold
  exact ⟨place, c, hlow, hplace, hstands, hbegins.extend later⟩

/-- A character that the splitter comes to on the line that it has counted. -/
theorem push (h : Begun script low bound cursor) (hlow : low ≤ bound)
    (hstands : StandsAt script bound c cursor.line) :
    Begun script low (bound + 1) (cursor.inLine.push c) := by
  by_cases hkeeps : cursor.pending = none → isWhite c = true
  · have hpush : KeepsOn cursor (cursor.inLine.push c) := cursor.inLine.keepsOn_push hkeeps
    exact (h.mono (Nat.le_succ bound)).keepsOn hpush
  · -- a chunk begins here
    rw [Classical.not_imp, Bool.not_eq_true] at hkeeps
    obtain ⟨hpending, hc⟩ := hkeeps
    have hpush : (cursor.inLine.push c).pending = some ⟨cursor.line, [c]⟩ := by
      simp [Cursor.push, Cursor.inLine, hpending, hc]
    intro pending hmem
    rw [hpush] at hmem
    cases hmem
    exact ⟨bound, c, hlow, Nat.lt_succ_self bound, hstands, hc, [], rfl⟩

/-- A chunk that is finished is in order before those that begin where the splitter stands. -/
theorem finished (h : Begun script low bound cursor) (hlow : low ≤ bound) {chunks : List Chunk}
    (hchunks : ∀ low ≤ bound, InOrder script low chunks) :
    InOrder script low (cursor.finished ++ chunks) := by
  cases hpending : cursor.pending with
  | none =>
      rw [cursor.finished_of_none hpending]
      exact hchunks low hlow
  | some pending =>
      obtain ⟨place, c, hplace, hbound, hstands, hbegins⟩ := h pending hpending
      obtain ⟨hfirst, htrimmed⟩ := hbegins.text
      have hfinished : cursor.finished = [pending.chunk] := by
        rw [Cursor.finished, hpending]
        rfl
      rw [hfinished]
      exact .cons hplace ⟨htrimmed, c, hstands, hfirst⟩ (hchunks _ hbound)

end Begun

theorem exists_beginsAt {places : List Nat} {chunks : List Chunk}
    (h : List.Forall₂ (BeginsAt script) places chunks) :
    ∀ chunk ∈ chunks, ∃ place, BeginsAt script place chunk := by
  induction h with
  | nil => nofun
  | cons hbegins _ ih => exact List.forall_mem_cons.2 ⟨⟨_, hbegins⟩, ih⟩

/-- The splitter has counted the lines of what it has passed, and its chunk begins there. -/
structure Stands (low : Nat) (passed : List Char) (cursor : Cursor) (text : List Char) :
    Prop where
  low_le : low ≤ passed.length
  delimiter : '\n' ∉ cursor.delimiter
  line_eq : cursor.line = 1 + lineFeeds passed
  begun : Begun (passed ++ text) low passed.length cursor

/-- A turn of the splitter counts the line feeds that it passes. -/
theorem Stands.line_move {low : Nat} {passed cs front : List Char} {c : Char} {cursor : Cursor}
    (h : Stands low passed cursor (c :: cs)) (hfront : front ++ (move cursor c cs).rest = cs) :
    (move cursor c cs).cursor.line = 1 + lineFeeds (passed ++ c :: front) := by
  have hmove := move_line h.delimiter c cs
  have hcs : lineFeeds (c :: cs) = lineFeeds (c :: front) + lineFeeds (move cursor c cs).rest := by
    rw [← Text.lineFeeds_append, List.cons_append, hfront]
  rw [h.line_eq, hcs] at hmove
  rw [Text.lineFeeds_append]
  omega

/-- From wherever it stands, the splitter finishes chunks in the order in which they begin. -/
theorem Stands.inOrder {low : Nat} {passed text : List Char} {cursor : Cursor}
    (h : Stands low passed cursor text) :
    InOrder (passed ++ text) low (chunksFrom cursor text) := by
  match text with
  | [] =>
      rw [chunksFrom, ← List.append_nil cursor.finished]
      exact h.begun.finished h.low_le fun _ _ => .nil
  | c :: cs =>
      have hlength := (move_suffix cursor c cs).length_le
      obtain ⟨front, hfront⟩ := move_suffix cursor c cs
      have htext : passed ++ c :: front ++ (move cursor c cs).rest = passed ++ c :: cs := by
        rw [List.append_assoc, List.cons_append, hfront]
      have hstands : StandsAt (passed ++ c :: cs) passed.length c cursor.line :=
        ⟨by simp, by rw [List.take_left, h.line_eq]⟩
      have hnext : ∀ low' ≤ (passed ++ c :: front).length,
          Begun (passed ++ c :: cs) low' (passed ++ c :: front).length (move cursor c cs).cursor →
          InOrder (passed ++ c :: cs) low'
            (chunksFrom (move cursor c cs).cursor (move cursor c cs).rest) := by
        intro low' hlow' hbegun
        rw [← htext] at hbegun ⊢
        exact Stands.inOrder
          ⟨hlow', not_mem_move_delimiter h.delimiter, h.line_move hfront, hbegun⟩
      have hbound : passed.length + 1 ≤ (passed ++ c :: front).length := by simp
      rw [chunksFrom_move]
      rcases move_cases cursor c cs with ⟨hchunks, hkeeps⟩ | ⟨hchunks, hnone⟩
      · rw [hchunks, List.nil_append]
        refine hnext low (by have := h.low_le; omega) ?_
        rcases hkeeps with hkeeps | hkeeps
        · exact (h.begun.mono (by omega)).keepsOn hkeeps
        · exact ((h.begun.push h.low_le hstands).mono hbound).keepsOn hkeeps
      · rw [hchunks]
        exact h.begun.finished h.low_le fun low' hlow' =>
          hnext low' (by omega) (.of_none hnone)
termination_by text.length
decreasing_by
  simp only [List.length_cons]
  omega

/-- The chunks of a script are not empty and have no white space at their ends.  They begin one
behind the other, each with the character that stands in the script at its place, and on the line of
that place. -/
theorem chunks_beginInOrder (script : String) :
    (∀ chunk ∈ chunks script, chunk.text ≠ "" ∧ Text.trim chunk.text = chunk.text) ∧
      ∃ places : List Nat, places.Pairwise (· < ·) ∧
        List.Forall₂ (fun place chunk => ∃ c, script.toList[place]? = some c ∧
          chunk.text.toList.head? = some c ∧
          chunk.line = 1 + lineFeeds (script.toList.take place)) places (chunks script) := by
  have hstart : Stands 0 [] {} script.toList :=
    ⟨Nat.le_refl 0, by decide, rfl, .of_none rfl⟩
  obtain ⟨places, hpairwise, -, hforall⟩ := hstart.inOrder
  refine ⟨fun chunk hchunk => ?_, places, hpairwise, hforall.imp fun place chunk hbegins => ?_⟩
  · obtain ⟨place, htrimmed, c, -, hfirst⟩ := exists_beginsAt hforall chunk hchunk
    refine ⟨?_, htrimmed⟩
    rintro hempty
    rw [hempty] at hfirst
    cases hfirst
  · obtain ⟨-, c, hstands, hfirst⟩ := hbegins
    exact ⟨c, hstands.here, hfirst, hstands.line_eq⟩

/-- The lines of comments and of the command count, also where the chunk itself begins behind a
comment. -/
example : chunks "-- a\nUSE a;\nDELIMITER $$\n/* \n */ USE b;$$" =
    [⟨"USE a", 2⟩, ⟨"USE b;", 5⟩] := by
  decide +kernel

end Script
end Sql
end SchemaLint
