import Mathlib.Data.List.Infix
import SchemaLint.Proofs.Sql.Scan
import SchemaLint.Sql.Script

/-!
# Splitting as a run of turns

A turn of the splitter passes a character, quoted text, a comment or the delimiter, and leaves
the cursor somewhere behind it.  The splitter passes over the spelling of a token without
finishing a chunk, and all of the spelling gets into the chunk (`passes_spelled`).
-/

namespace SchemaLint
namespace Sql
namespace Script

open Lexeme
open Text (Stops isWhite)

namespace Cursor

variable (cursor : Cursor) (c : Char)

/-- The cursor after a character that is not the first one of a line. -/
def take : Cursor :=
  (cursor.inLine.push c).advance c

/-- The cursor after characters that do not begin a line. -/
def takeAll (cs : List Char) : Cursor :=
  cs.foldl take cursor

/-- The characters of the chunk that is being read. -/
def held : List Char :=
  (cursor.pending.map fun pending => pending.reversed.reverse).getD []

@[simp]
theorem push_delimiter : (cursor.push c).delimiter = cursor.delimiter := by
  unfold push
  split
  · rfl
  · split <;> rfl

@[simp]
theorem push_lineStart : (cursor.push c).lineStart = cursor.lineStart := by
  unfold push
  split
  · rfl
  · split <;> rfl

@[simp]
theorem take_delimiter : (cursor.take c).delimiter = cursor.delimiter :=
  push_delimiter cursor.inLine c

@[simp]
theorem take_lineStart : (cursor.take c).lineStart = false :=
  push_lineStart cursor.inLine c

@[simp]
theorem takeAll_delimiter (cs : List Char) : (cursor.takeAll cs).delimiter = cursor.delimiter := by
  induction cs generalizing cursor with
  | nil => rfl
  | cons c cs ih => exact (ih (cursor.take c)).trans (cursor.take_delimiter c)

theorem takeAll_lineStart (c : Char) (cs : List Char) :
    (cursor.takeAll (c :: cs)).lineStart = false := by
  induction cs generalizing cursor c with
  | nil => exact cursor.take_lineStart c
  | cons d cs ih => exact ih (cursor.take c) d

theorem takeAll_append (first second : List Char) :
    cursor.takeAll (first ++ second) = (cursor.takeAll first).takeAll second :=
  List.foldl_append

/-- White space does not begin a chunk. -/
theorem pending_take_of_isWhite (hpending : cursor.pending = none) (hc : isWhite c = true) :
    (cursor.take c).pending = none := by
  have hpush : cursor.inLine.push c = cursor.inLine := by
    simp only [push, inLine, hpending, if_pos hc]
  change (cursor.inLine.push c).pending = none
  rw [hpush]
  exact hpending

/-- Any other character gets into the chunk, and so does white space once the chunk has begun. -/
theorem held_take (h : cursor.pending = none → isWhite c = false) :
    (cursor.take c).pending.isSome = true ∧ (cursor.take c).held = cursor.held ++ [c] := by
  change (cursor.inLine.push c).pending.isSome = true ∧
    ((cursor.inLine.push c).pending.map fun pending => pending.reversed.reverse).getD [] = _
  cases hpending : cursor.pending with
  | none => simp [push, inLine, held, hpending, h hpending]
  | some pending => simp [push, inLine, held, hpending]

theorem held_takeAll (hpending : cursor.pending.isSome = true) (cs : List Char) :
    (cursor.takeAll cs).pending.isSome = true ∧ (cursor.takeAll cs).held = cursor.held ++ cs := by
  induction cs generalizing cursor with
  | nil => exact ⟨hpending, (List.append_nil _).symm⟩
  | cons c cs ih =>
      obtain ⟨hsome, hheld⟩ := cursor.held_take c fun hnone => by simp [hnone] at hpending
      obtain ⟨hall, hrest⟩ := ih (cursor.take c) hsome
      refine ⟨hall, ?_⟩
      rw [takeAll, List.foldl_cons, ← takeAll, hrest, hheld, List.append_assoc]
      rfl

/-- A run that does not begin with white space gets into the chunk. -/
theorem held_takeAll_cons (hc : isWhite c = false) (cs : List Char) :
    (cursor.takeAll (c :: cs)).pending.isSome = true ∧
      (cursor.takeAll (c :: cs)).held = cursor.held ++ c :: cs := by
  obtain ⟨hsome, hheld⟩ := cursor.held_take c fun _ => hc
  obtain ⟨hall, hrest⟩ := (cursor.take c).held_takeAll hsome cs
  refine ⟨hall, ?_⟩
  rw [takeAll, List.foldl_cons, ← takeAll, hrest, hheld, List.append_assoc]
  rfl

/-- A chunk is what the cursor holds, without white space at the end. -/
theorem exists_finished (hpending : cursor.pending.isSome = true) :
    ∃ line, cursor.finished = [⟨String.ofList (cursor.held.rdropWhile isWhite), line⟩] := by
  obtain ⟨pending, hsome⟩ := Option.isSome_iff_exists.1 hpending
  refine ⟨pending.line, ?_⟩
  rw [finished, held, hsome, Option.map_some, Option.map_some, Option.getD_some,
    List.rdropWhile, List.reverse_reverse]
  rfl

theorem finished_of_none (hpending : cursor.pending = none) : cursor.finished = [] := by
  rw [finished, hpending]
  rfl

theorem held_of_none (hpending : cursor.pending = none) : cursor.held = [] := by
  rw [held, hpending]
  rfl

theorem advance_of_ne (hc : c ≠ '\n') : cursor.advance c = cursor := by
  simp [advance, lineAfter, hc]

theorem take_of_ne (hc : c ≠ '\n') : cursor.take c = cursor.inLine.push c :=
  (cursor.inLine.push c).advance_of_ne c hc

theorem take_of_inLine (h : cursor.lineStart = false) :
    cursor.take c = (cursor.push c).advance c := by
  have hsame : cursor.inLine = cursor := by rw [inLine, ← h]
  rw [take, hsame]

end Cursor

/-- What a turn finishes, and where it leaves the cursor and the text. -/
structure Turn where
  chunks : List Chunk
  cursor : Cursor
  rest : List Char

/-- One turn of the splitter, from a place where no command stands. -/
def turn (cursor : Cursor) (c : Char) (cs : List Char) : Turn :=
  if c = '\n' then
    ⟨[], ((cursor.push c).advance c).newLine, cs⟩
  else if isQuote c then
    ⟨[], (quoted c (cursor.inLine.push c) cs).1, (quoted c (cursor.inLine.push c) cs).2⟩
  else if beginsComment c cs then
    ⟨[], cursor.inLine, afterLineComment cs⟩
  else if c = '/' ∧ cs.head? = some '*' then
    ⟨[], (blockComment cursor.inLine (cs.drop 1)).1.pushGap,
      (blockComment cursor.inLine (cs.drop 1)).2⟩
  else if cursor.delimiter.isPrefixOf (c :: cs) then
    ⟨cursor.finished, { cursor.inLine with pending := none },
      cs.drop (cursor.delimiter.length - 1)⟩
  else
    ⟨[], cursor.inLine.push c, cs⟩

variable {cursor : Cursor} {c : Char} {cs : List Char}

/-- The splitter goes on turn by turn. -/
theorem chunksFrom_cons (h : command? cursor (c :: cs) = none) :
    chunksFrom cursor (c :: cs) =
      (turn cursor c cs).chunks ++
        chunksFrom (turn cursor c cs).cursor (turn cursor c cs).rest := by
  rw [chunksFrom.eq_def]
  simp only [h]
  unfold turn
  split_ifs <;> rfl

theorem turn_quote (h : isQuote c = true) : turn cursor c cs =
    ⟨[], (quoted c (cursor.take c) cs).1, (quoted c (cursor.take c) cs).2⟩ := by
  have hc : c ≠ '\n' := by
    rintro rfl
    cases h
  rw [turn, if_neg hc, if_pos h, cursor.take_of_ne c hc]

theorem turn_comment (h : beginsComment c cs = true) :
    turn cursor c cs = ⟨[], cursor.inLine, afterLineComment cs⟩ := by
  have hc : c = '#' ∨ c = '-' := by
    simp only [beginsComment, Bool.or_eq_true, Bool.and_eq_true, beq_iff_eq] at h
    exact h.imp_right fun h => h.1.1
  have hline : c ≠ '\n' := by rcases hc with rfl | rfl <;> decide
  have hquote : isQuote c = false := by rcases hc with rfl | rfl <;> rfl
  rw [turn, if_neg hline, if_neg (by simp [hquote]), if_pos h]

theorem turn_blockComment : turn cursor '/' ('*' :: cs) =
    ⟨[], (blockComment cursor.inLine cs).1.pushGap, (blockComment cursor.inLine cs).2⟩ := rfl

theorem turn_delimiter (h : cursor.delimiter = [';']) : turn cursor ';' cs =
    ⟨cursor.finished, { cursor.inLine with pending := none }, cs⟩ := by
  have hprefix : cursor.delimiter.isPrefixOf (';' :: cs) = true := by simp [h]
  have hlength : cursor.delimiter.length - 1 = 0 := by rw [h]; rfl
  rw [turn, if_neg (by decide), if_neg (by decide), if_neg (by simp [beginsComment]),
    if_neg (by simp), if_pos hprefix, hlength, List.drop_zero]

/-- A character that means nothing to the splitter before this text. -/
structure IsPlain (c : Char) (cs : List Char) : Prop where
  line : c ≠ '\n'
  quote : isQuote c = false
  comment : beginsComment c cs = false
  block : ¬ (c = '/' ∧ cs.head? = some '*')
  delimiter : c ≠ ';'

theorem turn_plain (hdelimiter : cursor.delimiter = [';']) (h : IsPlain c cs) :
    turn cursor c cs = ⟨[], cursor.take c, cs⟩ := by
  have hprefix : ¬ cursor.delimiter.isPrefixOf (c :: cs) = true := by
    simpa [hdelimiter] using Ne.symm h.delimiter
  rw [turn, if_neg h.line, if_neg (by simp [h.quote]), if_neg (by simp [h.comment]), if_neg h.block,
    if_neg hprefix, cursor.take_of_ne c h.line]

/-- The splitter comes from one place to another without finishing a chunk, and no command
stands on the way. -/
inductive Passes : Cursor → List Char → Cursor → List Char → Prop where
  | refl (cursor : Cursor) (text : List Char) : Passes cursor text cursor text
  | turn {cursor last : Cursor} {c : Char} {cs rest : List Char}
      (hcommand : command? cursor (c :: cs) = none) (hchunks : (turn cursor c cs).chunks = []) :
      Passes (turn cursor c cs).cursor (turn cursor c cs).rest last rest →
      Passes cursor (c :: cs) last rest

/-- No command stands in the text where the splitter looks for one. -/
inductive Commandless : Cursor → List Char → Prop where
  | nil (cursor : Cursor) : Commandless cursor []
  | turn {cursor : Cursor} {c : Char} {cs : List Char}
      (hcommand : command? cursor (c :: cs) = none) :
      Commandless (turn cursor c cs).cursor (turn cursor c cs).rest → Commandless cursor (c :: cs)

theorem command?_of_inLine (h : cursor.lineStart = false) (text : List Char) :
    command? cursor text = none := by
  simp [command?, h]

theorem quoted_suffix (quote : Char) (cursor : Cursor) (cs : List Char) :
    (quoted quote cursor cs).2 <:+ cs := by
  fun_induction quoted quote cursor cs with
  | case1 => exact List.suffix_refl _
  | case2 => exact List.nil_suffix
  | case3 _ c d rest _ _ ih => exact (ih.trans (List.suffix_cons _ _)).trans (List.suffix_cons _ _)
  | case4 _ rest _ _ ih => exact (ih.trans (List.suffix_cons _ _)).trans (List.suffix_cons _ _)
  | case5 => exact List.suffix_cons _ _
  | case6 _ c d rest _ _ _ ih => exact ih.trans (List.suffix_cons _ _)

theorem blockComment_suffix (cursor : Cursor) (cs : List Char) :
    (blockComment cursor cs).2 <:+ cs := by
  fun_induction blockComment cursor cs with
  | case1 => exact List.suffix_refl _
  | case2 => exact (List.suffix_cons _ _).trans (List.suffix_cons _ _)
  | case3 _ c rest _ ih => exact ih.trans (List.suffix_cons _ _)

theorem turn_suffix (cursor : Cursor) (c : Char) (cs : List Char) :
    (turn cursor c cs).rest <:+ cs := by
  unfold turn
  split_ifs
  · exact List.suffix_refl _
  · exact quoted_suffix _ _ _
  · exact List.dropWhile_suffix _
  · exact (blockComment_suffix _ _).trans (List.drop_suffix _ _)
  · exact List.drop_suffix _ _
  · exact List.suffix_refl _

/-- A text has no command if the command is nowhere the first word up to the end of a line. -/
theorem commandless_of_tails {text : List Char} (cursor : Cursor)
    (h : ∀ rest ∈ text.tails, delimiterCommand? (rest.takeWhile (· != '\n')) = none) :
    Commandless cursor text := by
  match text with
  | [] => exact .nil cursor
  | c :: cs =>
      have hlength := (turn_suffix cursor c cs).length_le
      have hrest := (turn_suffix cursor c cs).trans (List.suffix_cons c cs)
      refine .turn ?_ (commandless_of_tails _ fun rest hmem => h rest ?_)
      · unfold command?
        split
        · exact h _ ((List.mem_tails _ _).2 (List.suffix_refl _))
        · rfl
      · exact (List.mem_tails _ _).2 (((List.mem_tails _ _).1 hmem).trans hrest)
termination_by text.length

theorem Commandless.command?_eq_none (h : Commandless cursor (c :: cs)) :
    command? cursor (c :: cs) = none := by
  cases h with
  | turn hcommand _ => exact hcommand

namespace Passes

variable {last final : Cursor} {text middle rest : List Char}

/-- A turn that finishes no chunk. -/
theorem of_turn (hcommand : command? cursor (c :: cs) = none)
    (hturn : Script.turn cursor c cs = ⟨[], last, rest⟩) : Passes cursor (c :: cs) last rest := by
  have hpasses := @Passes.turn cursor last c cs rest hcommand (by rw [hturn])
  rw [hturn] at hpasses
  exact hpasses (.refl _ _)

theorem trans (first : Passes cursor text last middle) (second : Passes last middle final rest) :
    Passes cursor text final rest := by
  induction first with
  | refl => exact second
  | turn hcommand hchunks _ ih => exact .turn hcommand hchunks (ih second)

theorem chunksFrom_eq (h : Passes cursor text last rest) :
    chunksFrom cursor text = chunksFrom last rest := by
  induction h with
  | refl => rfl
  | turn hcommand hchunks _ ih => rw [chunksFrom_cons hcommand, hchunks, ih, List.nil_append]

theorem commandless (h : Passes cursor text last rest) (hcommandless : Commandless cursor text) :
    Commandless last rest := by
  induction h with
  | refl => exact hcommandless
  | turn _ _ _ ih =>
      cases hcommandless with
      | turn _ hnext => exact ih hnext

end Passes

theorem passes_plain (hdelimiter : cursor.delimiter = [';'])
    (hcommand : command? cursor (c :: cs) = none) (h : IsPlain c cs) :
    Passes cursor (c :: cs) (cursor.take c) cs :=
  .of_turn hcommand (turn_plain hdelimiter h)

/-- A run of characters that mean nothing to the splitter before this text. -/
def PlainRun : List Char → List Char → Prop
  | [], _ => True
  | c :: cs, rest => IsPlain c (cs ++ rest) ∧ PlainRun cs rest

theorem passes_run {run rest : List Char} (hdelimiter : cursor.delimiter = [';'])
    (hline : cursor.lineStart = false) (h : PlainRun run rest) :
    Passes cursor (run ++ rest) (cursor.takeAll run) rest := by
  induction run generalizing cursor with
  | nil => exact .refl _ _
  | cons c run ih =>
      have hfirst := passes_plain hdelimiter (command?_of_inLine hline _) h.1
      exact hfirst.trans (ih (by simp [hdelimiter]) (by simp) h.2)

/-- A run whose first character may stand at the beginning of a line. -/
theorem passes_cons {rest : List Char} (hdelimiter : cursor.delimiter = [';'])
    (hcommand : command? cursor (c :: (cs ++ rest)) = none) (h : PlainRun (c :: cs) rest) :
    Passes cursor (c :: (cs ++ rest)) (cursor.takeAll (c :: cs)) rest :=
  (passes_plain hdelimiter hcommand h.1).trans
    (passes_run (by simp [hdelimiter]) (by simp) h.2)

theorem quoted_plain {quote : Char} (hquote : c ≠ quote) (hescape : c = '\\' → quote = '\x60')
    (hcs : cs ≠ []) :
    quoted quote cursor (c :: cs) = quoted quote ((cursor.push c).advance c) cs := by
  cases cs with
  | nil => exact absurd rfl hcs
  | cons d cs => rw [quoted, if_neg fun h => h.2 (hescape h.1), if_neg hquote]

/-- Quoted text gets into the chunk as it is spelled. -/
theorem quoted_of_body {quote : Char} {body value rest : List Char} (hquote : isQuote quote = true)
    (h : Body quote body value) (hrest : Stops (· == quote) rest)
    (hline : cursor.lineStart = false) :
    quoted quote cursor (body ++ quote :: rest) = (cursor.takeAll (body ++ [quote]), rest) := by
  have hfeed : quote ≠ '\n' := by
    rintro rfl
    cases hquote
  have hback : ¬ (quote = '\\' ∧ quote ≠ '\x60') := by
    rintro ⟨rfl, -⟩
    cases hquote
  induction h generalizing cursor with
  | nil =>
      change _ = (cursor.take quote, rest)
      cases rest with
      | nil => rw [cursor.take_of_inLine quote hline]; rfl
      | cons d rest =>
          have hd : d ≠ quote := by simpa using hrest d rfl
          rw [List.nil_append, quoted, if_neg hback, if_pos rfl, if_neg hd,
            cursor.take_of_inLine quote hline]
  | doubled _ ih =>
      have hnext : ((cursor.push quote).advance quote).push quote =
          (cursor.take quote).take quote := by
        rw [(cursor.take quote).take_of_inLine quote (by simp), cursor.take_of_inLine quote hline]
        simp only [Cursor.advance_of_ne _ quote hfeed]
      rw [List.cons_append, List.cons_append, quoted, if_neg hback, if_pos rfl, if_pos rfl, hnext,
        ih (by simp)]
      rfl
  | escaped d hescapes _ ih =>
      have hnext : (((cursor.push '\\').advance '\\').push d).advance d =
          (cursor.take '\\').take d := by
        rw [(cursor.take '\\').take_of_inLine d (by simp), cursor.take_of_inLine '\\' hline]
      rw [List.cons_append, List.cons_append, quoted, if_pos ⟨rfl, hescapes⟩, hnext, ih (by simp)]
      rfl
  | @plain c _ _ hplain hescape _ ih =>
      rw [List.cons_append, quoted_plain hplain hescape (by simp), ← cursor.take_of_inLine c hline,
        ih (by simp)]
      rfl

theorem passes_quoted {quote : Char} {body value rest : List Char} (hquote : isQuote quote = true)
    (hbody : Body quote body value) (hrest : Stops (· == quote) rest)
    (hcommand : command? cursor (quote :: (body ++ [quote] ++ rest)) = none) :
    Passes cursor (quote :: (body ++ [quote] ++ rest)) (cursor.takeAll (quote :: (body ++ [quote])))
      rest := by
  refine .of_turn hcommand ?_
  rw [turn_quote hquote, List.append_assoc, List.singleton_append,
    quoted_of_body hquote hbody hrest (by simp)]
  rfl

/-- The delimiter finishes a chunk. -/
theorem chunksFrom_delimiter (hdelimiter : cursor.delimiter = [';'])
    (hcommand : command? cursor (';' :: cs) = none) : chunksFrom cursor (';' :: cs) =
      cursor.finished ++ chunksFrom { cursor.inLine with pending := none } cs := by
  rw [chunksFrom_cons hcommand, turn_delimiter hdelimiter]

theorem Commandless.delimiter (h : Commandless cursor (';' :: cs))
    (hdelimiter : cursor.delimiter = [';']) :
    Commandless { cursor.inLine with pending := none } cs := by
  cases h with
  | turn _ hnext =>
      rw [turn_delimiter hdelimiter] at hnext
      exact hnext

/-- The characters that can mean something to the splitter. -/
def marks : List Char :=
  ['\n', '\'', '"', '\x60', '#', '-', '/', ';']

theorem isPlain_of_not_mem (h : c ∉ marks) (cs : List Char) : IsPlain c cs := by
  simp only [marks, List.mem_cons, List.not_mem_nil, or_false, not_or] at h
  obtain ⟨hline, hsingle, hdouble, hback, hhash, hdash, hslash, hsemicolon⟩ := h
  exact {
    line := hline
    quote := by simp [isQuote, hsingle, hdouble, hback]
    comment := by simp [beginsComment, hhash, hdash]
    block := fun h => hslash h.1
    delimiter := hsemicolon }

theorem not_mem_marks {p : Char → Bool} (hp : marks.all (!p ·) = true) (h : p c = true) :
    c ∉ marks := by
  intro hmem
  have hfalse := List.all_eq_true.1 hp c hmem
  rw [h] at hfalse
  cases hfalse

theorem plainRun_of_forall {run : List Char} (h : ∀ d ∈ run, d ∉ marks) (rest : List Char) :
    PlainRun run rest := by
  induction run with
  | nil => trivial
  | cons c run ih =>
      rw [List.forall_mem_cons] at h
      exact ⟨isPlain_of_not_mem h.1 _, ih h.2⟩

theorem not_mem_marks_of_isDigit (h : c.isDigit = true) : c ∉ marks :=
  not_mem_marks (by decide) h

theorem not_mem_marks_of_continuesWord (h : continuesWord c = true) : c ∉ marks :=
  not_mem_marks (by decide) h

theorem continuesWord_of_startsWord (h : startsWord c = true) : continuesWord c = true := by
  simp only [startsWord, continuesWord, Bool.or_eq_true] at h ⊢
  exact h.imp_left (Or.imp_left Text.isLetterOrNumber_of_isLetter)

/-- The signs of a number mean nothing to the splitter, except that the last one can begin a
comment. -/
theorem plainRun_numberTail {rest : List Char} : ∀ {previous : Char} {tail : List Char},
    numberTail previous (tail ++ rest) = (tail, rest) →
    (tail.getLast? = some '-' → beginsComment '-' rest = false) → PlainRun tail rest
  | _, [], _, _ => trivial
  | previous, c :: tail, h, hlast => by
      rw [List.cons_append, numberTail_cons] at h
      obtain ⟨hc, htail⟩ := h
      refine ⟨?_, plainRun_numberTail htail fun h => hlast (by rw [List.getLast?_cons, h]; rfl)⟩
      simp only [continuesNumber, Bool.or_eq_true, Bool.and_eq_true, beq_iff_eq] at hc
      rcases hc with (((hdigit | rfl) | rfl) | rfl) | ⟨rfl | rfl, -⟩
      · exact isPlain_of_not_mem (not_mem_marks_of_isDigit hdigit) _
      · exact isPlain_of_not_mem (by decide) _
      · exact isPlain_of_not_mem (by decide) _
      · exact isPlain_of_not_mem (by decide) _
      · exact isPlain_of_not_mem (by decide) _
      · have hcomment : beginsComment '-' (tail ++ rest) = false := by
          cases tail with
          | nil => exact hlast rfl
          | cons d tail =>
              -- a sign does not go on after a sign
              have hd : d ≠ '-' := by
                rintro rfl
                exact absurd (numberTail_cons.1 htail).1 (by decide)
              simp [beginsComment, hd]
        exact {
          line := by decide
          quote := rfl
          comment := hcomment
          block := by simp
          delimiter := by decide }

/-- What is a comment to the splitter is one to the scanner. -/
theorem beginsLineComment_of_beginsComment (h : beginsComment c cs = true) :
    beginsLineComment c cs = true := by
  simp only [beginsComment, beginsLineComment, Bool.or_eq_true, Bool.and_eq_true] at h ⊢
  exact h.imp_right And.left

/-- The splitter passes over a token that is no semicolon, and its spelling gets into the chunk. -/
theorem passes_spelled {spelling rest : List Char} {token : Token}
    (h : Spelled (c :: spelling) token rest) (htoken : token ≠ .semicolon)
    (hwhite : isWhite c = false) (hline : beginsLineComment c (spelling ++ rest) = false)
    (hblock : beginsBlockComment c (spelling ++ rest) = false)
    (hnumber : c.isDigit = true → (numberTail c (spelling ++ rest)).1.getLast? = some '-' →
      beginsComment '-' (numberTail c (spelling ++ rest)).2 = false)
    (hdelimiter : cursor.delimiter = [';'])
    (hcommand : command? cursor (c :: (spelling ++ rest)) = none) :
    Passes cursor (c :: (spelling ++ rest)) (cursor.takeAll (c :: spelling)) rest := by
  cases h with
  | text hquote hbody hrest =>
      exact passes_quoted (by rcases hquote with rfl | rfl <;> rfl) hbody hrest hcommand
  | quoted hbody hrest => exact passes_quoted rfl hbody hrest hcommand
  | bits hmark hbody hrest =>
      have hword := continuesWord_of_startsWord (Scanned.startsWord_of_marksBits hmark)
      have hfirst := passes_plain hdelimiter hcommand
        (isPlain_of_not_mem (not_mem_marks_of_continuesWord hword) _)
      exact hfirst.trans (passes_quoted rfl hbody hrest (command?_of_inLine (by simp) _))
  | hex hmark hdigits hrest =>
      refine passes_cons hdelimiter hcommand ⟨isPlain_of_not_mem (by decide) _,
        isPlain_of_not_mem (by rcases hmark with rfl | rfl <;> decide) _,
        plainRun_of_forall (fun d hd => ?_) _⟩
      exact not_mem_marks (by decide) (hdigits d hd)
  | number hc hmark htail =>
      rw [htail] at hnumber
      exact passes_cons hdelimiter hcommand ⟨isPlain_of_not_mem (not_mem_marks_of_isDigit hc) _,
        plainRun_numberTail htail (hnumber hc)⟩
  | word hc hmark htail hrest =>
      refine passes_cons hdelimiter hcommand (plainRun_of_forall (fun d hd => ?_) _)
      rcases List.mem_cons.1 hd with rfl | hd
      · exact not_mem_marks_of_continuesWord (continuesWord_of_startsWord hc)
      · exact not_mem_marks_of_continuesWord (htail d hd)
  | punctuation _ hquote hdigit hword =>
      obtain ⟨hsingle, hdouble, hback⟩ := hquote
      refine passes_plain hdelimiter hcommand {
        line := by
          rintro rfl
          cases hwhite
        quote := by simp [isQuote, hsingle, hdouble, hback]
        comment := ?_
        block := by simpa [beginsBlockComment] using hblock
        delimiter := by
          rintro rfl
          exact htoken rfl }
      rw [Bool.eq_false_iff]
      intro hcomment
      rw [beginsLineComment_of_beginsComment hcomment] at hline
      cases hline

theorem passes_line (hcommand : command? cursor ('\n' :: cs) = none) :
    Passes cursor ('\n' :: cs) (cursor.take '\n').newLine cs := by
  refine .of_turn hcommand ?_
  rw [turn, if_pos rfl, Cursor.take]
  cases hpending : cursor.pending <;> simp [Cursor.push, Cursor.inLine, Cursor.advance,
    Cursor.newLine, hpending, isWhite]

/-- White space gets into a chunk that has begun. -/
theorem passes_white (hdelimiter : cursor.delimiter = [';'])
    (hcommand : command? cursor (c :: cs) = none) (hc : isWhite c = true) :
    ∃ next : Cursor, Passes cursor (c :: cs) next cs ∧ next.delimiter = [';'] ∧
      next.pending = (cursor.take c).pending := by
  by_cases hline : c = '\n'
  · subst hline
    exact ⟨(cursor.take '\n').newLine, passes_line hcommand,
      (cursor.take_delimiter _).trans hdelimiter, rfl⟩
  · have hplain : c ∉ marks := by
      refine @not_mem_marks c (fun d => isWhite d && d != '\n') (by decide) ?_
      rw [hc, Bool.true_and, bne_iff_ne]
      exact hline
    exact ⟨cursor.take c, passes_plain hdelimiter hcommand (isPlain_of_not_mem hplain cs),
      (cursor.take_delimiter _).trans hdelimiter, rfl⟩

theorem passes_comment (hcommand : command? cursor (c :: cs) = none)
    (h : beginsComment c cs = true) :
    Passes cursor (c :: cs) cursor.inLine (afterLineComment cs) :=
  .of_turn hcommand (turn_comment h)

/-- The splitter finds the end of a comment in marks where the scanner does. -/
theorem blockComment_eq {line last : Nat} {rest : List Char}
    (h : afterBlockComment line cs = (last, some rest)) :
    ∃ reached, blockComment cursor cs = ({ cursor with line := reached }, rest) := by
  fun_induction afterBlockComment line cs generalizing cursor with
  | case1 => cases h
  | case2 =>
      cases h
      exact ⟨cursor.line, rfl⟩
  | case3 line c cs hend ih =>
      obtain ⟨reached, hreached⟩ := @ih (cursor.advance c) h
      refine ⟨reached, ?_⟩
      rw [blockComment, hreached]
      · rfl
      · exact hend

/-- A space takes the place of a comment in marks. -/
theorem passes_blockComment {line last : Nat} {rest : List Char}
    (hcommand : command? cursor ('/' :: '*' :: cs) = none)
    (h : afterBlockComment line cs = (last, some rest)) :
    ∃ reached, Passes cursor ('/' :: '*' :: cs)
      ({ cursor with line := reached }.take ' ') rest := by
  obtain ⟨reached, hreached⟩ := @blockComment_eq cursor.inLine cs line last rest h
  refine ⟨reached, .of_turn hcommand ?_⟩
  rw [turn_blockComment, hreached]
  rfl

/-- Whether no quote, semicolon or mark of a comment stands before the end of the line. -/
def unmarked : List Char → Bool
  | [] => true
  | c :: cs => c == '\n' ||
      (!isQuote c && !beginsBlockComment c cs && c != ';' && unmarked cs)

/-- The rest of a line without marks gets into the chunk, up to a comment. -/
theorem passes_unmarked (hdelimiter : cursor.delimiter = [';']) (hline : cursor.lineStart = false)
    (h : unmarked cs = true) : ∃ run, (∀ d ∈ run, d ≠ '\n') ∧
      Passes cursor cs (cursor.takeAll run) (afterLineComment cs) := by
  induction cs generalizing cursor with
  | nil => exact ⟨[], nofun, .refl _ _⟩
  | cons c cs ih =>
      rw [unmarked, Bool.or_eq_true, beq_iff_eq] at h
      by_cases hfeed : c = '\n'
      · subst hfeed
        exact ⟨[], nofun, .refl _ _⟩
      · have hskip : afterLineComment (c :: cs) = afterLineComment cs :=
          List.dropWhile_cons_of_pos (by simpa using hfeed)
        have hunmarked := h.resolve_left hfeed
        simp only [Bool.and_eq_true, Bool.not_eq_true', bne_iff_ne] at hunmarked
        obtain ⟨⟨⟨hquote, hblock⟩, hdelim⟩, hrest⟩ := hunmarked
        rw [hskip]
        cases hcomment : beginsComment c cs with
        | true =>
            have hpasses := passes_comment (command?_of_inLine hline _) hcomment
            have hsame : cursor.inLine = cursor := by rw [Cursor.inLine, ← hline]
            rw [hsame] at hpasses
            exact ⟨[], nofun, hpasses⟩
        | false =>
            have hfirst := passes_plain hdelimiter (command?_of_inLine hline _) {
              line := hfeed
              quote := hquote
              comment := hcomment
              block := by simpa [beginsBlockComment] using hblock
              delimiter := hdelim }
            obtain ⟨run, hrun, hpasses⟩ :=
              @ih (cursor.take c) (by simp [hdelimiter]) (by simp) hrest
            exact ⟨c :: run, List.forall_mem_cons.2 ⟨hfeed, hrun⟩, hfirst.trans hpasses⟩

/-- Dashes that are no comment to the splitter get into the chunk, with the rest of a line
without marks. -/
theorem passes_dashes {rest : List Char} (hdelimiter : cursor.delimiter = [';'])
    (hcommand : command? cursor ('-' :: '-' :: rest) = none)
    (hfirst : beginsComment '-' ('-' :: rest) = false) (hsecond : beginsComment '-' rest = false)
    (h : unmarked rest = true) : ∃ run, (∀ d ∈ run, d ≠ '\n') ∧
      Passes cursor ('-' :: '-' :: rest) (cursor.takeAll ('-' :: '-' :: run))
        (afterLineComment rest) := by
  have hdash : ∀ cs, beginsComment '-' cs = false → IsPlain '-' cs := fun cs hcomment => {
    line := by decide
    quote := rfl
    comment := hcomment
    block := by simp
    delimiter := by decide }
  have hdashes := @passes_cons cursor '-' ['-'] rest hdelimiter hcommand
    ⟨hdash _ hfirst, hdash _ hsecond, trivial⟩
  obtain ⟨run, hrun, hpasses⟩ := @passes_unmarked (cursor.takeAll ['-', '-']) rest
    ((cursor.takeAll_delimiter _).trans hdelimiter) (by simp [Cursor.takeAll]) h
  exact ⟨run, hrun, hdashes.trans hpasses⟩

end Script
end Sql
end SchemaLint
