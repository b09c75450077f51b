import Mathlib.Data.List.Basic
import SchemaLint.Proofs.Except
import SchemaLint.Sql.Grammar

/-!
# Texts that begin on another line

Line numbers are carried along by the scanner and the parser, and never looked at.  So a text that
begins some lines further down is read in the same way, and only the lines of its statements and
of its errors are further down by as much.

* `scan_add` - the scanner, by cases of what it reads.
* `Chunk.parse_shift` - a chunk, read from another line.
* `mapM_parse_shift` - all chunks of a script.
-/

namespace SchemaLint
namespace Sql

namespace SyntaxError

/-- The error of a text that begins some lines further down. -/
def shift (lines : Nat) : SyntaxError → SyntaxError
  | .unterminatedComment line => .unterminatedComment (line + lines)
  | .unterminatedQuote line quote => .unterminatedQuote (line + lines) quote
  | .unexpectedToken line expected found => .unexpectedToken (line + lines) expected found
  | .unexpectedEnd line expected => .unexpectedEnd (line + lines) expected
  | .unreadableDigest => .unreadableDigest

theorem reason_shift (lines : Nat) (error : SyntaxError) :
    (error.shift lines).reason = error.reason := by
  cases error <;> rfl

/-- An error that is not about a digest is found further down by as much. -/
theorem line_shift (lines : Nat) {error : SyntaxError} (h : error ≠ .unreadableDigest) :
    (error.shift lines).line = error.line + lines := by
  cases error with
  | unreadableDigest => exact absurd rfl h
  | _ => rfl

end SyntaxError

/-- A chunk that begins some lines further down. -/
def Chunk.shift (lines : Nat) (chunk : Chunk) : Chunk :=
  { chunk with line := chunk.line + lines }

/-- A statement that begins some lines further down. -/
def ScriptStatement.shift (lines : Nat) (statement : ScriptStatement) : ScriptStatement :=
  { statement with line := statement.line + lines }

namespace Lexeme

theorem lineAfter_add (line lines : Nat) (c : Char) :
    lineAfter (line + lines) c = lineAfter line c + lines := by
  unfold lineAfter
  split <;> omega

theorem afterBlockComment_add (line lines : Nat) (cs : List Char) :
    afterBlockComment (line + lines) cs =
      ((afterBlockComment line cs).1 + lines, (afterBlockComment line cs).2) := by
  fun_induction afterBlockComment line cs with
  | case1 => rfl
  | case2 => rfl
  | case3 line c cs hend ih =>
      rw [afterBlockComment, lineAfter_add, ih]
      exact hend

/-- Quoted text that begins some lines further down. -/
def Quoted.shift (lines : Nat) (quoted : Quoted) : Quoted :=
  { quoted with line := quoted.line + lines }

theorem quotedBody_add (quote : Char) (line lines : Nat) (cs : List Char) :
    quotedBody quote (line + lines) cs = (quotedBody quote line cs).map (·.shift lines) := by
  fun_induction quotedBody quote line cs with
  | case1 => rfl
  | case2 => simp [quotedBody, Quoted.shift]
  | case3 line c hc => simp [quotedBody, hc]
  | case4 line rest ih =>
      rw [quotedBody, if_pos rfl, if_pos rfl, ih, Option.map_map, Option.map_map]
      rfl
  | case5 line d rest hd => simp [quotedBody, hd, Quoted.shift]
  | case6 line c d rest hc hescape ih =>
      rw [quotedBody, if_neg hc, if_pos hescape, lineAfter_add, ih, Option.map_map, Option.map_map]
      rfl
  | case7 line c d rest hc hescape ih =>
      rw [quotedBody, if_neg hc, if_neg hescape, lineAfter_add, ih, Option.map_map, Option.map_map]
      rfl

end Lexeme

namespace Scanned

/-- A token that stands some lines further down. -/
def shift (lines : Nat) (scanned : Scanned) : Scanned :=
  { scanned with line := scanned.line + lines }

theorem ofQuoted_add (line lines : Nat) (quote : Char) (make : String → Token) (cs : List Char) :
    ofQuoted (line + lines) quote make cs =
      ((ofQuoted line quote make cs).map (·.shift lines)).mapError (·.shift lines) := by
  rw [ofQuoted, ofQuoted, Lexeme.quotedBody_add]
  cases Lexeme.quotedBody quote line cs <;> rfl

theorem ofCharacters_add (line lines : Nat) (c : Char) (cs : List Char) :
    ofCharacters (line + lines) c cs =
      ((ofCharacters line c cs).map (·.shift lines)).mapError (·.shift lines) := by
  unfold ofCharacters
  split
  · exact ofQuoted_add line lines c .text cs
  split
  · exact ofQuoted_add line lines c .quoted cs
  split
  · exact ofQuoted_add line lines '\'' _ (cs.drop 1)
  split
  · rfl
  split
  · rfl
  split <;> rfl

end Scanned

/-- The first thing that the scanner reads of a text. -/
theorem scan_cons (line : Nat) (c : Char) (cs : List Char) : scan line (c :: cs) =
    if Text.isWhite c then scan (Lexeme.lineAfter line c) cs
    else if beginsLineComment c cs then scan line (Lexeme.afterLineComment cs)
    else if beginsBlockComment c cs then
      match Lexeme.afterBlockComment line (cs.drop 1) with
      | (last, none) => .error (.unterminatedComment last)
      | (line', some rest) => scan line' rest
    else
      match Scanned.ofCharacters line c cs with
      | .error error => .error error
      | .ok scanned => (scan scanned.line scanned.rest).map (scanned.token :: ·) := by
  rw [scan.eq_def]
  dsimp only
  split_ifs
  · rfl
  · rfl
  · split <;> next h => simp only [h]
  · split <;> next h => simp only [h]

/-- A text that begins some lines further down has the same tokens, or the same error so many lines
further down. -/
theorem scan_add (line lines : Nat) (text : List Char) :
    scan (line + lines) text = (scan line text).mapError (·.shift lines) := by
  fun_induction scan line text with
  | case1 => rw [scan.eq_def]; rfl
  | case2 line c cs hwhite ih => rw [scan_cons, if_pos hwhite, Lexeme.lineAfter_add, ih]
  | case3 line c cs hwhite hline _ ih => rw [scan_cons, if_neg hwhite, if_pos hline, ih]
  | case4 line c cs hwhite hline hblock last hcomment =>
      rw [scan_cons, if_neg hwhite, if_neg hline, if_pos hblock, Lexeme.afterBlockComment_add,
        hcomment]
      rfl
  | case5 line c cs hwhite hline hblock last rest hcomment _ ih =>
      rw [scan_cons, if_neg hwhite, if_neg hline, if_pos hblock, Lexeme.afterBlockComment_add,
        hcomment]
      exact ih
  | case6 line c cs hwhite hline hblock error herror =>
      rw [scan_cons, if_neg hwhite, if_neg hline, if_neg hblock, Scanned.ofCharacters_add, herror]
      rfl
  | case7 line c cs hwhite hline hblock scanned hscanned _ ih =>
      rw [scan_cons, if_neg hwhite, if_neg hline, if_neg hblock, Scanned.ofCharacters_add, hscanned]
      change (scan (scanned.line + lines) scanned.rest).map _ = _
      rw [ih]
      cases scan scanned.line scanned.rest <;> rfl

/-- A text fails with the line of what is wrong with it. -/
theorem scan_ne_unreadableDigest (line : Nat) (text : List Char) :
    scan line text ≠ .error .unreadableDigest := by
  have hquoted : ∀ (line : Nat) (quote : Char) (make : String → Token) (cs : List Char),
      Scanned.ofQuoted line quote make cs ≠ .error .unreadableDigest := by
    intro line quote make cs
    unfold Scanned.ofQuoted
    split <;> nofun
  have hcharacters : ∀ (line : Nat) (c : Char) (cs : List Char),
      Scanned.ofCharacters line c cs ≠ .error .unreadableDigest := by
    intro line c cs
    unfold Scanned.ofCharacters
    split_ifs
    · exact hquoted line c .text cs
    · exact hquoted line c .quoted cs
    · exact hquoted line '\'' _ (cs.drop 1)
    all_goals nofun
  fun_induction scan line text with
  | case1 => nofun
  | case2 _ _ _ _ ih => exact ih
  | case3 _ _ _ _ _ _ ih => exact ih
  | case4 => nofun
  | case5 _ _ _ _ _ _ _ _ _ _ ih => exact ih
  | case6 line c cs _ _ _ error herror =>
      rintro heq
      cases heq
      exact hcharacters line c cs herror
  | case7 _ _ _ _ _ _ scanned _ _ ih =>
      intro heq
      cases hrest : scan scanned.line scanned.rest with
      | error error =>
          rw [hrest] at heq ih
          cases heq
          exact ih rfl
      | ok tokens =>
          rw [hrest] at heq
          cases heq

theorem Mismatch.atLine_ne_unreadableDigest (line : Nat) (mismatch : Mismatch) :
    mismatch.atLine line ≠ .unreadableDigest := by
  unfold atLine
  split <;> nofun

theorem parseStatement_ne_unreadableDigest (line : Nat) (text : String) :
    parseStatement line text ≠ .error .unreadableDigest := by
  unfold parseStatement tokenize
  cases hscan : scan line text.toList with
  | error error =>
      rintro h
      cases h
      exact scan_ne_unreadableDigest line text.toList hscan
  | ok tokens =>
      cases tokens with
      | nil => nofun
      | cons token tokens =>
          cases hrun : (Grammar.statement (Text.trim text)).run (token :: tokens) with
          | ok result => simp [hrun, bind, Except.bind, pure, Except.pure]
          | error mismatch =>
              simp [hrun, bind, Except.bind, throw, throwThe, MonadExceptOf.throw,
                mismatch.atLine_ne_unreadableDigest]

/-- An error of a script is never one about a digest. -/
theorem parseScript_ne_unreadableDigest (script : String) :
    parseScript script ≠ .error .unreadableDigest := by
  intro h
  obtain ⟨chunk, -, hchunk⟩ := exists_of_mapM_eq_error (map_eq_error.1 h)
  exact parseStatement_ne_unreadableDigest chunk.line chunk.text (map_eq_error.1 hchunk)

theorem Mismatch.atLine_add (line lines : Nat) (mismatch : Mismatch) :
    mismatch.atLine (line + lines) = (mismatch.atLine line).shift lines := by
  unfold atLine
  split <;> rfl

/-- A statement that begins some lines further down is the same, and so is its error but for the
line. -/
theorem parseStatement_add (line lines : Nat) (text : String) :
    parseStatement (line + lines) text =
      (parseStatement line text).mapError (·.shift lines) := by
  unfold parseStatement tokenize
  rw [scan_add]
  cases scan line text.toList with
  | error error => rfl
  | ok tokens =>
      cases tokens with
      | nil => rfl
      | cons token tokens =>
          cases hrun : (Grammar.statement (Text.trim text)).run (token :: tokens) with
          | ok result => simp [hrun, Except.mapError, bind, Except.bind, pure, Except.pure]
          | error mismatch =>
              simp [hrun, Except.mapError, bind, Except.bind, throw, throwThe,
                MonadExceptOf.throw, mismatch.atLine_add]

theorem Chunk.parse_shift (lines : Nat) (chunk : Chunk) :
    (chunk.shift lines).parse =
      (chunk.parse.map (Option.map (·.shift lines))).mapError (·.shift lines) := by
  unfold Chunk.parse
  rw [Chunk.shift, parseStatement_add]
  rcases parseStatement chunk.line chunk.text with error | statement
  · rfl
  · cases statement <;> rfl

/-- Chunks that all begin so many lines further down have the same statements so many lines further
down, or the same first error. -/
theorem mapM_parse_shift (lines : Nat) (chunks : List Chunk) :
    (chunks.map (·.shift lines)).mapM Chunk.parse =
      ((chunks.mapM Chunk.parse).map (List.map (Option.map (·.shift lines)))).mapError
        (·.shift lines) := by
  induction chunks with
  | nil => rfl
  | cons chunk chunks ih =>
      rw [List.map_cons, List.mapM_cons, List.mapM_cons, ih, Chunk.parse_shift]
      cases chunk.parse with
      | error error => rfl
      | ok statement => cases chunks.mapM Chunk.parse <;> rfl

end Sql
end SchemaLint
