import SchemaLint.Proofs.Sql.Lines
import SchemaLint.Proofs.Sql.Scan

/-!
# Texts on both sides of a line feed

A text that the scanner accepts has closed its quotes and its comments in marks.  Whatever else
could go on behind it, a number, a word or a comment in dashes, ends with the line.  So a text
below it is scanned as on its own, on the line on which it begins, and what is wrong with it is
found where it is found on its own (`tokenize_append`).
-/

namespace SchemaLint
namespace Sql

open Lexeme
open Text (lineFeeds lineFeeds_append)

/-- A line feed ends what white space ends. -/
theorem resumes_append (rest more : List Char) : Resumes rest (rest ++ '\n' :: more) := by
  intro c hc
  cases rest with
  | nil =>
      cases hc
      exact .inl rfl
  | cons d rest => exact .inr hc

theorem beginsLineComment_append {c : Char} {cs : List Char} (h : beginsLineComment c cs = true)
    (more : List Char) : beginsLineComment c (cs ++ more) = true := by
  simp only [beginsLineComment, Bool.or_eq_true, Bool.and_eq_true, beq_iff_eq] at h ⊢
  refine h.imp_right (And.imp_right fun hhead => ?_)
  rw [List.head?_append, hhead]
  rfl

/-- A comment that is closed ends where it is closed. -/
theorem Lexeme.afterBlockComment_append {line last : Nat} {cs rest : List Char}
    (h : afterBlockComment line cs = (last, some rest)) (more : List Char) :
    afterBlockComment line (cs ++ more) = (last, some (rest ++ more)) := by
  fun_induction afterBlockComment line cs with
  | case1 => cases h
  | case2 =>
      cases h
      rfl
  | case3 line c cs hend ih =>
      rw [List.cons_append, afterBlockComment]
      · exact ih h
      · -- the mark is not made up of the last character and what is added
        intro tail hc htail
        cases cs with
        | nil => cases h
        | cons d cs =>
            cases htail
            exact hend _ hc rfl

/-- A step of the scanner is the same in a text that goes on below. -/
theorem Step.append {text rest : List Char} {token : Option Token} (h : Step text token rest)
    (more : List Char) : Step (text ++ '\n' :: more) token (rest ++ '\n' :: more) := by
  cases h with
  | white hc cs => exact .white hc _
  | lineComment h =>
      rw [← afterLineComment_append]
      exact .lineComment (beginsLineComment_append h _)
  | blockComment h => exact .blockComment (afterBlockComment_append h _)
  | @token c spelling _ _ hc hline hblock hspelled =>
      rw [List.cons_append, List.append_assoc]
      exact .token_resumes (resumes_append rest more) hc hline hblock hspelled

/-- What stands below a text that has been scanned is scanned on the line on which it begins. -/
theorem Scans.scan_append {text : List Char} {tokens : List Token} (h : Scans text tokens)
    (line : Nat) (more : List Char) : scan line (text ++ '\n' :: more) =
      (scan (line + lineFeeds text + 1) more).map (tokens ++ ·) := by
  induction h generalizing line with
  | nil =>
      have hfeed : scan line ('\n' :: more) = scan (line + 1) more := by
        rw [scan_cons, if_pos (by decide)]
        rfl
      change scan line ('\n' :: more) = (scan (line + 1) more).map ([] ++ ·)
      rw [hfeed]
      cases scan (line + 1) more <;> rfl
  | @step text rest token tokens hstep _ ih =>
      obtain ⟨last, hline, hscan⟩ := (hstep.append more).scan line
      -- the line feeds of what is added are counted on both sides
      have hlast : last + lineFeeds rest = line + lineFeeds text := by
        rw [lineFeeds_append, lineFeeds_append] at hline
        omega
      rw [hscan, ih, hlast]
      cases scan (line + lineFeeds text + 1) more with
      | error error => rfl
      | ok tokens => exact congrArg Except.ok (List.append_assoc ..).symm

/-- A text below one that is accepted has its tokens behind those of the first, or its own
error. -/
theorem tokenize_append {line : Nat} {first : String} {tokens : List Token}
    (h : tokenize line first = .ok tokens) (second : String) :
    tokenize line (first ++ "\n" ++ second) =
      (tokenize (line + lineFeeds first.toList + 1) second).map (tokens ++ ·) := by
  have htext : (first ++ "\n" ++ second).toList = first.toList ++ '\n' :: second.toList := by simp
  rw [tokenize, htext]
  exact (scans_of_scan h).scan_append line second.toList

/-- A number with a sign below it that its exponent could go on with. -/
theorem tokenize_append_of_exponent :
    let first := "a -- 'b\n1e"
    let below := "-1 /* \n */ c"
    tokenize 3 first = .ok [.word "a", .number "1e"] ∧
      tokenize 3 (first ++ "\n" ++ below) =
        .ok [.word "a", .number "1e", .minus, .number "1", .word "c"] ∧
      tokenize 3 (first ++ "\n" ++ "\n 'c") = .error (.unterminatedQuote 6 '\'') := by
  intro first below
  have hfirst : tokenize 3 first = .ok [.word "a", .number "1e"] := by decide +kernel
  have hlines : lineFeeds first.toList = 1 := by decide +kernel
  have hbelow : tokenize 5 below = .ok [.minus, .number "1", .word "c"] := by decide +kernel
  have herror : tokenize 5 "\n 'c" = .error (.unterminatedQuote 6 '\'') := by decide +kernel
  refine ⟨hfirst, ?_, ?_⟩
  · rw [tokenize_append hfirst below, hlines, hbelow]
    rfl
  · rw [tokenize_append hfirst "\n 'c", hlines, herror]
    rfl

end Sql
end SchemaLint
