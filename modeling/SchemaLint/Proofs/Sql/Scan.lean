import SchemaLint.Proofs.Except
import SchemaLint.Proofs.Text.Class
import SchemaLint.Proofs.Text.Runs
import SchemaLint.Sql.Scan

/-!
# Scanning as a judgement

What the scanner of statements reads, one step at a time: white space, a comment, or a token
with its spelling.  A token depends on what comes after it in one character only, so it is the
same before every text that goes on alike (`Resumes`); a comment may also end with its line
(`Follows`).  The function `scan` and the judgement `Scans` agree (`scan_eq_ok_iff`), so the
lines that the scanner counts matter to errors only.
-/

namespace SchemaLint
namespace Sql

open Text (Stops isWhite lineFeeds lineFeeds_append lineFeeds_append_of_not_mem
  lineFeeds_cons_of_ne lineFeeds_eq_zero)

/-- A text that may stand in the place of another one without a token before it going on: it
begins as that one does, or with white space, or it is empty. -/
def Resumes (rest other : List Char) : Prop :=
  ∀ c, other.head? = some c → isWhite c = true ∨ rest.head? = some c

namespace Resumes

variable {rest other : List Char}

theorem append (h : Resumes rest other) (run : List Char) :
    Resumes (run ++ rest) (run ++ other) := by
  cases run with
  | nil => exact h
  | cons c run => exact fun _ hc => .inr hc

theorem stops {p : Char → Bool} (h : Resumes rest other) (hp : ∀ c, p c = true → isWhite c = false)
    (hrest : Stops p rest) : Stops p other := by
  intro c hc
  rcases h c hc with hwhite | hsame
  · rw [Bool.eq_false_iff]
    intro htrue
    rw [hp c htrue] at hwhite
    cases hwhite
  · exact hrest c hsame

theorem head?_ne {c : Char} (h : Resumes rest other) (hc : isWhite c = false)
    (hrest : rest.head? ≠ some c) : other.head? ≠ some c := by
  intro hother
  rcases h c hother with hwhite | hsame
  · simp [hc] at hwhite
  · exact hrest hsame

end Resumes

/-- A text that may stand in the place of another one without a token or a comment before it going
on: it resumes that one, and does not go on with a line that has ended. -/
structure Follows (rest other : List Char) : Prop where
  head : Resumes rest other
  lineEnd : Stops (· != '\n') rest → Stops (· != '\n') other

protected theorem Follows.cons (c : Char) (rest other : List Char) :
    Follows (c :: rest) (c :: other) where
  head := fun _ h => .inr h
  lineEnd := id

namespace Lexeme

theorem lineAfter_add_lineFeeds (line : Nat) (c : Char) (cs : List Char) :
    lineAfter line c + lineFeeds cs = line + lineFeeds (c :: cs) := by
  unfold lineAfter
  split
  · next hc => simp only [lineFeeds, hc, List.count_cons_self]; omega
  · next hc => rw [lineFeeds_cons_of_ne hc]

theorem lineFeeds_afterLineComment (cs : List Char) :
    lineFeeds (afterLineComment cs) = lineFeeds cs := by
  have hfront : '\n' ∉ cs.takeWhile (· != '\n') := by
    intro hmem
    simpa using List.mem_takeWhile_imp hmem
  calc lineFeeds (afterLineComment cs)
      = lineFeeds (cs.takeWhile (· != '\n') ++ cs.dropWhile (· != '\n')) :=
        (lineFeeds_append_of_not_mem hfront _).symm
    _ = lineFeeds cs := by rw [List.takeWhile_append_dropWhile]

theorem afterLineComment_append (cs rest : List Char) :
    afterLineComment (cs ++ '\n' :: rest) = afterLineComment cs ++ '\n' :: rest :=
  (Text.stops_cons (by decide)).dropWhile_append cs

theorem afterBlockComment_line {line last : Nat} {cs rest : List Char}
    (h : afterBlockComment line cs = (last, some rest)) :
    last + lineFeeds rest = line + lineFeeds cs := by
  fun_induction afterBlockComment line cs with
  | case1 => cases h
  | case2 =>
      cases h
      rw [lineFeeds_cons_of_ne (by decide), lineFeeds_cons_of_ne (by decide)]
  | case3 line c cs _ ih => rw [ih h, lineAfter_add_lineFeeds]

/-- Text that may stand between quotes, and what it stands for. -/
inductive Body (quote : Char) : List Char → List Char → Prop where
  | nil : Body quote [] []
  | doubled {body value : List Char} : Body quote body value →
      Body quote (quote :: quote :: body) (quote :: value)
  | escaped {body value : List Char} (d : Char) : quote ≠ '\x60' → Body quote body value →
      Body quote ('\\' :: d :: body) (unescape d :: value)
  | plain {c : Char} {body value : List Char} : c ≠ quote → (c = '\\' → quote = '\x60') →
      Body quote body value → Body quote (c :: body) (c :: value)

theorem quotedBody_plain {quote c : Char} (hquote : c ≠ quote) (hescape : c = '\\' → quote = '\x60')
    (line : Nat) {cs : List Char} (hcs : cs ≠ []) :
    quotedBody quote line (c :: cs) = (quotedBody quote (lineAfter line c) cs).map (·.push c) := by
  cases cs with
  | nil => exact absurd rfl hcs
  | cons d cs => rw [quotedBody, if_neg hquote, if_neg fun h => h.2 (hescape h.1)]

/-- Text in quotes is read as what it stands for. -/
theorem Body.quotedBody {quote : Char} {body value rest : List Char}
    (hquote : quote ≠ '\\' ∧ quote ≠ '\n') (h : Body quote body value)
    (hrest : Stops (· == quote) rest) (line : Nat) :
    quotedBody quote line (body ++ quote :: rest) =
      some ⟨value, line + lineFeeds body, rest⟩ := by
  induction h generalizing line with
  | nil =>
      cases rest with
      | nil => exact if_pos rfl
      | cons d rest =>
          have hd : d ≠ quote := by simpa using hrest d rfl
          rw [List.nil_append, Lexeme.quotedBody, if_pos rfl, if_neg hd]
          rfl
  | doubled _ ih =>
      rw [List.cons_append, List.cons_append, Lexeme.quotedBody, if_pos rfl, if_pos rfl, ih line,
        lineFeeds_cons_of_ne hquote.2, lineFeeds_cons_of_ne hquote.2]
      rfl
  | escaped d hescapes _ ih =>
      rw [List.cons_append, List.cons_append, Lexeme.quotedBody, if_neg hquote.1.symm,
        if_pos ⟨rfl, hescapes⟩, ih, lineAfter_add_lineFeeds,
        @lineFeeds_cons_of_ne '\\' (by decide)]
      rfl
  | @plain c _ _ hplain hescape _ ih =>
      rw [List.cons_append, quotedBody_plain hplain hescape line (by simp), ih,
        lineAfter_add_lineFeeds]
      rfl

/-- What is read between quotes is spelled there. -/
theorem exists_body {quote : Char} {line : Nat} {cs : List Char} {quoted : Quoted}
    (h : quotedBody quote line cs = some quoted) :
    ∃ body, cs = body ++ quote :: quoted.rest ∧ Body quote body quoted.value ∧
      Stops (· == quote) quoted.rest := by
  fun_induction quotedBody quote line cs generalizing quoted with
  | case1 => simp at h
  | case2 =>
      cases h
      exact ⟨[], rfl, .nil, Text.stops_nil⟩
  | case3 => simp at h
  | case4 line rest ih =>
      obtain ⟨inner, hinner, rfl⟩ := Option.map_eq_some_iff.1 h
      obtain ⟨body, rfl, hbody, hrest⟩ := ih hinner
      exact ⟨quote :: quote :: body, rfl, hbody.doubled, hrest⟩
  | case5 line d rest hd =>
      cases h
      exact ⟨[], rfl, .nil, Text.stops_cons (by simpa using hd)⟩
  | case6 line c d rest _ hescape ih =>
      obtain ⟨inner, hinner, rfl⟩ := Option.map_eq_some_iff.1 h
      obtain ⟨body, rfl, hbody, hrest⟩ := ih hinner
      obtain ⟨rfl, hquote⟩ := hescape
      exact ⟨'\\' :: d :: body, rfl, hbody.escaped d hquote, hrest⟩
  | case7 line c d rest hc hescape ih =>
      obtain ⟨inner, hinner, rfl⟩ := Option.map_eq_some_iff.1 h
      obtain ⟨body, hcs, hbody, hrest⟩ := ih hinner
      rw [not_and_not_right] at hescape
      exact ⟨c :: body, by rw [hcs]; rfl, hbody.plain hc hescape, hrest⟩

theorem numberTail_append (previous : Char) (cs : List Char) :
    (numberTail previous cs).1 ++ (numberTail previous cs).2 = cs := by
  fun_induction numberTail previous cs with
  | case1 => rfl
  | case2 _ _ _ _ _ _ htail ih =>
      rw [htail] at ih
      exact congrArg _ ih
  | case3 => rfl

theorem isWhite_eq_false_of_continuesNumber {previous c : Char}
    (h : continuesNumber previous c = true) : isWhite c = false := by
  simp only [continuesNumber, Bool.or_eq_true, Bool.and_eq_true, beq_iff_eq] at h
  rcases h with (((hdigit | rfl) | rfl) | rfl) | ⟨rfl | rfl, -⟩
  · exact Text.isWhite_eq_false_of_isDigit hdigit
  all_goals rfl

theorem isWhite_eq_false_of_continuesWord {c : Char} (h : continuesWord c = true) :
    isWhite c = false := by
  simp only [continuesWord, Bool.or_eq_true, beq_iff_eq] at h
  rcases h with (hletter | rfl) | rfl
  · exact Text.isWhite_eq_false_of_isLetterOrNumber hletter
  all_goals rfl

theorem numberTail_cons {previous c : Char} {cs tail rest : List Char} :
    numberTail previous (c :: cs) = (c :: tail, rest) ↔
      continuesNumber previous c = true ∧ numberTail c cs = (tail, rest) := by
  rw [numberTail]
  split
  · next hc =>
      cases htail : numberTail c cs with
      | mk tail' rest' => simp [hc]
  · next hc => simp [hc]

theorem numberTail_eq_nil {previous : Char} {rest : List Char} :
    numberTail previous rest = ([], rest) ↔ Stops (continuesNumber previous) rest := by
  cases rest with
  | nil => exact ⟨fun _ => Text.stops_nil, fun _ => rfl⟩
  | cons c rest =>
      rw [numberTail]
      split
      · next hc =>
          refine ⟨fun h => by simp at h, fun h => ?_⟩
          rw [h c rfl] at hc
          cases hc
      · next hc => exact ⟨fun _ => Text.stops_cons (by simpa using hc), fun _ => rfl⟩

/-- A number ends at the same place before every text that resumes the rest. -/
theorem numberTail_resumes {rest other : List Char} (hresumes : Resumes rest other) :
    ∀ {previous : Char} {tail : List Char}, numberTail previous (tail ++ rest) = (tail, rest) →
      numberTail previous (tail ++ other) = (tail, other)
  | previous, [], h => by
      rw [List.nil_append, numberTail_eq_nil] at h ⊢
      exact hresumes.stops (fun _ => isWhite_eq_false_of_continuesNumber) h
  | previous, c :: tail, h => by
      rw [List.cons_append, numberTail_cons] at h ⊢
      exact ⟨h.1, numberTail_resumes hresumes h.2⟩

theorem isWhite_numberTail {rest : List Char} : ∀ {previous : Char} {tail : List Char},
    numberTail previous (tail ++ rest) = (tail, rest) → ∀ c ∈ tail, isWhite c = false
  | _, [], _, _, hmem => nomatch hmem
  | _, d :: tail, h, c, hmem => by
      rw [List.cons_append, numberTail_cons] at h
      rcases List.mem_cons.1 hmem with rfl | hmem
      · exact isWhite_eq_false_of_continuesNumber h.1
      · exact isWhite_numberTail h.2 c hmem

end Lexeme

open Lexeme

/-- The spelling of a token before the rest of a text. -/
inductive Spelled : List Char → Token → List Char → Prop where
  | text {quote : Char} {body value rest : List Char} (hquote : quote = '\'' ∨ quote = '"')
      (hbody : Body quote body value) (hrest : Stops (· == quote) rest) :
      Spelled (quote :: (body ++ [quote])) (.text (String.ofList value)) rest
  | quoted {body value rest : List Char} (hbody : Body '\x60' body value)
      (hrest : Stops (· == '\x60') rest) :
      Spelled ('\x60' :: (body ++ ['\x60'])) (.quoted (String.ofList value)) rest
  | bits {mark : Char} {body value rest : List Char} (hmark : Scanned.marksBits mark = true)
      (hbody : Body '\'' body value) (hrest : Stops (· == '\'') rest) :
      Spelled (mark :: '\'' :: (body ++ ['\'']))
        (.bits (String.ofList [mark.toLower] ++ "'" ++ String.ofList value ++ "'")) rest
  | hex {mark : Char} {digits rest : List Char} (hmark : mark = 'x' ∨ mark = 'X')
      (hdigits : ∀ c ∈ digits, Text.isHexDigit c = true) (hrest : Stops Text.isHexDigit rest) :
      Spelled ('0' :: mark :: digits) (.bits ("0x" ++ String.ofList digits)) rest
  | number {c : Char} {tail rest : List Char} (hc : c.isDigit = true)
      (hmark : c = '0' → (tail ++ rest).head? ≠ some 'x' ∧ (tail ++ rest).head? ≠ some 'X')
      (htail : numberTail c (tail ++ rest) = (tail, rest)) :
      Spelled (c :: tail) (.number (String.ofList (c :: tail))) rest
  | word {c : Char} {tail rest : List Char} (hc : startsWord c = true)
      (hmark : Scanned.marksBits c = true → (tail ++ rest).head? ≠ some '\'')
      (htail : ∀ d ∈ tail, continuesWord d = true) (hrest : Stops continuesWord rest) :
      Spelled (c :: tail) (.word (String.ofList (c :: tail))) rest
  | punctuation {c : Char} (rest : List Char) (hquote : c ≠ '\'' ∧ c ≠ '"' ∧ c ≠ '\x60')
      (hdigit : c.isDigit = false) (hword : startsWord c = false) :
      Spelled [c] (Scanned.punctuation c) rest

namespace Spelled

variable {spelling rest other : List Char} {token : Token}

/-- A spelling is the same before every text that resumes the rest. -/
theorem resumes (h : Spelled spelling token rest) (hresumes : Resumes rest other) :
    Spelled spelling token other := by
  -- only the character after a spelling could go on with it, and white space does not
  cases h with
  | text hquote hbody hrest =>
      refine .text hquote hbody (hresumes.stops (fun c hc => ?_) hrest)
      rw [eq_of_beq hc]
      rcases hquote with rfl | rfl <;> rfl
  | quoted hbody hrest =>
      exact .quoted hbody (hresumes.stops (fun c hc => by rw [eq_of_beq hc]; rfl) hrest)
  | bits hmark hbody hrest =>
      exact .bits hmark hbody (hresumes.stops (fun c hc => by rw [eq_of_beq hc]; rfl) hrest)
  | hex hmark hdigits hrest =>
      exact .hex hmark hdigits (hresumes.stops (fun _ => Text.isWhite_eq_false_of_isHexDigit) hrest)
  | @number c tail _ hc hmark htail =>
      have happend := hresumes.append tail
      exact .number hc
        (fun hzero => ⟨happend.head?_ne rfl (hmark hzero).1, happend.head?_ne rfl (hmark hzero).2⟩)
        (numberTail_resumes hresumes htail)
  | @word c tail _ hc hmark htail hrest =>
      exact .word hc (fun hbits => (hresumes.append tail).head?_ne rfl (hmark hbits)) htail
        (hresumes.stops (fun _ => isWhite_eq_false_of_continuesWord) hrest)
  | punctuation _ hquote hdigit hword => exact .punctuation other hquote hdigit hword

/-- A spelling that does not begin with white space does not end with it. -/
theorem isWhite_getLast {c : Char} (h : Spelled (c :: spelling) token rest)
    (hc : isWhite c = false) :
    isWhite ((c :: spelling).getLast (List.cons_ne_nil _ _)) = false := by
  -- of a run without white space the last character is not white either
  have hrun : (∀ d ∈ spelling, isWhite d = false) →
      isWhite ((c :: spelling).getLast (List.cons_ne_nil _ _)) = false := fun hspelling => by
    rcases List.mem_cons.1 (List.getLast_mem (List.cons_ne_nil c spelling)) with heq | hmem
    · rw [heq]
      exact hc
    · exact hspelling _ hmem
  cases h with
  | text hquote hbody hrest => simpa using hc
  | quoted hbody hrest => simpa using hc
  | bits hmark hbody hrest => simp [isWhite]
  | hex hmark hdigits hrest =>
      refine hrun (List.forall_mem_cons.2 ⟨?_, fun d hd => ?_⟩)
      · rcases hmark with rfl | rfl <;> rfl
      · exact Text.isWhite_eq_false_of_isHexDigit (hdigits d hd)
  | number hdigit hmark htail => exact hrun (isWhite_numberTail htail)
  | word hword hmark htail hrest =>
      exact hrun fun d hd => isWhite_eq_false_of_continuesWord (htail d hd)
  | punctuation => exact hc

end Spelled

namespace Scanned

theorem startsWord_of_marksBits {c : Char} (h : marksBits c = true) : startsWord c = true := by
  simp only [marksBits, Bool.or_eq_true, beq_iff_eq] at h
  rcases h with ((rfl | rfl) | rfl) | rfl <;> decide

theorem isDigit_eq_false_of_startsWord {c : Char} (h : startsWord c = true) :
    c.isDigit = false := by
  simp only [startsWord, Bool.or_eq_true, beq_iff_eq] at h
  rcases h with (hletter | rfl) | rfl
  · rw [Bool.eq_false_iff]
    intro hdigit
    rw [Text.isLetter_eq_false_of_isDigit hdigit] at hletter
    cases hletter
  all_goals rfl

theorem ne_quote_of_isDigit {c : Char} (h : c.isDigit = true) :
    c ≠ '\'' ∧ c ≠ '"' ∧ c ≠ '\x60' := by
  refine ⟨?_, ?_, ?_⟩ <;>
    · rintro rfl
      cases h

theorem ne_quote_of_startsWord {c : Char} (h : startsWord c = true) :
    c ≠ '\'' ∧ c ≠ '"' ∧ c ≠ '\x60' := by
  refine ⟨?_, ?_, ?_⟩ <;>
    · rintro rfl
      revert h
      decide

theorem exists_body_of_ofQuoted {line : Nat} {quote : Char} {make : String → Token}
    {cs : List Char} {scanned : Scanned} (h : ofQuoted line quote make cs = .ok scanned) :
    ∃ body value, cs = body ++ [quote] ++ scanned.rest ∧ Body quote body value ∧
      Stops (· == quote) scanned.rest ∧ scanned.token = make (String.ofList value) := by
  unfold ofQuoted at h
  split at h
  · cases h
  · next quoted hquoted =>
      cases h
      obtain ⟨body, hcs, hbody, hrest⟩ := exists_body hquoted
      exact ⟨body, quoted.value, by simp [hcs], hbody, hrest, rfl⟩

theorem ofQuoted_of_body {quote : Char} {body value rest : List Char}
    (hquote : quote ≠ '\\' ∧ quote ≠ '\n') (hbody : Body quote body value)
    (hrest : Stops (· == quote) rest) (line : Nat) (make : String → Token) :
    ofQuoted line quote make (body ++ [quote] ++ rest) =
      .ok ⟨make (String.ofList value), line + lineFeeds (body ++ [quote]), rest⟩ := by
  have hline : lineFeeds (body ++ [quote]) = lineFeeds body := by
    rw [lineFeeds_append, lineFeeds_cons_of_ne hquote.2]
    rfl
  rw [List.append_assoc, List.singleton_append, ofQuoted, hbody.quotedBody hquote hrest line, hline]

/-- What is read is spelled at the front of the text. -/
theorem exists_spelled {line : Nat} {c : Char} {cs : List Char} {scanned : Scanned}
    (h : ofCharacters line c cs = .ok scanned) :
    ∃ spelling, cs = spelling ++ scanned.rest ∧
      Spelled (c :: spelling) scanned.token scanned.rest := by
  unfold ofCharacters at h
  split at h
  · next hquote =>
      obtain ⟨body, value, hcs, hbody, hrest, htoken⟩ := exists_body_of_ofQuoted h
      exact ⟨body ++ [c], hcs, htoken ▸ .text hquote hbody hrest⟩
  split at h
  · next hquote =>
      obtain ⟨body, value, hcs, hbody, hrest, htoken⟩ := exists_body_of_ofQuoted h
      subst hquote
      exact ⟨body ++ ['\x60'], hcs, htoken ▸ .quoted hbody hrest⟩
  split at h
  · next hbits =>
      obtain ⟨hmark, hhead⟩ := hbits
      obtain ⟨cs, rfl⟩ := List.head?_eq_some_iff.1 hhead
      obtain ⟨body, value, hcs, hbody, hrest, htoken⟩ := exists_body_of_ofQuoted h
      exact ⟨'\'' :: (body ++ ['\'']), congrArg _ hcs, htoken ▸ .bits hmark hbody hrest⟩
  split at h
  · next hhex =>
      obtain ⟨rfl, hhead⟩ := hhex
      have hmark : ∃ mark digits, (mark = 'x' ∨ mark = 'X') ∧ cs = mark :: digits := by
        rcases hhead with hhead | hhead <;> obtain ⟨digits, rfl⟩ := List.head?_eq_some_iff.1 hhead
        · exact ⟨'x', digits, .inl rfl, rfl⟩
        · exact ⟨'X', digits, .inr rfl, rfl⟩
      obtain ⟨mark, digits, hmark, rfl⟩ := hmark
      cases h
      refine ⟨mark :: digits.takeWhile Text.isHexDigit, ?_, ?_⟩
      · exact congrArg _ (List.takeWhile_append_dropWhile ..).symm
      · exact .hex hmark (fun d => List.mem_takeWhile_imp) (Text.stops_dropWhile _ _)
  split at h
  · next hhex hdigit =>
      cases h
      refine ⟨(numberTail c cs).1, (numberTail_append c cs).symm, .number hdigit ?_ ?_⟩
      · rw [numberTail_append]
        rintro rfl
        exact not_or.1 fun h => hhex ⟨rfl, h⟩
      · rw [numberTail_append]
  split at h
  · next hquote hquoted hbits hhex hdigit hword =>
      cases h
      refine ⟨cs.takeWhile continuesWord, (List.takeWhile_append_dropWhile ..).symm,
        .word hword ?_ (fun d => List.mem_takeWhile_imp) (Text.stops_dropWhile _ _)⟩
      rw [List.takeWhile_append_dropWhile]
      exact fun hmark hhead => hbits ⟨hmark, hhead⟩
  · next hquote hquoted hbits hhex hdigit hword =>
      cases h
      rw [not_or] at hquote
      exact ⟨[], rfl, .punctuation cs ⟨hquote.1, hquote.2, hquoted⟩ (Bool.eq_false_iff.2 hdigit)
        (Bool.eq_false_iff.2 hword)⟩

end Scanned

open Scanned in
/-- A token is read from its spelling. -/
theorem Spelled.ofCharacters {c : Char} {spelling rest : List Char} {token : Token}
    (h : Spelled (c :: spelling) token rest) (line : Nat) :
    ofCharacters line c (spelling ++ rest) = .ok ⟨token, line + lineFeeds spelling, rest⟩ := by
  unfold Scanned.ofCharacters
  cases h with
  | text hquote hbody hrest =>
      rw [if_pos hquote]
      exact ofQuoted_of_body (by rcases hquote with rfl | rfl <;> decide) hbody hrest line .text
  | quoted hbody hrest =>
      rw [if_neg (by decide), if_pos rfl]
      exact ofQuoted_of_body (by decide) hbody hrest line .quoted
  | bits hmark hbody hrest =>
      obtain ⟨hsingle, hdouble, hback⟩ := ne_quote_of_startsWord (startsWord_of_marksBits hmark)
      rw [if_neg (not_or.2 ⟨hsingle, hdouble⟩), if_neg hback, if_pos ⟨hmark, rfl⟩]
      exact ofQuoted_of_body (by decide) hbody hrest line _
  | hex hmark hdigits hrest =>
      rw [if_neg (by decide), if_neg (by decide), if_neg (by simp [marksBits]),
        if_pos (by simpa using hmark)]
      rename_i mark digits
      have htake := Text.takeWhile_run hdigits hrest
      have hdrop := Text.dropWhile_run hdigits hrest
      have hline : lineFeeds (mark :: digits) = 0 :=
        lineFeeds_eq_zero (List.forall_mem_cons.2 ⟨by rcases hmark with rfl | rfl <;> rfl,
          fun d hd => Text.isWhite_eq_false_of_isHexDigit (hdigits d hd)⟩)
      simp only [List.cons_append, List.drop_one, List.tail_cons, htake, hdrop, hline,
        Nat.add_zero]
  | number hc hmark htail =>
      obtain ⟨hsingle, hdouble, hback⟩ := ne_quote_of_isDigit hc
      have hbits : ¬ (marksBits c = true ∧ (spelling ++ rest).head? = some '\'') := fun h => by
        have hdigit := isDigit_eq_false_of_startsWord (startsWord_of_marksBits h.1)
        rw [hc] at hdigit
        cases hdigit
      rw [if_neg (not_or.2 ⟨hsingle, hdouble⟩), if_neg hback, if_neg hbits,
        if_neg fun h => not_or.2 (hmark h.1) h.2, if_pos hc, htail,
        lineFeeds_eq_zero (isWhite_numberTail htail), Nat.add_zero]
  | word hc hmark htail hrest =>
      obtain ⟨hsingle, hdouble, hback⟩ := ne_quote_of_startsWord hc
      have hdigit := isDigit_eq_false_of_startsWord hc
      rw [if_neg (not_or.2 ⟨hsingle, hdouble⟩), if_neg hback, if_neg fun h => hmark h.1 h.2,
        if_neg (by rintro ⟨rfl, -⟩; cases hdigit), if_neg (by simp [hdigit]), if_pos hc,
        Text.takeWhile_run htail hrest, Text.dropWhile_run htail hrest,
        lineFeeds_eq_zero fun d hd => isWhite_eq_false_of_continuesWord (htail d hd), Nat.add_zero]
  | punctuation _ hquote hdigit hword =>
      obtain ⟨hsingle, hdouble, hback⟩ := hquote
      have hbits : ¬ marksBits c = true := fun h => by
        rw [startsWord_of_marksBits h] at hword
        cases hword
      rw [if_neg (not_or.2 ⟨hsingle, hdouble⟩), if_neg hback, if_neg fun h => hbits h.1,
        if_neg (by rintro ⟨rfl, -⟩; cases hdigit), if_neg (by simp [hdigit]),
        if_neg (by simp [hword])]
      rfl

theorem isWhite_eq_false_of_beginsLineComment {c : Char} {cs : List Char}
    (h : beginsLineComment c cs = true) : isWhite c = false := by
  simp only [beginsLineComment, Bool.or_eq_true, Bool.and_eq_true, beq_iff_eq] at h
  rcases h with rfl | ⟨rfl, -⟩ <;> rfl

/-- A character at which no comment begins. -/
theorem begins_eq_false {c : Char} (hc : c ≠ '#' ∧ c ≠ '-' ∧ c ≠ '/') (cs : List Char) :
    beginsLineComment c cs = false ∧ beginsBlockComment c cs = false := by
  simp [beginsLineComment, beginsBlockComment, hc]

/-- One step of the scanner: what it passes at the front of a text, with the token if that is
one, and the rest. -/
inductive Step : List Char → Option Token → List Char → Prop where
  | white {c : Char} (hc : isWhite c = true) (cs : List Char) : Step (c :: cs) none cs
  | lineComment {c : Char} {cs : List Char} (h : beginsLineComment c cs = true) :
      Step (c :: cs) none (afterLineComment cs)
  | blockComment {line last : Nat} {cs rest : List Char}
      (h : afterBlockComment line cs = (last, some rest)) : Step ('/' :: '*' :: cs) none rest
  | token {c : Char} {spelling rest : List Char} {token : Token} (hc : isWhite c = false)
      (hline : beginsLineComment c (spelling ++ rest) = false)
      (hblock : beginsBlockComment c (spelling ++ rest) = false)
      (hspelled : Spelled (c :: spelling) token rest) :
      Step (c :: (spelling ++ rest)) (some token) rest

theorem beginsLineComment_resumes {c : Char} {rest other : List Char}
    (hresumes : Resumes rest other) (h : beginsLineComment c rest = false) :
    beginsLineComment c other = false := by
  simp only [beginsLineComment, Bool.or_eq_false_iff, Bool.and_eq_false_iff,
    beq_eq_false_iff_ne] at h ⊢
  exact h.imp_right (Or.imp_right (hresumes.head?_ne rfl))

theorem beginsBlockComment_resumes {c : Char} {rest other : List Char}
    (hresumes : Resumes rest other) (h : beginsBlockComment c rest = false) :
    beginsBlockComment c other = false := by
  simp only [beginsBlockComment, Bool.and_eq_false_iff, beq_eq_false_iff_ne] at h ⊢
  exact h.imp_right (hresumes.head?_ne rfl)

/-- A token is read from its spelling before every text that resumes the rest. -/
theorem Step.token_resumes {c : Char} {spelling rest other : List Char} {token : Token}
    (hresumes : Resumes rest other) (hc : isWhite c = false)
    (hline : beginsLineComment c (spelling ++ rest) = false)
    (hblock : beginsBlockComment c (spelling ++ rest) = false)
    (hspelled : Spelled (c :: spelling) token rest) :
    Step (c :: (spelling ++ other)) (some token) other :=
  .token hc (beginsLineComment_resumes (hresumes.append spelling) hline)
    (beginsBlockComment_resumes (hresumes.append spelling) hblock) (hspelled.resumes hresumes)

theorem Lexeme.afterBlockComment_suffix {line last : Nat} {cs rest : List Char}
    (h : afterBlockComment line cs = (last, some rest)) : rest <:+ cs := by
  fun_induction afterBlockComment line cs with
  | case1 => cases h
  | case2 =>
      cases h
      exact (List.suffix_cons _ _).trans (List.suffix_cons _ _)
  | case3 line c cs _ ih => exact (ih h).trans (List.suffix_cons _ _)

theorem Step.suffix {text rest : List Char} {token : Option Token} (h : Step text token rest) :
    rest <:+ text := by
  cases h with
  | white hc cs => exact List.suffix_cons _ _
  | lineComment h => exact (List.dropWhile_suffix _).trans (List.suffix_cons _ _)
  | blockComment h =>
      exact ((afterBlockComment_suffix h).trans (List.suffix_cons _ _)).trans (List.suffix_cons _ _)
  | token _ _ _ _ => exact (List.suffix_append _ _).trans (List.suffix_cons _ _)

theorem Step.eq_of_semicolon {text rest : List Char} (h : Step text (some .semicolon) rest) :
    text = ';' :: rest := by
  cases h with
  | @token c spelling _ _ _ _ _ hspelled =>
      generalize htoken : Token.semicolon = token at hspelled
      cases hspelled with
      | punctuation _ _ _ _ =>
          unfold Scanned.punctuation at htoken
          split at htoken <;> first | rfl | cases htoken
      | _ => cases htoken

/-- The tokens of a text, read step by step. -/
inductive Scans : List Char → List Token → Prop where
  | nil : Scans [] []
  | step {text rest : List Char} {token : Option Token} {tokens : List Token} :
      Step text token rest → Scans rest tokens → Scans text (token.toList ++ tokens)

namespace Scans

variable {text rest : List Char} {token : Token} {tokens : List Token}

theorem pass (hstep : Step text none rest) (h : Scans rest tokens) : Scans text tokens :=
  @step text rest none tokens hstep h

theorem read (hstep : Step text (some token) rest) (h : Scans rest tokens) :
    Scans text (token :: tokens) :=
  @step text rest (some token) tokens hstep h

end Scans

/-- Where a comment in marks ends does not depend on the line. -/
theorem Lexeme.afterBlockComment_snd (line other : Nat) (cs : List Char) :
    (afterBlockComment line cs).2 = (afterBlockComment other cs).2 := by
  fun_induction afterBlockComment line cs generalizing other with
  | case1 => rfl
  | case2 => rfl
  | case3 line c cs hend ih =>
      rw [ih (lineAfter other c), afterBlockComment]
      exact hend

/-- The scanner takes the steps of the judgement, and counts the line feeds that it passes. -/
theorem Step.scan {text rest : List Char} {token : Option Token} (h : Step text token rest)
    (line : Nat) : ∃ last, last + lineFeeds rest = line + lineFeeds text ∧
      scan line text = (scan last rest).map (token.toList ++ ·) := by
  have hpass : ∀ result : Except SyntaxError (List Token),
      result = result.map ((none : Option Token).toList ++ ·) := fun result => by
    cases result <;> rfl
  cases h with
  | @white c hc cs =>
      refine ⟨lineAfter line c, lineAfter_add_lineFeeds line c _, ?_⟩
      rw [Sql.scan.eq_def]
      simp only [hc, if_true]
      exact hpass _
  | @lineComment c cs h =>
      have hfeed : c ≠ '\n' := by
        rintro rfl
        cases isWhite_eq_false_of_beginsLineComment h
      refine ⟨line, by rw [lineFeeds_afterLineComment, lineFeeds_cons_of_ne hfeed], ?_⟩
      rw [Sql.scan.eq_def]
      simp only [isWhite_eq_false_of_beginsLineComment h, h, if_true, Bool.false_eq_true, if_false]
      exact hpass _
  | @blockComment start _ cs _ h =>
      -- the judgement may count lines from another one
      have hrest := Lexeme.afterBlockComment_snd line start cs
      rw [h] at hrest
      refine ⟨(afterBlockComment line cs).1, ?_, ?_⟩
      · rw [afterBlockComment_line (Prod.ext rfl hrest), lineFeeds_cons_of_ne (by decide),
          lineFeeds_cons_of_ne (by decide)]
      have hwhite : isWhite '/' = false := rfl
      have hline : beginsLineComment '/' ('*' :: cs) = false := rfl
      have hblock : beginsBlockComment '/' ('*' :: cs) = true := rfl
      rw [Sql.scan.eq_def]
      simp only [hwhite, hline, hblock, if_true, Bool.false_eq_true, if_false]
      split
      · next hother =>
          rw [List.drop_one, List.tail_cons] at hother
          rw [hother] at hrest
          cases hrest
      · next hother =>
          rw [List.drop_one, List.tail_cons] at hother
          rw [hother] at hrest ⊢
          cases hrest
          exact hpass _
  | @token c spelling rest token hc hline hblock hspelled =>
      have hlast := hspelled.ofCharacters line
      have hfeed : c ≠ '\n' := by
        rintro rfl
        cases hc
      refine ⟨line + lineFeeds spelling, ?_, ?_⟩
      · rw [lineFeeds_cons_of_ne hfeed, lineFeeds_append, Nat.add_assoc]
      rw [Sql.scan.eq_def]
      simp only [hc, hline, hblock, Bool.false_eq_true, if_false]
      split
      · next hother => cases hlast.symm.trans hother
      · next hother =>
          cases hlast.symm.trans hother
          rfl

theorem scans_of_scan {line : Nat} {text : List Char} {tokens : List Token}
    (h : scan line text = .ok tokens) : Scans text tokens := by
  fun_induction scan line text generalizing tokens with
  | case1 =>
      cases h
      exact .nil
  | case2 line c cs hc ih => exact .pass (.white hc cs) (ih h)
  | case3 line c cs _ hc _ ih => exact .pass (.lineComment hc) (ih h)
  | case4 => cases h
  | case5 line c cs _ _ hc _ rest hrest _ ih =>
      obtain ⟨cs, rfl, rfl⟩ : ∃ rest, c = '/' ∧ cs = '*' :: rest := by
        simpa [beginsBlockComment, List.head?_eq_some_iff] using hc
      exact .pass (.blockComment hrest) (ih h)
  | case6 => cases h
  | case7 line c cs hwhite hline hblock scanned hscanned _ ih =>
      obtain ⟨tokens, hrest, rfl⟩ := map_eq_ok.1 h
      obtain ⟨spelling, rfl, hspelled⟩ := Scanned.exists_spelled hscanned
      exact .read (.token (by simpa using hwhite) (by simpa using hline) (by simpa using hblock)
        hspelled) (ih hrest)

/-- The scanner reads what the judgement says, on whatever line the text begins. -/
theorem scan_eq_ok_iff {line : Nat} {text : List Char} {tokens : List Token} :
    scan line text = .ok tokens ↔ Scans text tokens := by
  refine ⟨scans_of_scan, fun h => ?_⟩
  induction h generalizing line with
  | nil => rw [scan.eq_def]
  | step hstep _ ih =>
      obtain ⟨last, -, hlast⟩ := hstep.scan line
      rw [hlast, ih]
      rfl

end Sql
end SchemaLint
