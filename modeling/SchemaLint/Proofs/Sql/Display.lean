import SchemaLint.Proofs.Sql.Lines
import SchemaLint.Proofs.Sql.Quotation

/-!
# Tokens as they are shown

Every token is shown as a text that is read back as the token when a space follows, with one
exception.  Quotes are doubled where a string literal is shown, but backslashes are not, and a
literal of bits is shown as it stands, so that what is between its quotes is read once more
(`Token.ShownAsRead`).  So the tokens of a statement are read back from their texts exactly when
none of them is such an exception (`tokenize_displayAll_iff`).

* `Step.display` - a token that is no exception, read back from its text.
* `Step.shownAsRead` - why the others are not read back: reading between quotes halves the
  backslashes and cannot lose the space after the token.
* `scans_shownAfter_iff` - all tokens of a text.
-/

namespace SchemaLint
namespace Sql

open Lexeme
open Text (Stops isWhite)

/-- The text goes on with a space, or not at all. -/
def Spaced (rest : List Char) : Prop :=
  ∀ c, rest.head? = some c → c = ' '

namespace Token

/-- Whether reading the text of the token changes nothing in it: there is no backslash in a string
literal, and in a literal of bits there is besides no quote but the two around it. -/
def ShownAsRead : Token → Prop
  | .text value => '\\' ∉ value.toList
  | .bits literal => '\\' ∉ literal.toList ∧ literal.toList.count '\'' ≤ 2
  | _ => True

instance : DecidablePred ShownAsRead
  | .text value => inferInstanceAs (Decidable ('\\' ∉ value.toList))
  | .bits literal =>
      inferInstanceAs (Decidable ('\\' ∉ literal.toList ∧ literal.toList.count '\'' ≤ 2))
  | .word _ | .quoted _ | .number _ | .leftParen | .rightParen | .comma | .dot | .equals | .at
  | .minus | .plus | .semicolon | .symbol _ => isTrue trivial

/-- The texts of tokens, each after a space. -/
def shownAfter (tokens : List Token) : List Char :=
  tokens.flatMap fun token => ' ' :: token.display.toList

theorem shownAfter_cons (token : Token) (tokens : List Token) :
    shownAfter (token :: tokens) = ' ' :: (token.display.toList ++ shownAfter tokens) := rfl

theorem spaced_shownAfter (tokens : List Token) : Spaced (shownAfter tokens) := by
  intro c hc
  cases tokens with
  | nil => cases hc
  | cons token tokens =>
      cases hc
      rfl

theorem toList_displayAll_cons (token : Token) (tokens : List Token) :
    (displayAll (token :: tokens)).toList = token.display.toList ++ shownAfter tokens := by
  induction tokens generalizing token with
  | nil => simp [displayAll, Text.join, shownAfter]
  | cons next tokens ih =>
      have hjoin : displayAll (token :: next :: tokens) =
          token.display ++ " " ++ displayAll (next :: tokens) := String.intercalate_cons_cons
      rw [hjoin, String.toList_append, String.toList_append, ih, shownAfter_cons]
      simp

theorem toList_display_text (value : String) : (Token.text value).display.toList =
    '\'' :: (value.toList.flatMap (fun c => if c = '\'' then ['\'', '\''] else [c]) ++ ['\'']) := by
  simp [display, Text.double, Text.substitute]

theorem display_quoted (name : String) : (Token.quoted name).display = quotedName name := rfl

theorem display_punctuation (c : Char) : (Scanned.punctuation c).display = String.ofList [c] := by
  unfold Scanned.punctuation
  split <;> rfl

end Token

open Token

/-- The space in front of the first token is passed. -/
theorem scan_shownAfter (line : Nat) (tokens : List Token) :
    scan line (shownAfter tokens) = tokenize line (displayAll tokens) := by
  cases tokens with
  | nil => rfl
  | cons token tokens =>
      rw [shownAfter_cons, scan_cons, if_pos (by decide), tokenize, toList_displayAll_cons]
      rfl

namespace Lexeme

/-- Text without quotes and backslashes stands for itself. -/
theorem body_self {quote : Char} {value : List Char} (h : ∀ c ∈ value, c ≠ quote ∧ c ≠ '\\') :
    Body quote value value := by
  induction value with
  | nil => exact .nil
  | cons c value ih =>
      obtain ⟨hc, hvalue⟩ := List.forall_mem_cons.1 h
      exact (ih hvalue).plain hc.1 fun hescape => absurd hescape hc.2

/-- Nothing else that is escaped stands for a space, a quote or a backslash. -/
theorem unescape_eq_iff {c d : Char} (hc : c = ' ' ∨ c = '\'' ∨ c = '\\') :
    unescape d = c ↔ d = c := by
  constructor
  · intro h
    unfold unescape at h
    split at h
    case h_5 => exact h
    all_goals
      subst h
      revert hc
      decide
  · rintro rfl
    rcases hc with rfl | rfl | rfl <;> rfl

/-- Doubling changes how often a quote stands in a text, and nothing else. -/
theorem count_double {quote c : Char} (h : c ≠ quote) (value : List Char) :
    (value.flatMap fun d => if d = quote then [quote, quote] else [d]).count c = value.count c := by
  induction value with
  | nil => rfl
  | cons d value ih =>
      rw [List.flatMap_cons, List.count_append, ih]
      split
      · next hd => simp [hd, h.symm]
      · simp [List.count_cons, Nat.add_comm]

variable {body value : List Char}

/-- Every space between quotes stands for a space. -/
theorem Body.count_space (h : Body '\'' body value) : body.count ' ' = value.count ' ' := by
  induction h with
  | nil => rfl
  | doubled _ ih => simp [ih]
  | @escaped body value d _ _ ih =>
      simp [List.count_cons, ih, unescape_eq_iff (.inl rfl)]
  | plain _ _ _ ih => simp [List.count_cons, ih]

/-- A quote or a backslash takes two characters between quotes. -/
theorem Body.two_mul_countP_le {p : Char → Bool} (hp : p '\\' = true)
    (hmarks : ∀ c, p c = true → c = '\'' ∨ c = '\\') (h : Body '\'' body value) :
    2 * value.countP p ≤ body.countP p := by
  induction h with
  | nil => exact Nat.le_refl _
  | doubled _ ih =>
      simp only [List.countP_cons]
      split <;> omega
  | @escaped body value d _ _ ih =>
      have hd : p (unescape d) = true → p d = true := fun h => by
        rwa [(unescape_eq_iff (.inr (hmarks _ h))).1 rfl]
      simp only [List.countP_cons, hp, if_true]
      split
      · next h =>
          rw [if_pos (hd h)]
          omega
      · omega
  | @plain c body value hquote hescape _ ih =>
      have hc : p c = false := by
        rw [Bool.eq_false_iff]
        intro htrue
        rcases hmarks c htrue with rfl | rfl
        · exact hquote rfl
        · exact absurd (hescape rfl) (by decide)
      simp only [List.countP_cons, hc, Bool.false_eq_true, if_false]
      omega

/-- What is shown between quotes and before a space is read back only if it has none of the marks
that are shown as they are. -/
theorem Body.countP_eq_zero {p : Char → Bool} (hp : p '\\' = true)
    (hmarks : ∀ c, p c = true → c = '\'' ∨ c = '\\') (h : Body '\'' body value)
    {shown other last : List Char} (hother : Spaced other)
    (hspaces : shown.count ' ' = value.count ' ') (hshown : shown.countP p = value.countP p)
    (htext : shown ++ '\'' :: other = body ++ '\'' :: last) : value.countP p = 0 := by
  have htwice := h.two_mul_countP_le hp hmarks
  have hread := h.count_space
  rcases List.append_eq_append_iff.1 htext with ⟨more, hbody, hmore⟩ | ⟨more, hbody, hmore⟩
  · rcases List.cons_eq_append_iff.1 hmore with ⟨rfl, -⟩ | ⟨past, rfl, hpast⟩
    · rw [hbody, List.append_nil] at htwice
      omega
    -- the reader would have passed the space after the token
    · have hspace : ' ' ∈ past := by
        cases past with
        | nil => exact absurd (hother '\'' (by rw [hpast]; rfl)) (by decide)
        | cons d past =>
            have hd : d = ' ' := hother d (by rw [hpast]; rfl)
            exact hd ▸ List.mem_cons_self
      have hmany := List.count_pos_iff.2 hspace
      rw [hbody, List.count_append, List.count_cons] at hread
      omega
  · rw [hbody, List.countP_append] at hshown
    omega

end Lexeme

namespace Spelled

variable {spelling rest : List Char} {value literal : String}

/-- How a string literal is spelled. -/
theorem exists_of_text (h : Spelled spelling (.text value) rest) :
    ∃ quote body, (quote = '\'' ∨ quote = '"') ∧ spelling = quote :: (body ++ [quote]) ∧
      Body quote body value.toList := by
  generalize htoken : Token.text value = token at h
  cases h with
  | text hquote hbody hrest =>
      cases htoken
      exact ⟨_, _, hquote, rfl, by rwa [String.toList_ofList]⟩
  | punctuation _ _ _ _ =>
      unfold Scanned.punctuation at htoken
      split at htoken <;> cases htoken
  | _ => cases htoken

/-- How a literal of bits is spelled. -/
theorem exists_of_bits (h : Spelled spelling (.bits literal) rest) :
    (∃ mark body value, Scanned.marksBits mark = true ∧
      spelling = mark :: '\'' :: (body ++ ['\'']) ∧ Body '\'' body value ∧
      literal.toList = mark.toLower :: '\'' :: (value ++ ['\''])) ∨
    ∃ mark digits, spelling = '0' :: mark :: digits ∧ (∀ c ∈ digits, Text.isHexDigit c = true) ∧
      literal.toList = '0' :: 'x' :: digits := by
  generalize htoken : Token.bits literal = token at h
  cases h with
  | bits hmark hbody hrest =>
      cases htoken
      exact .inl ⟨_, _, _, hmark, rfl, hbody, by simp⟩
  | hex hmark hdigits hrest =>
      cases htoken
      exact .inr ⟨_, _, rfl, hdigits, by simp⟩
  | punctuation _ _ _ _ =>
      unfold Scanned.punctuation at htoken
      split at htoken <;> cases htoken
  | _ => cases htoken

end Spelled

namespace Scanned

variable {mark : Char}

theorem marksBits_toLower (h : marksBits mark = true) :
    marksBits mark.toLower = true ∧ mark.toLower.toLower = mark.toLower := by
  simp only [marksBits, Bool.or_eq_true, beq_iff_eq] at h
  rcases h with ((rfl | rfl) | rfl) | rfl <;> decide

theorem plain_of_marksBits (h : marksBits mark = true) :
    isWhite mark = false ∧ mark ≠ '#' ∧ mark ≠ '-' ∧ mark ≠ '/' := by
  simp only [marksBits, Bool.or_eq_true, beq_iff_eq] at h
  rcases h with ((rfl | rfl) | rfl) | rfl <;> decide

end Scanned

theorem Token.shownAsRead_of_hex {literal : String} {digits : List Char}
    (hdigits : ∀ c ∈ digits, Text.isHexDigit c = true)
    (hliteral : literal.toList = '0' :: 'x' :: digits) : (Token.bits literal).ShownAsRead := by
  have hnot : ∀ c, Text.isHexDigit c = false → c ∉ digits := by
    intro c hc hmem
    rw [hdigits c hmem] at hc
    cases hc
  constructor
  · rw [hliteral]
    simp [hnot '\\' (by decide)]
  · rw [hliteral]
    simp [List.count_eq_zero_of_not_mem (hnot '\'' (by decide))]

/-- A literal in quotes is shown as it is read when nothing between the quotes is a mark. -/
theorem Token.shownAsRead_bits_iff {literal : String} {mark : Char} {value : List Char}
    (hmark : Scanned.marksBits mark = true)
    (hliteral : literal.toList = mark :: '\'' :: (value ++ ['\''])) :
    (Token.bits literal).ShownAsRead ↔ ∀ c ∈ value, c ≠ '\'' ∧ c ≠ '\\' := by
  have hne : mark ≠ '\'' ∧ mark ≠ '\\' := by
    constructor <;> rintro rfl <;> exact absurd hmark (by decide)
  have hcount : literal.toList.count '\'' = value.count '\'' + 2 := by
    simp [hliteral, List.count_cons_of_ne hne.1]
  have hescape : '\\' ∈ literal.toList ↔ '\\' ∈ value := by
    simp [hliteral, hne.2.symm]
  rw [ShownAsRead, hcount, hescape]
  constructor
  · rintro ⟨hnot, hquotes⟩ c hc
    have hzero : '\'' ∉ value := List.count_eq_zero.1 (by omega)
    exact ⟨fun h => hzero (h ▸ hc), fun h => hnot (h ▸ hc)⟩
  · intro h
    rw [List.count_eq_zero_of_not_mem fun hmem => (h _ hmem).1 rfl]
    exact ⟨fun hmem => (h _ hmem).2 rfl, Nat.le_refl _⟩

namespace Step

variable {text spelling rest other : List Char} {token : Token} {c : Char}

theorem exists_spelled (h : Step text (some token) rest) :
    ∃ spelling, text = spelling ++ rest ∧ Spelled spelling token rest := by
  cases h with
  | token _ _ _ hspelled => exact ⟨_, rfl, hspelled⟩

/-- A token that cannot be taken for white space or a comment. -/
theorem of_spelled (h : Spelled (c :: spelling) token rest) (hwhite : isWhite c = false)
    (hc : c ≠ '#' ∧ c ≠ '-' ∧ c ≠ '/') : Step (c :: spelling ++ rest) (some token) rest :=
  .token hwhite (begins_eq_false hc _).1 (begins_eq_false hc _).2 h

/-- A token is read from the text that it is shown as. -/
theorem display (h : Step text (some token) rest) (hshown : token.ShownAsRead)
    (hother : Spaced other) : Step (token.display.toList ++ other) (some token) other := by
  have hresumes : Resumes rest other := fun c hc => .inl (by rw [hother c hc]; rfl)
  have hstops : ∀ {quote}, isWhite quote = false → Stops (· == quote) other := by
    intro quote hquote c hc
    rw [hother c hc, beq_eq_false_iff_ne]
    rintro rfl
    cases hquote
  cases h with
  | token hc hline hblock hspelled =>
      have hresumed := token_resumes hresumes hc hline hblock hspelled
      cases hspelled with
      | @text _ _ value _ hquote hbody hrest =>
          have hmarks : '\\' ∉ value := by simpa [ShownAsRead] using hshown
          have hvalue := @body_double '\'' value fun hmem => absurd hmem hmarks
          rw [toList_display_text, String.toList_ofList]
          exact of_spelled (.text (.inl rfl) hvalue (hstops rfl)) rfl (by decide)
      | @quoted _ value _ hbody hrest =>
          have hvalue := @body_double '\x60' value fun _ => rfl
          rw [display_quoted, toList_quotedName, String.toList_ofList]
          exact of_spelled (.quoted hvalue (hstops rfl)) rfl (by decide)
      | @bits mark _ value _ hmark hbody hrest =>
          obtain ⟨hlower, hsame⟩ := Scanned.marksBits_toLower hmark
          have hvalue : ∀ c ∈ value, c ≠ '\'' ∧ c ≠ '\\' :=
            (Token.shownAsRead_bits_iff hlower (by simp)).1 hshown
          obtain ⟨hwhite, hplain⟩ := Scanned.plain_of_marksBits hlower
          have hstep := of_spelled (.bits hlower (body_self hvalue) (hstops rfl)) hwhite hplain
          rw [hsame] at hstep
          simpa [Token.display] using hstep
      | @hex mark digits _ hmark hdigits hrest =>
          have hstep := of_spelled (.hex (.inl rfl) hdigits
            (hresumes.stops (fun _ => Text.isWhite_eq_false_of_isHexDigit) hrest)) rfl (by decide)
          simpa [Token.display] using hstep
      | number _ _ _ =>
          rwa [Token.display, String.toList_ofList]
      | word _ _ _ _ =>
          rwa [Token.display, String.toList_ofList]
      | punctuation _ _ _ _ =>
          rwa [display_punctuation, String.toList_ofList]

/-- Only a token that reading does not change is read from the text that it is shown as. -/
theorem shownAsRead (hother : Spaced other)
    (h : Step (token.display.toList ++ other) (some token) rest) : token.ShownAsRead := by
  obtain ⟨spelling, htext, hspelled⟩ := h.exists_spelled
  cases token with
  | text value =>
      obtain ⟨quote, body, hquote, rfl, hbody⟩ := hspelled.exists_of_text
      rw [toList_display_text, List.cons_append, List.cons_append, List.cons.injEq] at htext
      obtain ⟨rfl, htext⟩ := htext
      have hcount : ∀ c, c ≠ '\'' → _ = value.toList.count c := fun c hc => count_double hc _
      have hzero := hbody.countP_eq_zero (p := (· == '\\')) rfl (fun c hc => .inr (eq_of_beq hc))
        hother (hcount ' ' (by decide)) (hcount '\\' (by decide)) (by simpa using htext)
      exact List.count_eq_zero.1 hzero
  | bits literal =>
      rcases hspelled.exists_of_bits with ⟨mark, body, value, hmark, rfl, hbody, hliteral⟩ |
        ⟨mark, digits, -, hdigits, hliteral⟩
      · rw [Token.shownAsRead_bits_iff (Scanned.marksBits_toLower hmark).1 hliteral]
        rw [Token.display, hliteral] at htext
        simp only [List.cons_append, List.append_assoc, List.nil_append, List.cons.injEq,
          true_and] at htext
        have hzero := hbody.countP_eq_zero (p := fun c => c == '\'' || c == '\\') rfl
          (fun c hc => by simpa using hc) hother rfl rfl htext.2
        simpa [List.countP_eq_zero, not_or] using hzero
      · exact Token.shownAsRead_of_hex hdigits hliteral
  | _ => trivial

end Step

/-- The tokens of a text that begins with a token. -/
theorem Step.scans_iff {text rest : List Char} {token : Token} {tokens : List Token}
    (h : Step text (some token) rest) : Scans text (token :: tokens) ↔ Scans rest tokens := by
  refine ⟨fun hscans => ?_, .read h⟩
  obtain ⟨last, -, hscan⟩ := h.scan 1
  rw [scan_eq_ok_iff.2 hscans] at hscan
  obtain ⟨others, hrest, hsame⟩ := map_eq_ok.1 hscan.symm
  cases hsame
  exact scan_eq_ok_iff.1 hrest

/-- Where neither white space nor a comment can be read, the first token is read at once. -/
theorem Scans.exists_step {c : Char} {cs : List Char} {token : Token} {tokens : List Token}
    (h : Scans (c :: cs) (token :: tokens)) (hwhite : isWhite c = false)
    (hc : c ≠ '#' ∧ c ≠ '-' ∧ c ≠ '/') : ∃ rest, Step (c :: cs) (some token) rest := by
  generalize hall : token :: tokens = all at h
  cases h with
  | @step _ rest first others hstep _ =>
      cases hstep with
      | white hother _ => simp [hother] at hwhite
      | lineComment hcomment => simp [(begins_eq_false hc cs).1] at hcomment
      | blockComment _ => exact absurd rfl hc.2.2
      | token hother hline hblock hspelled =>
          cases hall
          exact ⟨rest, .token hother hline hblock hspelled⟩

/-- A token that is read back before the texts of others is one that reading does not change. -/
theorem Scans.shownAsRead {text rest other : List Char} {token : Token} {tokens : List Token}
    (hstep : Step text (some token) rest) (hother : Spaced other)
    (h : Scans (token.display.toList ++ other) (token :: tokens)) : token.ShownAsRead := by
  have hback : ∀ {c cs}, token.display.toList = c :: cs → isWhite c = false →
      c ≠ '#' ∧ c ≠ '-' ∧ c ≠ '/' → token.ShownAsRead := by
    intro c cs hlist hwhite hc
    rw [hlist, List.cons_append] at h
    obtain ⟨last, hlast⟩ := h.exists_step hwhite hc
    rw [← List.cons_append, ← hlist] at hlast
    exact hlast.shownAsRead hother
  cases token with
  | text value => exact hback (toList_display_text value) rfl (by decide)
  | bits literal =>
      obtain ⟨spelling, -, hspelled⟩ := hstep.exists_spelled
      rcases hspelled.exists_of_bits with ⟨mark, body, value, hmark, -, -, hliteral⟩ |
        ⟨mark, digits, -, hdigits, hliteral⟩
      · obtain ⟨hwhite, hplain⟩ :=
          Scanned.plain_of_marksBits (Scanned.marksBits_toLower hmark).1
        exact hback hliteral hwhite hplain
      · exact Token.shownAsRead_of_hex hdigits hliteral
  | _ => trivial

theorem Scans.space_iff {cs : List Char} {tokens : List Token} :
    Scans (' ' :: cs) tokens ↔ Scans cs tokens := by
  rw [← scan_eq_ok_iff, ← scan_eq_ok_iff, scan_cons 0, if_pos (by decide)]

/-- Tokens that were read are read back from their texts if reading changes none of them. -/
theorem scans_shownAfter_iff {text : List Char} {tokens : List Token} (h : Scans text tokens) :
    Scans (shownAfter tokens) tokens ↔ ∀ token ∈ tokens, token.ShownAsRead := by
  induction h with
  | nil => exact iff_of_true .nil (fun _ hmem => absurd hmem List.not_mem_nil)
  | @step text rest token tokens hstep _ ih =>
      cases token with
      | none => exact ih
      | some token =>
          have hspaced := spaced_shownAfter tokens
          have hall : (some token).toList ++ tokens = token :: tokens := rfl
          rw [hall, List.forall_mem_cons, ← ih, shownAfter_cons, Scans.space_iff]
          constructor
          · intro hscans
            have hshown := hscans.shownAsRead hstep hspaced
            exact ⟨hshown, (hstep.display hshown hspaced).scans_iff.1 hscans⟩
          · rintro ⟨hshown, hrest⟩
            exact (hstep.display hshown hspaced).scans_iff.2 hrest

/-- The tokens of a statement are read back from their texts with single spaces between them exactly
when no string literal has a backslash, and no literal of bits has a backslash or a quote between
its quotes. -/
theorem tokenize_displayAll_iff {line : Nat} {statement : String} {tokens : List Token}
    (h : tokenize line statement = .ok tokens) (other : Nat) :
    tokenize other (displayAll tokens) = .ok tokens ↔ ∀ token ∈ tokens, token.ShownAsRead := by
  rw [← scan_shownAfter, scan_eq_ok_iff]
  exact scans_shownAfter_iff (scans_of_scan h)

/-- Quotes, hexadecimal digits and signs that begin comments are read back. -/
theorem tokenize_displayAll_of_quotes :
    let statement := "'it''s' `a``b` X'0f' 0XFF 1e-5 - - / * \\"
    let tokens : List Token := [.text "it's", .quoted "a`b", .bits "x'0f'", .bits "0xFF",
      .number "1e-5", .minus, .minus, .symbol '/', .symbol '*', .symbol '\\']
    tokenize 1 statement = .ok tokens ∧ tokenize 1 (displayAll tokens) = .ok tokens := by
  intro statement tokens
  have hread : tokenize 1 statement = .ok tokens := by decide +kernel
  exact ⟨hread, (tokenize_displayAll_iff hread 1).2 (by decide)⟩

/-- A backslash that is read from two is shown as one, which escapes the character after it. -/
theorem not_forall_tokenize_displayAll :
    ¬ ∀ (line : Nat) (statement : String) (tokens : List Token),
      tokenize line statement = .ok tokens → tokenize line (displayAll tokens) = .ok tokens := by
  intro h
  have hread : tokenize 1 "'a\\\\b'" = .ok [.text "a\\b"] := by decide +kernel
  have hback : tokenize 1 (displayAll [.text "a\\b"]) = .ok [.text "ab"] := by decide +kernel
  have hsame := h 1 _ _ hread
  rw [hback] at hsame
  exact absurd hsame (by decide)

end Sql
end SchemaLint
