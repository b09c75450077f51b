import SchemaLint.Proofs.Json.Text
import SchemaLint.Proofs.Text.Runs

/-!
# Scanning printed text

The scanner undoes the printing of strings and of natural numbers, and skips the white space
between the lines, so it finds the tokens of a printed value (`Plain.scan`).
-/

namespace SchemaLint

namespace Json
namespace Token

theorem hexUnit?_control : ∀ n, n < 32 →
    hexUnit? '0' '0' (hexDigit (n / 16)) (hexDigit (n % 16)) = some n := by
  decide

/-- The scanner reads back the character that was escaped. -/
theorem stringBody_escape (c : Char) (rest : List Char) :
    stringBody (escape c ++ rest) = (stringBody rest).map (push c) := by
  -- seven characters have an escape of their own
  unfold escape
  split
  · rfl
  · rfl
  · rfl
  · rfl
  · rfl
  · rfl
  · rfl
  · next hquote hbackslash _ _ _ _ _ =>
      split
      -- the code of a control character is no half of a surrogate pair
      · next hcontrol =>
          have hunit := hexUnit?_control c.toNat hcontrol
          have hlow : ¬ (0xD800 ≤ c.toNat ∧ c.toNat < 0xDC00) := by omega
          have hhigh : ¬ (0xDC00 ≤ c.toNat ∧ c.toNat < 0xE000) := by omega
          simp only [List.cons_append, List.nil_append, stringBody, hunit, if_neg hlow,
            if_neg hhigh, Char.ofNat_toNat]
      · next hcontrol =>
          rw [List.singleton_append, stringBody, if_neg hcontrol]
          · exact hquote
          · exact fun _ _ _ _ _ hc => (hbackslash hc).elim
          · exact fun _ _ hc => (hbackslash hc).elim

theorem stringBody_flatMap_escape (cs rest : List Char) :
    stringBody (cs.flatMap escape ++ '"' :: rest) = some (cs, rest) := by
  induction cs with
  | nil => simp [stringBody]
  | cons c cs ih =>
      rw [List.flatMap_cons, List.append_assoc, stringBody_escape, ih]
      rfl

theorem scan_quote (s : String) (rest : List Char) :
    scan ((quote s).toList ++ rest) = (scan rest).map (.text s :: ·) := by
  have hbody := stringBody_flatMap_escape s.toList rest
  have hchars : (quote s).toList ++ rest = '"' :: (s.toList.flatMap escape ++ '"' :: rest) := by
    simp [quote]
  rw [hchars, scan]
  split
  · next hsome =>
      rw [hbody] at hsome
      cases hsome
      rw [String.ofList_toList]
  · next hnone => simp [hbody] at hnone

theorem scan_space {c : Char} (h : isSpace c = true) (rest : List Char) :
    scan (c :: rest) = scan rest := by
  simp only [isSpace, Bool.or_eq_true, beq_iff_eq] at h
  rcases h with ((rfl | rfl) | rfl) | rfl <;> simp [scan, isSpace]

theorem scan_newLine (depth : Nat) (rest : List Char) :
    scan ((newLine depth).toList ++ rest) = scan rest := by
  have hblanks : ∀ n, scan (List.replicate n ' ' ++ rest) = scan rest := by
    intro n
    induction n with
    | zero => rfl
    | succ n ih => rw [List.replicate_succ, List.cons_append, scan_space rfl, ih]
  rw [newLine, String.toList_ofList, List.cons_append, scan_space rfl, hblanks]

/-- A natural number is read back to its last digit. -/
theorem number?_digits (n : UInt64) : number? (Decimal.digits n.toNat) = some (.natural n) := by
  have hdigits := Decimal.isDigit_of_mem_digits n.toNat
  have hunsigned : number? (Decimal.digits n.toNat) =
      unsigned? false (Decimal.digits n.toNat) := by
    unfold number?
    split
    · next heq =>
        rw [heq] at hdigits
        exact absurd (hdigits '-' List.mem_cons_self) (by decide)
    · rfl
  have hwhole : (Decimal.digits n.toNat).takeWhile Char.isDigit = Decimal.digits n.toNat :=
    List.takeWhile_eq_self_iff.2 hdigits
  have hrest : (Decimal.digits n.toNat).dropWhile Char.isDigit = [] :=
    List.dropWhile_eq_nil_iff.2 hdigits
  -- only the number zero has a zero in front
  have hzero : ¬ (1 < (Decimal.digits n.toNat).length ∧
      (Decimal.digits n.toNat).head? = some '0') := by
    rintro ⟨hlength, hhead⟩
    by_cases hpos : 0 < n.toNat
    · exact Decimal.head?_digits hpos hhead
    · have hshort := Decimal.length_digits_le n.toNat 1 (by decide) (by omega)
      omega
  have hbound : n.toNat < UInt64.size := n.toNat_lt_size
  simp [hunsigned, unsigned?, hwhole, hrest, hzero, Decimal.digits_ne_nil, tail?, exponent?,
    Decimal.value_digits, hbound]

theorem scan_digits (n : UInt64) {rest : List Char} (h : Text.Stops isNumberPart rest) :
    scan (Decimal.digits n.toNat ++ rest) = (scan rest).map (.number (.natural n) :: ·) := by
  have hdigits := Decimal.isDigit_of_mem_digits n.toNat
  have hnumber := number?_digits n
  cases heq : Decimal.digits n.toNat with
  | nil => exact absurd heq (Decimal.digits_ne_nil _)
  | cons c cs =>
      rw [heq] at hdigits hnumber
      rw [List.forall_mem_cons] at hdigits
      have hpart : ∀ d, d.isDigit = true → isNumberPart d = true := fun d hd => by
        simp [isNumberPart, hd]
      have hspace : isSpace c = false := by
        rw [← Bool.not_eq_true]
        intro hspace
        simp only [isSpace, Bool.or_eq_true, beq_iff_eq] at hspace
        rcases hspace with ((rfl | rfl) | rfl) | rfl <;> exact absurd hdigits.1 (by decide)
      have htake := Text.takeWhile_run (fun d hd => hpart d (hdigits.2 d hd)) h
      have hdrop := Text.dropWhile_run (fun d hd => hpart d (hdigits.2 d hd)) h
      rw [List.cons_append, scan]
      · simp only [hspace, hpart c hdigits.1, htake, hdrop, if_true, Bool.false_eq_true, if_false]
        split
        · next hnone => simp [hnumber] at hnone
        · next hsome =>
            rw [hnumber] at hsome
            cases hsome
            rfl
      -- no other token begins with a digit
      all_goals
        intros
        subst_vars
        exact absurd hdigits.1 (by decide)

end Token

open Token (isNumberPart)
open Text (Stops)

/-- What the scanner makes of a printed value, whatever follows. -/
def ScansTo (chars : List Char) (found : List Token) : Prop :=
  ∀ rest, Stops isNumberPart rest →
    Token.scan (chars ++ rest) = (Token.scan rest).map (found ++ ·)

theorem stops_newLine (depth : Nat) (rest : List Char) :
    Stops isNumberPart ((newLine depth).toList ++ rest) := by
  rw [newLine, String.toList_ofList]
  exact Text.stops_cons (by decide)

theorem scansTo_items (depth : Nat) {items : List Json}
    (h : ∀ item ∈ items, ScansTo (prettyChars depth item) item.tokens) :
    ScansTo (itemChars depth items) (itemTokens items) := by
  induction items with
  | nil =>
      intro rest _
      simp [itemChars, itemTokens]
  | cons item items ih =>
      rw [List.forall_mem_cons] at h
      intro rest hrest
      have hitems := ih h.2 rest hrest
      rw [itemChars, itemTokens]
      simp only [List.append_assoc]
      rw [Token.scan_newLine]
      cases items with
      | nil => simpa [itemChars, itemTokens] using h.1 rest hrest
      | cons next items =>
          simp only [List.isEmpty_cons, Bool.false_eq_true, if_false, List.singleton_append]
          -- the comma ends a number that the item may end with
          rw [h.1 _ (Text.stops_cons (by decide)), Token.scan, hitems, Option.map_map,
            Option.map_map]
          rfl

theorem scansTo_members (depth : Nat) {members : List (String × Json)}
    (h : ∀ member ∈ members, ScansTo (prettyChars depth member.2) member.2.tokens) :
    ScansTo (memberChars depth members) (memberTokens members) := by
  induction members with
  | nil =>
      intro rest _
      simp [memberChars, memberTokens]
  | cons member members ih =>
      obtain ⟨name, value⟩ := member
      rw [List.forall_mem_cons] at h
      intro rest hrest
      have hmembers := ih h.2 rest hrest
      rw [memberChars, memberTokens]
      simp only [List.append_assoc, List.cons_append, List.nil_append]
      rw [Token.scan_newLine, Token.scan_quote, Token.scan, Token.scan_space rfl]
      cases members with
      | nil =>
          simp only [List.isEmpty_nil, if_true, memberChars, memberTokens, List.nil_append]
          rw [h.1 rest hrest]
          simp [Function.comp_def]
      | cons next members =>
          simp only [List.isEmpty_cons, Bool.false_eq_true, if_false, List.cons_append,
            List.nil_append]
          rw [h.1 _ (Text.stops_cons (by decide)), Token.scan, hmembers]
          simp [Function.comp_def]

/-- The scanner finds the tokens of a printed value. -/
theorem Plain.scan {value : Json} (h : value.Plain) (depth : Nat) :
    ScansTo (prettyChars depth value) value.tokens := by
  induction h generalizing depth with
  | null =>
      intro rest _
      change Token.scan ('n' :: 'u' :: 'l' :: 'l' :: rest) = _
      rw [Token.scan]
      rfl
  | boolean b =>
      intro rest _
      cases b with
      | false =>
          change Token.scan ('f' :: 'a' :: 'l' :: 's' :: 'e' :: rest) = _
          rw [Token.scan]
          rfl
      | true =>
          change Token.scan ('t' :: 'r' :: 'u' :: 'e' :: rest) = _
          rw [Token.scan]
          rfl
  | natural n =>
      intro rest hrest
      rw [prettyChars, Number.text, Decimal.text, String.toList_ofList, Token.scan_digits n hrest,
        tokens]
      rfl
  | text s =>
      intro rest _
      rw [prettyChars, Token.scan_quote, tokens]
      rfl
  | @array items _ ih =>
      intro rest _
      cases items with
      | nil =>
          rw [prettyChars, tokens]
          change Token.scan ('[' :: ']' :: rest) = _
          rw [Token.scan, Token.scan, Option.map_map]
          rfl
      | cons item items =>
          -- the last item is followed by a line break, which ends a number as well
          have hitems := scansTo_items (depth + 1) (fun item hitem => ih item hitem (depth + 1))
          rw [prettyChars, tokens]
          simp only [List.append_assoc, List.cons_append, List.nil_append]
          rw [Token.scan, hitems _ (stops_newLine _ _), Token.scan_newLine, Token.scan]
          · simp [Function.comp_def]
          · exact List.cons_ne_nil _ _
  | @object members _ ih =>
      intro rest _
      cases members with
      | nil =>
          rw [prettyChars, tokens]
          change Token.scan ('\x7b' :: '\x7d' :: rest) = _
          rw [Token.scan, Token.scan, Option.map_map]
          rfl
      | cons member members =>
          have hmembers :=
            scansTo_members (depth + 1) (fun member hmember => ih member hmember (depth + 1))
          rw [prettyChars, tokens]
          simp only [List.append_assoc, List.cons_append, List.nil_append]
          rw [Token.scan, hmembers _ (stops_newLine _ _), Token.scan_newLine, Token.scan]
          · simp [Function.comp_def]
          · exact List.cons_ne_nil _ _

end Json
end SchemaLint
