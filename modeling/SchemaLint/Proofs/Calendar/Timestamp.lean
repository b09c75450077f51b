import SchemaLint.Calendar.Timestamp
import SchemaLint.Proofs.Text.Class
import SchemaLint.Proofs.Text.Runs

/-!
# Timestamps are read as they were written

Every number of a timestamp is written with a fixed number of digits, or is followed by a
character that is no digit, so its reader takes exactly the digits that were written.
-/

namespace SchemaLint

namespace Decimal

theorem value_replicate_zero_append (n : Nat) (cs : List Char) :
    value (List.replicate n '0' ++ cs) = value cs := by
  induction n with
  | zero => rfl
  | succ n ih =>
      rw [List.replicate_succ, List.cons_append]
      exact ih

end Decimal

namespace Date

variable {width n : Nat}

theorem toList_padded (width n : Nat) : (padded width n).toList =
    List.replicate (width - (Decimal.digits n).length) '0' ++ Decimal.digits n := by
  rw [padded, String.toList_ofList]

theorem isDigit_of_mem_padded (width n : Nat) :
    ∀ c ∈ (padded width n).toList, c.isDigit = true := by
  intro c hc
  rw [toList_padded] at hc
  rcases List.mem_append.1 hc with hc | hc
  · rw [List.eq_of_mem_replicate hc]
    rfl
  · exact Decimal.isDigit_of_mem_digits n c hc

theorem value_padded : Decimal.value (padded width n).toList = n := by
  rw [toList_padded, Decimal.value_replicate_zero_append, Decimal.value_digits]

theorem padded_ne_nil : (padded width n).toList ≠ [] := by
  rw [toList_padded]
  exact List.append_ne_nil_of_right_ne_nil _ (Decimal.digits_ne_nil n)

theorem length_padded (hwidth : 0 < width) (h : n < 10 ^ width) :
    (padded width n).toList.length = width := by
  have hlength := Decimal.length_digits_le n width hwidth h
  rw [toList_padded, List.length_append, List.length_replicate]
  omega

end Date

namespace Timestamp
namespace Reader

open Date (padded)
open Text (Stops isWhite)

variable {α β : Type} {rest : List Char}

theorem bind_eq {reader : Reader α} {f : α → Reader β} {cs rest : List Char} {a : α}
    (h : reader cs = some (a, rest)) : (reader >>= f) cs = f a rest := by
  change (reader cs).bind _ = _
  rw [h]
  rfl

theorem get_eq (cs : List Char) : (get : Reader (List Char)) cs = some (cs, cs) := rfl

theorem set_eq (next cs : List Char) : (set next : Reader PUnit) cs = some ((), next) := rfl

theorem stops_isWhite_padded (width n : Nat) (rest : List Char) :
    Stops isWhite ((padded width n).toList ++ rest) := by
  have hdigits := Date.isDigit_of_mem_padded width n
  cases heq : (padded width n).toList with
  | nil => exact absurd heq Date.padded_ne_nil
  | cons c cs =>
      rw [heq] at hdigits
      exact Text.stops_cons (Text.isWhite_eq_false_of_isDigit (hdigits c List.mem_cons_self))

theorem space_eq {cs : List Char} (h : Stops isWhite cs) : space cs = some ((), cs) := by
  change some ((), cs.dropWhile isWhite) = _
  rw [h.dropWhile_eq]

theorem guard_eq {p : Prop} [Decidable p] (h : p) (cs : List Char) :
    (guard p : Reader Unit) cs = some ((), cs) := by
  change (if p then pure () else failure : Reader Unit) cs = _
  rw [if_pos h]
  rfl

/-- A run of digits is read to its end if it is as long as allowed, or stops by itself. -/
theorem digits_eq {width : Nat} {run : List Char} (hrun : ∀ c ∈ run, c.isDigit = true)
    (hne : run ≠ [])
    (hend : run.length = width ∨ run.length ≤ width ∧ Stops Char.isDigit rest) :
    digits width (run ++ rest) = some (run, rest) := by
  -- either the width cuts the digits off where the run ends, or the run is all there is
  have hfound : ((run ++ rest).takeWhile Char.isDigit).take width = run := by
    rcases hend with hlength | ⟨hlength, hstops⟩
    · rw [List.takeWhile_append_of_pos hrun, ← hlength, List.take_left']
      rfl
    · rw [Text.takeWhile_run hrun hstops, List.take_of_length_le hlength]
  unfold digits
  rw [bind_eq (get_eq _)]
  change (guard (((run ++ rest).takeWhile Char.isDigit).take width ≠ []) >>= fun _ =>
    set ((run ++ rest).drop (((run ++ rest).takeWhile Char.isDigit).take width).length) >>=
      fun _ => pure (((run ++ rest).takeWhile Char.isDigit).take width) : Reader (List Char)) _ = _
  rw [hfound, bind_eq (guard_eq hne _), List.drop_left, bind_eq (set_eq _ _)]
  rfl

theorem charWhere_cons {p : Char → Bool} {c : Char} (h : p c = true) :
    charWhere p (c :: rest) = some (c, rest) := by
  unfold charWhere
  rw [bind_eq (get_eq _)]
  exact bind_eq (guard_eq h _)

theorem separator_cons {c : Char} (h : isWhite c = false) :
    separator c (c :: rest) = some ((), rest) := by
  unfold separator char
  rw [bind_eq (space_eq (Text.stops_cons h)), bind_eq (charWhere_cons (by simp))]
  rfl

/-- A number of two digits is read between its bounds. -/
theorem numberIn_padded {least greatest n : Nat} (hleast : least ≤ n) (hgreatest : n ≤ greatest)
    (h : n < 100) : numberIn 2 least greatest ((padded 2 n).toList ++ rest) = some (n, rest) := by
  have hdigits : digits 2 ((padded 2 n).toList ++ rest) = some ((padded 2 n).toList, rest) :=
    digits_eq (Date.isDigit_of_mem_padded _ _) Date.padded_ne_nil
      (.inl (Date.length_padded (by decide) h))
  have hnumber : number 2 ((padded 2 n).toList ++ rest) = some (n, rest) := by
    unfold number
    rw [bind_eq (space_eq (stops_isWhite_padded 2 n rest)), bind_eq hdigits, Date.value_padded]
    rfl
  unfold numberIn
  rw [bind_eq hnumber, bind_eq (guard_eq ⟨hleast, hgreatest⟩ rest)]
  rfl

/-- After a sign, all digits are read, and the number is made from them. -/
theorem signed_eq {width n : Nat} (h : Stops Char.isDigit rest) (f : List Char → Int)
    (cs : List Char) :
    (set ((padded width n).toList ++ rest) >>= fun _ =>
      digits ((padded width n).toList ++ rest).length >>= fun found =>
        pure (f found) : Reader Int) cs = some (f (padded width n).toList, rest) := by
  have hdigits : digits ((padded width n).toList ++ rest).length ((padded width n).toList ++ rest) =
      some ((padded width n).toList, rest) :=
    digits_eq (Date.isDigit_of_mem_padded _ _) Date.padded_ne_nil (.inr ⟨by simp, h⟩)
  rw [bind_eq (set_eq _ _), bind_eq hdigits]
  rfl

/-- A year that begins with a digit has no sign. -/
theorem year_unsigned {run : List Char} (hrun : ∀ c ∈ run, c.isDigit = true)
    (hlength : run.length = 4) :
    year (run ++ rest) = some ((Decimal.value run : Int), rest) := by
  have hdigits : digits 4 (run ++ rest) = some (run, rest) :=
    digits_eq hrun (by rintro rfl; cases hlength) (.inl hlength)
  cases run with
  | nil => cases hlength
  | cons c cs =>
      have hc : c.isDigit = true := hrun c List.mem_cons_self
      have hplain : year (c :: (cs ++ rest)) =
          (digits 4 >>= fun found => pure (Decimal.value found : Int)) (c :: (cs ++ rest)) := by
        unfold year
        rw [bind_eq (space_eq (Text.stops_cons (Text.isWhite_eq_false_of_isDigit hc))),
          bind_eq (get_eq _)]
        -- neither sign is a digit, so what is left is the branch without a sign
        refine congrFun ?_ _
        split
        · next heq =>
            cases heq
            exact absurd hc (by decide)
        · next heq =>
            cases heq
            exact absurd hc (by decide)
        · rfl
      rw [List.cons_append] at hdigits ⊢
      rw [hplain, bind_eq hdigits]
      rfl

/-- A year is read if no digit follows. -/
theorem year_text (y : Int) (h : Stops Char.isDigit rest) :
    year ((Date.yearText y).toList ++ rest) = some (y, rest) := by
  unfold Date.yearText
  split
  · next hplain =>
      have hlength : (padded 4 y.toNat).toList.length = 4 :=
        Date.length_padded (by decide) (by omega)
      rw [year_unsigned (Date.isDigit_of_mem_padded _ _) hlength, Date.value_padded,
        Int.toNat_of_nonneg hplain.1]
  · next hsigned =>
      split
      · next hnegative =>
          rw [String.toList_append]
          change year ('-' :: ((padded 4 y.natAbs).toList ++ rest)) = _
          unfold year
          rw [bind_eq (space_eq (Text.stops_cons rfl)), bind_eq (get_eq _)]
          refine (signed_eq h (fun found => -(Decimal.value found : Int)) _).trans ?_
          rw [Date.value_padded, Int.ofNat_natAbs_of_nonpos (by omega), Int.neg_neg]
      · next hnegative =>
          rw [String.toList_append]
          change year ('+' :: ((padded 4 y.natAbs).toList ++ rest)) = _
          unfold year
          rw [bind_eq (space_eq (Text.stops_cons rfl)), bind_eq (get_eq _)]
          refine (signed_eq h (fun found => (Decimal.value found : Int)) _).trans ?_
          rw [Date.value_padded, Int.natAbs_of_nonneg (by omega)]

/-- A day of the calendar is read. -/
theorem date_text {d : Date} (hvalid : d.isValid = true) (hknown : knownYear d.year = true) :
    date (d.text.toList ++ rest) = some (d, rest) := by
  have hbounds := hvalid
  simp only [Date.isValid, Bool.and_eq_true, decide_eq_true_eq] at hbounds
  obtain ⟨⟨⟨hmonth, hmonth'⟩, hday⟩, hday'⟩ := hbounds
  have hday31 : d.day ≤ 31 := by
    refine Nat.le_trans hday' ?_
    unfold Date.daysInMonth
    split
    · split <;> decide
    · split <;> decide
  have htext : d.text.toList ++ rest = (Date.yearText d.year).toList ++ '-' ::
      ((padded 2 d.month).toList ++ '-' :: ((padded 2 d.day).toList ++ rest)) := by
    simp [Date.text]
  rw [htext]
  unfold date
  rw [bind_eq (year_text _ (Text.stops_cons rfl)), bind_eq (separator_cons rfl),
    bind_eq (numberIn_padded hmonth hmonth' (by omega)), bind_eq (separator_cons rfl),
    bind_eq (numberIn_padded hday hday31 (by omega))]
  exact bind_eq (guard_eq (by rw [hknown, hvalid]; rfl) rest)

/-- A point and one to nine digits are read, whatever the unit is that they count. -/
theorem fraction_padded {width n : Nat} (hwidth : 0 < width) (hwidth' : width ≤ 9)
    (h : n < 10 ^ width) {c : Char} (hc : c.isDigit = false) :
    fraction (("." ++ padded width n).toList ++ c :: rest) =
      some (n * 10 ^ (9 - width), c :: rest) := by
  have hlength := Date.length_padded hwidth h
  have hdigits : digits 9 ((padded width n).toList ++ c :: rest) =
      some ((padded width n).toList, c :: rest) :=
    digits_eq (Date.isDigit_of_mem_padded _ _) Date.padded_ne_nil
      (.inr ⟨hlength.le.trans hwidth', Text.stops_cons hc⟩)
  have hskip : (c :: rest).dropWhile Char.isDigit = c :: rest :=
    (Text.stops_cons hc).dropWhile_eq
  rw [String.toList_append]
  change fraction ('.' :: ((padded width n).toList ++ c :: rest)) = _
  unfold fraction
  rw [bind_eq (get_eq _)]
  change (set ((padded width n).toList ++ c :: rest) >>= fun _ => digits 9 >>= fun found =>
    modify (fun cs => cs.dropWhile Char.isDigit) >>= fun _ =>
      pure (Decimal.value found * 10 ^ (9 - found.length)) : Reader Nat) _ = _
  rw [bind_eq (set_eq _ _), bind_eq hdigits]
  change some (_, (c :: rest).dropWhile Char.isDigit) = _
  rw [hskip, Date.value_padded, hlength]

/-- The fraction of a second is read if no digit and no point follows. -/
theorem fraction_text {ns : Nat} (h : ns < 1000000000) {c : Char} (hc : c.isDigit = false)
    (hpoint : c ≠ '.') :
    fraction ((fractionText ns).toList ++ c :: rest) = some (ns, c :: rest) := by
  unfold fractionText
  split
  · next hzero =>
      unfold fraction
      rw [String.toList_empty, List.nil_append, bind_eq (get_eq _), hzero]
      -- no fraction was written, and what follows does not begin one
      refine (congrFun (g := (pure 0 : Reader Nat)) ?_ _).trans rfl
      split
      · next heq =>
          cases heq
          exact absurd rfl hpoint
      · rfl
  · split
    · rw [fraction_padded (by decide) (by decide) (by omega) hc]
      congr 2
      omega
    · split
      · rw [fraction_padded (by decide) (by decide) (by omega) hc]
        congr 2
        omega
      · rw [fraction_padded (by decide) (by decide) (by omega) hc]
        simp

end Reader

/-- The numbers of a timestamp are those of a point in time. -/
structure IsValid (time : Timestamp) : Prop where
  date_isValid : time.date.isValid = true
  knownYear : knownYear time.date.year = true
  minute_lt : time.minuteOfDay < 1440
  second_le : time.second ≤ 60
  nanosecond_lt : time.nanosecond < 1000000000

/-- A timestamp is read as it was written. -/
theorem parse?_text {time : Timestamp} (h : time.IsValid) : parse? time.text = some time := by
  obtain ⟨hdate, hknown, hminute, hsecond, hnanosecond⟩ := h
  have htext : time.text.toList = time.date.text.toList ++ 'T' ::
      ((Date.padded 2 (time.minuteOfDay / 60)).toList ++ ':' ::
        ((Date.padded 2 (time.minuteOfDay % 60)).toList ++ ':' ::
          ((Date.padded 2 time.second).toList ++
            ((fractionText time.nanosecond).toList ++ ['Z'])))) := by
    simp [text]
  have hclock : time.minuteOfDay / 60 * 60 + time.minuteOfDay % 60 = time.minuteOfDay := by omega
  have hoffset : Reader.offset ['Z'] = some (0, []) := rfl
  -- universal time is ahead of itself by nothing, so neither the day nor the minute moves
  have hlocal : ofLocal? time 0 = some time := by
    have hminutes : ((time.minuteOfDay : Int) - 0) = time.minuteOfDay := by omega
    have hday : ((time.minuteOfDay : Int) % 1440).toNat = time.minuteOfDay := by omega
    unfold ofLocal?
    simp only [hminutes, if_neg (show ¬ ((time.minuteOfDay : Int) < 0) by omega),
      if_neg (show ¬ (1440 ≤ (time.minuteOfDay : Int)) by omega), hknown, if_true, hday]
  have hread : Reader.timestamp time.text.toList = some (time, []) := by
    rw [htext]
    unfold Reader.timestamp
    rw [Reader.bind_eq (Reader.date_text hdate hknown),
      Reader.bind_eq (Reader.charWhere_cons (by decide)),
      Reader.bind_eq (Reader.numberIn_padded (Nat.zero_le _) (by omega) (by omega)),
      Reader.bind_eq (Reader.separator_cons rfl),
      Reader.bind_eq (Reader.numberIn_padded (Nat.zero_le _) (by omega) (by omega)),
      Reader.bind_eq (Reader.separator_cons rfl),
      Reader.bind_eq (Reader.numberIn_padded (Nat.zero_le _) hsecond (by omega)),
      Reader.bind_eq (Reader.fraction_text hnanosecond rfl (by decide)),
      Reader.bind_eq (Reader.space_eq (Text.stops_cons rfl)), Reader.bind_eq hoffset,
      Reader.bind_eq (Reader.space_eq Text.stops_nil), hclock]
    have hend : Reader.atEnd [] = some (true, []) := rfl
    rw [Reader.bind_eq hend, Reader.bind_eq (Reader.guard_eq rfl [])]
    change (ofLocal? time 0).bind (fun read => some (read, [])) = _
    rw [hlocal]
    rfl
  change (Reader.timestamp time.text.toList).map Prod.fst = _
  rw [hread]
  rfl

end Timestamp
end SchemaLint
