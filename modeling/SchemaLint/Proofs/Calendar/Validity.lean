import SchemaLint.Proofs.Calendar.Timestamp

/-!
# What is read as a timestamp is a point in time

Each number of a timestamp is read between the bounds of a point in time, and moving the clock by
its offset leads from a day of the calendar to one.
-/

namespace SchemaLint

namespace Decimal

theorem digitValue_lt {c : Char} (h : c.isDigit = true) : digitValue c < 10 := by
  have hgreatest := (Text.toNat_of_isDigit h).2
  rw [digitValue]
  omega

theorem value_lt_pow {cs : List Char} (h : ∀ c ∈ cs, c.isDigit = true) :
    value cs < 10 ^ cs.length := by
  induction cs using List.reverseRecOn with
  | nil => decide
  | append_singleton cs c ih =>
      have hfront := ih fun d hd => h d (List.mem_append_left _ hd)
      have hlast := digitValue_lt (h c (List.mem_append_right _ List.mem_cons_self))
      rw [value_append_singleton, List.length_append, List.length_singleton, Nat.pow_succ]
      omega

end Decimal

namespace Date

theorem daysInMonth_pos (year : Int) (month : Nat) : 1 ≤ daysInMonth year month := by
  unfold daysInMonth
  split
  · split <;> decide
  · split <;> decide

theorem isValid_iff {date : Date} : date.isValid = true ↔
    1 ≤ date.month ∧ date.month ≤ 12 ∧ 1 ≤ date.day ∧
      date.day ≤ daysInMonth date.year date.month := by
  simp only [isValid, Bool.and_eq_true, decide_eq_true_eq, and_assoc]

theorem isValid_next {date : Date} (h : date.isValid = true) : date.next.isValid = true := by
  obtain ⟨hmonth, hmonth', -, -⟩ := isValid_iff.1 h
  rw [isValid_iff, next]
  split
  · next hmore => exact ⟨hmonth, hmonth', Nat.le_add_left _ _, hmore⟩
  · split
    · next hmore => exact ⟨Nat.le_add_left _ _, hmore, le_rfl, daysInMonth_pos _ _⟩
    · exact ⟨le_rfl, show 1 ≤ 12 by decide, le_rfl, daysInMonth_pos _ _⟩

theorem isValid_previous {date : Date} (h : date.isValid = true) :
    date.previous.isValid = true := by
  obtain ⟨hmonth, hmonth', -, hday'⟩ := isValid_iff.1 h
  rw [isValid_iff, previous]
  split
  · next hmore =>
      exact ⟨hmonth, hmonth', Nat.le_sub_one_of_lt hmore, (Nat.sub_le _ _).trans hday'⟩
  · split
    · next hmore =>
        exact ⟨Nat.le_sub_one_of_lt hmore, (Nat.sub_le _ _).trans hmonth', daysInMonth_pos _ _,
          le_rfl⟩
    · -- the year before ends with the thirty-first of December
      exact ⟨show 1 ≤ 12 by decide, le_rfl, show 1 ≤ 31 by decide, le_rfl⟩

end Date

namespace Timestamp
namespace Reader

variable {α β : Type} {cs rest : List Char}

/-- Two readers one after the other take two parts of the text. -/
theorem exists_of_bind {reader : Reader α} {f : α → Reader β} {b : β}
    (h : (reader >>= f) cs = some (b, rest)) :
    ∃ a between, reader cs = some (a, between) ∧ f a between = some (b, rest) := by
  change (reader cs).bind _ = _ at h
  obtain ⟨⟨a, between⟩, hfirst, hsecond⟩ := Option.bind_eq_some_iff.1 h
  exact ⟨a, between, hfirst, hsecond⟩

theorem of_guard {p : Prop} [Decidable p] {u : Unit}
    (h : (guard p : Reader Unit) cs = some (u, rest)) : p := by
  by_contra hnot
  rw [guard, if_neg hnot] at h
  cases h

theorem le_of_numberIn {width least greatest n : Nat}
    (h : numberIn width least greatest cs = some (n, rest)) : least ≤ n ∧ n ≤ greatest := by
  obtain ⟨m, _, -, h⟩ := exists_of_bind h
  obtain ⟨_, _, hbounds, h⟩ := exists_of_bind h
  cases h
  exact of_guard hbounds

theorem run_of_digits {width : Nat} {found : List Char}
    (h : digits width cs = some (found, rest)) :
    (∀ c ∈ found, c.isDigit = true) ∧ found.length ≤ width := by
  obtain ⟨_, _, hget, h⟩ := exists_of_bind h
  cases hget
  obtain ⟨_, _, -, h⟩ := exists_of_bind h
  obtain ⟨_, _, -, h⟩ := exists_of_bind h
  cases h
  exact ⟨fun c hc => List.mem_takeWhile_imp (List.mem_of_mem_take hc), List.length_take_le _ _⟩

theorem valid_of_date {date : Date} (h : Reader.date cs = some (date, rest)) :
    date.isValid = true ∧ knownYear date.year = true := by
  obtain ⟨year, _, -, h⟩ := exists_of_bind h
  obtain ⟨_, _, -, h⟩ := exists_of_bind h
  obtain ⟨month, _, -, h⟩ := exists_of_bind h
  obtain ⟨_, _, -, h⟩ := exists_of_bind h
  obtain ⟨day, _, -, h⟩ := exists_of_bind h
  obtain ⟨_, _, hvalid, h⟩ := exists_of_bind h
  cases h
  exact (Bool.and_eq_true _ _).mp (of_guard hvalid)

/-- A fraction has at most nine digits that count, so it is less than a second. -/
theorem lt_of_fraction {ns : Nat} (h : fraction cs = some (ns, rest)) : ns < 1000000000 := by
  obtain ⟨_, _, hget, h⟩ := exists_of_bind h
  cases hget
  split at h
  · obtain ⟨_, _, -, h⟩ := exists_of_bind h
    obtain ⟨found, _, hfound, h⟩ := exists_of_bind h
    obtain ⟨_, _, -, h⟩ := exists_of_bind h
    cases h
    obtain ⟨hdigits, hlength⟩ := run_of_digits hfound
    calc Decimal.value found * 10 ^ (9 - found.length)
        < 10 ^ found.length * 10 ^ (9 - found.length) :=
          Nat.mul_lt_mul_of_pos_right (Decimal.value_lt_pow hdigits) (Nat.pow_pos (by decide))
      _ = 10 ^ 9 := by rw [← Nat.pow_add, Nat.add_sub_cancel' hlength]
  · cases h
    decide

end Reader

/-- A local time of a day of the calendar is a point in time. -/
theorem isValid_of_ofLocal? {time moved : Timestamp} {offset : Int}
    (hdate : time.date.isValid = true) (hsecond : time.second ≤ 60)
    (hnanosecond : time.nanosecond < 1000000000) (h : ofLocal? time offset = some moved) :
    moved.IsValid := by
  obtain ⟨hknown, heq⟩ := Option.ite_none_right_eq_some.1 h
  cases heq
  refine ⟨?_, hknown, show Int.toNat _ < 1440 by omega, hsecond, hnanosecond⟩
  show Date.isValid (if _ then _ else _) = true
  split
  · exact Date.isValid_previous hdate
  · split
    · exact Date.isValid_next hdate
    · exact hdate

/-- What is read as a timestamp is a point in time. -/
theorem isValid_of_parse? {s : String} {time : Timestamp} (h : parse? s = some time) :
    time.IsValid := by
  obtain ⟨⟨_, rest⟩, hread, rfl⟩ := Option.map_eq_some_iff.1 h
  obtain ⟨date, _, hdate, hread⟩ := Reader.exists_of_bind hread
  obtain ⟨_, _, -, hread⟩ := Reader.exists_of_bind hread
  obtain ⟨hour, _, -, hread⟩ := Reader.exists_of_bind hread
  obtain ⟨_, _, -, hread⟩ := Reader.exists_of_bind hread
  obtain ⟨minute, _, -, hread⟩ := Reader.exists_of_bind hread
  obtain ⟨_, _, -, hread⟩ := Reader.exists_of_bind hread
  obtain ⟨second, _, hsecond, hread⟩ := Reader.exists_of_bind hread
  obtain ⟨nanosecond, _, hnanosecond, hread⟩ := Reader.exists_of_bind hread
  obtain ⟨_, _, -, hread⟩ := Reader.exists_of_bind hread
  obtain ⟨offset, _, -, hread⟩ := Reader.exists_of_bind hread
  obtain ⟨_, _, -, hread⟩ := Reader.exists_of_bind hread
  obtain ⟨_, _, -, hread⟩ := Reader.exists_of_bind hread
  obtain ⟨_, _, -, hread⟩ := Reader.exists_of_bind hread
  obtain ⟨_, hlocal, heq⟩ := Option.bind_eq_some_iff.1 hread
  cases heq
  exact isValid_of_ofLocal? (Reader.valid_of_date hdate).1 (Reader.le_of_numberIn hsecond).2
    (Reader.lt_of_fraction hnanosecond) hlocal

end Timestamp
end SchemaLint
