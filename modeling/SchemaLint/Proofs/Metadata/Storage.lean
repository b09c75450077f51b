import Mathlib.Algebra.Group.Nat.Defs
import Mathlib.Tactic.SplitIfs
import SchemaLint.Metadata.Storage
import SchemaLint.Proofs.Number.Word

/-!
# Storage sizes in whole numbers

The size of a value is worked out in words of 64 bits.  There are few ways to do so for all the
types (`Layout`), and each comes to the whole number that the size should be (`Layout.total`), or to
an overflow.  Nothing overflows as long as there is room above the declared length for what is added
to it (`Layout.headroom`), and then the size grows with the length.  The largest lengths leave no
room, and no size comes out for them.

* `sizeOf?_eq` - the types and their layouts.
* `Layout.bytes_eq_ok` - when all bytes of a value can be counted, and how many they are.
* `growsInRange_iff` - when two lengths of a type have sizes that are in order.
-/

namespace SchemaLint
namespace Storage

/-- How the size of a value follows from the declared length and scale. -/
inductive Layout where
  /-- A size of its own. -/
  | constant (body header : UInt32)
  /-- Four bytes, or eight for a high precision. -/
  | float
  | decimal
  /-- Eight bits to a byte. -/
  | bits
  /-- So many bytes, and those of fractional seconds. -/
  | time (bytes : UInt32)
  /-- The length itself. -/
  | plain
  /-- The length itself, with a length in front. -/
  | text
  | enumeration
  | set
deriving DecidableEq

/-- The layout of a type given by its one name. -/
def layout? : String → Option Layout
  | "tinyint" | "year" => some (.constant 1 0)
  | "smallint" => some (.constant 2 0)
  | "mediumint" | "date" => some (.constant 3 0)
  | "int" => some (.constant 4 0)
  | "bigint" | "double" => some (.constant 8 0)
  | "float" => some .float
  | "decimal" => some .decimal
  | "bit" => some .bits
  | "time" => some (.time 3)
  | "datetime" => some (.time 5)
  | "timestamp" => some (.time 4)
  | "char" | "binary" => some .plain
  | "varchar" | "varbinary" => some .text
  | "tinytext" | "tinyblob" => some (.constant 255 1)
  | "text" | "blob" => some (.constant 65535 2)
  | "mediumtext" | "mediumblob" => some (.constant 16777215 3)
  | "longtext" | "longblob" | "json" => some (.constant 4294967295 4)
  | "enum" => some .enumeration
  | "set" => some .set
  | _ => none

/-- The bytes of decimal digits: four for each group of nine, and one for every two digits begun of
the rest. -/
def decimalTotal (digits : Nat) : Nat :=
  digits / 9 * 4 + (digits % 9 + 1) / 2

theorem decimalTotal_mono {digits more : Nat} (h : digits ≤ more) :
    decimalTotal digits ≤ decimalTotal more := by
  unfold decimalTotal
  omega

theorem decimalTotal_le (digits : Nat) : decimalTotal digits ≤ digits := by
  unfold decimalTotal
  omega

namespace Layout

/-- The length of a value for which none is declared. -/
def defaultLength : Layout → UInt64
  | bits | plain => 1
  | decimal => 10
  | constant .. | float | time _ | text | enumeration | set => 0

/-- The size of a value of some length, in words. -/
def size (length : UInt64) (scale : Option UInt64) : Layout → Except Overflow StorageSize
  | constant body header => .ok { body := body.toUInt64, header := header.toUInt64 }
  | float => .ok (.fixed (if 24 < length then 8 else 4))
  | decimal =>
      let scale := min (scale.getD 0) length
      decimalSize (length - scale) scale
  | bits => (bitBytes length).map .fixed
  | time bytes => timeSize bytes.toUInt64 (some length)
  | plain => .ok (.fixed length)
  | text => .ok (.withLength length)
  | enumeration => .ok (.fixed (if length ≤ 255 then 1 else 2))
  | set => (setBytes length).map .fixed

/-- All bytes of a value, in words. -/
def bytes (length : UInt64) (scale : Option UInt64) (layout : Layout) : Except Overflow UInt64 :=
  layout.size length scale >>= StorageSize.total

/-- All bytes of a value, as a whole number. -/
def total (length scale : Nat) : Layout → Nat
  | constant body header => body.toNat + header.toNat
  | float => if 24 < length then 8 else 4
  | decimal => decimalTotal (length - min scale length) + decimalTotal (min scale length)
  | bits => (length + 7) / 8
  | time bytes => bytes.toNat + (length + 1) / 2
  | plain => length
  | text => length + if length < 256 then 1 else 2
  | enumeration => if length ≤ 255 then 1 else 2
  | set =>
      if (length + 7) / 8 ≤ 1 then 1 else if (length + 7) / 8 ≤ 4 then (length + 7) / 8 else 8

/-- The room that is needed above the length. -/
def headroom : Layout → Nat
  | bits | set => 7
  | time _ => 1
  | text => 2
  | constant .. | float | decimal | plain | enumeration => 0

variable {length longer scale : Nat}

/-- The larger number of digits is that of both sides of the point together, or one side is full
first. -/
theorem total_mono (layout : Layout) (h : length ≤ longer) :
    layout.total length scale ≤ layout.total longer scale := by
  cases layout with
  | constant body header => exact Nat.le_refl _
  | float => simp only [total]; split <;> split <;> omega
  | decimal =>
      have hleft : decimalTotal (length - min scale length) ≤
          decimalTotal (longer - min scale longer) := decimalTotal_mono (by omega)
      have hright : decimalTotal (min scale length) ≤ decimalTotal (min scale longer) :=
        decimalTotal_mono (by omega)
      exact Nat.add_le_add hleft hright
  | bits => simp only [total]; omega
  | time bytes => simp only [total]; omega
  | plain => exact h
  | text => simp only [total]; split <;> split <;> omega
  | enumeration => simp only [total]; split <;> split <;> omega
  | set => simp only [total]; split_ifs <;> omega

/-- With room above the length, the bytes are a word. -/
theorem total_lt (layout : Layout) (h : length + layout.headroom < 2 ^ 64) :
    layout.total length scale < 2 ^ 64 := by
  cases layout <;> simp only [total, headroom] at h ⊢
  case constant body header =>
    have hbody := body.toNat_lt
    have hheader := header.toNat_lt
    omega
  case time bytes =>
    have hbytes := bytes.toNat_lt
    omega
  case decimal =>
    -- neither side has more digits than there are, nor more bytes than digits
    have hleft := decimalTotal_le (length - min scale length)
    have hright := decimalTotal_le (min scale length)
    omega
  case float => split <;> omega
  case text => split <;> omega
  case enumeration => split <;> omega
  case set => split_ifs <;> omega
  all_goals omega

end Layout

theorem sizeOf?_eq (type : String) (length scale : Option UInt64) :
    sizeOf? type length scale =
      (layout? type).map fun layout => layout.size (length.getD layout.defaultLength) scale := by
  unfold sizeOf?
  split
  case h_30 => rw [layout?] <;> first | rfl | assumption
  all_goals first | rfl | cases length <;> rfl

/-! ### From words to whole numbers -/

theorem toNat_min (a b : UInt64) : (min a b).toNat = min a.toNat b.toNat := by
  change (if a ≤ b then a else b).toNat = _
  rw [Nat.min_def, apply_ite UInt64.toNat]
  rfl

/-- The digits that do not fill a group take a byte for every two of them begun. -/
theorem toNat_leftoverBytes {digits : UInt64} (h : digits.toNat < 9) :
    (leftoverBytes digits).toNat = (digits.toNat + 1) / 2 := by
  simp only [leftoverBytes, apply_ite UInt64.toNat, ← UInt64.toNat_inj, UInt64.le_iff_toNat_le,
    UInt64.reduceToNat]
  split_ifs <;> omega

theorem decimalBytes_eq_ok {digits bytes : UInt64} :
    decimalBytes digits = .ok bytes ↔ bytes.toNat = decimalTotal digits.toNat := by
  have hdigits := digits.toNat_lt
  have hleft : (leftoverBytes (digits % 9)).toNat = (digits.toNat % 9 + 1) / 2 :=
    toNat_leftoverBytes (Nat.mod_lt _ (by decide))
  have hgroups : (digits / 9).toNat * (4 : UInt64).toNat = digits.toNat / 9 * 4 := rfl
  simp only [decimalBytes, bind_eq_ok, Word.times_eq_ok, Word.plus_eq_ok, hleft, hgroups]
  rw [Word.exists_toNat (P := fun groups => bytes.toNat = groups + (digits.toNat % 9 + 1) / 2)]
  exact and_iff_right (by omega)

theorem bitBytes_eq_ok {bits bytes : UInt64} :
    bitBytes bits = .ok bytes ↔ bits.toNat + 7 < 2 ^ 64 ∧ bytes.toNat = (bits.toNat + 7) / 8 := by
  simp only [bitBytes, bind_eq_ok, Word.plus_eq_ok, pure, Except.pure, Except.ok.injEq,
    ← UInt64.toNat_inj, UInt64.toNat_div, UInt64.reduceToNat]
  rw [Word.exists_toNat (P := fun sum => sum / 8 = bytes.toNat)]
  exact and_congr_right fun _ => eq_comm

theorem fractionBytes_eq_ok {places bytes : UInt64} :
    fractionBytes (some places) = .ok bytes ↔
      places.toNat + 1 < 2 ^ 64 ∧ bytes.toNat = (places.toNat + 1) / 2 := by
  simp only [fractionBytes, bind_eq_ok, Word.plus_eq_ok, pure, Except.pure, Except.ok.injEq,
    ← UInt64.toNat_inj, UInt64.toNat_div, UInt64.reduceToNat]
  rw [Word.exists_toNat (P := fun sum => sum / 2 = bytes.toNat)]
  exact and_congr_right fun _ => eq_comm

/-- A set takes as many bytes as its bits, but never five, six or seven. -/
theorem setBytes_eq_ok {members bytes : UInt64} :
    setBytes members = .ok bytes ↔
      members.toNat + 7 < 2 ^ 64 ∧ bytes.toNat = Layout.set.total members.toNat 0 := by
  have hround : ∀ n : Nat, (∃ word : UInt64, word.toNat = n ∧
      (if word.toNat ≤ 1 then 1 else if word.toNat ≤ 4 then word.toNat else 8) = bytes.toNat) ↔
        n < 2 ^ 64 ∧ (if n ≤ 1 then 1 else if n ≤ 4 then n else 8) = bytes.toNat :=
    fun n => Word.exists_toNat
      (P := fun n => (if n ≤ 1 then 1 else if n ≤ 4 then n else 8) = bytes.toNat)
  simp only [setBytes, bind_eq_ok, bitBytes_eq_ok, pure, Except.pure, Except.ok.injEq,
    ← UInt64.toNat_inj, apply_ite UInt64.toNat, UInt64.le_iff_toNat_le, UInt64.reduceToNat,
    and_assoc, exists_and_left, hround]
  refine and_congr_right fun hmembers => ?_
  rw [and_iff_right (by omega)]
  exact eq_comm

theorem total_fixed (bytes : UInt64) : (StorageSize.fixed bytes).total = .ok bytes :=
  Word.plus_eq_ok.2 rfl

theorem map_fixed_bind_total (bytes : Except Overflow UInt64) :
    bytes.map .fixed >>= StorageSize.total = bytes := by
  cases bytes with
  | error overflow => rfl
  | ok bytes => exact total_fixed bytes

theorem total_decimalSize {whole fraction total : UInt64} :
    decimalSize whole fraction >>= StorageSize.total = .ok total ↔
      total.toNat = decimalTotal whole.toNat + decimalTotal fraction.toNat := by
  have hwhole := decimalTotal_le whole.toNat
  have hfraction := decimalTotal_le fraction.toNat
  have hsum : ∀ bytes : UInt64, (∃ word : UInt64, word.toNat = decimalTotal fraction.toNat ∧
      total.toNat = bytes.toNat + word.toNat) ↔
        total.toNat = bytes.toNat + decimalTotal fraction.toNat := fun bytes =>
    (Word.exists_toNat (P := fun n => total.toNat = bytes.toNat + n)).trans
      (and_iff_right (Nat.lt_of_le_of_lt hfraction fraction.toNat_lt))
  have hsize : decimalSize whole fraction = (do
      Word.plus (← decimalBytes whole) (← decimalBytes fraction)).map .fixed := by
    unfold decimalSize
    cases decimalBytes whole <;> cases decimalBytes fraction <;> rfl
  rw [hsize, map_fixed_bind_total]
  simp only [bind_eq_ok, decimalBytes_eq_ok, Word.plus_eq_ok, hsum]
  rw [Word.exists_toNat (P := fun n => total.toNat = n + decimalTotal fraction.toNat)]
  exact and_iff_right (Nat.lt_of_le_of_lt hwhole whole.toNat_lt)

theorem total_timeSize {bytes places total : UInt64} :
    timeSize bytes (some places) >>= StorageSize.total = .ok total ↔
      places.toNat + 1 < 2 ^ 64 ∧ total.toNat = bytes.toNat + (places.toNat + 1) / 2 := by
  have hsize : timeSize bytes (some places) = (do
      Word.plus bytes (← fractionBytes (some places))).map .fixed := by
    unfold timeSize
    cases fractionBytes (some places) <;> rfl
  rw [hsize, map_fixed_bind_total]
  simp only [bind_eq_ok, fractionBytes_eq_ok, Word.plus_eq_ok, and_assoc, exists_and_left]
  refine and_congr_right fun hplaces => ?_
  rw [Word.exists_toNat (P := fun n => total.toNat = bytes.toNat + n)]
  exact and_iff_right (by omega)

namespace Layout

variable {length total : UInt64} {scale : Option UInt64}

/-- All bytes of a value are counted exactly if there is room above its length, and then they are
the whole number. -/
theorem bytes_eq_ok (layout : Layout) :
    layout.bytes length scale = .ok total ↔
      length.toNat + layout.headroom < 2 ^ 64 ∧
        total.toNat = layout.total length.toNat (scale.getD 0).toNat := by
  have hlength := length.toNat_lt
  have hfixed : ∀ bytes : UInt64, (StorageSize.fixed bytes).total = .ok total ↔
      length.toNat + 0 < 2 ^ 64 ∧ total.toNat = bytes.toNat := fun bytes => by
    rw [total_fixed, Except.ok.injEq, and_iff_right (by omega), ← UInt64.toNat_inj]
    exact eq_comm
  cases layout with
  | constant body header => exact Word.plus_eq_ok.trans (and_iff_right hlength).symm
  | float =>
      refine (hfixed _).trans ?_
      simp only [Layout.total, apply_ite UInt64.toNat, UInt64.lt_iff_toNat_lt, UInt64.reduceToNat,
        headroom]
  | decimal =>
      have hscale : min (scale.getD 0) length ≤ length := by
        rw [UInt64.le_iff_toNat_le, toNat_min]
        exact Nat.min_le_right _ _
      refine total_decimalSize.trans ?_
      rw [UInt64.toNat_sub_of_le _ _ hscale, toNat_min]
      exact (and_iff_right hlength).symm
  | bits => exact (map_fixed_bind_total _).congr_left.trans bitBytes_eq_ok
  | time bytes => exact total_timeSize
  | plain => exact hfixed length
  | text =>
      refine Word.plus_eq_ok.trans ?_
      simp only [StorageSize.withLength, Layout.total, apply_ite UInt64.toNat,
        UInt64.lt_iff_toNat_lt, UInt64.reduceToNat, headroom]
      have htotal := total.toNat_lt
      split <;> omega
  | enumeration =>
      refine (hfixed _).trans ?_
      simp only [Layout.total, apply_ite UInt64.toNat, UInt64.le_iff_toNat_le, UInt64.reduceToNat,
        headroom]
  | set => exact (map_fixed_bind_total _).congr_left.trans setBytes_eq_ok

/-- Whether the bytes can be counted is a matter of the length. -/
theorem exists_bytes_iff (layout : Layout) :
    (∃ total, layout.bytes length scale = .ok total) ↔
      length.toNat + layout.headroom < 2 ^ 64 := by
  constructor
  · rintro ⟨total, htotal⟩
    exact (layout.bytes_eq_ok.1 htotal).1
  · intro hroom
    exact Word.exists_ok (fun _ htotal => layout.bytes_eq_ok.2 ⟨hroom, htotal⟩)
      (layout.total_lt hroom)

theorem defaultLength_room (layout : Layout) :
    layout.defaultLength.toNat + layout.headroom < 2 ^ 64 := by
  cases layout <;> simp [defaultLength, headroom]

end Layout

/-! ### Growth with the length -/

/-- The type has sizes. -/
def Accepts (type : String) : Prop :=
  ∃ length scale size, Storage.size type length scale = .ok size

/-- The room that a type needs above the length. -/
def headroom (type : String) : Nat :=
  ((layout? (ColumnType.canonical type)).map Layout.headroom).getD 0

/-- All bytes of a value of a type can be counted: neither its size nor their sum overflows. -/
def Totals (type : String) (length scale : Option UInt64) (total : UInt64) : Prop :=
  ∃ size, Storage.size type length scale = .ok size ∧ size.total = .ok total

/-- Values of two lengths can both be counted, and the longer one has no fewer bytes. -/
def GrowsInRange (type : String) (scale : Option UInt64) (shorter longer : UInt64) : Prop :=
  ∃ small large, Totals type (some shorter) scale small ∧ Totals type (some longer) scale large ∧
    small ≤ large

theorem size_eq {type : String} {layout : Layout}
    (h : layout? (ColumnType.canonical type) = some layout) (length scale : Option UInt64) :
    Storage.size type length scale =
      (layout.size (length.getD layout.defaultLength) scale).mapError .overflow := by
  unfold Storage.size
  rewrite [sizeOf?_eq, h]
  rfl

theorem exists_layout {type : String} (h : Accepts type) :
    ∃ layout, layout? (ColumnType.canonical type) = some layout := by
  obtain ⟨length, scale, size, h⟩ := h
  unfold Storage.size at h
  rewrite [sizeOf?_eq] at h
  cases hlayout : layout? (ColumnType.canonical type) with
  | none =>
      rewrite [hlayout] at h
      cases h
  | some layout => exact ⟨layout, rfl⟩

theorem totals_iff {type : String} {layout : Layout}
    (h : layout? (ColumnType.canonical type) = some layout) {length scale : Option UInt64}
    {total : UInt64} :
    Totals type length scale total ↔
      layout.bytes (length.getD layout.defaultLength) scale = .ok total := by
  simp only [Totals, size_eq h, mapError_eq_ok, Layout.bytes, bind_eq_ok]

theorem headroom_eq {type : String} {layout : Layout}
    (h : layout? (ColumnType.canonical type) = some layout) :
    headroom type = layout.headroom := by
  rw [headroom, h, Option.map_some, Option.getD_some]

/-- A longer length makes no fewer bytes, if they can be counted. -/
theorem Totals.le {type : String} {scale : Option UInt64} {shorter longer small large : UInt64}
    (hsmall : Totals type (some shorter) scale small)
    (hlarge : Totals type (some longer) scale large) (hle : shorter ≤ longer) :
    small ≤ large := by
  obtain ⟨layout, hlayout⟩ := exists_layout ⟨_, _, _, hsmall.choose_spec.1⟩
  have hfew := ((layout.bytes_eq_ok).1 ((totals_iff hlayout).1 hsmall)).2
  have hmany := ((layout.bytes_eq_ok).1 ((totals_iff hlayout).1 hlarge)).2
  rw [UInt64.le_iff_toNat_le, hfew, hmany]
  exact layout.total_mono (UInt64.le_iff_toNat_le.1 hle)

/-- Two lengths of a type that has sizes can be counted and are in order exactly if there is room
above the longer one. -/
theorem growsInRange_iff {type : String} {scale : Option UInt64} {shorter longer : UInt64}
    (h : Accepts type) (hle : shorter ≤ longer) :
    GrowsInRange type scale shorter longer ↔ longer.toNat + headroom type < 2 ^ 64 := by
  obtain ⟨layout, hlayout⟩ := exists_layout h
  have hlengths := UInt64.le_iff_toNat_le.1 hle
  have hcounted : ∀ length : UInt64, (∃ total, Totals type (some length) scale total) ↔
      length.toNat + headroom type < 2 ^ 64 := fun length => by
    simp only [totals_iff hlayout, headroom_eq hlayout]
    exact layout.exists_bytes_iff
  constructor
  · rintro ⟨small, large, -, hlarge, -⟩
    exact (hcounted longer).1 ⟨large, hlarge⟩
  · intro hroom
    obtain ⟨large, hlarge⟩ := (hcounted longer).2 hroom
    obtain ⟨small, hsmall⟩ := (hcounted shorter).2 (by omega)
    exact ⟨small, large, hsmall, hlarge, hsmall.le hlarge hle⟩

/-- The longest text that leaves room for its own length. -/
theorem growsInRange_of_longest_text :
    Accepts "varchar" ∧ (255 : UInt64) ≤ 18446744073709551613 ∧
      GrowsInRange "varchar" none 255 18446744073709551613 := by
  have haccepts : Accepts "varchar" := ⟨none, none, .withLength 0, by decide +kernel⟩
  have hle : (255 : UInt64) ≤ 18446744073709551613 := by decide
  exact ⟨haccepts, hle, (growsInRange_iff haccepts hle).2 (by decide +kernel)⟩

/-- Eight bits take a byte, and the bytes of the longest bit field cannot be worked out. -/
theorem not_growsInRange_of_longest_bits :
    Storage.size "bit" (some 8) none = .ok (.fixed 1) ∧
      Storage.size "bit" (some 18446744073709551615) none = .error (.overflow .addition) ∧
      ¬ ∀ (type : String) (scale : Option UInt64) (shorter longer : UInt64),
        Accepts type → shorter ≤ longer → GrowsInRange type scale shorter longer := by
  have hbyte : Storage.size "bit" (some 8) none = .ok (.fixed 1) := by decide +kernel
  have hnone : Storage.size "bit" (some 18446744073709551615) none =
      .error (.overflow .addition) := by decide +kernel
  refine ⟨hbyte, hnone, fun h => ?_⟩
  obtain ⟨small, large, -, ⟨size, hsize, -⟩, -⟩ :=
    h "bit" none 8 18446744073709551615 ⟨_, _, _, hbyte⟩ (by decide)
  cases hnone.symm.trans hsize

end Storage
end SchemaLint
