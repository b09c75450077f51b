import SchemaLint.Calendar.Date
import SchemaLint.Text.Basic

/-!
# Timestamps

Points in time to the nanosecond, in universal time.  They are read with any offset, and with
more freedom than they are written: white space may stand between the parts, and numbers need
not be filled up with zeros.
-/

namespace SchemaLint

/-- A point in time.  The sixtieth second of a minute is a leap second. -/
structure Timestamp where
  date : Date
  /-- The minutes since midnight. -/
  minuteOfDay : Nat
  second : Nat
  nanosecond : Nat
deriving DecidableEq, Repr

namespace Timestamp

/-- The years of which every day is known. -/
def knownYear (year : Int) : Bool :=
  -262143 ≤ year && year ≤ 262142

/-- The fraction of a second, in three, six or nine digits, or nothing if it is zero. -/
def fractionText (nanosecond : Nat) : String :=
  if nanosecond = 0 then ""
  else if nanosecond % 1000000 = 0 then "." ++ Date.padded 3 (nanosecond / 1000000)
  else if nanosecond % 1000 = 0 then "." ++ Date.padded 6 (nanosecond / 1000)
  else "." ++ Date.padded 9 nanosecond

/-- The text of a timestamp in universal time. -/
def text (time : Timestamp) : String :=
  time.date.text ++ "T" ++ Date.padded 2 (time.minuteOfDay / 60) ++ ":" ++
    Date.padded 2 (time.minuteOfDay % 60) ++ ":" ++ Date.padded 2 time.second ++
    fractionText time.nanosecond ++ "Z"

/-- The timestamp of a local time whose clock is `offset` minutes ahead, by less than a day. -/
def ofLocal? (time : Timestamp) (offset : Int) : Option Timestamp :=
  let minutes : Int := time.minuteOfDay - offset
  let date :=
    if minutes < 0 then time.date.previous
    else if 1440 ≤ minutes then time.date.next
    else time.date
  if knownYear date.year then
    some { time with date, minuteOfDay := (minutes % 1440).toNat }
  else
    none

/-- A reader of characters from the front of a text. -/
abbrev Reader := StateT (List Char) Option

namespace Reader

/-- Passes over white space. -/
def space : Reader Unit :=
  modify fun cs => cs.dropWhile Text.isWhite

/-- Whether the text is at its end. -/
def atEnd : Reader Bool :=
  return (← get).isEmpty

/-- A character that satisfies `p`. -/
def charWhere (p : Char → Bool) : Reader Char := do
  match ← get with
  | [] => failure
  | c :: rest =>
      guard (p c)
      set rest
      return c

/-- This character. -/
def char (c : Char) : Reader Unit := do
  let _ ← charWhere (· == c)

/-- One to `width` digits. -/
def digits (width : Nat) : Reader (List Char) := do
  let cs ← get
  let found := (cs.takeWhile Char.isDigit).take width
  guard (found ≠ [])
  set (cs.drop found.length)
  return found

/-- A number of one to `width` digits after white space. -/
def number (width : Nat) : Reader Nat := do
  space
  return Decimal.value (← digits width)

/-- A number between two bounds. -/
def numberIn (width least greatest : Nat) : Reader Nat := do
  let n ← number width
  guard (least ≤ n ∧ n ≤ greatest)
  return n

/-- A year: up to four digits, or any number of them after a sign. -/
def year : Reader Int := do
  space
  let cs ← get
  match cs with
  | '-' :: rest =>
      set rest
      return -(Decimal.value (← digits rest.length) : Int)
  | '+' :: rest =>
      set rest
      return Decimal.value (← digits rest.length)
  | _ => return Decimal.value (← digits 4)

/-- A separator after white space. -/
def separator (c : Char) : Reader Unit := do
  space
  char c

/-- A date. -/
def date : Reader Date := do
  let year ← year
  separator '-'
  let month ← numberIn 2 1 12
  separator '-'
  let day ← numberIn 2 1 31
  let date : Date := { year, month, day }
  guard (date.isValid && knownYear year)
  return date

/-- The nanoseconds of a fraction; digits beyond the ninth do not count. -/
def fraction : Reader Nat := do
  match ← get with
  | '.' :: rest =>
      set rest
      let found ← digits 9
      modify fun cs => cs.dropWhile Char.isDigit
      return Decimal.value found * Nat.pow 10 (9 - found.length)
  | _ => return 0

/-- Two digits. -/
def twoDigits : Reader Nat := do
  let first ← charWhere Char.isDigit
  let second ← charWhere Char.isDigit
  return Decimal.value [first, second]

/-- Whether a text begins with the name of universal time. -/
def namesUniversal (cs : List Char) : Bool :=
  cs.length ≥ 3 && Text.sameLetters (String.ofList (cs.take 3)) "UTC"

/-- The offset of a clock in minutes. -/
def offset : Reader Int := do
  let cs ← get
  if namesUniversal cs then
    set (cs.drop 3)
    return 0
  else
    match ← charWhere fun c => c ∈ ['Z', 'z', '+', '-', '\u2212'] with
    | 'Z' | 'z' => return 0
    | sign =>
        let hours ← twoDigits
        modify fun cs => cs.dropWhile fun c => c == ':' || Text.isWhite c
        let minutes ← twoDigits
        guard (minutes < 60 && hours < 24)
        let total : Int := hours * 60 + minutes
        return if sign = '+' then total else -total

/-- A timestamp with its offset. -/
def timestamp : Reader Timestamp := do
  let date ← date
  let _ ← charWhere fun c => c ∈ ['t', 'T', ' ']
  let hour ← numberIn 2 0 23
  separator ':'
  let minute ← numberIn 2 0 59
  separator ':'
  let second ← numberIn 2 0 60
  let nanosecond ← fraction
  space
  let offset ← offset
  space
  guard (← atEnd)
  let time : Timestamp := { date, minuteOfDay := hour * 60 + minute, second, nanosecond }
  ofLocal? time offset

end Reader

/-- Reads a timestamp. -/
def parse? (s : String) : Option Timestamp :=
  Reader.timestamp.run' s.toList

end Timestamp
end SchemaLint
