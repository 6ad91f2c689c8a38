import FrameLoop.Blank
import FrameLoop.Digits
import FrameLoop.Duration

/-!
# Points in time

A `Timestamp` counts seconds from the start of 1970, universal time, and
nanoseconds within the second. A leap second is the second before it with a
nanosecond count of 10^9 or more, so that the count of seconds stays uniform.

Writing gives the internet date format with `Z`, and 0, 3, 6 or 9 decimal
places, the fewest that show the nanoseconds. Years of four digits have no
sign; others have one, and at least four digits.

Reading is wider than writing: fields may be short, blanks may stand before a
field or a separator, the date and the time may be parted by `T`, `t` or a
blank, and any offset of less than a day is taken into account. A time may be
the sixtieth second. What was read is kept in universal time.
-/

namespace FrameLoop

/-! ## The calendar -/

namespace Calendar

/-- Whether a year has a 29th of February. -/
def isLeap (year : Int) : Bool :=
  (Int.fmod year 4 == 0 && Int.fmod year 100 != 0) || Int.fmod year 400 == 0

/-- The days of a month, `month` from 1 to 12. -/
def daysInMonth (year : Int) (month : Nat) : Nat :=
  if month == 2 then (if isLeap year then 29 else 28)
  else if month == 4 || month == 6 || month == 9 || month == 11 then 30
  else 31

/-- Days from the first of January 1970 to a date. Years are counted from
March, so that the leap day comes last. -/
def daysOfDate (year : Int) (month day : Nat) : Int :=
  let y := if month ≤ 2 then year - 1 else year
  let era := Int.fdiv y 400
  let yoe := y - era * 400
  let m : Int := if 2 < month then month - 3 else month + 9
  let doy := Int.fdiv (153 * m + 2) 5 + day - 1
  let doe := yoe * 365 + Int.fdiv yoe 4 - Int.fdiv yoe 100 + doy
  era * 146097 + doe - 719468

/-- The date this many days after the first of January 1970. -/
def dateOfDays (days : Int) : Int × Nat × Nat :=
  let z := days + 719468
  let era := Int.fdiv z 146097
  let doe := z - era * 146097
  let yoe := Int.fdiv (doe - Int.fdiv doe 1460 + Int.fdiv doe 36524 - Int.fdiv doe 146096) 365
  let doy := doe - (365 * yoe + Int.fdiv yoe 4 - Int.fdiv yoe 100)
  let mp := Int.fdiv (5 * doy + 2) 153
  let day := (doy - Int.fdiv (153 * mp + 2) 5 + 1).toNat
  let month := (if mp < 10 then mp + 3 else mp - 9).toNat
  let y := yoe + era * 400
  (if month ≤ 2 then y + 1 else y, month, day)

/-- The years a timestamp may have. -/
def firstYear : Int := -262143

/-- The years a timestamp may have. -/
def lastYear : Int := 262142

/-- Whether a year is one a timestamp may have. -/
def yearInRange (year : Int) : Bool := decide (firstYear ≤ year ∧ year ≤ lastYear)

end Calendar

/-- **A point in time**: seconds from the start of 1970, universal time, and
nanoseconds, 10^9 and more of them in a leap second. -/
structure Timestamp where
  seconds : Int
  nanos : Nat
deriving DecidableEq, Inhabited, Repr

namespace Timestamp

def secondsPerDay : Int := 86400

/-- The point in time a clock reading stands for, the clock having read zero
at the start of 1970. -/
def ofNanos (n : Int) : Timestamp :=
  ⟨Int.fdiv n nanosPerSecond, (Int.fmod n nanosPerSecond).toNat⟩

/-! ## Writing -/

/-- A number with at least `width` digits. -/
def padded (width n : Nat) : String := String.ofList (Digits.padded width n)

/-- A year: four digits, or a sign and at least four digits. -/
def yearText (year : Int) : String :=
  if 0 ≤ year ∧ year ≤ 9999 then padded 4 year.toNat
  else (if year < 0 then "-" else "+") ++ padded 4 year.natAbs

/-- The decimal places that show this many nanoseconds. -/
def fractionText (nanos : Nat) : String :=
  if nanos = 0 then ""
  else if nanos % 1000000 = 0 then "." ++ padded 3 (nanos / 1000000)
  else if nanos % 1000 = 0 then "." ++ padded 6 (nanos / 1000)
  else "." ++ padded 9 nanos

/-- The day on which a point in time lies, in days from the start of 1970. -/
def day (t : Timestamp) : Int := Int.fdiv t.seconds secondsPerDay

/-- The second of its day. -/
def second (t : Timestamp) : Nat := (Int.fmod t.seconds secondsPerDay).toNat

/-- One in a leap second, else zero. -/
def leap (t : Timestamp) : Nat := if nanosPerSecond ≤ t.nanos then 1 else 0

/-- The fields of a point in time, as they stand in a text. -/
structure Fields where
  year : Int
  month : Nat
  day : Nat
  hour : Nat
  minute : Nat
  /-- Up to 60, in a leap second. -/
  second : Nat
  nanos : Nat
  /-- The offset from universal time, in seconds. -/
  offset : Int := 0

/-- The fields of a point in time in universal time. -/
def fields (t : Timestamp) : Fields where
  year := (Calendar.dateOfDays t.day).1
  month := (Calendar.dateOfDays t.day).2.1
  day := (Calendar.dateOfDays t.day).2.2
  hour := t.second / 3600
  minute := t.second / 60 % 60
  second := t.second % 60 + t.leap
  nanos := t.nanos - t.leap * nanosPerSecond

/-- The text with these fields, in universal time. -/
def Fields.text (f : Fields) : String :=
  yearText f.year ++ "-" ++ padded 2 f.month ++ "-" ++ padded 2 f.day ++ "T"
    ++ padded 2 f.hour ++ ":" ++ padded 2 f.minute ++ ":" ++ padded 2 f.second
    ++ fractionText f.nanos ++ "Z"

/-- **The written form.** -/
def text (t : Timestamp) : String := t.fields.text

/-! ## Reading -/

/-- A number of one to `most` digits, and what follows it. -/
def number? (most : Nat) (s : List Char) : Option (Nat × List Char) :=
  let digits := (s.take most).takeWhile Char.isDigit
  if digits.isEmpty then none else some (Digits.decimal digits, s.drop digits.length)

/-- A number of up to two digits no greater than `last`, blanks before it. -/
def field? (first last : Nat) (s : List Char) : Option (Nat × List Char) := do
  let (n, rest) ← number? 2 (trimFront s)
  if first ≤ n ∧ n ≤ last then some (n, rest) else none

/-- A year, blanks before it: up to four digits, or a sign and any number of
them. -/
def year? (s : List Char) : Option (Int × List Char) :=
  match trimFront s with
  | '-' :: rest => (number? rest.length rest).map fun (n, r) => (-(n : Int), r)
  | '+' :: rest => (number? rest.length rest).map fun (n, r) => ((n : Int), r)
  | s => (number? 4 s).map fun (n, r) => ((n : Int), r)

/-- A separator, blanks before it. -/
def separator? (c : Char) (s : List Char) : Option (List Char) :=
  match trimFront s with
  | d :: rest => if d = c then some rest else none
  | [] => none

/-- The nanoseconds of a fraction, if there is one; digits beyond the ninth
are passed over. -/
def fraction? (s : List Char) : Option (Nat × List Char) :=
  match s with
  | '.' :: rest => do
    let (n, after) ← number? 9 rest
    let used := rest.length - after.length
    some (n * Nat.pow 10 (9 - used), after.dropWhile Char.isDigit)
  | _ => some (0, s)

/-- Two digits, the first no greater than `first`. -/
def twoDigits? (first : Char) : List Char → Option (Nat × List Char)
  | a :: b :: rest =>
    if a.isDigit && b.isDigit && a ≤ first then some (Digits.decimal [a, b], rest) else none
  | _ => none

/-- Whether a character may stand between the hours and the minutes of an
offset. -/
def isOffsetGap (c : Char) : Bool := c == ':' || isBlank c

/-- The offset from universal time, in seconds, and what follows it. -/
def offset? (s : List Char) : Option (Int × List Char) :=
  match s with
  | 'Z' :: rest | 'z' :: rest => some (0, rest)
  | sign :: rest =>
    if (s.take 3).map Char.toUpper = ['U', 'T', 'C'] then some (0, s.drop 3)
    else if sign = '+' ∨ sign = '-' ∨ sign = '−' then do
      let (hours, rest) ← twoDigits? '9' rest
      let (minutes, rest) ← twoDigits? '5' (rest.dropWhile isOffsetGap)
      let total : Int := (hours * 3600 + minutes * 60 : Nat)
      some (if sign = '+' then total else -total, rest)
    else none
  | [] => none

/-- What parts the date from the time. -/
def parting? : List Char → Option (List Char)
  | c :: rest => if c = 'T' ∨ c = 't' ∨ c = ' ' then some rest else none
  | [] => none

/-- **The fields of a text.** -/
def fields? (s : List Char) : Option Fields := do
  let (year, s) ← year? s
  let s ← separator? '-' s
  let (month, s) ← field? 1 12 s
  let s ← separator? '-' s
  let (day, s) ← field? 1 31 s
  let s ← parting? s
  let (hour, s) ← field? 0 23 s
  let s ← separator? ':' s
  let (minute, s) ← field? 0 59 s
  let s ← separator? ':' s
  let (second, s) ← field? 0 60 s
  let (nanos, s) ← fraction? s
  let (offset, s) ← offset? (trimFront s)
  guard ((trimFront s).isEmpty && decide (offset.natAbs < 86400))
  some { year, month, day, hour, minute, second, nanos, offset }

/-- **The point in time that fields stand for**, if it is one. -/
def Fields.timestamp? (f : Fields) : Option Timestamp := do
  guard (Calendar.yearInRange f.year && decide (f.day ≤ Calendar.daysInMonth f.year f.month))
  let leap := if f.second = 60 then 1 else 0
  let clock : Int := (f.hour * 3600 + f.minute * 60 + (f.second - leap) : Nat)
  let seconds := Calendar.daysOfDate f.year f.month f.day * secondsPerDay + clock - f.offset
  guard (Calendar.yearInRange (Calendar.dateOfDays (Int.fdiv seconds secondsPerDay)).1)
  some ⟨seconds, f.nanos + leap * nanosPerSecond⟩

/-- **The point in time a text stands for**, if it is one. -/
def ofText? (text : String) : Option Timestamp :=
  (fields? text.toList).bind Fields.timestamp?

end Timestamp

end FrameLoop
