import Relational.Decimal.Reading
import Relational.Text.Blank
/-
Dates of the Gregorian calendar and times of day, and how they are written with fixed digits.

A minute may have a sixty-first second, so that a leap second can be named.  Digits are ASCII and
have a fixed count; what follows them is the caller's business.
-/
namespace Relational

/-- A day. -/
structure Date where
  year : Int
  month : Nat
  day : Nat
  deriving DecidableEq, Repr

/-- A time of day. -/
structure Clock where
  hour : Nat
  minute : Nat
  /-- Up to sixty, for a leap second. -/
  second : Nat
  nanosecond : Nat := 0
  deriving DecidableEq, Repr

/-! ### Fixed digits -/

namespace Decimal

/-- A number of at least `least` and at most `most` digits, and what follows it. -/
def number? (least most : Nat) (s : List Char) : Option (Nat × List Char) :=
  let digits := (s.takeWhile Char.isDigit).take most
  if digits.length < least then none else some (natOfDigits digits, s.drop digits.length)

/-- The digits of a number, with zeros in front up to `width`. -/
def padded (width n : Nat) : String :=
  let digits := Nat.toDigits 10 n
  String.ofList (List.replicate (width - digits.length) '0' ++ digits)

end Decimal

namespace Date

/-! ### The calendar -/

/-- Every fourth year is a leap year, of the centuries every fourth. -/
def isLeap (year : Int) : Bool :=
  year % 4 == 0 && (year % 100 != 0 || year % 400 == 0)

/-- Number of days of a month. -/
def daysIn (year : Int) (month : Nat) : Nat :=
  match month with
  | 2 => if isLeap year then 29 else 28
  | 4 | 6 | 9 | 11 => 30
  | _ => 31

/-- The day, if the calendar has it. -/
def make? (year : Int) (month day : Nat) : Option Date :=
  if 1 ≤ month ∧ month ≤ 12 ∧ 1 ≤ day ∧ day ≤ daysIn year month then some ⟨year, month, day⟩
  else none

/-- The day so many days after the first of January 1970.  Years are counted from March in cycles
of four hundred, so that the leap day is the last of its year. -/
def ofDays (days : Int) : Date :=
  let shifted := days + 719468
  let cycle := shifted / 146097
  let dayOfCycle := (shifted % 146097).toNat
  let yearOfCycle :=
    (dayOfCycle - dayOfCycle / 1460 + dayOfCycle / 36524 - dayOfCycle / 146096) / 365
  let dayOfYear := dayOfCycle - (365 * yearOfCycle + yearOfCycle / 4 - yearOfCycle / 100)
  let monthFromMarch := (5 * dayOfYear + 2) / 153
  let month := if monthFromMarch < 10 then monthFromMarch + 3 else monthFromMarch - 9
  let year := yearOfCycle + 400 * cycle + (if month ≤ 2 then 1 else 0)
  ⟨year, month, dayOfYear - (153 * monthFromMarch + 2) / 5 + 1⟩

/-! ### Text -/

/-- A year: four digits, with a sign where those do not do. -/
def yearText (year : Int) : String :=
  if 0 ≤ year ∧ year ≤ 9999 then Decimal.padded 4 year.toNat
  else (if year < 0 then "-" else "+") ++ Decimal.padded 4 year.natAbs

/-- A day in order of weight, with `separator` between the parts. -/
def text (d : Date) (separator : String) : String :=
  yearText d.year ++ separator ++ Decimal.padded 2 d.month ++ separator ++ Decimal.padded 2 d.day

/-- Reads a day of four, two and two digits with dashes between them. -/
def read? (s : List Char) : Option (Date × List Char) := do
  let (year, rest) ← Decimal.number? 4 4 s
  let rest ← Text.afterLead? ['-'] rest
  let (month, rest) ← Decimal.number? 2 2 rest
  let rest ← Text.afterLead? ['-'] rest
  let (day, rest) ← Decimal.number? 2 2 rest
  let date ← make? year month day
  return (date, rest)

end Date

namespace Clock

/-- The time of day, if a day has it. -/
def make? (hour minute second nanosecond : Nat) : Option Clock :=
  if hour < 24 ∧ minute < 60 ∧ second ≤ 60 then some ⟨hour, minute, second, nanosecond⟩ else none

/-- The time so many seconds after midnight. -/
def ofSeconds (seconds nanosecond : Nat) : Clock :=
  ⟨seconds / 3600, seconds / 60 % 60, seconds % 60, nanosecond⟩

/-- Hour, minute and second of two digits each, with `separator` between them. -/
def text (c : Clock) (separator : String) : String :=
  Decimal.padded 2 c.hour ++ separator ++ Decimal.padded 2 c.minute ++ separator ++
    Decimal.padded 2 c.second

/-- The fraction of the second behind its point, in thousandths, millionths or billionths,
whichever is the first to be exact; nothing if it is zero. -/
def fractionText (c : Clock) : String :=
  let n := c.nanosecond
  if n = 0 then ""
  else if n % 1000000 = 0 then "." ++ Decimal.padded 3 (n / 1000000)
  else if n % 1000 = 0 then "." ++ Decimal.padded 6 (n / 1000)
  else "." ++ Decimal.padded 9 n

/-- Billionths of a second from the digits of a fraction; further digits are dropped. -/
def nanosecondOfDigits (digits : List Char) : Nat :=
  let kept := digits.take 9
  Decimal.natOfDigits kept * Nat.pow 10 (9 - kept.length)

/-- Reads a fraction of a second, if a point opens one. -/
def readFraction? : List Char → Option (Nat × List Char)
  | '.' :: rest =>
    let digits := rest.takeWhile Char.isDigit
    if digits.isEmpty then none else some (nanosecondOfDigits digits, rest.drop digits.length)
  | s => some (0, s)

/-- Reads a time of day of two digits each with colons between them, and a fraction. -/
def read? (s : List Char) : Option (Clock × List Char) := do
  let (hour, rest) ← Decimal.number? 2 2 s
  let rest ← Text.afterLead? [':'] rest
  let (minute, rest) ← Decimal.number? 2 2 rest
  let rest ← Text.afterLead? [':'] rest
  let (second, rest) ← Decimal.number? 2 2 rest
  let (nanosecond, rest) ← readFraction? rest
  let clock ← make? hour minute second nanosecond
  return (clock, rest)

end Clock

end Relational
