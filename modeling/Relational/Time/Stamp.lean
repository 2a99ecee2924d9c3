import Relational.Time.Offset
/-
Timestamps: a day and a time of day, as a clock at some offset from UTC shows them.

They are written as RFC 3339 has it, and read that way or in the plain notation that engines use
for times without an offset.
-/
namespace Relational

/-- Seconds since the first moment of 1970 in UTC, and billionths of a second. -/
structure Instant where
  seconds : Int
  nanosecond : Nat := 0
  deriving DecidableEq, Repr

/-- A timestamp. -/
structure Stamp where
  date : Date
  clock : Clock
  offset : Offset
  deriving DecidableEq, Repr

namespace Stamp

/-- What the clock shows at an instant. -/
def ofInstant (i : Instant) (offset : Offset) : Stamp :=
  let shown := i.seconds + offset.seconds
  ⟨Date.ofDays (shown / 86400), Clock.ofSeconds (shown % 86400).toNat i.nanosecond, offset⟩

/-! ### Writing -/

/-- A timestamp; `zulu` writes the letter for no offset. -/
def write (zulu : Bool) (s : Stamp) : String :=
  s.date.text "-" ++ "T" ++ s.clock.text ":" ++ s.clock.fractionText ++
    (if zulu && s.offset.seconds == 0 then "Z" else s.offset.text)

/-- A timestamp with its offset in digits. -/
def text (s : Stamp) : String :=
  s.write false

/-! ### Reading -/

/-- Reads a timestamp; a letter or a space stands between day and time. -/
def read? (s : List Char) : Option (Stamp × List Char) := do
  let (date, rest) ← Date.read? s
  match rest with
  | c :: rest =>
    if c = 'T' ∨ c = 't' ∨ c = ' ' then
      let (clock, rest) ← Clock.read? rest
      let (offset, rest) ← Offset.read? rest
      return (⟨date, clock, offset⟩, rest)
    else none
  | [] => none

/-- The last year of plain timestamps; the first is one before its opposite. -/
def lastPlainYear : Nat := 262142

/-- Reads a year: up to four digits, or a sign and any number of digits. -/
def readYear? (s : List Char) : Option (Int × List Char) :=
  match s with
  | '-' :: rest => (Decimal.number? 1 rest.length rest).map fun (n, rest) => (-(n : Int), rest)
  | '+' :: rest => (Decimal.number? 1 rest.length rest).map fun (n, rest) => ((n : Int), rest)
  | s => (Decimal.number? 1 4 s).map fun (n, rest) => ((n : Int), rest)

/-- Reads one or two digits behind blanks. -/
def readPart? (s : List Char) : Option (Nat × List Char) :=
  Decimal.number? 1 2 (Text.trimStart s)

/-- Reads a whole text as a plain timestamp in UTC.  Blanks may stand in front of each number, and
only these need to separate day and time. -/
def ofPlain? (text : String) : Option Stamp := do
  let (year, rest) ← readYear? (Text.trimStart text.toList)
  let rest ← Text.afterLead? ['-'] rest
  let (month, rest) ← readPart? rest
  let rest ← Text.afterLead? ['-'] rest
  let (day, rest) ← readPart? rest
  let (hour, rest) ← readPart? rest
  let rest ← Text.afterLead? [':'] rest
  let (minute, rest) ← readPart? rest
  let rest ← Text.afterLead? [':'] rest
  let (second, rest) ← readPart? rest
  let date ← Date.make? year month day
  let clock ← Clock.make? hour minute second 0
  if rest.isEmpty && -(lastPlainYear + 1 : Int) ≤ year && year ≤ lastPlainYear then
    return ⟨date, clock, .utc⟩
  else none

/-- Reads a whole text as a timestamp in either notation. -/
def ofText? (text : String) : Option Stamp :=
  match read? text.toList with
  | some (stamp, []) => some stamp
  | _ => ofPlain? text

end Stamp

end Relational
