import Relational.Time.Calendar
/-
Offsets from UTC.

An offset is less than a day either way.  A time zone setting is read by a rule of its own: the
hours and minutes may have a sign each, and only their upper limits are looked at.
-/
namespace Relational

/-- An offset in seconds, positive to the east. -/
structure Offset where
  seconds : Int
  natAbs_lt : seconds.natAbs < 86400 := by decide
  deriving DecidableEq, Repr

namespace Offset

/-- No offset. -/
def utc : Offset := { seconds := 0 }

instance : Inhabited Offset := ⟨utc⟩

/-- The offset, if it is less than a day. -/
def ofSeconds? (seconds : Int) : Option Offset :=
  if h : seconds.natAbs < 86400 then some ⟨seconds, h⟩ else none

theorem ofSeconds?_seconds (o : Offset) : ofSeconds? o.seconds = some o := by
  simp [ofSeconds?, o.natAbs_lt]

/-- Sign, hours and minutes, to the nearest minute. -/
def text (o : Offset) : String :=
  let minutes := (o.seconds.natAbs + 30) / 60
  (if o.seconds < 0 then "-" else "+") ++ Decimal.padded 2 (minutes / 60) ++ ":" ++
    Decimal.padded 2 (minutes % 60)

/-! ### Offsets of timestamps -/

/-- Reads the digits of an offset behind its sign. -/
def readDigits? (negative : Bool) (s : List Char) : Option (Offset × List Char) := do
  let (hours, rest) ← Decimal.number? 2 2 s
  let rest ← Text.afterLead? [':'] rest
  let (minutes, rest) ← Decimal.number? 2 2 rest
  if minutes < 60 then
    let seconds : Int := hours * 3600 + minutes * 60
    let offset ← ofSeconds? (if negative then -seconds else seconds)
    return (offset, rest)
  else none

/-- Reads an offset: the letter for none, or a sign with hours and minutes.  The sign may be the
typographic minus. -/
def read? : List Char → Option (Offset × List Char)
  | [] => none
  | c :: rest =>
    if c = 'Z' ∨ c = 'z' then some (utc, rest)
    else if c = '+' then readDigits? false rest
    else if c = '-' ∨ c = '\u2212' then readDigits? true rest
    else none

/-! ### Time zone settings -/

/-- The seconds of signed hours and minutes, in thirty-two bits. -/
def secondsOf (negative : Bool) (hours minutes : Int32) : Int32 :=
  let seconds := hours * 3600 + minutes * 60
  if negative then -seconds else seconds

/-- Reads a time zone setting behind its sign: hours and minutes around the first colon. -/
def settingOf? (negative : Bool) (s : List Char) : Option Offset := do
  let (hours, minutes) ← Text.cutAt (· == ':') s
  let hours ← Decimal.signed32? hours
  let minutes ← Decimal.signed32? minutes
  if 23 < hours ∨ 59 < minutes then none
  else ofSeconds? (secondsOf negative hours minutes).toInt

/-- Reads a time zone setting: `UTC`, `Z`, or a sign with hours and minutes, with blanks around
it. -/
def ofSetting? (setting : String) : Option Offset :=
  let s := Text.trim setting.toList
  if Text.asciiLower s == "utc".toList || s == ['Z'] then some utc
  else match s with
    | '+' :: rest => settingOf? false rest
    | '-' :: rest => settingOf? true rest
    | _ => none

end Offset

end Relational
