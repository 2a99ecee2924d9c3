import Relational.Decimal.Layout
import Relational.Decimal.Reading
/-
JSON as a tree, and how texts are written in it.

The tree keeps what a reader may still want to judge: a number stays the digits it was written
with, keys may repeat, and a string that does not decode has no text.
-/
namespace Relational

/-- The parts of a number. -/
structure JsonNumber where
  negative : Bool
  whole : List Char
  fraction : List Char
  /-- Whether the exponent is negative, and its digits. -/
  exponent : Option (Bool × List Char)
  deriving DecidableEq, Repr

/-- A JSON value. -/
inductive Json where
  | null
  | bool (b : Bool)
  | number (n : JsonNumber)
  | string (s : Option String)
  | array (items : List Json)
  | object (members : List (Option String × Json))
  deriving Repr

namespace JsonNumber

/-- The integer a number without point and exponent denotes.  A negative zero is no integer. -/
def int64? (n : JsonNumber) : Option Int64 :=
  if n.fraction.isEmpty && n.exponent.isNone then
    let m : Int := Decimal.natOfDigits n.whole
    if n.negative && m == 0 then none
    else Decimal.int64? (if n.negative then -m else m)
  else none

/-- The double the stepwise reading gives, if the number is in range. -/
def binary64? (n : JsonNumber) : Option Binary64 :=
  Decimal.stepwise? n.negative n.whole n.fraction n.exponent

end JsonNumber

namespace Json

/-! ### Writing -/

/-- Four lower-case hexadecimal digits. -/
def hex4 (n : Nat) : List Char :=
  [Nat.digitChar (n / 4096 % 16), Nat.digitChar (n / 256 % 16), Nat.digitChar (n / 16 % 16),
    Nat.digitChar (n % 16)]

/-- A character inside a string: quote, backslash and control characters are escaped. -/
def escaped (c : Char) : List Char :=
  if c = '"' then ['\\', '"']
  else if c = '\\' then ['\\', '\\']
  else if c = '\n' then ['\\', 'n']
  else if c = '\r' then ['\\', 'r']
  else if c = '\t' then ['\\', 't']
  else if c = '\x08' then ['\\', 'b']
  else if c = '\x0c' then ['\\', 'f']
  else if c.toNat < 32 then '\\' :: 'u' :: hex4 c.toNat
  else [c]

/-- A text as a JSON string. -/
def quoted (s : String) : List Char :=
  '"' :: (s.toList.flatMap escaped ++ ['"'])

end Json

end Relational
