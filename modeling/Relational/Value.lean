import Relational.Decimal.Layout
import Relational.Decimal.Reading
import Relational.Text.Blank
/-
The values a statement is run with and a row comes back with.

A value is bound next to a statement, never written into it; the one exception is a column
default, which has no place to be bound and is written with `Value.inline`.  `Value.normalized`
turns text that is plainly a number into that number, for databases that hand numbers back as
text.
-/
namespace Relational

/-- A value of one of the types every engine has. -/
inductive Value where
  | null
  | bool (b : Bool)
  | int (n : Int64)
  | float (x : Binary64)
  | text (s : String)
  | blob (bytes : List UInt8)
  deriving DecidableEq, Repr, Inhabited

namespace Value

/-- Whether the value is `NULL`. -/
def isNull : Value → Bool
  | null => true
  | _ => false

/-- The integer, if it is one. -/
def int? : Value → Option Int64
  | int n => some n
  | _ => none

/-- The text, if it is text. -/
def text? : Value → Option String
  | text s => some s
  | _ => none

/-- The word for the value's type, for messages that must not show the value. -/
def typeName : Value → String
  | null => "null"
  | bool _ => "bool"
  | int _ => "int"
  | float _ => "float"
  | text _ => "text"
  | blob _ => "blob"

/-- The number a text plainly denotes.  A fraction becomes the nearest double; a whole number has
to fit sixty-four bits.  Codes with a leading zero, exponents and padded text stay text. -/
def numeric? (s : String) : Option Value :=
  match Decimal.Plain.ofChars? s.toList with
  | none => none
  | some ⟨negative, whole, some fraction⟩ => some (float (Decimal.nearest negative whole fraction))
  | some ⟨negative, whole, none⟩ =>
    let n : Int := Decimal.natOfDigits whole
    (Decimal.int64? (if negative then -n else n)).map int

/-- The value, or the number it plainly denotes if it is text. -/
def normalized : Value → Value
  | text s => (numeric? s).getD (text s)
  | v => v

/-- Two hexadecimal digits of a byte, in upper case. -/
def hexByte (b : UInt8) : List Char :=
  let digit (n : Nat) : Char := (Nat.digitChar n).toUpper
  [digit (b.toNat / 16), digit (b.toNat % 16)]

/-- The value as SQL text. -/
def inline : Value → String
  | null => "NULL"
  | bool true => "TRUE"
  | bool false => "FALSE"
  | int n => String.ofList (Decimal.ofInt n.toInt)
  | float x => Decimal.inlineText x
  | text s => Text.enclosed '\'' '\'' s
  | blob bytes => String.ofList ('X' :: '\'' :: (bytes.flatMap hexByte ++ ['\'']))

end Value

end Relational
