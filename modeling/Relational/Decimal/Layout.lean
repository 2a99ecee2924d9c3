import Relational.Decimal.Shortest
/-
How a number is written out.

Two formats are in use.  Inside SQL text a number is always positional, a whole number has no
point, and the three special values have names.  Inside a cursor it is JSON: a point or an
exponent always shows that it is a floating-point number, and the exponent takes over where
positional notation would pad with many zeros.
-/
namespace Relational.Decimal

/-- `n` zeros. -/
def zeros (n : Nat) : List Char :=
  List.replicate n '0'

/-- The digits of a natural number. -/
def digitsOf (n : Nat) : List Char :=
  Nat.toDigits 10 n

/-- The digits of `d` with a point where it belongs and no exponent; whole numbers get no
point. -/
def positional (d : Scientific) : List Char :=
  let digits := digitsOf d.digits
  let point : Int := digits.length + d.power
  if 0 ≤ d.power then digits ++ zeros d.power.toNat
  else if 0 < point then digits.take point.toNat ++ '.' :: digits.drop point.toNat
  else '0' :: '.' :: (zeros (-point).toNat ++ digits)

/-- The decimal text of an integer. -/
def ofInt (n : Int) : List Char :=
  if n < 0 then '-' :: digitsOf n.natAbs else digitsOf n.natAbs

/-- One digit, a point if more follow, the others, and the exponent of ten with its sign. -/
def exponential (d : Scientific) : List Char :=
  let digits := digitsOf d.digits
  let exponent : Int := digits.length + d.power - 1
  let fraction := match digits.drop 1 with
    | [] => []
    | rest => '.' :: rest
  let sign := if exponent < 0 then '-' else '+'
  digits.take 1 ++ fraction ++ 'e' :: sign :: digitsOf exponent.natAbs

/-- `body` behind a minus sign where one is due. -/
def signed (negative : Bool) (body : List Char) : List Char :=
  if negative then '-' :: body else body

/-- A number inside SQL text: the shortest decimal, positional whatever its size. -/
def inlineText (x : Binary64) : String :=
  if x.isNaN then "NaN"
  else String.ofList <| signed x.isNegative <|
    if !x.isFinite then ['i', 'n', 'f']
    else if x.isZero then ['0']
    else positional (shortest .up x)

/-- Positional from `1e-5` up to sixteen digits before the point, and then with a digit after it;
exponential outside. -/
def jsonMagnitude (d : Scientific) : List Char :=
  let point : Int := (digitsOf d.digits).length + d.power
  if 0 ≤ d.power ∧ point ≤ 16 then positional d ++ ['.', '0']
  else if -5 < point ∧ point ≤ 16 then positional d
  else exponential d

/-- A finite number as JSON. -/
def jsonText (x : Binary64) : List Char :=
  signed x.isNegative <|
    if x.isZero then ['0', '.', '0'] else jsonMagnitude (shortest .toEven x)

end Relational.Decimal
