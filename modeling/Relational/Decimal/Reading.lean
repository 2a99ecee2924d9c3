import Relational.Decimal.Binary64
/-
Reading decimal text.

Two readers live here.  `number?` reads plain decimals, whole or with a point, and rounds
correctly.  `stepwise` is the cheaper reading that cursor payloads get: it gathers at most
sixty-four bits of digits and then multiplies or divides once by a power of ten, which may land
one unit beside the nearest number.
-/
namespace Relational.Decimal

/-- The number that decimal digits denote. -/
def natOfDigits (digits : List Char) : Nat :=
  digits.foldl (fun n c => 10 * n + (c.toNat - '0'.toNat)) 0

/-- One or more decimal digits. -/
def isDigits (s : List Char) : Bool :=
  !s.isEmpty && s.all Char.isDigit

/-- A 64-bit signed integer, if the number fits. -/
def int64? (n : Int) : Option Int64 :=
  if Int64.minValue.toInt ≤ n ∧ n ≤ Int64.maxValue.toInt then some (Int64.ofInt n) else none

/-- Reads digits behind an optional sign. -/
def signed? (s : List Char) : Option Int :=
  match s with
  | '-' :: digits => if isDigits digits then some (-(natOfDigits digits : Int)) else none
  | '+' :: digits => if isDigits digits then some (natOfDigits digits) else none
  | digits => if isDigits digits then some (natOfDigits digits) else none

/-- Reads digits behind an optional sign as a signed integer of sixty-four bits. -/
def signed64? (s : List Char) : Option Int64 :=
  (signed? s).bind int64?

/-- Reads digits behind an optional sign as a signed integer of thirty-two bits. -/
def signed32? (s : List Char) : Option Int32 :=
  (signed? s).bind fun n =>
    if Int32.minValue.toInt ≤ n ∧ n ≤ Int32.maxValue.toInt then some (Int32.ofInt n) else none

/-- Reads digits behind an optional plus sign as an unsigned integer below `bound`. -/
def unsigned? (bound : Nat) (s : List Char) : Option Nat :=
  let digits := match s with
    | '+' :: rest => rest
    | _ => s
  if isDigits digits && natOfDigits digits < bound then some (natOfDigits digits) else none

/-- A plain decimal: a sign, whole digits and, behind a point, more digits. -/
structure Plain where
  negative : Bool
  whole : List Char
  fraction : Option (List Char)

/-- The parts of a text that is plain decimal notation: no superfluous leading zero, no lone
point, no exponent, nothing around it. -/
def Plain.ofChars? (s : List Char) : Option Plain :=
  let (negative, body) := match s with
    | '-' :: rest => (true, rest)
    | _ => (false, s)
  let whole := body.takeWhile Char.isDigit
  if whole.isEmpty || (1 < whole.length && whole.head? == some '0') then none
  else match body.dropWhile Char.isDigit with
    | [] => some ⟨negative, whole, none⟩
    | '.' :: digits => if isDigits digits then some ⟨negative, whole, some digits⟩ else none
    | _ => none

/-- The nearest double to a decimal with the given digits before and after the point. -/
def nearest (negative : Bool) (whole fraction : List Char) : Binary64 :=
  Binary64.ofScientific negative (natOfDigits (whole ++ fraction)) (-(fraction.length : Int))

/-! ### The stepwise reading -/

/-- The largest power of ten that is scaled by in one step. -/
def largestStep : Nat := 308

/-- The double nearest to a power of ten. -/
def powerOfTen (k : Nat) : Binary64 :=
  Binary64.ofNat (Nat.pow 10 k)

/-- `f` times `10 ^ exponent`, rounding after each step; fails on overflow.  Small numbers take a
division by `10 ^ 308` per unit of `fuel` first. -/
def scaled? : Nat → Binary64 → Int → Option Binary64
  | 0, _, _ => none
  | fuel + 1, f, exponent =>
    if exponent.natAbs ≤ largestStep then
      if 0 ≤ exponent then
        let product := f.mul (powerOfTen exponent.natAbs)
        if product.isFinite then some product else none
      else some (f.div (powerOfTen exponent.natAbs))
    else if f.isZero then some f
    else if 0 ≤ exponent then none
    else scaled? fuel (f.div (powerOfTen largestStep)) (exponent + largestStep)

/-- Digits gathered so far, while they fit sixty-four bits, and the power of ten they stand for.
`significand * 10 ^ exponent`. -/
structure Gathered where
  significand : Nat
  exponent : Int

/-- The digits of `s` appended to `n` as long as the result stays below `2 ^ 64`, and the digits
that were left over. -/
def gather (n : Nat) : List Char → Nat × List Char
  | [] => (n, [])
  | c :: rest =>
    let next := 10 * n + (c.toNat - '0'.toNat)
    if next < UInt64.size then gather next rest else (n, c :: rest)

/-- The digits on either side of the point.  Whole digits that no longer fit count as tens;
digits behind the point are tried again after that, and those that do not fit are dropped. -/
def gathered (whole fraction : List Char) : Gathered :=
  let (n, left) := gather 0 whole
  let (m, dropped) := gather n fraction
  ⟨m, (left.length : Int) - ((fraction.length : Int) - dropped.length)⟩

/-- The largest exponent that is added up; a larger one is taken for infinite. -/
def exponentLimit : Nat := Nat.pow 2 31 - 1

/-- Reads `whole.fraction e exponent`; `none` where the number is out of range. -/
def stepwise? (negative : Bool) (whole fraction : List Char) (exponent : Option (Bool × List Char)) :
    Option Binary64 :=
  let g := gathered whole fraction
  let sign (x : Binary64) : Binary64 := if negative then x.neg else x
  match exponent with
  | some (negativeExponent, digits) =>
    let e := natOfDigits digits
    if exponentLimit < e then
      if g.significand ≠ 0 ∧ !negativeExponent then none else some (sign (Binary64.ofNat 0))
    else
      let power := g.exponent + (if negativeExponent then -(e : Int) else e)
      (scaled? (power.natAbs / largestStep + 2) (Binary64.ofNat g.significand) power).map sign
  | none =>
    (scaled? (g.exponent.natAbs / largestStep + 2) (Binary64.ofNat g.significand) g.exponent).map sign

end Relational.Decimal
