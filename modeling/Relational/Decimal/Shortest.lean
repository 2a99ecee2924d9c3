import Relational.Decimal.Binary64
/-
The shortest decimal that reads back as the same number.

All reals in an interval around a double round to it.  On the grid of decimals with one
significant digit, then two, then three, the two neighbours of the number are tried until one
lies in that interval; of two that do, the nearer is taken.  Where they are equally near, the
choice belongs to the format that prints the digits, so it is a parameter.
-/
namespace Relational.Decimal

/-- The positive decimal `digits * 10 ^ power`. -/
structure Scientific where
  digits : Nat
  power : Int
  deriving DecidableEq, Repr, Inhabited

/-- Which of two equally near decimals is printed. -/
inductive Tie where
  /-- The larger one. -/
  | up
  /-- The one whose last digit is even. -/
  | toEven
  deriving DecidableEq, Repr

/-- Number of decimal digits of `n`. -/
def digitCount (n : Nat) : Nat :=
  (Nat.toDigits 10 n).length

/-- The largest `k` with `10 ^ k ≤ num / den`, of a positive quotient. -/
def floorLog10 (num den : Nat) : Int :=
  if den ≤ num then (digitCount (num / den) : Int) - 1
  else -(digitCount ((den - 1) / num) : Int)

/-- Four times the significand, and the ends of the interval that rounds to the number, all in
units of `2 ^ (exponent - 2)`.  Just above a power of two the gap below is half as wide. -/
structure Neighbourhood where
  value : Nat
  low : Nat
  high : Nat
  /-- The ends themselves round to the number. -/
  closed : Bool

/-- The reals that round to a positive finite number. -/
def neighbourhood (x : Binary64) : Neighbourhood :=
  let m := x.significand
  { value := 4 * m
    low := 4 * m - (if m = Nat.pow 2 52 ∧ -1074 < x.exponent then 1 else 2)
    high := 4 * m + 2
    closed := m % 2 == 0 }

/-- `n` in units of `2 ^ q`, over `10 ^ p`, as numerator and denominator. -/
def onGrid (n : Nat) (q p : Int) : Nat × Nat :=
  (n * Nat.pow 2 q.toNat * Nat.pow 10 (-p).toNat, Nat.pow 2 (-q).toNat * Nat.pow 10 p.toNat)

/-- The neighbour of the number among the multiples of `10 ^ p` that lies in its interval. -/
def onGrid? (tie : Tie) (x : Binary64) (p : Int) : Option Nat :=
  let q := x.exponent - 2
  let area := neighbourhood x
  let (value, den) := onGrid area.value q p
  let (low, _) := onGrid area.low q p
  let (high, _) := onGrid area.high q p
  let inside (d : Nat) : Bool :=
    if area.closed then low ≤ d * den && d * den ≤ high else low < d * den && d * den < high
  let below := value / den
  let above := below + 1
  match inside below && below != 0, inside above with
  | false, false => none
  | true, false => some below
  | false, true => some above
  | true, true =>
    let rest := 2 * (value % den)
    if rest < den then some below
    else if den < rest then some above
    else match tie with
      | .up => some above
      | .toEven => some (if below % 2 = 0 then below else above)

/-- The decimal without the zeros at the end of its digits; `fuel` bounds their number. -/
def dropZeros : Nat → Scientific → Scientific
  | 0, d => d
  | fuel + 1, d =>
    if d.digits ≠ 0 ∧ d.digits % 10 = 0 then dropZeros fuel ⟨d.digits / 10, d.power + 1⟩ else d

/-- Tries the grids from `count` significant digits on, `fuel` of them. -/
def shortestFrom (tie : Tie) (x : Binary64) (top : Int) : Nat → Nat → Scientific
  | 0, count => ⟨0, top + 1 - count⟩
  | fuel + 1, count =>
    match onGrid? tie x (top + 1 - count) with
    | some d => dropZeros (count + 1) ⟨d, top + 1 - count⟩
    | none => shortestFrom tie x top fuel (count + 1)

/-- The shortest decimal that reads back as the magnitude of a finite number other than zero;
seventeen digits always suffice. -/
def shortest (tie : Tie) (x : Binary64) : Scientific :=
  shortestFrom tie x (floorLog10 x.magnitude.1 x.magnitude.2) 17 1

end Relational.Decimal
