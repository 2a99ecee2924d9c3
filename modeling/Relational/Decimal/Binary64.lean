/-
Double-precision numbers by their bits.

A column can hold a floating-point number, and the same sixty-four bits have to come back from a
cursor or a default.  The number is therefore kept as its bits and nothing here goes through
machine arithmetic: a finite number is `significand * 2 ^ exponent`, and every operation is exact
arithmetic on naturals followed by one rounding to the nearest number, ties to the even one.
-/
namespace Relational

/-- A double-precision number, as its sixty-four bits. -/
structure Binary64 where
  bits : UInt64
  deriving DecidableEq, Repr, Inhabited

namespace Binary64

/-! ### Fields -/

/-- Whether the sign bit is set; also of a negative zero. -/
def isNegative (x : Binary64) : Bool :=
  x.bits.toNat / Nat.pow 2 63 == 1

/-- The eleven bits of the biased exponent. -/
def exponentField (x : Binary64) : Nat :=
  x.bits.toNat / Nat.pow 2 52 % Nat.pow 2 11

/-- The fifty-two bits of the fraction. -/
def fractionField (x : Binary64) : Nat :=
  x.bits.toNat % Nat.pow 2 52

/-- Neither infinite nor a NaN. -/
def isFinite (x : Binary64) : Bool :=
  x.exponentField < 2047

/-- Not a number at all. -/
def isNaN (x : Binary64) : Bool :=
  x.exponentField == 2047 && x.fractionField != 0

/-- Either zero. -/
def isZero (x : Binary64) : Bool :=
  x.exponentField == 0 && x.fractionField == 0

/-- The whole-number factor of a finite number's magnitude. -/
def significand (x : Binary64) : Nat :=
  if x.exponentField = 0 then x.fractionField else Nat.pow 2 52 + x.fractionField

/-- The power of two that goes with `significand`. -/
def exponent (x : Binary64) : Int :=
  if x.exponentField = 0 then -1074 else (x.exponentField : Int) - 1075

/-- The magnitude of a finite number as numerator and denominator. -/
def magnitude (x : Binary64) : Nat × Nat :=
  (x.significand * Nat.pow 2 x.exponent.toNat, Nat.pow 2 (-x.exponent).toNat)

/-! ### Rounding a quotient -/

/-- The whole number nearest to `num / den`, the even one of two. -/
def roundHalfEven (num den : Nat) : Nat :=
  let quotient := num / den
  let rest := 2 * (num % den)
  if rest < den then quotient
  else if den < rest then quotient + 1
  else quotient + quotient % 2

/-- `num / den` divided by `2 ^ q`. -/
def scaleDown (num den : Nat) (q : Int) : Nat × Nat :=
  (num * Nat.pow 2 (-q).toNat, den * Nat.pow 2 q.toNat)

/-- The largest `k` with `2 ^ k ≤ num / den`, of a positive quotient. -/
def floorLog2 (num den : Nat) : Int :=
  let k := (num.log2 : Int) - den.log2
  let (n, d) := scaleDown num den k
  if n < d then k - 1 else k

/-- A significand of at most `precision` bits, and the power of two with it, nearest to the
quotient; no power below `least` is used. -/
def roundTo (precision : Nat) (least : Int) (num den : Nat) : Nat × Int :=
  let q := max (floorLog2 num den - (precision - 1 : Nat)) least
  let (n, d) := scaleDown num den q
  (roundHalfEven n d, q)

/-- The number `± m * 2 ^ q` for `m ≤ 2 ^ 53` and `q ≥ -1074`, infinite where it is too large. -/
def pack (negative : Bool) (m : Nat) (q : Int) : Binary64 :=
  let magnitudeBits := min ((q + 1074).toNat * Nat.pow 2 52 + m) (2047 * Nat.pow 2 52)
  ⟨UInt64.ofNat ((if negative then Nat.pow 2 63 else 0) + magnitudeBits)⟩

/-- The number nearest to `± num / den`. -/
def ofQuotient (negative : Bool) (num den : Nat) : Binary64 :=
  if num = 0 then pack negative 0 (-1074)
  else
    let (m, q) := roundTo 53 (-1074) num den
    pack negative m q

/-- The number nearest to a natural number. -/
def ofNat (n : Nat) : Binary64 :=
  ofQuotient false n 1

/-- The same number with the other sign. -/
def neg (x : Binary64) : Binary64 :=
  ⟨x.bits ^^^ 0x8000000000000000⟩

/-- The product of two finite non-negative numbers, rounded. -/
def mul (x y : Binary64) : Binary64 :=
  ofQuotient false (x.magnitude.1 * y.magnitude.1) (x.magnitude.2 * y.magnitude.2)

/-- The quotient of two finite non-negative numbers, rounded; the divisor is not zero. -/
def div (x y : Binary64) : Binary64 :=
  ofQuotient false (x.magnitude.1 * y.magnitude.2) (x.magnitude.2 * y.magnitude.1)

/-- The number nearest to `± digits * 10 ^ power`. -/
def ofScientific (negative : Bool) (digits : Nat) (power : Int) : Binary64 :=
  ofQuotient negative (digits * Nat.pow 10 power.toNat) (Nat.pow 10 (-power).toNat)

/-! ### Single precision -/

/-- The number rounded to single precision. -/
def toSingle (x : Binary64) : Binary64 :=
  if !x.isFinite || x.isZero then x
  else
    let (m, q) := roundTo 24 (-149) x.magnitude.1 x.magnitude.2
    if Nat.pow 2 128 ≤ m * Nat.pow 2 q.toNat then pack x.isNegative (Nat.pow 2 52) 972
    else ofQuotient x.isNegative (m * Nat.pow 2 q.toNat) (Nat.pow 2 (-q).toNat)

end Binary64

end Relational
