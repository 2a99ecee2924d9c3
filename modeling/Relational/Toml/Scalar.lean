import Relational.Json.Reader
import Relational.Time.Stamp
import Relational.Toml.Basic
/-
The texts, numbers and points in time of TOML.

Line ends are single line feeds here; a document is brought into that form before it is read.
-/
namespace Relational.Toml

/-! ### Texts -/

/-- A character that may stand in a text or a comment as it is. -/
def isPlain (c : Char) : Bool :=
  c == '\t' || (32 ≤ c.toNat && c.toNat != 127)

/-- Space and tab. -/
def isGap (c : Char) : Bool :=
  c == ' ' || c == '\t'

/-- The text without leading spaces and tabs. -/
def skipGap (s : List Char) : List Char :=
  s.dropWhile isGap

/-- Cuts a text on one line behind its closing quote.  Where there are escapes, the character
behind a backslash does not close it. -/
def cutText? (quote : Char) (escapes : Bool) : List Char → Option (List Char × List Char)
  | [] => none
  | [c] => if c = quote then some ([], []) else none
  | c :: d :: rest =>
    if c = quote then some ([], d :: rest)
    else if escapes && c == '\\' then
      (cutText? quote escapes rest).map fun (body, rest) => (c :: d :: body, rest)
    else (cutText? quote escapes (d :: rest)).map fun (body, rest) => (c :: body, rest)

/-- Cuts a text over several lines behind its three closing quotes.  Up to two more quotes in
front of these belong to the text. -/
def cutLines? (quote : Char) (escapes : Bool) : List Char → Option (List Char × List Char)
  | c :: d :: e :: rest =>
    if c = quote ∧ d = quote ∧ e = quote then
      let extra := (rest.takeWhile (· == quote)).take 2
      some (extra, rest.drop extra.length)
    else if escapes && c == '\\' then
      (cutLines? quote escapes (e :: rest)).map fun (body, rest) => (c :: d :: body, rest)
    else (cutLines? quote escapes (d :: e :: rest)).map fun (body, rest) => (c :: body, rest)
  | _ => none

/-- The character with the number that hexadecimal digits denote. -/
def charOfHex? (digits : List Char) : Option Char := do
  let digits ← digits.mapM Json.hexDigit?
  let n := digits.foldl (fun n d => n * 16 + d) 0
  if n.isValidChar then some (Char.ofNat n) else none

/-- The character a letter behind a backslash stands for. -/
def simpleEscape? (c : Char) : Option Char :=
  if c = '/' then none else Json.simpleEscape? c

/-- Whether only gaps stand in front of the next line end. -/
def endsLine (s : List Char) : Bool :=
  (skipGap s).head? == some '\n'

/-- Replaces the escapes of a text.  Over several lines, a backslash at the end of a line takes
the line end and all gaps and line ends behind it away; `skipping` says whether one just did. -/
def unescape? (lines skipping : Bool) : List Char → Option (List Char)
  | [] => some []
  | '\\' :: 'u' :: a :: b :: c :: d :: rest => do
    let x ← charOfHex? [a, b, c, d]
    return x :: (← unescape? lines false rest)
  | '\\' :: 'U' :: a :: b :: c :: d :: e :: f :: g :: h :: rest => do
    let x ← charOfHex? [a, b, c, d, e, f, g, h]
    return x :: (← unescape? lines false rest)
  | '\\' :: c :: rest =>
    match simpleEscape? c with
    | some x => (unescape? lines false rest).map (x :: ·)
    | none => if lines && endsLine (c :: rest) then unescape? lines true (c :: rest) else none
  | c :: rest =>
    if skipping && (isGap c || c == '\n') then unescape? lines true rest
    else if (isPlain c && c != '\\') || (lines && c == '\n') then
      (unescape? lines false rest).map (c :: ·)
    else none

/-- A text without escapes, if all its characters may stand in it. -/
def literal? (lines : Bool) (s : List Char) : Option (List Char) :=
  if s.all fun c => isPlain c || (lines && c == '\n') then some s else none

/-- Reads a text on one line behind its opening quote. -/
def readText? (quote : Char) (s : List Char) : Option (String × List Char) := do
  let escapes := quote == '"'
  let (body, rest) ← cutText? quote escapes s
  let text ← if escapes then unescape? false false body else literal? false body
  return (String.ofList text, rest)

/-- Reads a text over several lines behind its opening quotes.  A line end right there is no part
of it. -/
def readLines? (quote : Char) (s : List Char) : Option (String × List Char) := do
  let escapes := quote == '"'
  let start := match s with
    | '\n' :: rest => rest
    | _ => s
  let (body, rest) ← cutLines? quote escapes start
  let text ← if escapes then unescape? true false body else literal? true body
  return (String.ofList text, rest)

/-! ### Numbers -/

/-- The digits of a number whose groups of digits may have single underscores between them. -/
def ungrouped? (isDigit : Char → Bool) (s : List Char) : Option (List Char) :=
  let groups := s.splitOn '_'
  if groups.all fun group => !group.isEmpty && group.all isDigit then some groups.flatten else none

/-- A number without its sign, and whether that was a minus. -/
def unsigned (s : List Char) : Bool × List Char :=
  match s with
  | '-' :: rest => (true, rest)
  | '+' :: rest => (false, rest)
  | s => (false, s)

/-- The digits of a whole decimal number, which has no superfluous leading zero. -/
def wholeDigits? (s : List Char) : Option (List Char) :=
  if s.head? = some '0' ∧ s ≠ ['0'] then none else ungrouped? Char.isDigit s

/-- A whole number in some base from its digits. -/
def ofBase? (base : Nat) (s : List Char) : Option Value := do
  let isDigit (c : Char) : Bool := (Json.hexDigit? c).any (· < base)
  let digits ← ungrouped? isDigit s
  let digits ← digits.mapM Json.hexDigit?
  let n ← Decimal.int64? (digits.foldl (fun n d => n * base + d) 0 : Nat)
  return .integer n

/-- A whole number. -/
def integer? (s : List Char) : Option Value :=
  match s with
  | '0' :: 'x' :: digits => ofBase? 16 digits
  | '0' :: 'o' :: digits => ofBase? 8 digits
  | '0' :: 'b' :: digits => ofBase? 2 digits
  | s => do
    let (negative, body) := unsigned s
    let digits ← wholeDigits? body
    let n : Int := Decimal.natOfDigits digits
    let n ← Decimal.int64? (if negative then -n else n)
    return .integer n

/-- The power of ten that an exponent denotes. -/
def exponent? (s : List Char) : Option Int := do
  let (negative, body) := unsigned s
  let digits ← ungrouped? Char.isDigit body
  let n : Int := Decimal.natOfDigits digits
  return if negative then -n else n

/-- The digits of a number that has a fraction, an exponent or both, and the power of ten to
multiply them by. -/
def scientific? (s : List Char) : Option (List Char × Int) := do
  let isMark (c : Char) : Bool := c == 'e' || c == 'E'
  let (mantissa, exponent) := match Text.cutAt isMark s with
    | some (mantissa, exponent) => (mantissa, some exponent)
    | none => (s, none)
  let (whole, fraction) := match Text.cutAt (· == '.') mantissa with
    | some (whole, fraction) => (whole, some fraction)
    | none => (mantissa, none)
  if exponent.isNone && fraction.isNone then none
  else
    let whole ← wholeDigits? whole
    let fraction ← fraction.elim (some []) (ungrouped? Char.isDigit)
    let power ← exponent.elim (some 0) exponent?
    return (whole ++ fraction, power - fraction.length)

/-- The number of digits in front of the point of the largest double. -/
def largestPlaces : Nat := 309

/-- Whether digits times a power of ten are beyond the largest double. -/
def isTooLarge (digits : List Char) (power : Int) : Bool :=
  let digits := digits.dropWhile (· == '0')
  let places : Int := digits.length + power
  !digits.isEmpty && (largestPlaces < places || (places == largestPlaces &&
    !(Binary64.ofScientific false (Decimal.natOfDigits digits) power).isFinite))

/-- A number that is not whole, or none at all.  A positive number may not be too large, a negative
one may. -/
def fraction? (s : List Char) : Option Value := do
  let (negative, body) := unsigned s
  if body == "inf".toList || body == "nan".toList then return .fraction (String.ofList s)
  else
    let (digits, power) ← scientific? body
    if !negative && isTooLarge digits power then none else return .fraction (String.ofList s)

/-! ### Points in time -/

/-- The text of an offset: a capital letter for none, or a sign with hours and minutes. -/
def offsetText? (s : List Char) : Option String :=
  if s == ['Z'] || s == ['z'] then some "Z"
  else match Offset.read? s with
    | some (offset, []) => some offset.text
    | _ => none

/-- The text of a time of day without needless zeros behind the point, and of the offset behind
it if there may be one. -/
def timeText? (offset : Bool) (s : List Char) : Option String := do
  let (clock, rest) ← Clock.read? s
  let zeros := clock.fractionText.toList.reverse.takeWhile (· == '0')
  let fraction := clock.fractionText.dropEnd zeros.length
  let zone ← if rest.isEmpty then some "" else if offset then offsetText? rest else none
  return clock.text ":" ++ fraction ++ zone

/-- A day, a time of day, or both with a letter or a space between them. -/
def moment? (s : List Char) : Option Value :=
  match Date.read? s with
  | some (date, []) => some (.moment (date.text "-"))
  | some (date, c :: rest) =>
    if c == 'T' || c == 't' || c == ' ' then
      (timeText? true rest).map fun time => .moment (date.text "-" ++ "T" ++ time)
    else none
  | none => (timeText? false s).map .moment

/-! ### Reading -/

/-- A character of a number, a point in time or a truth value. -/
def isScalarChar (c : Char) : Bool :=
  c.isAlphanum || c == '+' || c == '-' || c == '_' || c == '.' || c == ':'

/-- The value of a run of such characters. -/
def scalar? (s : List Char) : Option Value :=
  if s == "true".toList then some (.bool true)
  else if s == "false".toList then some (.bool false)
  else (integer? s).or ((fraction? s).or (moment? s))

/-- Reads a number, a point in time or a truth value.  A day and a time of day may have a space
between them. -/
def readScalar? (s : List Char) : Option (Value × List Char) :=
  let run := s.takeWhile isScalarChar
  match s.dropWhile isScalarChar with
  | ' ' :: rest =>
    let time := rest.takeWhile isScalarChar
    if (Date.read? run).any (·.2.isEmpty) && time.head?.any Char.isDigit then
      (moment? (run ++ ' ' :: time)).map fun v => (v, rest.dropWhile isScalarChar)
    else (scalar? run).map fun v => (v, ' ' :: rest)
  | rest => (scalar? run).map fun v => (v, rest)

end Relational.Toml
