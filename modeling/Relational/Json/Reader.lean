import Relational.Json.Basic
import Relational.Text.Blank
/-
Reading JSON.

Every reader takes the characters that are left and returns what it read with the rest.  Values
nest, so the three readers that call each other are bounded by a number of steps; the length of the
text is always enough.
-/
namespace Relational.Json

/-- Space, tab and the two line characters. -/
def isSpace (c : Char) : Bool :=
  c == ' ' || c == '\t' || c == '\n' || c == '\r'

/-- The text without leading space. -/
def skipSpace (s : List Char) : List Char :=
  s.dropWhile isSpace

/-! ### Numbers -/

/-- The digits in front, and the rest. -/
def digitsAhead (s : List Char) : List Char × List Char :=
  (s.takeWhile Char.isDigit, s.dropWhile Char.isDigit)

/-- The digits behind a point, none if there is no point. -/
def readFraction? : List Char → Option (List Char × List Char)
  | '.' :: rest =>
    let (digits, rest) := digitsAhead rest
    if digits.isEmpty then none else some (digits, rest)
  | s => some ([], s)

/-- The digits of an exponent. -/
def readExponentDigits? (negative : Bool) (s : List Char) :
    Option (Option (Bool × List Char) × List Char) :=
  let (digits, rest) := digitsAhead s
  if digits.isEmpty then none else some (some (negative, digits), rest)

/-- An exponent, none if there is no mark. -/
def readExponent? : List Char → Option (Option (Bool × List Char) × List Char)
  | c :: rest =>
    if c = 'e' ∨ c = 'E' then
      match rest with
      | '-' :: rest => readExponentDigits? true rest
      | '+' :: rest => readExponentDigits? false rest
      | rest => readExponentDigits? false rest
    else some (none, c :: rest)
  | [] => some (none, [])

/-- A number behind its sign; no digit follows a leading zero. -/
def readMagnitude? (negative : Bool) (s : List Char) : Option (JsonNumber × List Char) := do
  let (whole, rest) := digitsAhead s
  if whole.isEmpty || (whole.head? == some '0' && 1 < whole.length) then none
  else
    let (fraction, rest) ← readFraction? rest
    let (exponent, rest) ← readExponent? rest
    return (⟨negative, whole, fraction, exponent⟩, rest)

/-! ### Strings -/

/-- A unit of a string: a character, or sixteen bits written as an escape. -/
inductive Unit16 where
  | char (c : Char)
  | code (n : Nat)
  deriving DecidableEq, Repr

/-- The number of four hexadecimal digits, and the rest. -/
def hexDigit? (c : Char) : Option Nat :=
  if c.isDigit then some (c.toNat - '0'.toNat)
  else if 'a' ≤ c ∧ c ≤ 'f' then some (c.toNat - 'a'.toNat + 10)
  else if 'A' ≤ c ∧ c ≤ 'F' then some (c.toNat - 'A'.toNat + 10)
  else none

/-- The number four hexadecimal digits denote. -/
def hexNumber? (a b c d : Char) : Option Nat := do
  let w ← hexDigit? a
  let x ← hexDigit? b
  let y ← hexDigit? c
  let z ← hexDigit? d
  return ((w * 16 + x) * 16 + y) * 16 + z

/-- The character a letter behind a backslash stands for. -/
def simpleEscape? (c : Char) : Option Char :=
  if c = '"' ∨ c = '\\' ∨ c = '/' then some c
  else if c = 'b' then some '\x08'
  else if c = 'f' then some '\x0c'
  else if c = 'n' then some '\n'
  else if c = 'r' then some '\r'
  else if c = 't' then some '\t'
  else none

/-- The units of a string up to its closing quote, and the rest behind it. -/
def readUnits? : List Char → Option (List Unit16 × List Char)
  | [] => none
  | '"' :: rest => some ([], rest)
  | '\\' :: 'u' :: a :: b :: c :: d :: rest => do
    let n ← hexNumber? a b c d
    let (units, rest) ← readUnits? rest
    return (.code n :: units, rest)
  | '\\' :: c :: rest => do
    let plain ← simpleEscape? c
    let (units, rest) ← readUnits? rest
    return (.char plain :: units, rest)
  | c :: rest =>
    if c.toNat < 32 ∨ c = '\\' then none
    else do
      let (units, rest) ← readUnits? rest
      return (.char c :: units, rest)

/-- The characters of the units.  Two halves of a pair make one character; a half alone makes
none. -/
def charsOfUnits? : List Unit16 → Option (List Char)
  | [] => some []
  | .char c :: rest => (charsOfUnits? rest).map (c :: ·)
  | .code n :: .code m :: rest =>
    if 0xD800 ≤ n ∧ n < 0xDC00 then
      if 0xDC00 ≤ m ∧ m < 0xE000 then
        (charsOfUnits? rest).map
          (Char.ofNat (0x10000 + (n - 0xD800) * 0x400 + (m - 0xDC00)) :: ·)
      else none
    else if 0xDC00 ≤ n ∧ n < 0xE000 then none
    else (charsOfUnits? (.code m :: rest)).map (Char.ofNat n :: ·)
  | .code n :: rest =>
    if 0xD800 ≤ n ∧ n < 0xE000 then none else (charsOfUnits? rest).map (Char.ofNat n :: ·)

/-- The text of the units of a string. -/
def textOfUnits? (units : List Unit16) : Option String :=
  (charsOfUnits? units).map String.ofList

/-- Replaces a run of characters that stand for one byte each by the characters the bytes
encode. -/
def decodeRun? : List Unit16 → Option (List Unit16)
  | .code n :: rest => some (.code n :: rest)
  | run =>
    let bytes := run.filterMap fun
      | .char c => some (UInt8.ofNat c.toNat)
      | .code _ => none
    (String.fromUTF8? ⟨bytes.toArray⟩).map fun text => text.toList.map .char

/-- The text of the units of a string whose characters stand for one byte each. -/
def textOfByteUnits? (units : List Unit16) : Option String := do
  let isChar : Unit16 → Bool
    | .char _ => true
    | .code _ => false
  let runs ← (units.splitBy fun a b => isChar a == isChar b).mapM decodeRun?
  textOfUnits? runs.flatten

/-- A string behind its opening quote.  `text?` gives the text of its units. -/
def readString? (text? : List Unit16 → Option String) (s : List Char) :
    Option (Option String × List Char) :=
  (readUnits? s).map fun (units, rest) => (text? units, rest)

/-! ### Values -/

mutual

/-- A value in front of the text, `fuel` steps deep. -/
def readValue? (text? : List Unit16 → Option String) :
    Nat → List Char → Option (Json × List Char)
  | 0, _ => none
  | fuel + 1, s =>
    match skipSpace s with
    | 'n' :: 'u' :: 'l' :: 'l' :: rest => some (.null, rest)
    | 't' :: 'r' :: 'u' :: 'e' :: rest => some (.bool true, rest)
    | 'f' :: 'a' :: 'l' :: 's' :: 'e' :: rest => some (.bool false, rest)
    | '"' :: rest => (readString? text? rest).map fun (text, rest) => (.string text, rest)
    | '-' :: rest => (readMagnitude? true rest).map fun (n, rest) => (.number n, rest)
    | '[' :: rest =>
      match skipSpace rest with
      | ']' :: rest => some (.array [], rest)
      | rest => (readItems? text? fuel rest).map fun (items, rest) => (.array items, rest)
    | '\x7b' :: rest =>
      match skipSpace rest with
      | '\x7d' :: rest => some (.object [], rest)
      | rest => (readMembers? text? fuel rest).map fun (members, rest) => (.object members, rest)
    | rest => (readMagnitude? false rest).map fun (n, rest) => (.number n, rest)

/-- One or more values with commas between them, up to the closing bracket. -/
def readItems? (text? : List Unit16 → Option String) :
    Nat → List Char → Option (List Json × List Char)
  | 0, _ => none
  | fuel + 1, s => do
    let (item, rest) ← readValue? text? fuel s
    match skipSpace rest with
    | ']' :: rest => return ([item], rest)
    | ',' :: rest =>
      let (items, rest) ← readItems? text? fuel rest
      return (item :: items, rest)
    | _ => none

/-- One or more members with commas between them, up to the closing brace. -/
def readMembers? (text? : List Unit16 → Option String) :
    Nat → List Char → Option (List (Option String × Json) × List Char)
  | 0, _ => none
  | fuel + 1, s =>
    match skipSpace s with
    | '"' :: rest => do
      let (key, rest) ← readString? text? rest
      match skipSpace rest with
      | ':' :: rest =>
        let (value, rest) ← readValue? text? fuel rest
        match skipSpace rest with
        | '\x7d' :: rest => return ([(key, value)], rest)
        | ',' :: rest =>
          let (members, rest) ← readMembers? text? fuel rest
          return ((key, value) :: members, rest)
        | _ => none
      | _ => none
    | _ => none

end

/-- Reads a whole text as one value. -/
def ofChars? (text? : List Unit16 → Option String) (s : List Char) : Option Json :=
  match readValue? text? (s.length + 1) s with
  | some (value, rest) => if (skipSpace rest).isEmpty then some value else none
  | none => none

/-- Reads bytes as one value.  Bytes that are no UTF-8 as a whole are read one by one, and then
every string is decoded on its own. -/
def ofBytes? (bytes : List UInt8) : Option Json :=
  match String.fromUTF8? ⟨bytes.toArray⟩ with
  | some text => ofChars? textOfUnits? text.toList
  | none => ofChars? textOfByteUnits? (bytes.map fun b => Char.ofNat b.toNat)

end Relational.Json
