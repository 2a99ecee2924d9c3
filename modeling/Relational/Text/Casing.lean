import Relational.Text.CaseTables
/-
Full case mapping of a text.

Lower case depends on the surroundings in one place: a capital sigma at the end of a word becomes
the final form of the letter.  Some characters have an upper case of several characters, and one,
the dotted capital I, a lower case of two.
-/
namespace Relational.Text

open Casing

/-- Whether some range holds the character. -/
def inRanges (ranges : List (Nat × Nat)) (c : Char) : Bool :=
  ranges.any fun (first, last) => first ≤ c.toNat && c.toNat ≤ last

/-- The character the first covering run moves `c` to. -/
def moved (runs : List Run) (c : Char) : Char :=
  match runs.find? (·.covers c.toNat) with
  | some r => Char.ofNat (Int.ofNat c.toNat + r.shift).toNat
  | none => c

/-- Whether the nearest character that has a say in word ends is a letter with a case. -/
def meetsCased (s : List Char) : Bool :=
  match s.dropWhile (inRanges ignorableRanges) with
  | [] => false
  | c :: _ => inRanges casedRanges c

/-- Capital sigma between `before`, nearest first, and `after`: final at the end of a word. -/
def lowerSigma (before after : List Char) : Char :=
  if meetsCased before && !meetsCased after then 'ς' else 'σ'

/-- Lower case of `rest` when `before`, nearest first, precedes it. -/
def lowerAfter (before : List Char) : List Char → List Char
  | [] => []
  | c :: rest =>
    let here :=
      if c = 'Σ' then [lowerSigma before rest]
      else if c = 'İ' then ['i', Char.ofNat 0x307]
      else [moved lowerRuns c]
    here ++ lowerAfter (c :: before) rest

/-- The text in lower case. -/
def lowercase (s : String) : String :=
  String.ofList (lowerAfter [] s.toList)

/-- Upper case of one character. -/
def upperChar (c : Char) : List Char :=
  match upperExpansions.lookup c.toNat with
  | some codes => codes.map Char.ofNat
  | none => [moved upperRuns c]

/-- The text in upper case. -/
def uppercase (s : String) : String :=
  String.ofList (s.toList.flatMap upperChar)

end Relational.Text
