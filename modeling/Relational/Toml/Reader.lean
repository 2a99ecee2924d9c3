import Relational.Toml.Scalar
/-
Reading TOML documents.

A document is read into sections first: a header and the assignments below it.  Whether the
sections agree with each other is decided afterwards, when they are added to the document one by
one.  Values nest, so their readers are bounded by a number of steps; the length of the text is
always enough.
-/
namespace Relational.Toml

/-- A text with line feeds for all its line ends. -/
def unixLines : List Char → List Char
  | [] => []
  | '\r' :: '\n' :: rest => '\n' :: unixLines rest
  | c :: rest => c :: unixLines rest

/-- Behind a comment, if one opens here; the line end stays. -/
def skipComment? (s : List Char) : Option (List Char) :=
  match s with
  | '#' :: rest =>
    let comment := rest.takeWhile (· != '\n')
    if comment.all isPlain then some (rest.drop comment.length) else none
  | s => some s

/-- Behind the end of a line, with the gap and the comment in front of it. -/
def endLine? (s : List Char) : Option (List Char) := do
  match ← skipComment? (skipGap s) with
  | [] => some []
  | '\n' :: rest => some rest
  | _ => none

/-- Behind gaps, line ends and comments, as they may stand inside an array. -/
def skipLines? : Nat → List Char → Option (List Char)
  | 0, _ => none
  | fuel + 1, s => do
    match ← skipComment? (skipGap s) with
    | '\n' :: rest => skipLines? fuel rest
    | rest => if (skipGap s).head? = some '#' then none else some rest

/-! ### Keys -/

/-- A character of a key without quotes. -/
def isBareChar (c : Char) : Bool :=
  c.isAlphanum || c == '-' || c == '_'

/-- Reads a single key. -/
def readName? : List Char → Option (String × List Char)
  | '"' :: rest => readText? '"' rest
  | '\'' :: rest => readText? '\'' rest
  | s =>
    let name := s.takeWhile isBareChar
    if name.isEmpty then none else some (String.ofList name, s.dropWhile isBareChar)

/-- How many keys a dotted key may have, and how deep arrays and tables in braces may nest. -/
def depthLimit : Nat := 79

/-- Reads at most so many keys with dots between them, and the gap behind them. -/
def readKeys? : Nat → List Char → Option (List String × List Char)
  | 0, _ => none
  | limit + 1, s => do
    let (name, rest) ← readName? (skipGap s)
    match skipGap rest with
    | '.' :: rest =>
      let (path, rest) ← readKeys? limit rest
      return (name :: path, rest)
    | rest => return ([name], rest)

/-- Reads a dotted key, and the gap behind it. -/
def readKey? (s : List Char) : Option (List String × List Char) :=
  readKeys? depthLimit s

/-! ### Values -/

mutual

/-- Reads a value in which brackets and braces nest up to `levels` deep. -/
def readValue? : Nat → Nat → List Char → Option (Value × List Char)
  | 0, _, _ => none
  | fuel + 1, levels, s =>
    match s with
    | '"' :: '"' :: '"' :: rest => (readLines? '"' rest).map fun (t, rest) => (.text t, rest)
    | '\'' :: '\'' :: '\'' :: rest => (readLines? '\'' rest).map fun (t, rest) => (.text t, rest)
    | '"' :: rest => (readText? '"' rest).map fun (t, rest) => (.text t, rest)
    | '\'' :: rest => (readText? '\'' rest).map fun (t, rest) => (.text t, rest)
    | '[' :: rest =>
      if levels = 0 then none
      else (readItems? fuel (levels - 1) rest).map fun (items, rest) => (.array items, rest)
    | '\x7b' :: rest =>
      if levels = 0 then none
      else match skipGap rest with
        | '\x7d' :: rest => some (.table .inline [], rest)
        | rest => do
          let (assignments, rest) ← readMembers? fuel (levels - 1) rest
          let entries ← Entries.assignAll? [] assignments
          return (.table .inline entries, rest)
    | s => readScalar? s

/-- Reads the elements of an array up to the closing bracket.  A comma may stand behind the
last. -/
def readItems? : Nat → Nat → List Char → Option (List Value × List Char)
  | 0, _, _ => none
  | fuel + 1, levels, s => do
    match ← skipLines? (s.length + 1) s with
    | ']' :: rest => return ([], rest)
    | rest =>
      let (item, rest) ← readValue? fuel levels rest
      match ← skipLines? (rest.length + 1) rest with
      | ']' :: rest => return ([item], rest)
      | ',' :: rest =>
        let (items, rest) ← readItems? fuel levels rest
        return (item :: items, rest)
      | _ => none

/-- Reads one or more assignments between braces. -/
def readMembers? : Nat → Nat → List Char → Option (List Entries.Assignment × List Char)
  | 0, _, _ => none
  | fuel + 1, levels, s => do
    let (assignment, rest) ← readAssignment? fuel levels s
    match skipGap rest with
    | '\x7d' :: rest => return ([assignment], rest)
    | ',' :: rest =>
      let (assignments, rest) ← readMembers? fuel levels rest
      return (assignment :: assignments, rest)
    | _ => none

/-- Reads a key, the equals sign and a value. -/
def readAssignment? : Nat → Nat → List Char → Option (Entries.Assignment × List Char)
  | 0, _, _ => none
  | fuel + 1, levels, s => do
    let (path, rest) ← readKey? s
    match rest with
    | '=' :: rest =>
      let (value, rest) ← readValue? fuel levels (skipGap rest)
      return (⟨path, value⟩, rest)
    | _ => none

end

/-! ### Documents -/

/-- Reads the keys of a header behind its opening brackets. -/
def readHeader? (repeated : Bool) (s : List Char) : Option (List String × List Char) := do
  let (path, rest) ← readKey? s
  let rest ← Text.afterLead? (if repeated then "]]".toList else "]".toList) rest
  let rest ← endLine? rest
  return (path, rest)

/-- Reads lines up to the end of the text: the assignments in front of the first header, and the
sections. -/
def readSections? : Nat → List Char → Option (List Entries.Assignment × List Section)
  | 0, _ => none
  | fuel + 1, s =>
    match skipGap s with
    | [] => some ([], [])
    | '\n' :: rest => readSections? fuel rest
    | '#' :: rest => do
      let rest ← endLine? ('#' :: rest)
      readSections? fuel rest
    | '[' :: '[' :: rest => do
      let (path, rest) ← readHeader? true rest
      let (assignments, sections) ← readSections? fuel rest
      return ([], ⟨path, true, assignments⟩ :: sections)
    | '[' :: rest => do
      let (path, rest) ← readHeader? false rest
      let (assignments, sections) ← readSections? fuel rest
      return ([], ⟨path, false, assignments⟩ :: sections)
    | rest => do
      let (assignment, rest) ← readAssignment? (rest.length + 1) depthLimit rest
      let rest ← endLine? rest
      let (assignments, sections) ← readSections? fuel rest
      return (assignment :: assignments, sections)

/-- Reads a document.  A byte order mark in front of it is skipped. -/
def parse? (source : String) : Option Entries := do
  let s := match source.toList with
    | '\ufeff' :: rest => unixLines rest
    | s => unixLines s
  let (assignments, sections) ← readSections? (s.length + 1) s
  let root ← Entries.assignAll? [] assignments
  sections.foldlM (fun root part => part.apply? root) root

end Relational.Toml
