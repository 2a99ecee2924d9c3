import Relational.Text.Blank
/-
Names of tables and columns.

A name is written as dotted segments, `users` or `app.users.id`, where a later segment may be the
wildcard `*`; an aliased name is `users as u`.  Only ASCII letters, digits, underscore and dollar
occur in a name that is accepted, so an accepted name can be quoted for any engine.
-/
namespace Relational.Name

/-! ### Identifiers -/

/-- A letter or an underscore. -/
def isStart (c : Char) : Bool :=
  c.isAlpha || c == '_'

/-- A letter, a digit, an underscore or a dollar sign. -/
def isPart (c : Char) : Bool :=
  c.isAlphanum || c == '_' || c == '$'

/-- One segment of a name. -/
def isSegment : List Char → Bool
  | [] => false
  | c :: rest => isStart c && rest.all isPart

/-- A segment, then further segments or wildcards behind dots. -/
def isDotted (s : List Char) : Bool :=
  match s.splitOn '.' with
  | [] => false
  | first :: rest => isSegment first && rest.all fun t => isSegment t || t == ['*']

/-- A plain or dotted identifier, or the bare wildcard. -/
def isIdentifier (name : String) : Bool :=
  name == "*" || isDotted name.toList

/-- An identifier other than the bare wildcard. -/
def isColumn (name : String) : Bool :=
  name != "*" && isIdentifier name

/-! ### Aliases -/

/-- The two letters of the keyword in any case; the long s is an `s` as well. -/
def isAs (a s : Char) : Bool :=
  (a == 'a' || a == 'A') && (s == 's' || s == 'S' || s == 'ſ')

/-- The alias behind an expression: blanks, the keyword, blanks, and a rest on one line.  Of blanks
alone behind the keyword the last one counts as an alias, unless it ends the line. -/
def aliasAfter? (s : List Char) : Option (List Char) :=
  if !(s.head?.any Text.isBlank) then none
  else match Text.trimStart s with
    | a :: k :: rest =>
      if !(isAs a k && rest.head?.any Text.isBlank) then none
      else
        let written := Text.trimStart rest
        if written.isEmpty then
          if 2 ≤ rest.length && rest.getLast? != some '\n' then some [] else none
        else if written.contains '\n' then none
        else some (Text.trimEnd written)
    | _ => none

/-- The shortest non-empty expression on one line that an alias follows, with that alias. -/
def aliasFrom? : List Char → Option (List Char × List Char)
  | [] => none
  | c :: rest =>
    if c = '\n' then none
    else match aliasAfter? rest with
      | some label => some ([c], label)
      | none => (aliasFrom? rest).map fun (expression, label) => (c :: expression, label)

/-- Splits `expression as alias` into its halves, without the blanks around them. -/
def splitAlias? (name : String) : Option (String × String) :=
  (aliasFrom? name.toList).map fun (expression, label) =>
    (String.ofList (Text.trim expression), String.ofList label)

/-- An identifier that may carry an alias; the alias is no wildcard. -/
def isAliased (name : String) : Bool :=
  match splitAlias? name with
  | some (expression, label) => isIdentifier expression && isDotted label.toList
  | none => isIdentifier name

/-- The text behind the last dot. -/
def lastSegment (name : String) : String :=
  String.ofList ((name.toList.splitOn '.').getLastD [])

/-- The column a row has for this name: the alias, or the last segment. -/
def unqualified (name : String) : String :=
  match splitAlias? name with
  | some (_, label) => label
  | none => lastSegment name

/-! ### The expression is shorter than the whole -/

theorem length_aliasFrom? {s e a : List Char} (h : aliasFrom? s = some (e, a)) :
    e.length < s.length := by
  induction s generalizing e with
  | nil => simp [aliasFrom?] at h
  | cons c rest ih =>
    unfold aliasFrom? at h
    split at h
    · simp at h
    · split at h
      · rename_i label heq
        simp only [Option.some.injEq, Prod.mk.injEq] at h
        have : rest ≠ [] := by
          rintro rfl
          simp [aliasAfter?] at heq
        cases rest with
        | nil => exact absurd rfl this
        | cons d t => simp [← h.1]
      · simp only [Option.map_eq_some_iff, Prod.mk.injEq] at h
        obtain ⟨⟨e', a'⟩, hfrom, rfl, rfl⟩ := h
        simpa using ih hfrom

theorem length_splitAlias? {name expression label : String}
    (h : splitAlias? name = some (expression, label)) : expression.length < name.length := by
  simp only [splitAlias?, Option.map_eq_some_iff, Prod.mk.injEq] at h
  obtain ⟨⟨e, a⟩, hfrom, rfl, rfl⟩ := h
  have := length_aliasFrom? hfrom
  rw [String.length_ofList, ← String.length_toList]
  exact Nat.lt_of_le_of_lt (Text.length_trim_le e) this

end Relational.Name
