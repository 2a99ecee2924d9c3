import Relational.Proofs.Query.Starred
/-
Scanning a written name.

The scanner knows nothing of names but their quotes: a segment is a bare star, or what is in quotes
up to the closing quote that is not doubled; behind a dot comes the next segment, and behind the
keyword an alias in quotes.  What it gets from a written name is what the name was written from.
A dot in quotes is no dot to it, so the segments come apart where the dots between them are; and a
name that is accepted has no blanks in its segments, so there is no alias but the one that is split
off.
-/
namespace Relational

/-- A segment as it was written. -/
inductive ScannedSegment where
  /-- A star without quotes. -/
  | wildcard
  | quoted (segment : List Char)
  deriving DecidableEq, Repr

/-- The segment that is written like this. -/
def ScannedSegment.of (segment : List Char) : ScannedSegment :=
  if segment = ['*'] then wildcard else quoted segment

/-- A name as it was written: its segments, and the alias behind the keyword. -/
structure ScannedName where
  segments : List ScannedSegment
  label : Option (List Char)
  deriving DecidableEq, Repr

/-- What is to be read of a name: the dotted segments of its expression, and its alias in one. -/
def ScannedName.of (name : String) : ScannedName where
  segments := ((Name.expression name).toList.splitOn '.').map .of
  label := (Name.splitAlias? name).map (·.2.toList)

namespace Dialect

/-! ### The scanner -/

/-- The segment in front of a text, and what is behind it. -/
def scanSegment? (d : Dialect) : List Char → Option (ScannedSegment × List Char)
  | [] => none
  | c :: rest =>
    if c = d.quotes.1 then
      (readQuoted? d.quotes.2 rest).map fun (segment, behind) => (.quoted segment, behind)
    else if c = '*' then some (.wildcard, rest)
    else none

theorem length_scanSegment? {d : Dialect} {s behind : List Char} {segment : ScannedSegment}
    (h : d.scanSegment? s = some (segment, behind)) : behind.length < s.length := by
  unfold scanSegment? at h
  split at h
  · cases h
  · split at h
    · obtain ⟨⟨inner, more⟩, hread, hpair⟩ := Option.map_eq_some_iff.mp h
      cases hpair
      exact Nat.lt_succ_of_lt (length_readQuoted? hread)
    · split at h
      · cases h
        exact Nat.lt_succ_self _
      · cases h

/-- Segments with dots between them, and what is behind the last one. -/
def scanDotted? (d : Dialect) (s : List Char) : Option (List ScannedSegment × List Char) :=
  match _h : d.scanSegment? s with
  | none => none
  | some (first, '.' :: rest) =>
    (d.scanDotted? rest).map fun (others, behind) => (first :: others, behind)
  | some (first, behind) => some ([first], behind)
termination_by s.length
decreasing_by exact Nat.lt_of_succ_lt (length_scanSegment? _h)

/-- A name with its alias, if the keyword is behind it. -/
def scanName? (d : Dialect) (s : List Char) : Option (ScannedName × List Char) := do
  let (segments, behind) ← d.scanDotted? s
  match Text.afterLead? " AS ".toList behind with
  | none => return (⟨segments, none⟩, behind)
  | some rest =>
    match d.scanSegment? rest with
    | some (.quoted label, behind) => return (⟨segments, some label⟩, behind)
    | _ => none

/-! ### Segments -/

variable {d : Dialect} {rest : List Char}

/-- A written segment is scanned back, whatever is in it. -/
theorem scanSegment?_quoteSegment (segment : String) (h : rest.head? ≠ some d.quotes.2) :
    d.scanSegment? ((d.quoteSegment segment).toList ++ rest) =
      some (.of segment.toList, rest) := by
  unfold quoteSegment ScannedSegment.of
  by_cases hstar : segment = "*"
  · subst hstar
    rw [if_pos (by decide), if_pos (by decide)]
    exact (if_neg d.quotes_ne_star).trans (if_pos rfl)
  · have hchars : segment.toList ≠ ['*'] := fun heq => hstar (String.toList_injective heq)
    rw [if_neg (by simpa using hstar), if_neg hchars, toList_enclosed, List.cons_append,
      List.append_assoc, List.singleton_append, scanSegment?, if_pos rfl,
      readQuoted?_doubled _ _ h]
    rfl

theorem scanDotted?_of_dot {s : List Char} {first : ScannedSegment}
    (h : d.scanSegment? s = some (first, '.' :: rest)) :
    d.scanDotted? s =
      (d.scanDotted? rest).map fun (others, behind) => (first :: others, behind) := by
  rw [scanDotted?]
  split
  · rename_i hnone
    rw [h] at hnone
    cases hnone
  · rename_i hsome
    rw [h] at hsome
    cases hsome
    rfl
  · rename_i hother hsome
    rw [h] at hsome
    cases hsome
    exact absurd rfl (hother _)

theorem scanDotted?_of_end {s : List Char} {first : ScannedSegment}
    (h : d.scanSegment? s = some (first, rest)) (hdot : rest.head? ≠ some '.') :
    d.scanDotted? s = some ([first], rest) := by
  rw [scanDotted?]
  split
  · rename_i hnone
    rw [h] at hnone
    cases hnone
  · rename_i hsome
    rw [h] at hsome
    cases hsome
    exact absurd rfl hdot
  · rename_i hsome
    rw [h] at hsome
    cases hsome
    rfl

/-- Segments that are written with dots between them are scanned one by one. -/
theorem scanDotted?_segments {parts : List (List Char)} (hne : parts ≠ [])
    (hquote : rest.head? ≠ some d.quotes.2) (hdot : rest.head? ≠ some '.') :
    d.scanDotted?
        (List.intercalate ['.'] (parts.map fun s => (d.quoteSegment (String.ofList s)).toList) ++
          rest) = some (parts.map .of, rest) := by
  induction parts with
  | nil => exact absurd rfl hne
  | cons first more ih =>
      cases more with
      | nil =>
          rw [List.map_singleton, List.map_singleton, List.intercalate_singleton]
          have hfirst := scanSegment?_quoteSegment (String.ofList first) hquote
          rw [String.toList_ofList] at hfirst
          exact scanDotted?_of_end hfirst hdot
      | cons next more =>
          have hfirst (behind : List Char) :
              d.scanSegment? ((d.quoteSegment (String.ofList first)).toList ++ '.' :: behind) =
                some (.of (String.ofList first).toList, '.' :: behind) :=
            scanSegment?_quoteSegment _ fun heq => d.quotes_closes.1 (Option.some.inj heq).symm
          simp only [String.toList_ofList] at hfirst
          have hmore := ih (List.cons_ne_nil _ _)
          rw [List.map_cons] at hmore
          rw [List.map_cons, List.map_cons, List.intercalate_cons_cons, List.append_assoc,
            List.append_assoc, List.singleton_append, scanDotted?_of_dot (hfirst _), hmore]
          rfl

theorem scanDotted?_quoteDotted (name : String) (hquote : rest.head? ≠ some d.quotes.2)
    (hdot : rest.head? ≠ some '.') :
    d.scanDotted? ((d.quoteDotted name).toList ++ rest) =
      some ((name.toList.splitOn '.').map .of, rest) := by
  rw [quoteDotted, String.toList_intercalate, List.map_map]
  exact scanDotted?_segments (List.splitOnP_ne_nil _ _) hquote hdot

/-! ### Names -/

/-- No name goes on here: neither its quotes, nor its segments, nor its alias. -/
structure EndsName (d : Dialect) (behind : List Char) : Prop where
  quote : behind.head? ≠ some d.quotes.2
  dot : behind.head? ≠ some '.'
  keyword : Text.afterLead? " AS ".toList behind = none

/-- The keyword ends the segments of an expression. -/
theorem scanDotted?_aliased (expression : String) (behind : List Char) :
    d.scanDotted? ((d.quoteDotted expression).toList ++ (" AS ".toList ++ behind)) =
      some ((expression.toList.splitOn '.').map .of, " AS ".toList ++ behind) := by
  refine scanDotted?_quoteDotted expression ?_ ?_
  · exact fun heq => d.quotes_closes.2 (Option.some.inj heq).symm
  · exact fun heq => absurd (Option.some.inj heq) (by decide)

/-- A name that is accepted is scanned back, with its alias if it has one. -/
theorem scanName?_quoteName {name : String} (h : Name.isAliased name = true)
    (hends : d.EndsName rest) :
    d.scanName? ((d.quoteName name).toList ++ rest) = some (.of name, rest) := by
  unfold Name.isAliased at h
  unfold scanName? ScannedName.of Name.expression
  cases hsplit : Name.splitAlias? name with
  | none =>
      rw [d.quoteName_of_no_alias hsplit, scanDotted?_quoteDotted name hends.quote hends.dot]
      simp only [Option.bind_eq_bind, Option.bind_some, hends.keyword]
      rfl
  | some halves =>
      obtain ⟨expression, label⟩ := halves
      rw [hsplit, Bool.and_eq_true] at h
      have hplain : Name.splitAlias? expression = none := Name.splitAlias?_eq_none fun c hc =>
        Name.isBlank_of_isMark (Name.isMark_of_isIdentifier h.1 hc)
      have hlabel : label.toList ≠ ['*'] := by
        intro hstar
        rw [hstar] at h
        exact absurd h.2 (by decide)
      have hkeyword := Text.afterLead?_eq_some.mpr
        (rfl : " AS ".toList ++ ((d.quoteSegment label).toList ++ rest) = _)
      have hscan := scanSegment?_quoteSegment label hends.quote
      rw [ScannedSegment.of, if_neg hlabel] at hscan
      rw [d.quoteName_of_alias hsplit, d.quoteName_of_no_alias hplain, String.toList_append,
        String.toList_append, List.append_assoc, List.append_assoc, scanDotted?_aliased]
      simp only [Option.bind_eq_bind, Option.bind_some, hkeyword, hscan]
      rfl

/-- **What is quoted is scanned back.**  A segment other than the star comes back as it was, and the
scan stops where its quotes end, whatever follows but another closing quote.  Of a name that is
accepted come back the dotted segments of its expression, wildcards bare, and behind the keyword its
whole alias as one segment. -/
theorem quoted_scanned_back (d : Dialect) :
    (∀ (segment : String) (behind : List Char), segment ≠ "*" →
      behind.head? ≠ some d.quotes.2 →
      d.scanSegment? ((d.quoteSegment segment).toList ++ behind) =
        some (.quoted segment.toList, behind)) ∧
    ∀ (name : String) (behind : List Char), Name.isAliased name = true → d.EndsName behind →
      d.scanName? ((d.quoteName name).toList ++ behind) = some (.of name, behind) := by
  refine ⟨fun segment behind hstar hbehind => ?_, fun name behind => scanName?_quoteName⟩
  have hchars : segment.toList ≠ ['*'] := fun heq => hstar (String.toList_injective heq)
  rw [scanSegment?_quoteSegment segment hbehind, ScannedSegment.of, if_neg hchars]

/-- A name full of closing brackets, and a wildcard that is renamed. -/
theorem brackets_scanned_back :
    "a]]b]" ≠ "*" ∧ " = 1".toList.head? ≠ some sqlServer.quotes.2 ∧
    sqlServer.quoteSegment "a]]b]" = "[a]]]]b]]]" ∧
    sqlServer.scanSegment? "[a]]]]b]]] = 1".toList = some (.quoted "a]]b]".toList, " = 1".toList) ∧
    Name.isAliased "shop.posts.*  as p.q" = true ∧ sqlServer.EndsName " FROM [t]".toList ∧
    sqlServer.quoteName "shop.posts.*  as p.q" = "[shop].[posts].* AS [p.q]" ∧
    sqlServer.scanName? "[shop].[posts].* AS [p.q] FROM [t]".toList =
      some (⟨[.quoted "shop".toList, .quoted "posts".toList, .wildcard], some "p.q".toList⟩,
        " FROM [t]".toList) := by
  have hsegment := (quoted_scanned_back sqlServer).1 "a]]b]" " = 1".toList (by decide) (by decide)
  have hends : sqlServer.EndsName " FROM [t]".toList := ⟨by decide, by decide, by decide⟩
  have hname := (quoted_scanned_back sqlServer).2 "shop.posts.*  as p.q" " FROM [t]".toList
    (by decide +kernel) hends
  have hquoted : sqlServer.quoteSegment "a]]b]" = "[a]]]]b]]]" := by decide +kernel
  have hwritten : sqlServer.quoteName "shop.posts.*  as p.q" = "[shop].[posts].* AS [p.q]" := by
    decide +kernel
  refine ⟨by decide, by decide, hquoted, ?_, by decide +kernel, hends, hwritten, ?_⟩
  · rw [hquoted] at hsegment
    exact hsegment
  · rw [hwritten] at hname
    exact hname

end Dialect

end Relational
