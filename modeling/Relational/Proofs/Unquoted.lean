import Relational.Proofs.Quoted
/-
What stands outside quotes.

A statement is words, names in quotes and texts in quotes.  Without what is quoted, its words are
left, and of each name the dots, the keyword of its alias and the wildcards: a segment that is a star
is written bare.  So a star outside quotes that no word has is a wildcard segment of a name.
-/
namespace Relational

/-! ### Segments of a name -/

namespace Name

/-- The segments in which a name is written; the alias is one of its own. -/
def segments (name : String) : List (List Char) :=
  match _h : splitAlias? name with
  | some (expression, label) => segments expression ++ [label.toList]
  | none => name.toList.splitOn '.'
termination_by name.length
decreasing_by exact length_splitAlias? (by assumption)

/-- A segment of the name is the wildcard. -/
def IsWild (name : String) : Prop :=
  ['*'] ∈ segments name

instance : DecidablePred IsWild := fun name =>
  inferInstanceAs (Decidable (['*'] ∈ segments name))

/-- What is left of a segment without what is quoted. -/
def bareSegment (segment : List Char) : List Char :=
  if segment = ['*'] then ['*'] else []

/-- What is left of dotted segments without what is quoted. -/
def bareDotted (parts : List (List Char)) : List Char :=
  List.intercalate ['.'] (parts.map bareSegment)

/-- What is left of a written name without what is quoted. -/
def bare (name : String) : List Char :=
  match _h : splitAlias? name with
  | some (expression, label) => bare expression ++ " AS ".toList ++ bareSegment label.toList
  | none => bareDotted (name.toList.splitOn '.')
termination_by name.length
decreasing_by exact length_splitAlias? (by assumption)

variable {name : String} {segment : List Char} {parts : List (List Char)}

theorem segments_of_alias {expression label : String}
    (h : splitAlias? name = some (expression, label)) :
    segments name = segments expression ++ [label.toList] := by
  rw [segments]
  split
  · rename_i hsplit
    rw [h] at hsplit
    cases hsplit
    rfl
  · rename_i hsplit
    rw [h] at hsplit
    cases hsplit

theorem segments_of_no_alias (h : splitAlias? name = none) :
    segments name = name.toList.splitOn '.' := by
  rw [segments]
  split
  · rename_i hsplit
    rw [h] at hsplit
    cases hsplit
  · rfl

theorem bare_of_alias {expression label : String}
    (h : splitAlias? name = some (expression, label)) :
    bare name = bare expression ++ " AS ".toList ++ bareSegment label.toList := by
  rw [bare]
  split
  · rename_i hsplit
    rw [h] at hsplit
    cases hsplit
    rfl
  · rename_i hsplit
    rw [h] at hsplit
    cases hsplit

theorem bare_of_no_alias (h : splitAlias? name = none) :
    bare name = bareDotted (name.toList.splitOn '.') := by
  rw [bare]
  split
  · rename_i hsplit
    rw [h] at hsplit
    cases hsplit
  · rfl

theorem star_mem_bareSegment : '*' ∈ bareSegment segment ↔ segment = ['*'] := by
  unfold bareSegment
  split
  · rename_i h
    simp [h]
  · rename_i h
    simp [h]

theorem bareDotted_singleton (segment : List Char) : bareDotted [segment] = bareSegment segment :=
  List.intercalate_singleton

theorem bareDotted_cons_cons (first next : List Char) (rest : List (List Char)) :
    bareDotted (first :: next :: rest) = bareSegment first ++ '.' :: bareDotted (next :: rest) := by
  rw [bareDotted, List.map_cons, List.map_cons, List.intercalate_cons_cons, List.append_assoc]
  rfl

theorem star_mem_bareDotted : '*' ∈ bareDotted parts ↔ ['*'] ∈ parts := by
  induction parts with
  | nil => simp [bareDotted]
  | cons first rest ih =>
      cases rest with
      | nil => rw [bareDotted_singleton, star_mem_bareSegment, List.mem_singleton, eq_comm]
      | cons next rest =>
          rw [bareDotted_cons_cons, List.mem_append, List.mem_cons, ih, star_mem_bareSegment,
            List.mem_cons (b := first), eq_comm (a := first)]
          simp

/-- A star is left of the segments that are stars. -/
theorem star_mem_bare : '*' ∈ bare name ↔ IsWild name := by
  unfold IsWild
  fun_induction bare name with
  | case1 name expression label hsplit ih =>
      have hkeyword : '*' ∉ " AS ".toList := by decide
      rw [segments_of_alias hsplit, List.mem_append, List.mem_append, List.mem_append, ih,
        or_iff_left hkeyword, star_mem_bareSegment, List.mem_singleton, eq_comm (a := label.toList)]
  | case2 name hsplit => rw [segments_of_no_alias hsplit, star_mem_bareDotted]

theorem eq_star_of_mem_bareSegment {c : Char} (hc : c ∈ bareSegment segment) : c = '*' := by
  unfold bareSegment at hc
  split at hc
  · exact List.mem_singleton.mp hc
  · cases hc

theorem mem_bareDotted {c : Char} (hc : c ∈ bareDotted parts) : c = '.' ∨ c = '*' := by
  rcases Text.mem_intercalate hc with hc | ⟨part, hpart, hc⟩
  · exact .inl (List.mem_singleton.mp hc)
  · obtain ⟨segment, -, rfl⟩ := List.mem_map.mp hpart
    exact .inr (eq_star_of_mem_bareSegment hc)

theorem bareSegment_subset (segment : List Char) : bareSegment segment ⊆ "*. AS".toList := by
  intro c hc
  rw [eq_star_of_mem_bareSegment hc]
  decide

theorem bareDotted_subset (parts : List (List Char)) : bareDotted parts ⊆ "*. AS".toList := by
  intro c hc
  rcases mem_bareDotted hc with rfl | rfl
  · decide
  · decide

theorem bare_subset (name : String) : bare name ⊆ "*. AS".toList := by
  fun_induction bare name with
  | case1 name expression label hsplit ih =>
      exact List.append_subset.mpr ⟨List.append_subset.mpr ⟨ih, by decide⟩, bareSegment_subset _⟩
  | case2 name hsplit => exact bareDotted_subset _

end Name

/-! ### Reading past quotes -/

/-- Where the reading of a text stands with respect to quotes.  Behind a closing quote it is not
settled yet whether that was one, or the first of a doubled pair. -/
inductive Quotes where
  | outside
  | name
  | text
  | behindName
  | behindText
  deriving DecidableEq

namespace Quotes

/-- Not between quotes, as far as that is settled. -/
def IsOut (q : Quotes) : Prop :=
  q ≠ name ∧ q ≠ text

instance : DecidablePred IsOut := fun q =>
  inferInstanceAs (Decidable (q ≠ name ∧ q ≠ text))

/-- Where the reading stands behind a character that no quote is open for. -/
def opened (d : Dialect) (c : Char) : Quotes :=
  if c = d.quotes.1 then name else if c = '\'' then text else outside

/-- Where the reading stands behind one more character. -/
def next (d : Dialect) : Quotes → Char → Quotes
  | outside, c => opened d c
  | name, c => if c = d.quotes.2 then behindName else name
  | text, c => if c = '\'' then behindText else text
  | behindName, c => if c = d.quotes.2 then name else opened d c
  | behindText, c => if c = '\'' then text else opened d c

end Quotes

namespace Dialect

open Quotes

/-- The characters outside quotes. -/
def unquotedFrom (d : Dialect) : Quotes → List Char → List Char
  | _, [] => []
  | q, c :: rest =>
    if q.next d c = .outside then c :: unquotedFrom d .outside rest
    else unquotedFrom d (q.next d c) rest

/-- The characters of a text outside quotes. -/
def unquoted (d : Dialect) (s : String) : List Char :=
  d.unquotedFrom .outside s.toList

/-- Of the text, which has all its quotes closed, this is left outside quotes. -/
def Leaves (d : Dialect) (s left : List Char) : Prop :=
  ∀ q rest, IsOut q → ∃ r, IsOut r ∧
    d.unquotedFrom q (s ++ rest) = left ++ d.unquotedFrom r rest

/-- A character that quotes nothing in any dialect. -/
def IsPlainChar (c : Char) : Prop :=
  c ∉ ['\'', '"', backtick, '[', ']']

instance : DecidablePred IsPlainChar := fun c =>
  inferInstanceAs (Decidable (c ∉ _))

/-- A character that quotes nothing and is no star. -/
def IsTame (c : Char) : Prop :=
  c ≠ '*' ∧ IsPlainChar c

instance : DecidablePred IsTame := fun c =>
  inferInstanceAs (Decidable (c ≠ '*' ∧ IsPlainChar c))

/-- A text that quotes nothing. -/
def AllPlain (s : List Char) : Prop :=
  ∀ c ∈ s, IsPlainChar c

/-- A text that quotes nothing and has no star. -/
def AllTame (s : List Char) : Prop :=
  ∀ c ∈ s, IsTame c

instance : DecidablePred AllPlain := fun s =>
  List.decidableBAll _ s

instance : DecidablePred AllTame := fun s =>
  List.decidableBAll _ s

variable {d : Dialect} {s t left left' : List Char}

theorem AllTame.append (hs : AllTame s) (ht : AllTame t) : AllTame (s ++ t) :=
  List.forall_mem_append.mpr ⟨hs, ht⟩

theorem star_not_mem_of_tame (h : AllTame s) : '*' ∉ s :=
  fun hstar => (h '*' hstar).1 rfl

theorem isTame_of_isDigit {c : Char} (h : c.isDigit = true) : IsTame c := by
  by_contra hc
  have hmem : c ∈ ['*', '\'', '"', backtick, '[', ']'] := by
    rwa [IsTame, IsPlainChar, ne_eq, ← not_or, ← List.mem_cons, not_not] at hc
  have hnone : ['*', '\'', '"', backtick, '[', ']'].any Char.isDigit = false := by
    decide
  rw [List.any_eq_true.mpr ⟨c, hmem, h⟩] at hnone
  cases hnone

theorem allTame_number (n : Nat) : AllTame (toString n).toList := by
  rw [Nat.toString_eq_repr, Nat.toList_repr]
  exact fun _ hc => isTame_of_isDigit (Decimal.isDigit_of_mem_digitsOf hc)

theorem quotes_not_isPlainChar (d : Dialect) :
    ¬IsPlainChar d.quotes.1 ∧ ¬IsPlainChar d.quotes.2 := by
  cases d <;> decide

/-- A plain character that is not quoted opens nothing. -/
theorem next_plain {q : Quotes} (hq : IsOut q) {c : Char} (hc : IsPlainChar c) :
    q.next d c = .outside := by
  have hopening : c ≠ d.quotes.1 := fun he => d.quotes_not_isPlainChar.1 (he ▸ hc)
  have hclosing : c ≠ d.quotes.2 := fun he => d.quotes_not_isPlainChar.2 (he ▸ hc)
  have htext : c ≠ '\'' := fun he => absurd (he ▸ hc) (by decide)
  have hopened : opened d c = .outside := by rw [opened, if_neg hopening, if_neg htext]
  cases q with
  | name => exact absurd rfl hq.1
  | text => exact absurd rfl hq.2
  | outside => exact hopened
  | behindName => rw [next, if_neg hclosing, hopened]
  | behindText => rw [next, if_neg htext, hopened]

namespace Leaves

theorem nil : d.Leaves [] [] :=
  fun q _ hq => ⟨q, hq, rfl⟩

theorem append (hs : d.Leaves s left) (ht : d.Leaves t left') :
    d.Leaves (s ++ t) (left ++ left') := by
  intro q rest hq
  obtain ⟨r, hr, hfirst⟩ := hs q (t ++ rest) hq
  obtain ⟨r', hr', hsecond⟩ := ht r rest hr
  exact ⟨r', hr', by rw [List.append_assoc, hfirst, hsecond, List.append_assoc]⟩

theorem joined {separator gap : List Char} (hseparator : d.Leaves separator gap) {α : Type}
    {text rest : α → List Char} {parts : List α} (h : ∀ a ∈ parts, d.Leaves (text a) (rest a)) :
    d.Leaves (List.intercalate separator (parts.map text))
      (List.intercalate gap (parts.map rest)) := by
  induction parts with
  | nil => exact .nil
  | cons a parts ih =>
      cases parts with
      | nil => simpa using h a (List.mem_singleton_self a)
      | cons b parts =>
          simp only [List.map_cons, List.intercalate_cons_cons] at ih ⊢
          exact ((h a List.mem_cons_self).append hseparator).append
            (ih fun x hx => h x (List.mem_cons_of_mem a hx))

/-- Plain characters are left as they are. -/
theorem plain (h : AllPlain s) : d.Leaves s s := by
  induction s with
  | nil => exact .nil
  | cons c s ih =>
      obtain ⟨hc, hs⟩ := List.forall_mem_cons.mp h
      have hfirst : d.Leaves [c] [c] := fun q rest hq =>
        ⟨.outside, by decide, by
          rw [List.singleton_append, unquotedFrom, if_pos (next_plain hq hc)]; rfl⟩
      exact hfirst.append (ih hs)

theorem tame (h : AllTame s) : d.Leaves s s :=
  plain fun c hc => (h c hc).2

end Leaves

/-- Up to the closing quote, doubled ones come in pairs and nothing is left. -/
theorem unquotedFrom_doubled {inner behind : Quotes} {close : Char}
    (hclosed : inner.next d close = behind) (hagain : behind.next d close = inner)
    (hinner : ∀ c, c ≠ close → inner.next d c = inner) (hin : inner ≠ .outside)
    (hbehind : behind ≠ .outside) (s rest : List Char) :
    d.unquotedFrom inner (Text.doubled close s ++ close :: rest) = d.unquotedFrom behind rest := by
  induction s with
  | nil => rw [Text.doubled, List.nil_append, unquotedFrom, hclosed, if_neg hbehind]
  | cons c s ih =>
      rw [Text.doubled]
      split
      · rename_i hc
        rw [hc, List.cons_append, List.cons_append, unquotedFrom, hclosed, if_neg hbehind,
          unquotedFrom, hagain, if_neg hin, ih]
      · rename_i hc
        rw [List.cons_append, unquotedFrom, hinner c hc, if_neg hin, ih]

theorem leaves_name (name : String) :
    d.Leaves (Text.enclosed d.quotes.1 d.quotes.2 name).toList [] := by
  intro q rest hq
  have htext : d.quotes.1 ≠ '\'' := by cases d <;> decide
  have hopened : opened d d.quotes.1 = .name := if_pos rfl
  have hopening : q.next d d.quotes.1 = .name := by
    cases q with
    | name => exact absurd rfl hq.1
    | text => exact absurd rfl hq.2
    | outside => exact hopened
    | behindName =>
        rw [next]
        split
        · rfl
        · exact hopened
    | behindText => rw [next, if_neg htext, hopened]
  refine ⟨.behindName, by decide, ?_⟩
  rw [toList_enclosed, List.cons_append, unquotedFrom, hopening, if_neg (by decide),
    List.append_assoc, List.singleton_append, List.nil_append]
  have hclosed : Quotes.name.next d d.quotes.2 = .behindName := if_pos rfl
  have hagain : Quotes.behindName.next d d.quotes.2 = .name := if_pos rfl
  have hinner : ∀ c, c ≠ d.quotes.2 → Quotes.name.next d c = .name := fun c hc => if_neg hc
  exact unquotedFrom_doubled hclosed hagain hinner (by decide) (by decide) name.toList rest

theorem leaves_text (text : String) : d.Leaves (Text.enclosed '\'' '\'' text).toList [] := by
  intro q rest hq
  have hopening : '\'' ≠ d.quotes.1 := by cases d <;> decide
  have hclosing : '\'' ≠ d.quotes.2 := by cases d <;> decide
  have hopened : opened d '\'' = .text := by rw [opened, if_neg hopening, if_pos rfl]
  have hnext : q.next d '\'' = .text := by
    cases q with
    | name => exact absurd rfl hq.1
    | text => exact absurd rfl hq.2
    | outside => exact hopened
    | behindName => rw [next, if_neg hclosing, hopened]
    | behindText => rfl
  refine ⟨.behindText, by decide, ?_⟩
  rw [toList_enclosed, List.cons_append, unquotedFrom, hnext, if_neg (by decide),
    List.append_assoc, List.singleton_append, List.nil_append]
  have hclosed : Quotes.text.next d '\'' = .behindText := rfl
  have hagain : Quotes.behindText.next d '\'' = .text := rfl
  have hinner : ∀ c, c ≠ '\'' → Quotes.text.next d c = .text := fun c hc => if_neg hc
  exact unquotedFrom_doubled hclosed hagain hinner (by decide) (by decide) text.toList rest

theorem leaves_quoteSegment (segment : String) :
    d.Leaves (d.quoteSegment segment).toList (Name.bareSegment segment.toList) := by
  unfold quoteSegment Name.bareSegment
  by_cases hstar : segment = "*"
  · subst hstar
    rw [if_pos (by decide), if_pos (by decide)]
    exact .plain (by decide)
  · have hchars : segment.toList ≠ ['*'] := fun h => hstar (String.toList_injective h)
    rw [if_neg (by simpa using hstar), if_neg hchars]
    exact leaves_name segment

theorem leaves_quoteDotted (name : String) :
    d.Leaves (d.quoteDotted name).toList (Name.bareDotted (name.toList.splitOn '.')) := by
  have hdot : d.Leaves ".".toList ['.'] := .plain (by decide)
  rw [quoteDotted, String.toList_intercalate, List.map_map, Name.bareDotted]
  refine hdot.joined fun segment _ => ?_
  have hsegment := leaves_quoteSegment (d := d) (String.ofList segment)
  rwa [String.toList_ofList] at hsegment

/-- Of a written name its dots are left, the keyword of its alias and its wildcards. -/
theorem leaves_quoteName (name : String) : d.Leaves (d.quoteName name).toList (Name.bare name) := by
  have hkeyword : d.Leaves " AS ".toList " AS ".toList := .plain (by decide)
  fun_induction quoteName d name with
  | case1 name expression label hsplit ih =>
      rw [String.toList_append, String.toList_append, Name.bare_of_alias hsplit]
      exact (ih.append hkeyword).append (leaves_quoteSegment label)
  | case2 name hsplit =>
      rw [Name.bare_of_no_alias hsplit]
      exact leaves_quoteDotted name

/-- What a whole text leaves. -/
theorem Leaves.unquoted {s : String} (h : d.Leaves s.toList left) : d.unquoted s = left := by
  obtain ⟨r, -, hread⟩ := h .outside [] (by decide)
  rw [List.append_nil, unquotedFrom, List.append_nil] at hread
  exact hread

/-- A star outside quotes is a wildcard segment of the name. -/
theorem star_mem_unquoted_quoteName {name : String} :
    '*' ∈ d.unquoted (d.quoteName name) ↔ Name.IsWild name := by
  rw [(leaves_quoteName name).unquoted, Name.star_mem_bare]

end Dialect

end Relational
