import Relational.Proofs.Schema.Literal
/-
Reading what stands in quotes.

The reader takes what is in quotes as an engine does, up to the closing quote that is not
doubled, and so gets back whatever was quoted.  A name is more than its quotes: a dot in it
makes segments, and an alias or a star have a meaning of their own.  Only a name with none of
these is written in one pair of quotes; any other opens with the quotes of its first segment.
-/
namespace Relational.Dialect

variable {d : Dialect} {name : String}

/-! ### Quotes -/

/-- The name up to the closing quote, and what is behind it; doubled, the quote stands for itself.
-/
def readQuoted? (close : Char) : List Char → Option (List Char × List Char)
  | [] => none
  | [c] => if c = close then some ([], []) else none
  | c :: d :: rest =>
    if c = close then
      if d = close then (readQuoted? close rest).map fun (name, behind) => (c :: name, behind)
      else some ([], d :: rest)
    else (readQuoted? close (d :: rest)).map fun (name, behind) => (c :: name, behind)

/-- Quotes are read back, whatever is between them. -/
theorem readQuoted?_doubled (close : Char) (s : List Char) {rest : List Char}
    (h : rest.head? ≠ some close) :
    readQuoted? close (Text.doubled close s ++ close :: rest) = some (s, rest) := by
  induction s with
  | nil =>
      cases rest with
      | nil => simp [Text.doubled, readQuoted?]
      | cons d rest =>
          have hd : d ≠ close := by simpa using h
          simp [Text.doubled, readQuoted?, hd]
  | cons c s ih =>
      rw [Text.doubled]
      split
      · rename_i hc
        subst hc
        rw [List.cons_append, List.cons_append, readQuoted?, if_pos rfl, if_pos rfl, ih]
        rfl
      · rename_i hc
        obtain ⟨d, more, hmore⟩ : ∃ d more, Text.doubled close s ++ close :: rest = d :: more :=
          List.exists_cons_of_ne_nil (by simp)
        rw [List.cons_append, hmore, readQuoted?, if_neg hc, ← hmore, ih]
        rfl

/-- Something is read in any case. -/
theorem length_readQuoted? {close : Char} {s name behind : List Char}
    (h : readQuoted? close s = some (name, behind)) : behind.length < s.length := by
  fun_induction readQuoted? close s generalizing name with
  | case1 => cases h
  | case2 => cases h; simp
  | case3 => cases h
  | case4 rest ih =>
      obtain ⟨⟨inner, more⟩, hread, hpair⟩ := Option.map_eq_some_iff.mp h
      cases hpair
      have := ih hread
      simp only [List.length_cons]
      omega
  | case5 => cases h; simp
  | case6 c next rest hc ih =>
      obtain ⟨⟨inner, more⟩, hread, hpair⟩ := Option.map_eq_some_iff.mp h
      cases hpair
      have := ih hread
      simp only [List.length_cons] at this ⊢
      omega

/-! ### Names in one pair of quotes -/

/-- A name that says nothing but itself where names are written. -/
def IsPlain (name : String) : Prop :=
  name ≠ "*" ∧ '.' ∉ name.toList ∧ Name.splitAlias? name = none

instance (name : String) : Decidable (IsPlain name) :=
  inferInstanceAs (Decidable (_ ∧ _ ∧ _))

/-- A dotted name opens with its first segment; behind it comes a dot, unless it is the whole. -/
theorem quoteDotted_opens (d : Dialect) (name : String) : ∃ first rest,
    (d.quoteDotted name).toList = (d.quoteSegment first).toList ++ rest ∧
      (rest = [] → first = name ∧ '.' ∉ name.toList) ∧ ∀ c ∈ rest.head?, c = '.' := by
  rw [quoteDotted, String.toList_intercalate]
  by_cases hdot : '.' ∈ name.toList
  · obtain ⟨first, others, hname, hfirst⟩ := List.eq_append_cons_of_mem hdot
    obtain ⟨next, more, hmore⟩ :=
      List.exists_cons_of_ne_nil (List.splitOnP_ne_nil (· == '.') others)
    rw [hname, List.splitOn_append_cons_self_of_not_mem hfirst, List.splitOn, hmore, List.map_cons,
      List.map_cons, List.map_cons, List.map_cons, List.intercalate_cons_cons, List.append_assoc]
    exact ⟨_, _, rfl, fun hnil => absurd hnil (by simp), fun c hc => by simpa using hc.symm⟩
  · rw [Name.splitOn_of_not_mem hdot, List.map_singleton, List.map_singleton,
      List.intercalate_singleton, String.ofList_toList]
    exact ⟨name, [], (List.append_nil _).symm, fun _ => ⟨rfl, hdot⟩, by simp⟩

/-- A written name opens with a segment, and that is the whole only of a plain name. -/
theorem quoteName_opens (d : Dialect) (name : String) : ∃ first rest,
    (d.quoteName name).toList = (d.quoteSegment first).toList ++ rest ∧
      (rest = [] → first = name ∧ '.' ∉ name.toList ∧ Name.splitAlias? name = none) ∧
      ∀ c ∈ rest.head?, c = '.' ∨ c = ' ' := by
  fun_induction quoteName d name with
  | case1 name expression label hsplit ih =>
      obtain ⟨first, rest, hopens, -, hhead⟩ := ih
      refine ⟨first, rest ++ (" AS ".toList ++ (d.quoteSegment label).toList), ?_, ?_, ?_⟩
      · rw [String.toList_append, String.toList_append, hopens, List.append_assoc,
          List.append_assoc]
      · intro hnil
        have has := (List.append_eq_nil_iff.mp (List.append_eq_nil_iff.mp hnil).2).1
        exact absurd has (by decide)
      · intro c hc
        cases rest with
        | nil => exact .inr (by simpa using hc.symm)
        | cons x rest => exact hhead c hc
  | case2 name hsplit =>
      obtain ⟨first, rest, hopens, hwhole, hhead⟩ := d.quoteDotted_opens name
      exact ⟨first, rest, hopens, fun hnil => ⟨(hwhole hnil).1, (hwhole hnil).2, hsplit⟩,
        fun c hc => .inl (hhead c hc)⟩

theorem quoteName_of_isPlain (h : IsPlain name) :
    d.quoteName name = Text.enclosed d.quotes.1 d.quotes.2 name := by
  obtain ⟨hstar, hdot, halias⟩ := h
  have hsegment : d.quoteSegment name = Text.enclosed d.quotes.1 d.quotes.2 name :=
    if_neg (by simpa using hstar)
  rw [d.quoteName_of_no_alias halias, quoteDotted, Name.splitOn_of_not_mem hdot]
  simp [hsegment]

/-! ### Reading a written name -/

theorem quotes_ne_star (d : Dialect) : '*' ≠ d.quotes.1 := by
  cases d <;> decide

theorem quotes_closes (d : Dialect) : d.quotes.2 ≠ '.' ∧ d.quotes.2 ≠ ' ' := by
  cases d <;> decide

theorem toList_enclosed (opening closing : Char) (s : String) :
    (Text.enclosed opening closing s).toList =
      opening :: (Text.doubled closing s.toList ++ [closing]) :=
  String.toList_ofList

/-- A written name that is in one pair of quotes up to what follows is plain, and read back. -/
theorem isPlain_of_read {rest quoted read : List Char} (h : rest.head? ≠ some d.quotes.2)
    (hquoted : (d.quoteName name).toList ++ rest = d.quotes.1 :: quoted)
    (hread : readQuoted? d.quotes.2 quoted = some (read, rest)) :
    IsPlain name ∧ read = name.toList := by
  obtain ⟨first, more, hopens, hwhole, hhead⟩ := d.quoteName_opens name
  rw [hopens, List.append_assoc] at hquoted
  by_cases hstar : first = "*"
  · -- a bare star is no quoted name
    subst hstar
    have hbare : (d.quoteSegment "*").toList = ['*'] := by
      rw [quoteSegment, if_pos (by decide)]
      decide
    rw [hbare] at hquoted
    exact absurd (List.cons.inj hquoted).1 d.quotes_ne_star
  · rw [quoteSegment, if_neg (by simpa using hstar), toList_enclosed, List.cons_append,
      List.append_assoc, List.singleton_append] at hquoted
    obtain rfl := (List.cons.inj hquoted).2
    have hclosed : (more ++ rest).head? ≠ some d.quotes.2 := by
      cases more with
      | nil => exact h
      | cons c more =>
          rcases hhead c rfl with rfl | rfl
          · simpa using d.quotes_closes.1.symm
          · simpa using d.quotes_closes.2.symm
    rw [readQuoted?_doubled _ _ hclosed, Option.some.injEq, Prod.mk.injEq,
      List.append_left_eq_self] at hread
    obtain ⟨rfl, hdot, halias⟩ := hwhole hread.2
    exact ⟨⟨hstar, hdot, halias⟩, hread.1.symm⟩

/-- A name is written in one pair of quotes exactly if it is plain. -/
theorem quoteName_eq_enclosed_iff :
    (∃ whole, d.quoteName name = Text.enclosed d.quotes.1 d.quotes.2 whole) ↔ IsPlain name := by
  refine ⟨fun ⟨whole, hwhole⟩ => ?_, fun h => ⟨name, quoteName_of_isPlain h⟩⟩
  have hquoted : (d.quoteName name).toList ++ [] =
      d.quotes.1 :: (Text.doubled d.quotes.2 whole.toList ++ [d.quotes.2]) := by
    rw [hwhole, List.append_nil, toList_enclosed]
  exact (isPlain_of_read (by simp) hquoted (readQuoted?_doubled _ _ (by simp))).1

end Relational.Dialect
