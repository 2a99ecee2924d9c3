import Relational.Proofs.Query.Spelled
/-
Where the stars of a query stand.

A star that no quotes are around says "all columns" in a select list, and "all rows" to a count;
anywhere else it says nothing.  Without raw fragments every star is a wildcard segment of a name, or
written for a list that is empty.  What is left of the statement outside quotes tells whether each
of them has its place.
-/
namespace Relational

/-! ### Places for stars -/

/-- An entry of a select list ends in front of this text. -/
def EndsEntry (after : List Char) : Prop :=
  ", ".toList <+: after ∨ " AS ".toList <+: after ∨ " FROM ".toList <+: after

/-- Every star of the text stands in its select list, which is in front of the first `FROM`: in no
function and at the end of an entry or in front of its alias, or as what `COUNT` is given. -/
def StarsPlaced (s : List Char) : Prop :=
  ∀ before after, s = before ++ '*' :: after →
    "SELECT ".toList <+: before ∧ ¬" FROM ".toList <:+: before ∧
      ('(' ∉ before ∧ EndsEntry after ∨ "COUNT(".toList <:+ before ∧ ")".toList <+: after)

/-- Every star of the text ends an entry, if the text goes on like this. -/
def StarsEnd (s rest : List Char) : Prop :=
  ∀ before after, s = before ++ '*' :: after → EndsEntry (after ++ rest)

variable {s t rest : List Char}

theorem starsEnd_of_not_mem (h : '*' ∉ s) : StarsEnd s rest := by
  rintro before after rfl
  exact absurd (List.mem_append_right before List.mem_cons_self) h

theorem starsEnd_append :
    StarsEnd (s ++ t) rest ↔ StarsEnd s (t ++ rest) ∧ StarsEnd t rest := by
  constructor
  · refine fun h => ⟨?_, ?_⟩
    · rintro before after rfl
      have := h before (after ++ t) (by simp)
      rwa [List.append_assoc] at this
    · rintro before after rfl
      exact h (s ++ before) after (by simp)
  · rintro ⟨hs, ht⟩ before after hwhole
    rcases List.append_eq_append_iff.mp hwhole with ⟨more, rfl, hmore⟩ | ⟨more, rfl, hmore⟩
    · exact ht more after hmore
    · cases more with
      | nil => exact ht [] after hmore.symm
      | cons c more =>
          obtain ⟨rfl, hrest⟩ := List.cons.inj hmore
          have hafter : after = more ++ t := hrest
          rw [hafter, List.append_assoc]
          exact hs before more rfl

/-- A star behind a text without one. -/
theorem star_behind (h : '*' ∉ s) {before after : List Char}
    (hwhole : s ++ t = before ++ '*' :: after) :
    ∃ more, before = s ++ more ∧ t = more ++ '*' :: after := by
  rcases List.append_eq_append_iff.mp hwhole with ⟨more, hbefore, ht⟩ | ⟨more, rfl, hmore⟩
  · exact ⟨more, hbefore, ht⟩
  · cases more with
    | nil => exact ⟨[], by simp, hmore.symm⟩
    | cons c more =>
        obtain ⟨rfl, -⟩ := List.cons.inj hmore
        exact absurd (List.mem_append_right before List.mem_cons_self) h

/-- A star in front of a text without one. -/
theorem star_in_front (h : '*' ∉ t) {before after : List Char}
    (hwhole : s ++ t = before ++ '*' :: after) :
    ∃ more, after = more ++ t ∧ s = before ++ '*' :: more := by
  rcases List.append_eq_append_iff.mp hwhole with ⟨more, -, rfl⟩ | ⟨more, rfl, hmore⟩
  · exact absurd (List.mem_append_right more List.mem_cons_self) h
  · cases more with
    | nil =>
        have hstar : '*' ∈ [] ++ t := hmore ▸ List.mem_cons_self
        exact absurd hstar h
    | cons c more =>
        obtain ⟨rfl, rfl⟩ := List.cons.inj hmore
        exact ⟨more, rfl, rfl⟩

/-- The stars of a select list have their places, if the statement goes on like this. -/
def ListPlaced (list rest : List Char) : Prop :=
  ∀ before after, list = before ++ '*' :: after →
    '(' ∉ before ∧ EndsEntry (after ++ rest) ∨
      "COUNT(".toList <:+ "SELECT ".toList ++ before ∧ ")".toList <+: after ++ rest

/-- The stars are placed if there are none behind the list and those of the list are. -/
theorem starsPlaced_select {list behind : List Char} (hlist : 'F' ∉ list) :
    StarsPlaced ("SELECT ".toList ++ (list ++ (" FROM ".toList ++ behind))) ↔
      '*' ∉ behind ∧ ListPlaced list (" FROM ".toList ++ behind) := by
  constructor
  · refine fun h => ⟨fun hstar => ?_, ?_⟩
    · obtain ⟨before, after, rfl⟩ := List.append_of_mem hstar
      refine (h ("SELECT ".toList ++ (list ++ (" FROM ".toList ++ before))) after (by simp)).2.1 ?_
      exact ⟨"SELECT ".toList ++ list, before, by simp⟩
    · rintro before after rfl
      obtain ⟨-, -, hplace⟩ := h ("SELECT ".toList ++ before)
        (after ++ (" FROM ".toList ++ behind)) (by simp)
      refine hplace.imp_left fun hentry => ⟨fun hparen => hentry.1 ?_, hentry.2⟩
      exact List.mem_append_right _ hparen
  · rintro ⟨hbehind, hplace⟩ whole after hwhole
    obtain ⟨before, rfl, hbehindSelect⟩ := star_behind (by decide) hwhole
    have hrest : '*' ∉ " FROM ".toList ++ behind := by
      rw [List.mem_append]
      exact not_or.mpr ⟨by decide, hbehind⟩
    obtain ⟨after, rfl, rfl⟩ := star_in_front hrest hbehindSelect
    refine ⟨List.prefix_append _ _, fun hfrom => ?_, ?_⟩
    · have hF : 'F' ∈ "SELECT ".toList ++ before := hfrom.subset (by decide)
      rcases List.mem_append.mp hF with hF | hF
      · exact absurd hF (by decide)
      · exact hlist (List.mem_append_left _ hF)
    · refine (hplace before after rfl).imp_left fun hentry => ⟨fun hparen => ?_, hentry.2⟩
      rcases List.mem_append.mp hparen with hparen | hparen
      · exact absurd hparen (by decide)
      · exact hentry.1 hparen

/-- A text that does not select has no place for a star. -/
theorem starsPlaced_of_head? (h : s.head? ≠ some 'S') : StarsPlaced s ↔ '*' ∉ s := by
  constructor
  · intro hplaced hstar
    obtain ⟨before, after, rfl⟩ := List.append_of_mem hstar
    obtain ⟨⟨more, rfl⟩, -⟩ := hplaced before after rfl
    exact h rfl
  · rintro hstar before after rfl
    exact absurd (List.mem_append_right before List.mem_cons_self) hstar

/-! ### Names in a select list -/

namespace Name

/-- The name without its alias. -/
def expression (name : String) : String :=
  match splitAlias? name with
  | some (expression, _) => expression
  | none => name

/-- A wildcard segment is the last one of the name, which may have an alias. -/
def WildLast (name : String) : Prop :=
  ['*'] ∉ ((expression name).toList.splitOn '.').dropLast

instance : DecidablePred WildLast := fun name =>
  inferInstanceAs (Decidable (['*'] ∉ ((expression name).toList.splitOn '.').dropLast))

/-- Of an accepted name its segments are left, and the keyword of its alias. -/
theorem bare_of_isAliased {name : String} (h : isAliased name = true) :
    ∃ keyword, bare name = bareDotted ((expression name).toList.splitOn '.') ++ keyword ∧
      (keyword = [] ∧ expression name = name ∨ keyword = " AS ".toList) := by
  unfold isAliased at h
  unfold expression
  cases hsplit : splitAlias? name with
  | none => exact ⟨[], by rw [bare_of_no_alias hsplit, List.append_nil], .inl ⟨rfl, rfl⟩⟩
  | some halves =>
      obtain ⟨expression, label⟩ := halves
      rw [hsplit, Bool.and_eq_true] at h
      have hplain : splitAlias? expression = none := splitAlias?_eq_none fun c hc =>
        isBlank_of_isMark (isMark_of_isIdentifier h.1 hc)
      have hlabel : label.toList ≠ ['*'] := by
        intro hstar
        rw [hstar] at h
        exact absurd h.2 (by decide)
      refine ⟨" AS ".toList, ?_, .inr rfl⟩
      rw [bare_of_alias hsplit, bare_of_no_alias hplain, bareSegment, if_neg hlabel,
        List.append_nil]

/-- Nothing but a star is left of the name that is a star only. -/
theorem eq_star_of_bare {name : String} (h : isAliased name = true) (hbare : bare name = ['*']) :
    name = "*" := by
  obtain ⟨keyword, hkept, ⟨rfl, hname⟩ | rfl⟩ := bare_of_isAliased h
  · rw [hkept, hname, List.append_nil] at hbare
    have hsplit : List.intercalate ['.'] (name.toList.splitOn '.') = name.toList :=
      List.intercalate_splitOn '.'
    rcases hparts : name.toList.splitOn '.' with _ | ⟨part, _ | ⟨next, more⟩⟩
    · rw [hparts] at hbare
      cases hbare
    · rw [hparts, bareDotted_singleton] at hbare
      have hstar : part = ['*'] := star_mem_bareSegment.mp (hbare ▸ List.mem_singleton_self '*')
      rw [hparts, hstar, List.intercalate_singleton] at hsplit
      exact String.toList_injective hsplit.symm
    · rw [hparts, bareDotted_cons_cons] at hbare
      have hdot : '.' ∈ ['*'] := hbare ▸ List.mem_append_right _ List.mem_cons_self
      exact absurd hdot (by decide)
  · have hkeyword : 'A' ∈ ['*'] := hbare ▸ hkept ▸ List.mem_append_right _ (by decide)
    exact absurd hkeyword (by decide)

end Name

theorem starsEnd_bareSegment {segment : List Char} (hrest : ¬EndsEntry rest) :
    StarsEnd (Name.bareSegment segment) rest ↔ ['*'] ≠ segment := by
  unfold Name.bareSegment
  by_cases hsegment : segment = ['*']
  · rw [if_pos hsegment]
    exact iff_of_false (fun h => hrest (h [] [] rfl)) fun h => h hsegment.symm
  · rw [if_neg hsegment]
    exact iff_of_true (starsEnd_of_not_mem List.not_mem_nil) (Ne.symm hsegment)

theorem starsEnd_star (hrest : EndsEntry rest) : StarsEnd ['*'] rest := by
  intro before after h
  cases before with
  | nil => cases h; exact hrest
  | cons c before => simp at h

theorem starsEnd_bareDotted {rest : List Char} (hrest : EndsEntry rest)
    (parts : List (List Char)) : StarsEnd (Name.bareDotted parts) rest ↔ ['*'] ∉ parts.dropLast := by
  induction parts with
  | nil => exact iff_of_true (starsEnd_of_not_mem List.not_mem_nil) List.not_mem_nil
  | cons first more ih =>
      cases more with
      | nil =>
          rw [Name.bareDotted_singleton]
          refine iff_of_true ?_ List.not_mem_nil
          unfold Name.bareSegment
          split
          · exact starsEnd_star hrest
          · exact starsEnd_of_not_mem List.not_mem_nil
      | cons next more =>
          have hdot : ∀ text : List Char, ¬EndsEntry ('.' :: text) := by
            rintro text (⟨more, h⟩ | ⟨more, h⟩ | ⟨more, h⟩)
            all_goals exact absurd (List.cons.inj h).1 (by decide)
          have hmore : StarsEnd ('.' :: Name.bareDotted (next :: more)) rest ↔
              ['*'] ∉ (next :: more).dropLast := by
            rw [← ih, ← List.singleton_append, starsEnd_append,
              and_iff_right (starsEnd_of_not_mem (by decide))]
          rw [Name.bareDotted_cons_cons, starsEnd_append, List.cons_append,
            starsEnd_bareSegment (hdot _), hmore, List.dropLast_cons_cons, List.mem_cons, not_or]

theorem starsEnd_bare {name : String} (h : Name.isAliased name = true) {rest : List Char}
    (hrest : EndsEntry rest) : StarsEnd (Name.bare name) rest ↔ Name.WildLast name := by
  obtain ⟨keyword, hbare, hkeyword⟩ := Name.bare_of_isAliased h
  have hstar : '*' ∉ keyword := by
    rcases hkeyword with ⟨rfl, -⟩ | rfl
    · exact List.not_mem_nil
    · decide
  have hends : EndsEntry (keyword ++ rest) := by
    rcases hkeyword with ⟨rfl, -⟩ | rfl
    · exact hrest
    · exact .inr (.inl (List.prefix_append _ _))
  rw [hbare, starsEnd_append, and_iff_left (starsEnd_of_not_mem hstar), starsEnd_bareDotted hends]
  rfl

/-- The stars of a list end their entries if those of each entry do. -/
theorem starsEnd_names {names : List String} (h : ∀ n ∈ names, Name.isAliased n = true)
    {rest : List Char} (hrest : EndsEntry rest) :
    StarsEnd (List.intercalate ", ".toList (names.map Name.bare)) rest ↔
      ∀ n ∈ names, Name.WildLast n := by
  induction names with
  | nil => exact iff_of_true (starsEnd_of_not_mem List.not_mem_nil) fun _ hn => nomatch hn
  | cons n names ih =>
      obtain ⟨hn, hnames⟩ := List.forall_mem_cons.mp h
      cases names with
      | nil => simpa using starsEnd_bare hn hrest
      | cons next names =>
          have hcomma : ∀ text : List Char, EndsEntry (", ".toList ++ text) := fun text =>
            .inl (List.prefix_append _ text)
          rw [List.forall_mem_cons, ← ih hnames, List.map_cons, List.map_cons,
            List.intercalate_cons_cons, List.append_assoc, starsEnd_append, List.append_assoc,
            starsEnd_bare hn (hcomma _), starsEnd_append,
            and_iff_right (starsEnd_of_not_mem (by decide))]

/-! ### What a select list leaves -/

/-- The name of an entry of the select list. -/
def Selection.names : Selection → List String
  | column name => [name]
  | raw .. => []

namespace Query

/-- The names of the select list. -/
def selected (q : Query) : List String :=
  q.selections.flatMap Selection.names

/-- What is left of what an aggregate is given. -/
def argumentLeft (distinct : Bool) (column : String) : List Char :=
  if column = "*" then ['*']
  else (if distinct then "DISTINCT ".toList else []) ++ Name.bare column

/-- What is left of a select list without what is quoted. -/
def listed (q : Query) : List Char :=
  match q.aggregate with
  | some (function, column) =>
    (function.sql ++ "(").toList ++ argumentLeft q.distinct column ++ ") AS ".toList
  | none =>
    (if q.distinct then "DISTINCT ".toList else []) ++
      (if q.selections.isEmpty then ['*']
        else List.intercalate ", ".toList (q.selected.map Name.bare))

/-- A wildcard of the select list ends its entry, and an aggregate of one is the count. -/
def ListTame (q : Query) : Prop :=
  match q.aggregate with
  | some (function, column) => if column = "*" then function = .count else ¬Name.IsWild column
  | none => ∀ n ∈ q.selected, Name.WildLast n

variable {q : Query} {d : Dialect}

theorem leaves_distinct (distinct : Bool) :
    Sql.Leaves d (if distinct then [.words "DISTINCT "] else [])
      (if distinct then "DISTINCT ".toList else []) := by
  cases distinct with
  | false => exact .nil
  | true => exact .words _ (by decide)

theorem leaves_aggregatePieces (distinct : Bool) (function : Aggregate) (column : String) :
    Sql.Leaves d (aggregatePieces distinct function column)
      ((function.sql ++ "(").toList ++ argumentLeft distinct column ++ ") AS ".toList) := by
  have hfunction : Dialect.AllPlain (function.sql ++ "(").toList := by
    cases function <;> decide
  have hargument : Sql.Leaves d (if column == "*" then [Piece.words "*"]
      else if distinct then [.words "DISTINCT ", .name column] else [.name column])
      (argumentLeft distinct column) := by
    unfold argumentLeft
    by_cases hstar : column = "*"
    · rw [if_pos (by simpa using hstar), if_pos hstar]
      exact .star
    · have hpieces : (if distinct then [Piece.words "DISTINCT ", .name column] else [.name column]) =
          (if distinct then [Piece.words "DISTINCT "] else []) ++ [.name column] := by
        cases distinct <;> rfl
      rw [if_neg (by simpa using hstar), if_neg hstar, hpieces]
      exact (leaves_distinct distinct).append (.name column)
  have hname : Name.bare aggregateName = [] := by
    rw [Name.bare_of_no_alias (by decide +kernel)]
    decide +kernel
  have hclosing : Sql.Leaves d [.words ") AS ", .name aggregateName] ") AS ".toList := by
    have hwords : Sql.Leaves d [.words ") AS "] ") AS ".toList := .words _ (by decide)
    have hwhole := hwords.append (.name aggregateName)
    rwa [hname, List.append_nil] at hwhole
  exact (Sql.Leaves.append (.words _ hfunction) hargument).append hclosing

namespace Checked

theorem map_selectionPieces (h : q.Checked NoText) :
    q.selections.map selectionPieces = q.selected.map fun n => [.name n] := by
  have hselections := h.selections
  unfold selected
  generalize q.selections = selections at hselections
  induction selections with
  | nil => rfl
  | cons s rest ih =>
      obtain ⟨hs, hrest⟩ := List.forall_mem_cons.mp hselections
      cases s with
      | column name => rw [List.map_cons, ih hrest]; rfl
      | raw sql bindings => exact hs.2.elim

theorem isAliased_of_mem_selected (h : q.Checked NoText) :
    ∀ n ∈ q.selected, Name.isAliased n = true := by
  intro n hn
  obtain ⟨s, hs, hmem⟩ := List.mem_flatMap.mp hn
  cases s with
  | column name =>
      rw [List.mem_singleton.mp hmem]
      exact h.selections _ hs
  | raw sql bindings => cases hmem

theorem leaves_selectPieces (h : q.Checked NoText) : Sql.Leaves d q.selectPieces q.listed := by
  unfold selectPieces listed
  rcases q.aggregate with _ | ⟨function, column⟩
  · refine (leaves_distinct q.distinct).append ?_
    split
    · exact .star
    · rw [h.map_selectionPieces]
      exact .names
  · exact leaves_aggregatePieces q.distinct function column

end Checked

theorem distinct_subset (distinct : Bool) :
    (if distinct then "DISTINCT ".toList else []) ⊆ "DISTINCT ".toList := by
  cases distinct <;> simp

theorem argumentLeft_subset (distinct : Bool) (column : String) :
    argumentLeft distinct column ⊆ "*. ASDISTINCT".toList := by
  unfold argumentLeft
  split
  · decide
  · exact List.append_subset.mpr ⟨List.Subset.trans (distinct_subset distinct) (by decide),
      List.Subset.trans (Name.bare_subset column) (by decide)⟩

theorem names_subset (names : List String) :
    List.intercalate ", ".toList (names.map Name.bare) ⊆ ", *.AS".toList := by
  intro c hc
  rcases Text.mem_intercalate hc with hc | ⟨part, hpart, hc⟩
  · exact (by decide : ", ".toList ⊆ ", *.AS".toList) hc
  · obtain ⟨n, -, rfl⟩ := List.mem_map.mp hpart
    exact List.Subset.trans (Name.bare_subset n) (by decide) hc

theorem fromless_listed (q : Query) : 'F' ∉ q.listed := by
  have hargument : 'F' ∉ "*. ASDISTINCT".toList := by decide
  have hdistinct : 'F' ∉ "DISTINCT ".toList := by decide
  have hnames : 'F' ∉ ", *.AS".toList := by decide
  unfold listed
  rcases q.aggregate with _ | ⟨function, column⟩
  · rw [List.mem_append]
    refine not_or.mpr ⟨fun hF => hdistinct (distinct_subset _ hF), ?_⟩
    split
    · decide
    · exact fun hF => hnames (names_subset _ hF)
  · have hfunction : 'F' ∉ (function.sql ++ "(").toList := by
      cases function <;> decide
    rw [List.mem_append, List.mem_append]
    exact not_or.mpr ⟨not_or.mpr ⟨hfunction, fun hF => hargument (argumentLeft_subset _ _ hF)⟩,
      by decide⟩

/-! ### Stars in a select list -/

/-- Without a call of a function the stars have to end entries. -/
theorem listPlaced_iff_starsEnd {list rest : List Char} (h : '(' ∉ list) :
    ListPlaced list rest ↔ StarsEnd list rest := by
  refine forall₃_congr fun before after hlist => ?_
  have hbefore : '(' ∉ before := fun hparen => h (hlist ▸ List.mem_append_left _ hparen)
  have hcount : ¬"COUNT(".toList <:+ "SELECT ".toList ++ before := by
    intro hsuffix
    rcases List.mem_append.mp (hsuffix.subset (by decide : '(' ∈ "COUNT(".toList)) with hparen | hparen
    · exact absurd hparen (by decide)
    · exact hbefore hparen
  rw [and_iff_right hbefore, or_iff_left fun hplace => hcount hplace.1]

/-- The stars of a list of names, or the one that stands for them. -/
theorem listPlaced_names {names : List String} (h : ∀ n ∈ names, Name.isAliased n = true)
    {rest : List Char} (hrest : EndsEntry rest) (distinct none : Bool) :
    ListPlaced ((if distinct then "DISTINCT ".toList else []) ++
      (if none then ['*'] else List.intercalate ", ".toList (names.map Name.bare))) rest ↔
        none = true ∨ ∀ n ∈ names, Name.WildLast n := by
  have hdistinct : '(' ∉ "DISTINCT ".toList ∧ '*' ∉ "DISTINCT ".toList := by decide
  have hnames : '(' ∉ ", *.AS".toList := by decide
  have hparen : '(' ∉ (if distinct then "DISTINCT ".toList else []) ++
      (if none then ['*'] else List.intercalate ", ".toList (names.map Name.bare)) := by
    rw [List.mem_append]
    refine not_or.mpr ⟨fun hc => hdistinct.1 (distinct_subset _ hc), ?_⟩
    split
    · decide
    · exact fun hc => hnames (names_subset _ hc)
  rw [listPlaced_iff_starsEnd hparen, starsEnd_append,
    and_iff_right (starsEnd_of_not_mem fun hc => hdistinct.2 (distinct_subset _ hc))]
  cases none with
  | true => exact iff_of_true (starsEnd_star hrest) (.inl rfl)
  | false => simpa using starsEnd_names h hrest

/-- The star that rows are counted by. -/
theorem listPlaced_star (function : Aggregate) (rest : List Char) :
    ListPlaced ((function.sql ++ "(").toList ++ ['*'] ++ ") AS ".toList) rest ↔
      function = .count := by
  constructor
  · intro h
    have hcalled : '(' ∈ (function.sql ++ "(").toList := by
      cases function <;> decide
    have hcount := (h (function.sql ++ "(").toList ") AS ".toList (by simp)).resolve_left
      fun hlist => hlist.1 hcalled
    have hsuffix := hcount.1
    cases function with
    | count => rfl
    | sum | avg | min | max => exact absurd hsuffix (by decide)
  · rintro rfl before after hlist
    rw [List.append_assoc] at hlist
    obtain ⟨more, rfl, hmore⟩ := star_behind (by decide) hlist
    cases more with
    | nil =>
        obtain rfl : ") AS ".toList = after := (List.cons.inj hmore).2
        exact .inr ⟨by decide, (List.prefix_append ")".toList " AS ".toList).trans
          (List.prefix_append _ _)⟩
    | cons c more =>
        have hwords : ") AS ".toList = more ++ '*' :: after := (List.cons.inj hmore).2
        have hstar : '*' ∈ ") AS ".toList := hwords ▸ List.mem_append_right more List.mem_cons_self
        exact absurd hstar (by decide)

/-- The stars of an argument that is more than a star have no place. -/
theorem listPlaced_called {opening argument : List Char} (hcalled : '(' ∈ opening)
    (hopening : '*' ∉ opening) (hparens : '(' ∉ argument ∧ ')' ∉ argument)
    (hmore : argument ≠ ['*']) (rest : List Char) :
    ListPlaced (opening ++ argument ++ ") AS ".toList) rest ↔ '*' ∉ argument := by
  constructor
  · intro hplaced hstar
    obtain ⟨before, after, rfl⟩ := List.append_of_mem hstar
    obtain ⟨⟨front, hsuffix⟩, hprefix⟩ :=
      (hplaced (opening ++ before) (after ++ ") AS ".toList) (by simp)).resolve_left
        fun hlist => hlist.1 (List.mem_append_left _ hcalled)
    rcases before.eq_nil_or_concat with rfl | ⟨inner, c, rfl⟩
    · cases after with
      | nil => exact hmore rfl
      | cons c after =>
          obtain ⟨behind, hclosing⟩ := hprefix
          have hc : c = ')' := (List.cons.inj hclosing).1.symm
          exact hparens.2 (by simp [hc])
    · have hcount : "COUNT(".toList = "COUNT".toList ++ ['('] := by decide
      have hlast := congrArg List.getLast? hsuffix
      rw [hcount, List.concat_eq_append, ← List.append_assoc, ← List.append_assoc,
        ← List.append_assoc, List.getLast?_concat, List.getLast?_concat] at hlast
      have hc : c = '(' := (Option.some.inj hlast).symm
      exact hparens.1 (by simp [hc])
  · rintro hstar before after hlist
    have hmem : '*' ∈ opening ++ argument ++ ") AS ".toList := hlist ▸ by simp
    rw [List.mem_append, List.mem_append] at hmem
    rcases hmem with (hmem | hmem) | hmem
    · exact absurd hmem hopening
    · exact absurd hmem hstar
    · exact absurd hmem (by decide)

/-- The star of an aggregate. -/
theorem listPlaced_aggregate (function : Aggregate) (distinct : Bool) {column : String}
    (h : column = "*" ∨ Name.isAliased column = true) (rest : List Char) :
    ListPlaced ((function.sql ++ "(").toList ++ argumentLeft distinct column ++ ") AS ".toList) rest ↔
      if column = "*" then function = .count else ¬Name.IsWild column := by
  by_cases hcolumn : column = "*"
  · rw [argumentLeft, if_pos hcolumn, if_pos hcolumn]
    exact listPlaced_star function rest
  · have hcalled : '(' ∈ (function.sql ++ "(").toList ∧ '*' ∉ (function.sql ++ "(").toList := by
      cases function <;> decide
    have hsubset := argumentLeft_subset distinct column
    have hparens : '(' ∉ argumentLeft distinct column ∧ ')' ∉ argumentLeft distinct column :=
      ⟨fun hc => absurd (hsubset hc) (by decide), fun hc => absurd (hsubset hc) (by decide)⟩
    have hdistinct : '*' ∉ "DISTINCT ".toList := by decide
    have hstar : '*' ∈ argumentLeft distinct column ↔ Name.IsWild column := by
      rw [argumentLeft, if_neg hcolumn, List.mem_append, ← Name.star_mem_bare,
        or_iff_right fun hc => hdistinct (distinct_subset _ hc)]
    have hmore : argumentLeft distinct column ≠ ['*'] := by
      rw [argumentLeft, if_neg hcolumn]
      cases distinct with
      | false => exact fun hbare => hcolumn (Name.eq_star_of_bare (h.resolve_left hcolumn) hbare)
      | true => exact fun hbare => absurd (List.cons.inj hbare).1 (by decide)
    rw [listPlaced_called hcalled.1 hcalled.2 hparens hmore, hstar, if_neg hcolumn]

theorem Checked.listPlaced_listed (h : q.Checked NoText) {rest : List Char}
    (hrest : EndsEntry rest) : ListPlaced q.listed rest ↔ q.ListTame := by
  unfold listed ListTame
  rcases haggregate : q.aggregate with _ | ⟨function, column⟩
  · rw [listPlaced_names h.isAliased_of_mem_selected hrest]
    refine or_iff_right_of_imp fun hempty n hn => ?_
    rw [selected, List.isEmpty_iff.mp hempty] at hn
    cases hn
  · exact listPlaced_aggregate function q.distinct (h.aggregate function column haggregate) rest

/-! ### Stars of a statement -/

theorem Checked.starsPlaced_toSql (h : q.Checked NoText) {st : Statement}
    (hst : q.toSql d = .ok st) :
    StarsPlaced (d.unquoted st.sql) ↔ (∀ n ∈ q.namesBehind, ¬Name.IsWild n) ∧ q.ListTame := by
  obtain ⟨table, htable, hsql⟩ :=
    (q.refused_or_toSql_eq d).resolve_left (not_refused_of_toSql hst)
  rw [hst] at hsql
  cases hsql
  have hpieces : q.readPieces table d = [.words "SELECT "] ++ (q.selectPieces ++
      ([.words " FROM "] ++ q.behindPieces table d)) := by
    simp [readPieces, behindPieces]
  have hselect : Sql.Leaves d [.words "SELECT "] "SELECT ".toList := .words _ (by decide)
  have hfrom : Sql.Leaves d [.words " FROM "] " FROM ".toList := .words _ (by decide)
  obtain ⟨left, hleaves, hstar⟩ : ∃ left, d.Leaves (Sql.text d 0 (q.readPieces table d)).toList
      ("SELECT ".toList ++ (q.listed ++ (" FROM ".toList ++ left))) ∧
        ('*' ∈ left ↔ ∃ n ∈ q.namesBehind, Name.IsWild n) := by
    simp only [hpieces, Sql.text_append, String.toList_append]
    exact (h.spells_behind htable _).imp fun left hleft =>
      ⟨(hselect _).append ((h.leaves_selectPieces _).append ((hfrom _).append hleft.1)), hleft.2⟩
  have hends : EndsEntry (" FROM ".toList ++ left) := .inr (.inr (List.prefix_append _ _))
  rw [Sql.render, hleaves.unquoted, starsPlaced_select q.fromless_listed, hstar,
    h.listPlaced_listed hends]
  simp

theorem starsPlaced_of_writes {pieces : List Piece} {names : List String}
    (h : Writes d pieces names) :
    StarsPlaced (d.unquoted (Sql.render d pieces).sql) ↔ ∀ n ∈ names, ¬Name.IsWild n := by
  obtain ⟨verb, rest, rfl, htame, ⟨c, hverb, hc⟩, hrest⟩ := h
  obtain ⟨left, hleft, hstar⟩ := hrest 0
  have hleaves : d.Leaves (Sql.text d 0 (.words verb :: rest)).toList (verb.toList ++ left) := by
    rw [Sql.text, String.toList_append]
    exact (Dialect.Leaves.tame htame).append hleft
  have hhead : (verb.toList ++ left).head? ≠ some 'S' := by
    rw [List.head?_append, Option.mem_def.mp hverb, Option.some_or]
    simpa using hc
  rw [Sql.render, hleaves.unquoted, starsPlaced_of_head? hhead, List.mem_append, hstar,
    or_iff_right (Dialect.star_not_mem_of_tame htame)]
  simp

/-- Which names the star of a statement can stand for. -/
theorem starsPlaced_iff (calls : List QueryCall) (hraw : ∀ call ∈ calls, call.fragments = [])
    {k : StatementKind} (hk : k ≠ .count) {st : Statement}
    (hst : (built calls).statement k d = .ok st) :
    StarsPlaced (d.unquoted st.sql) ↔
      (∀ n ∈ (built calls).namesIn k, ¬Name.IsWild n) ∧ (k = .read → (built calls).ListTame) := by
  have hchecked : (built calls).Checked NoText := checked_built calls fun call hcall sql hsql => by
    rw [hraw call hcall] at hsql
    cases hsql
  generalize built calls = q at hst hchecked
  by_cases hread : k = .read
  · subst hread
    rw [hchecked.starsPlaced_toSql hst]
    simp [namesIn]
  · rw [statement_eq] at hst
    cases hpieces : q.statementPieces k d with
    | error e =>
        rw [hpieces] at hst
        cases hst
    | ok pieces =>
        rw [hpieces] at hst
        cases hst
        rw [starsPlaced_of_writes (hchecked.writes_statementPieces hread hk hpieces)]
        simp [hread]

end Query

end Relational
