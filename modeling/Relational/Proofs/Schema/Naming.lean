import Relational.Dialect.Index
import Relational.Proofs.Name
/-
Which name a statement gives or takes.

An index or a foreign key is named in the statement that makes it and again in the one
that drops it.  The name is read off the text alone: it stands behind a word that
introduces one, and goes up to the word the statement continues with.  Words count only
outside quotes, so it does not matter what a name looks like inside.
-/
namespace Relational

/-! ### Words outside quotes -/

/-- Where the reading of a text stands with respect to quoted names. -/
inductive Quoting where
  | outside
  | inside
  /-- Behind a closing quote, which may turn out to be doubled. -/
  | closed
  deriving DecidableEq

namespace Quoting

/-- Where the reading stands behind one more character. -/
def next (d : Dialect) : Quoting → Char → Quoting
  | inside, c => if c = d.quotes.2 then closed else inside
  | closed, c => if c = d.quotes.2 ∨ c = d.quotes.1 then inside else outside
  | outside, c => if c = d.quotes.1 then inside else outside

/-- The text behind the first of some words that the text begins with; inside quotes there are no
words. -/
def behind? (words : List String) (q : Quoting) (s : List Char) : Option (List Char) :=
  if q = inside then none else words.findSome? fun w => Text.afterLead? w.toList s

/-- The text in front of the first of some words outside quotes, and the text behind that word. -/
def cut? (d : Dialect) (words : List String) : Quoting → List Char → Option (List Char × List Char)
  | _, [] => none
  | q, c :: rest =>
    match behind? words q (c :: rest) with
    | some behind => some ([], behind)
    | none => (cut? d words (q.next d c) rest).map fun (front, behind) => (c :: front, behind)

variable {d : Dialect} {words : List String} {q : Quoting} {c : Char} {s t rest : List Char}

/-- A word can begin with the character. -/
def Begins (words : List String) (c : Char) : Prop :=
  ∃ w ∈ words, w.toList.head? = none ∨ w.toList.head? = some c

instance (words : List String) (c : Char) : Decidable (Begins words c) :=
  inferInstanceAs (Decidable (∃ w ∈ words, _))

theorem behind?_eq_none (h : q = inside ∨ ¬Begins words c) : behind? words q (c :: rest) = none := by
  unfold behind?
  split
  · rfl
  · rename_i houtside
    refine List.findSome?_eq_none_iff.mpr fun w hw => ?_
    have hbegins := h.resolve_left houtside
    cases hlist : w.toList with
    | nil => exact absurd ⟨w, hw, by simp [hlist]⟩ hbegins
    | cons x others =>
        have hne : x ≠ c := fun hx => hbegins ⟨w, hw, by simp [hlist, hx]⟩
        rw [Text.afterLead?, if_neg hne]

theorem cut?_cons (h : q = inside ∨ ¬Begins words c) :
    cut? d words q (c :: rest) =
      (cut? d words (q.next d c) rest).map fun (front, behind) => (c :: front, behind) := by
  rw [cut?, behind?_eq_none h]

/-! ### Texts without words -/

/-- The reading passes the text, which has all its quotes closed, and finds no word in it. -/
def Skips (d : Dialect) (words : List String) (s : List Char) : Prop :=
  ∀ q rest, q ≠ inside → ∃ r, r ≠ inside ∧
    cut? d words q (s ++ rest) =
      (cut? d words r rest).map fun (front, behind) => (s ++ front, behind)

namespace Skips

theorem nil : Skips d words [] :=
  fun q _ hq => ⟨q, hq, by simp⟩

theorem append (hs : Skips d words s) (ht : Skips d words t) : Skips d words (s ++ t) := by
  intro q rest hq
  obtain ⟨r, hr, hfirst⟩ := hs q (t ++ rest) hq
  obtain ⟨r', hr', hsecond⟩ := ht r rest hr
  refine ⟨r', hr', ?_⟩
  rw [List.append_assoc, hfirst, hsecond, Option.map_map]
  simp [Function.comp_def]

theorem joined {separator : List Char} (hseparator : Skips d words separator)
    {parts : List (List Char)} (h : ∀ part ∈ parts, Skips d words part) :
    Skips d words (List.intercalate separator parts) := by
  induction parts with
  | nil => exact .nil
  | cons part others ih =>
      cases others with
      | nil => simpa using h part (by simp)
      | cons next others =>
          rw [List.intercalate_cons_cons]
          exact ((h part (by simp)).append hseparator).append (ih fun p hp => h p (by simp [hp]))

end Skips

/-- A character that is no quote and begins no word. -/
def IsPlain (d : Dialect) (words : List String) (c : Char) : Prop :=
  c ≠ d.quotes.1 ∧ c ≠ d.quotes.2 ∧ ¬Begins words c

instance (d : Dialect) (words : List String) (c : Char) : Decidable (IsPlain d words c) :=
  inferInstanceAs (Decidable (_ ∧ _))

/-- A text of such characters. -/
def IsPlainText (d : Dialect) (words : List String) (s : List Char) : Prop :=
  ∀ c ∈ s, IsPlain d words c

instance (d : Dialect) (words : List String) (s : List Char) : Decidable (IsPlainText d words s) :=
  List.decidableBAll _ s

theorem skips_of_isPlainText (h : IsPlainText d words s) : Skips d words s := by
  induction s with
  | nil => exact .nil
  | cons c s ih =>
      obtain ⟨hopening, hclosing, hbegins⟩ := h c (by simp)
      refine Skips.append (s := [c]) (fun q rest hq => ⟨outside, by decide, ?_⟩)
        (ih fun x hx => h x (by simp [hx]))
      have hnext : q.next d c = outside := by
        cases q with
        | outside => exact if_neg hopening
        | inside => exact absurd rfl hq
        | closed => exact if_neg (by simp [hopening, hclosing])
      rw [List.singleton_append, cut?_cons (.inr hbegins), hnext]
      rfl

/-! ### Quoted names -/

/-- No word begins with what stands in a quoted name outside its quotes, nor with a quote. -/
def Apart (d : Dialect) (words : List String) : Prop :=
  ¬Begins words d.quotes.1 ∧ ¬Begins words d.quotes.2 ∧ IsPlainText d words "*. AS".toList

instance (d : Dialect) (words : List String) : Decidable (Apart d words) :=
  inferInstanceAs (Decidable (_ ∧ _))

theorem skips_of_subset (h : Apart d words) (hs : s ⊆ "*. AS".toList) : Skips d words s :=
  skips_of_isPlainText fun c hc => h.2.2 c (hs hc)

/-- Up to the closing quote, doubled ones come in pairs. -/
theorem cut?_doubled (hclosing : ¬Begins words d.quotes.2) (s rest : List Char) :
    cut? d words inside (Text.doubled d.quotes.2 s ++ d.quotes.2 :: rest) =
      (cut? d words closed rest).map fun (front, behind) =>
        (Text.doubled d.quotes.2 s ++ d.quotes.2 :: front, behind) := by
  have hopened : next d inside d.quotes.2 = closed := if_pos rfl
  induction s with
  | nil => rw [Text.doubled, List.nil_append, cut?_cons (.inl rfl), hopened]; rfl
  | cons c s ih =>
      rw [Text.doubled]
      split
      · rename_i hc
        subst hc
        have hagain : next d closed d.quotes.2 = inside := if_pos (.inl rfl)
        rw [List.cons_append, List.cons_append, cut?_cons (.inl rfl), hopened,
          cut?_cons (.inr hclosing), hagain, ih]
        simp [Function.comp_def]
      · rename_i hc
        have hinner : next d inside c = inside := if_neg hc
        rw [List.cons_append, cut?_cons (.inl rfl), hinner, ih]
        simp [Function.comp_def]

theorem skips_enclosed (h : Apart d words) (s : String) :
    Skips d words (Text.enclosed d.quotes.1 d.quotes.2 s).toList := by
  intro q rest hq
  have hopened : q.next d d.quotes.1 = inside := by
    cases q with
    | outside => exact if_pos rfl
    | inside => exact absurd rfl hq
    | closed => exact if_pos (.inr rfl)
  refine ⟨closed, by decide, ?_⟩
  rw [Text.enclosed, String.toList_ofList, List.cons_append, cut?_cons (.inr h.1), hopened,
    List.append_assoc, List.singleton_append, cut?_doubled h.2.1]
  simp [Function.comp_def]

theorem skips_quoteSegment (h : Apart d words) (segment : String) :
    Skips d words (d.quoteSegment segment).toList := by
  unfold Dialect.quoteSegment
  split
  · exact skips_of_subset h (by decide)
  · exact skips_enclosed h segment

theorem skips_quoteDotted (h : Apart d words) (name : String) :
    Skips d words (d.quoteDotted name).toList := by
  have hdot : Skips d words ".".toList := skips_of_subset h (by decide)
  rw [Dialect.quoteDotted, String.toList_intercalate]
  refine hdot.joined fun part hpart => ?_
  obtain ⟨quoted, hquoted, rfl⟩ := List.mem_map.mp hpart
  obtain ⟨segment, -, rfl⟩ := List.mem_map.mp hquoted
  exact skips_quoteSegment h _

/-- No word is found in a quoted name, whatever the name is. -/
theorem skips_quoteName (h : Apart d words) (name : String) :
    Skips d words (d.quoteName name).toList := by
  have halias : Skips d words " AS ".toList := skips_of_subset h (by decide)
  fun_induction Dialect.quoteName d name with
  | case1 name expression label hsplit ih =>
      rw [String.toList_append, String.toList_append]
      exact (ih.append halias).append (skips_quoteSegment h label)
  | case2 name hsplit => exact skips_quoteDotted h name

end Quoting

/-! ### Names in statements -/

/-- Words in front of the name of an index or a foreign key. -/
def namingWords : List String :=
  ["INDEX ", "CONSTRAINT ", "FOREIGN KEY "]

/-- Words that a statement continues with behind such a name. -/
def continuingWords : List String :=
  ["ON ", "FOREIGN KEY ("]

namespace Dialect

open Quoting

variable (d : Dialect)

/-- The text up to the word that a statement continues with; a blank stands in front of the word. -/
def upToWord (behind : List Char) : List Char :=
  match cut? d continuingWords .outside behind with
  | some (name, _) => name.dropLast
  | none => behind

/-- The name of the index or the foreign key that a text makes or drops, as it is written. -/
def nameIn? (sql : String) : Option String :=
  (cut? d namingWords .outside sql.toList).map fun found => String.ofList (d.upToWord found.2)

theorem apart_namingWords : Apart d namingWords := by
  cases d <;> decide

theorem apart_continuingWords : Apart d continuingWords := by
  cases d <;> decide

/-- What may stand behind a name: nothing, or a blank and a continuing word. -/
def Continues (rest : String) : Prop :=
  rest = "" ∨ ∃ word ∈ continuingWords, ∃ more, rest = " " ++ word ++ more

theorem continues_on (more : String) : Continues (" ON " ++ more) :=
  .inr ⟨"ON ", by decide, more, rfl⟩

theorem continues_foreignKey (more : String) : Continues (" FOREIGN KEY (" ++ more) :=
  .inr ⟨"FOREIGN KEY (", by decide, more, rfl⟩

theorem upToWord_quoteName (name : String) {rest : String} (h : Continues rest) :
    d.upToWord ((d.quoteName name).toList ++ rest.toList) = (d.quoteName name).toList := by
  obtain ⟨q, hq, hcut⟩ :=
    skips_quoteName d.apart_continuingWords name .outside rest.toList (by decide)
  rw [upToWord, hcut]
  rcases h with rfl | ⟨word, hword, more, rfl⟩
  · simp [cut?]
  · have hspace : Skips d continuingWords [' '] :=
      skips_of_subset d.apart_continuingWords (by decide)
    obtain ⟨r, hr, hblank⟩ := hspace q (word.toList ++ more.toList) hq
    have hfound : cut? d continuingWords r (word.toList ++ more.toList) =
        some ([], more.toList) := by
      simp only [continuingWords, List.mem_cons, List.not_mem_nil, or_false] at hword
      rcases hword with rfl | rfl
      all_goals
        cases r with
        | inside => exact absurd rfl hr
        | outside => rfl
        | closed => rfl
    have hrest : (" " ++ word ++ more).toList = [' '] ++ (word.toList ++ more.toList) := by
      simp
    rw [hrest, hblank, hfound]
    simp

/-- The first naming word of the text is its end. -/
def Introduces (lead : String) : Prop :=
  ∀ q behind, q ≠ .inside → ∃ front,
    cut? d namingWords q (lead.toList ++ behind) = some (front, behind)

variable {d} {lead : String}

/-- What a naming word introduces is the name in the statement. -/
theorem Introduces.nameIn?_eq (h : d.Introduces lead) (name : String) {rest : String}
    (hrest : Continues rest) :
    d.nameIn? (lead ++ d.quoteName name ++ rest) = some (d.quoteName name) := by
  obtain ⟨front, hfront⟩ := h .outside ((d.quoteName name).toList ++ rest.toList) (by decide)
  rw [nameIn?, String.toList_append, String.toList_append, List.append_assoc, hfront,
    Option.map_some, d.upToWord_quoteName name hrest, String.ofList_toList]

/-- A text that ends with the name. -/
theorem Introduces.nameIn?_last (h : d.Introduces lead) (name : String) :
    d.nameIn? (lead ++ d.quoteName name) = some (d.quoteName name) := by
  have hend : d.nameIn? (lead ++ d.quoteName name ++ "") = some (d.quoteName name) :=
    h.nameIn?_eq name (.inl rfl)
  rwa [String.append_empty] at hend

theorem introduces_of_mem (h : lead ∈ namingWords) : d.Introduces lead := by
  intro q behind hq
  simp only [namingWords, List.mem_cons, List.not_mem_nil, or_false] at h
  rcases h with rfl | rfl | rfl
  all_goals
    cases q with
    | inside => exact absurd rfl hq
    | outside => exact ⟨_, rfl⟩
    | closed => exact ⟨_, rfl⟩

theorem Introduces.behind {text : String} (h : d.Introduces lead)
    (htext : Skips d namingWords text.toList) : d.Introduces (text ++ lead) := by
  intro q behind hq
  obtain ⟨r, hr, htext⟩ := htext q (lead.toList ++ behind) hq
  obtain ⟨front, hfront⟩ := h r behind hr
  refine ⟨text.toList ++ front, ?_⟩
  rw [String.toList_append, List.append_assoc, htext, hfront]
  rfl

/-! ### Indexes -/

variable {table : String} {s : String}

/-- What is made by the statement of an index. -/
def indexKeywords : List String :=
  ["INDEX", "UNIQUE INDEX", "SPATIAL INDEX", "FULLTEXT INDEX"]

theorem introduces_create {keyword : String} (h : keyword ∈ indexKeywords) :
    d.Introduces ("CREATE " ++ keyword ++ " ") := by
  intro q behind hq
  simp only [indexKeywords, List.mem_cons, List.not_mem_nil, or_false] at h
  rcases h with rfl | rfl | rfl | rfl
  all_goals
    cases q with
    | inside => exact absurd rfl hq
    | outside => cases d <;> exact ⟨_, rfl⟩
    | closed => cases d <;> exact ⟨_, rfl⟩

/-- A statement that makes an index of the name, whatever it is an index of. -/
def MakesIndex (d : Dialect) (name s : String) : Prop :=
  ∃ keyword ∈ indexKeywords, ∃ rest,
    s = "CREATE " ++ keyword ++ " " ++ d.quoteName name ++ " ON " ++ rest

theorem MakesIndex.append {name : String} (h : d.MakesIndex name s) (more : String) :
    d.MakesIndex name (s ++ more) := by
  obtain ⟨keyword, hkeyword, rest, rfl⟩ := h
  exact ⟨keyword, hkeyword, rest ++ more, String.append_assoc⟩

theorem makesIndex_createIndexAs {keyword : String} (h : keyword ∈ indexKeywords) (i : Index) :
    d.MakesIndex (i.nameOn table) (d.createIndexAs keyword table i) := by
  refine MakesIndex.append (.append (.append ?_ _) _) _
  exact ⟨keyword, h, d.quoteName table, rfl⟩

theorem makesIndex_createPostgresIndex {i : Index} (hkind : i.kind ≠ .primary)
    (h : createPostgresIndex table i = .ok s) : postgres.MakesIndex (i.nameOn table) s := by
  have hon : ∀ keyword ∈ indexKeywords, ∀ rest,
      postgres.MakesIndex (i.nameOn table) ("CREATE " ++ keyword ++ " " ++
        postgres.quoteName (i.nameOn table) ++ " ON " ++ postgres.quoteName table ++ rest) :=
    fun keyword hkeyword rest => MakesIndex.append ⟨keyword, hkeyword, _, rfl⟩ rest
  unfold createPostgresIndex at h
  dsimp only at h
  split at h
  · exact absurd ‹_› hkind
  · cases h
    exact hon "INDEX" (by decide) _
  · cases h
    exact hon "UNIQUE INDEX" (by decide) _
  · cases h
    exact hon "INDEX" (by decide) _
  · cases h
    exact hon "INDEX" (by decide) _

/-- An index that is no primary key is made under its name. -/
theorem makesIndex_createIndex {i : Index} (hkind : i.kind ≠ .primary)
    (h : d.createIndex table i = .ok s) : d.MakesIndex (i.nameOn table) s := by
  unfold createIndex at h
  split at h
  · exact makesIndex_createPostgresIndex hkind h
  · exact absurd ‹_› hkind
  · cases h
    refine MakesIndex.append (makesIndex_createIndexAs ?_ i) _
    split <;> decide
  · cases h
    exact makesIndex_createIndexAs (by decide) i
  · cases h
    exact makesIndex_createIndexAs (by decide) i
  · cases h
    exact makesIndex_createIndexAs (by decide) i
  · cases h
  · cases h

theorem MakesIndex.nameIn?_eq {name : String} (h : d.MakesIndex name s) :
    d.nameIn? s = some (d.quoteName name) := by
  obtain ⟨keyword, hkeyword, rest, rfl⟩ := h
  rw [String.append_assoc]
  exact (introduces_create hkeyword).nameIn?_eq name (continues_on rest)

theorem nameIn?_dropIndex (name : String) :
    d.nameIn? (d.dropIndex table name) = some (d.quoteName name) := by
  have hlead : d.Introduces ("DROP " ++ "INDEX ") :=
    (introduces_of_mem (by decide)).behind (skips_of_isPlainText (by cases d <;> decide))
  have hon : d.nameIn? ("DROP INDEX " ++ d.quoteName name ++ " ON " ++ d.quoteName table) =
      some (d.quoteName name) := by
    rw [String.append_assoc]
    exact hlead.nameIn?_eq name (continues_on _)
  unfold dropIndex
  split
  · exact hon
  · exact hon
  · exact hlead.nameIn?_last name

/-! ### Foreign keys -/

/-- A foreign key is named, and then its columns. -/
theorem foreignKeyClause_eq (d : Dialect) (fk : ForeignKey) : ∃ more,
    d.foreignKeyClause fk =
      "CONSTRAINT " ++ d.quoteName fk.resolvedName ++ (" FOREIGN KEY (" ++ more) := by
  unfold foreignKeyClause
  simp only [String.append_assoc]
  exact ⟨_, rfl⟩

theorem nameIn?_foreignKeyClause (fk : ForeignKey) :
    d.nameIn? (d.foreignKeyClause fk) = some (d.quoteName fk.resolvedName) := by
  obtain ⟨more, hclause⟩ := d.foreignKeyClause_eq fk
  rw [hclause]
  exact (introduces_of_mem (by decide)).nameIn?_eq _ (continues_foreignKey more)

/-- A change of a table up to a naming word. -/
theorem introduces_alterTable {verb word : String} (hverb : verb ∈ [" ADD ", " DROP "])
    (hword : word ∈ namingWords) : d.Introduces (d.alterTable table ++ verb ++ word) := by
  have halter : Skips d namingWords "ALTER TABLE ".toList :=
    skips_of_isPlainText (by cases d <;> decide)
  have hplain : Skips d namingWords verb.toList := by
    simp only [List.mem_cons, List.not_mem_nil, or_false] at hverb
    rcases hverb with rfl | rfl
    · exact skips_of_isPlainText (by cases d <;> decide)
    · exact skips_of_isPlainText (by cases d <;> decide)
  refine (introduces_of_mem hword).behind ?_
  rw [alterTable, String.toList_append, String.toList_append]
  exact (halter.append (skips_quoteName d.apart_namingWords table)).append hplain

theorem nameIn?_addForeign {fk : ForeignKey} (h : d.addForeign table fk = .ok s) :
    d.nameIn? s = some (d.quoteName fk.resolvedName) := by
  have hlead : d.Introduces (d.alterTable table ++ " ADD " ++ "CONSTRAINT ") :=
    introduces_alterTable (by decide) (by decide)
  obtain ⟨more, hclause⟩ := d.foreignKeyClause_eq fk
  unfold addForeign at h
  split at h
  · cases h
  · cases h
    have hread := hlead.nameIn?_eq fk.resolvedName (continues_foreignKey more)
    rw [hclause]
    simpa only [String.append_assoc] using hread

theorem nameIn?_dropForeign {name : String} (h : d.dropForeign table name = .ok s) :
    d.nameIn? s = some (d.quoteName name) := by
  have hread : ∀ word ∈ namingWords,
      d.nameIn? (d.alterTable table ++ (" DROP " ++ word) ++ d.quoteName name) =
        some (d.quoteName name) := by
    intro word hword
    rw [← String.append_assoc]
    exact (introduces_alterTable (by decide) hword).nameIn?_last name
  unfold dropForeign at h
  split at h
  · cases h
  · cases h
    exact hread "FOREIGN KEY " (by decide)
  · cases h
    exact hread "CONSTRAINT " (by decide)

end Dialect

end Relational
