import Relational.Proofs.Schema.Creation
/-
What a stored definition is taken for.

Whether a column is computed, is the primary key or refers to another table is read off
phrases in its stored definition.  In a definition that the compiler wrote, a phrase can
only stand inside one of the texts that the blueprint gives the column, the default or
the values of an enumeration: the rest of the definition is names, numbers and words
that no phrase opens with, and no phrase reaches across a quote.  The one exception is
the primary key of a counter.
-/
namespace Relational

open Text

/-! ### Phrases -/

namespace TableItem

/-- The words that phrases open with. -/
def openers : List (List Char) :=
  ["GENERATED".toList, "AS".toList, "PRIMARY".toList, "REFERENCES".toList]

/-- The phrases of a computed column. -/
def generatedPhrases : List (List Char) :=
  [" GENERATED ALWAYS ".toList, " AS (".toList, " AS(".toList]

/-- A phrase is a space, one of the words, and more, but never a quote. -/
structure IsPhrase (opener phrase : List Char) : Prop where
  opener_mem : opener ∈ openers
  opens : ' ' :: opener <+: phrase
  unquoted : '\'' ∉ phrase

theorem isPhrase_generated {phrase : List Char} (h : phrase ∈ generatedPhrases) :
    ∃ opener, opener ≠ "PRIMARY".toList ∧ IsPhrase opener phrase := by
  simp only [generatedPhrases, List.mem_cons, List.not_mem_nil, or_false] at h
  rcases h with rfl | rfl | rfl
  · exact ⟨"GENERATED".toList, by decide, by decide, by decide, by decide⟩
  · exact ⟨"AS".toList, by decide, by decide, by decide, by decide⟩
  · exact ⟨"AS".toList, by decide, by decide, by decide, by decide⟩

theorem isPhrase_primary : IsPhrase "PRIMARY".toList " PRIMARY KEY".toList :=
  ⟨by decide, by decide, by decide⟩

theorem isPhrase_references : IsPhrase "REFERENCES".toList " REFERENCES".toList :=
  ⟨by decide, by decide, by decide⟩

/-! ### What the phrases are looked for in -/

/-- The definition does not start with a blank. -/
def Starts (s : String) : Prop :=
  ∃ c rest, s.toList = c :: rest ∧ isBlank c = false

variable {name s : String}

theorem contains_normalized (h : Starts s) (phrase : String) :
    contains (normalized s) phrase.toList = true ↔ Says phrase.toList false s.toList := by
  obtain ⟨c, rest, hs, hc⟩ := h
  rw [contains_iff, normalized, hs, squeezed_eq_folded hc, Says]

theorem isGenerated_iff (h : Starts s) : (column name s).isGenerated = true ↔
    ∃ phrase ∈ generatedPhrases, Says phrase false s.toList := by
  simp only [isGenerated, Bool.or_eq_true, contains_normalized h, generatedPhrases,
    List.mem_cons, List.not_mem_nil, or_false, exists_eq_or_imp, exists_eq_left, or_assoc]

theorem isInlinePrimary_iff (h : Starts s) : (column name s).isInlinePrimary = true ↔
    Says " PRIMARY KEY".toList false s.toList :=
  contains_normalized h " PRIMARY KEY"

theorem isSome_references?_iff :
    (column name s).references?.isSome = true ↔ Says " REFERENCES".toList false s.toList := by
  have hfrom : ∀ blank text, (referencesFrom? blank text).isSome = true ↔
      Says (' ' :: "REFERENCES".toList) blank text := by
    intro blank text
    induction text generalizing blank with
    | nil => cases blank <;> decide
    | cons c rest ih =>
        have hlead := isSome_afterLead? "REFERENCES".toList (asciiUpper (c :: rest))
        rw [referencesFrom?]
        cases hc : isBlank c with
        | true =>
            have hnone : (afterLead? "REFERENCES".toList (asciiUpper (c :: rest))).isSome = false := by
              rw [← Bool.not_eq_true, hlead]
              intro h
              have hr : 'R' = c.toUpper := (List.cons_prefix_cons.mp h).1
              rw [toUpper_of_isBlank hc] at hr
              rw [← hr] at hc
              cases hc
            rw [hnone, Bool.and_false, if_neg Bool.false_ne_true, Says, folded_blank hc]
            exact ih true
        | false =>
            rw [says_letter (unbroken_of_any (by decide)) hc, ← ih false, ← hlead]
            cases blank with
            | false => simp
            | true =>
                cases (afterLead? "REFERENCES".toList (asciiUpper (c :: rest))).isSome with
                | true => simp
                | false => simp
  rw [references?, Option.isSome_map]
  exact hfrom false s.toList

/-! ### Text that opens no phrase -/

variable {opener : List Char}

/-- No phrase opens in the text. -/
def Quiet (opener : List Char) (gap : Bool) (s : List Char) : Prop :=
  ¬ Says (' ' :: opener) gap s

instance (opener : List Char) (gap : Bool) (s : List Char) : Decidable (Quiet opener gap s) :=
  inferInstanceAs (Decidable (¬ _))

theorem isBlank_of_mem_opener (hopener : opener ∈ openers) : ∀ c ∈ opener, isBlank c = false := by
  have hall : ∀ o ∈ openers, o.any isBlank = false := by
    decide
  exact unbroken_of_any (hall opener hopener)

theorem Quiet.append_blank (hopener : opener ∈ openers) {gap : Bool} {a b : List Char}
    (ha : Quiet opener gap a) (hb : Quiet opener true b) : Quiet opener gap (a ++ ' ' :: b) := by
  have hspace : ' ' ∉ opener := fun h => nomatch isBlank_of_mem_opener hopener _ h
  rw [Quiet, says_append_blank (by decide) hspace, not_or]
  exact ⟨ha, hb⟩

/-- One word that no phrase starts like. -/
theorem quiet_word (hopener : opener ∈ openers) {s : List Char}
    (hunbroken : ∀ c ∈ s, isBlank c = false)
    (hstart : ∃ c rest, s = c :: rest ∧ c.toUpper ∉ ['A', 'G', 'P', 'R']) : Quiet opener true s := by
  refine not_says_word (isBlank_of_mem_opener hopener) hunbroken fun hprefix => ?_
  obtain ⟨c, rest, rfl, hc⟩ := hstart
  have hheads : openers.all (·.head?.all (['A', 'G', 'P', 'R'].contains ·)) = true := by
    decide
  cases opener with
  | nil => exact absurd hopener (by decide)
  | cons x word =>
      have hx : x = c.toUpper := (List.cons_prefix_cons.mp hprefix).1
      have hmem := List.all_eq_true.mp hheads _ hopener
      rw [List.head?_cons, Option.all_some, List.contains_iff_mem] at hmem
      exact hc (hx ▸ hmem)

theorem IsPhrase.not_says {phrase : List Char} (h : IsPhrase opener phrase) {gap : Bool}
    {s : List Char} (hs : Quiet opener gap s) : ¬ Says phrase gap s :=
  fun hsays => hs (h.opens.isInfix.trans hsays)

/-! ### Text that opens phrases between quotes only -/

/-- The text is quiet but for the quoted texts in it, in their order. -/
inductive QuietBut (opener : List Char) : Bool → List String → List Char → Prop
  | plain {gap : Bool} {s : List Char} (h : Quiet opener gap s) : QuietBut opener gap [] s
  | text {gap : Bool} {lead rest : List Char} (text : String) {texts : List String}
      (hlead : Quiet opener gap (lead ++ ['\''])) (hrest : QuietBut opener false texts rest) :
      QuietBut opener gap (text :: texts)
        (lead ++ ((Dialect.sqlite.quoteText text).toList ++ rest))

theorem QuietBut.append_blank (hopener : opener ∈ openers) {gap : Bool} {a b : List Char}
    {texts others : List String} (ha : QuietBut opener gap texts a)
    (hb : QuietBut opener true others b) : QuietBut opener gap (texts ++ others) (a ++ ' ' :: b) := by
  induction ha with
  | @plain gap a ha =>
      cases hb with
      | plain hb => exact .plain (ha.append_blank hopener hb)
      -- What is quiet before the blank goes in front of the first quote behind it.
      | @text _ lead rest t _ hlead hrest =>
          have hjoined : Quiet opener gap (a ++ ' ' :: lead ++ ['\'']) := by
            rw [List.append_assoc, List.cons_append]
            exact ha.append_blank hopener hlead
          have := QuietBut.text t hjoined hrest
          rwa [List.append_assoc, List.cons_append] at this
  | text t hlead _ ih =>
      rw [List.append_assoc, List.append_assoc]
      exact .text t hlead ih

/-- A phrase that such a text says, one of the quoted texts says. -/
theorem QuietBut.says_iff {phrase : List Char} (hphrase : IsPhrase opener phrase) {gap : Bool}
    {texts : List String} {s : List Char} (h : QuietBut opener gap texts s) :
    Says phrase gap s ↔
      ∃ t ∈ texts, Says phrase false (Dialect.sqlite.quoteText t).toList := by
  have hquote : ('\'' : Char).toUpper ∉ phrase := hphrase.unquoted
  have hopening : ¬ Says phrase false ['\''] := by
    have hall : ∀ o ∈ openers, Quiet o false ['\''] := by
      decide
    exact hphrase.not_says (hall opener hphrase.opener_mem)
  induction h with
  | plain h => simpa using hphrase.not_says h
  | @text gap lead rest t texts hlead hrest ih =>
      have htext : (Dialect.sqlite.quoteText t).toList =
          [] ++ '\'' :: (Text.doubled '\'' t.toList ++ ['\'']) := by
        simp [Dialect.quoteText, Text.enclosed]
      have hwhole : lead ++ ((Dialect.sqlite.quoteText t).toList ++ rest) =
          lead ++ '\'' :: (Text.doubled '\'' t.toList ++ '\'' :: rest) := by
        simp [htext]
      -- No phrase holds a quote, so it is found before the text, inside it or behind it.
      have hhere : Says phrase false (Dialect.sqlite.quoteText t).toList ↔
          Says phrase false (Text.doubled '\'' t.toList ++ ['\'']) := by
        rw [htext, says_append_letter (by decide) hquote, List.nil_append, or_iff_right hopening]
      rw [hwhole, says_append_letter (by decide) hquote, or_iff_right (hphrase.not_says hlead),
        says_append_letter (by decide) hquote, ← hhere]
      simp only [List.mem_cons, exists_eq_or_imp]
      exact or_congr_right ih

end TableItem

/-! ### The clauses of a definition -/

namespace Column

open TableItem

variable {c : Column} {opener : List Char}

/-- The text that is the default, if one is. -/
def defaultTexts (c : Column) : List String :=
  match c.default with
  | some (.literal (.text text)) => [text]
  | _ => []

/-- The texts that an enumeration is over. -/
def enumTexts (c : Column) : List String :=
  match c.type with
  | .enum values => values
  | _ => []

/-- The texts that stand between quotes in the definition. -/
def texts (c : Column) : List String :=
  c.defaultTexts ++ c.enumTexts

/-- What a column that was accepted is right about. -/
theorem faultless (h : SchemaCompiler.checkColumn c = .ok ()) :
    (c.autoIncrement = true → c.default = none ∧ c.type.isInteger = true) ∧
      (c.unsigned = true → c.type.isNumeric = true) ∧ c.type ≠ .enum [] := by
  obtain ⟨⟨⟩, -, h⟩ := exists_of_bind h
  cases hfault : SchemaCompiler.columnFault? c with
  | some fault =>
      rw [hfault] at h
      cases h
  | none =>
      rw [SchemaCompiler.columnFault?, Option.or_eq_none_iff] at hfault
      obtain ⟨htype, hrest⟩ := hfault
      refine ⟨fun hauto => ?_, fun hunsigned => ?_, ?_⟩
      · rw [hauto] at hrest
        cases hinteger : c.type.isInteger with
        | false => simp [hinteger] at hrest
        | true => cases hdefault : c.default with
          | some v => simp [hinteger, hdefault] at hrest
          | none => exact ⟨rfl, rfl⟩
      · cases hnumeric : c.type.isNumeric with
        | true => rfl
        | false =>
            simp only [hunsigned, hnumeric] at hrest
            split_ifs at hrest
            contradiction
      · intro henum
        rw [henum] at htype
        cases htype

/-! ### Clauses -/

/-- A clause is empty, or a space and a text that is quiet but for quoted texts. -/
def QuietClause (opener : List Char) (texts : List String) (clause : List Char) : Prop :=
  clause = [] ∧ texts = [] ∨ ∃ rest, clause = ' ' :: rest ∧ QuietBut opener true texts rest

theorem QuietClause.append (hopener : opener ∈ openers) {texts others : List String} {gap : Bool}
    {s clause : List Char} (h : QuietClause opener others clause) (hs : QuietBut opener gap texts s) :
    QuietBut opener gap (texts ++ others) (s ++ clause) := by
  rcases h with ⟨rfl, rfl⟩ | ⟨rest, rfl, hrest⟩
  · rwa [List.append_nil, List.append_nil]
  · exact hs.append_blank hopener hrest

/-- The words that the compiler writes itself. -/
def plainWords : List String :=
  sqliteTypes ++ ["NULL", "NOT NULL", "DEFAULT", "CHECK", "IN", ">=", "0)"]

theorem quiet_plain (hopener : opener ∈ openers) (word : String) (h : word ∈ plainWords) :
    QuietBut opener true [] word.toList := by
  have hall : ∀ word ∈ plainWords, ∀ o ∈ openers, Quiet o true word.toList := by
    decide +kernel
  exact .plain (hall word h opener hopener)

theorem quiet_nullability (hopener : opener ∈ openers) (c : Column) :
    QuietClause opener [] (Dialect.nullability c).toList := by
  unfold Dialect.nullability
  split
  · exact .inr ⟨_, rfl, quiet_plain hopener "NULL" (by decide)⟩
  · exact .inr ⟨_, rfl, quiet_plain hopener "NOT NULL" (by decide)⟩

theorem quiet_defaultClause (hopener : opener ∈ openers) (hliteral : c.HasLiteral) :
    QuietClause opener c.defaultTexts c.defaultClause.toList := by
  unfold defaultClause defaultTexts
  cases hdefault : c.default with
  | none => exact .inl ⟨rfl, rfl⟩
  | some v =>
      refine .inr ⟨"DEFAULT".toList ++ ' ' :: (Dialect.sqlite.renderDefault v).toList, by simp, ?_⟩
      cases v with
      | raw sql => exact absurd hdefault (hliteral sql)
      | literal v =>
          have hkeyword := quiet_plain hopener "DEFAULT" (by decide)
          by_cases htext : ∃ text, v = .text text
          · obtain ⟨text, rfl⟩ := htext
            have hquoted : QuietBut opener true [text]
                ([] ++ ((Dialect.sqlite.quoteText text).toList ++ [])) := by
              refine .text text ?_ (.plain ?_)
              · exact quiet_word hopener (unbroken_of_any (by decide)) ⟨'\'', [], rfl, by decide⟩
              · simp [Quiet, Says, folded, asciiUpper]
            rw [List.nil_append, List.append_nil] at hquoted
            exact hkeyword.append_blank hopener hquoted
          · have hbare := Dialect.bareWord_renderDefault fun text h => htext ⟨text, h⟩
            have hword := quiet_word hopener hbare.unbroken hbare.start
            have := hkeyword.append_blank hopener (.plain hword)
            cases v with
            | text text => exact absurd ⟨text, rfl⟩ htext
            | _ => exact this

theorem quiet_counterClause (hopener : opener ∈ openers)
    (h : opener ≠ "PRIMARY".toList ∨ c.autoIncrement = false) :
    QuietClause opener [] c.counterClause.toList := by
  unfold counterClause
  split
  · rename_i hauto
    have hother := h.resolve_right (by simp [hauto])
    have hall : ∀ o ∈ openers, o ≠ "PRIMARY".toList →
        Quiet o true "PRIMARY KEY AUTOINCREMENT".toList := by
      decide +kernel
    exact .inr ⟨_, rfl, .plain (hall opener hopener hother)⟩
  · exact .inl ⟨rfl, rfl⟩

/-- The values of an enumeration, behind its first. -/
theorem quiet_values (hopener : opener ∈ openers) (values : List String) :
    QuietBut opener false values
      ((values.flatMap fun v => [',', ' '] ++ (Dialect.sqlite.quoteText v).toList) ++ "))".toList) := by
  induction values with
  | nil =>
      have hall : ∀ o ∈ openers, Quiet o false "))".toList := by
        decide +kernel
      exact .plain (hall opener hopener)
  | cons v rest ih =>
      have hall : ∀ o ∈ openers, Quiet o false ([',', ' '] ++ ['\'']) := by
        decide +kernel
      rw [List.flatMap_cons, List.append_assoc, List.append_assoc]
      exact .text v (hall opener hopener) ih

/-- The opening parenthesis and a quoted name. -/
theorem quiet_openName (hopener : opener ∈ openers) (hname : Name.isColumn c.name = true) :
    QuietBut opener true [] ('(' :: (Dialect.sqlite.quoteName c.name).toList) := by
  refine .plain (quiet_word hopener (fun x hx => ?_) ⟨'(', _, rfl, by decide⟩)
  rcases List.mem_cons.mp hx with rfl | hx
  · rfl
  · exact Dialect.isBlank_of_mem_quoteName hname x hx

theorem quiet_checkClause (hopener : opener ∈ openers)
    (hcheck : SchemaCompiler.checkColumn c = .ok ()) :
    QuietClause opener c.enumTexts c.checkClause.toList := by
  have hname := quiet_openName hopener (SchemaCompiler.isColumn_of_checkColumn hcheck)
  obtain ⟨-, hnumeric, henum⟩ := faultless hcheck
  have hopened := (quiet_plain hopener "CHECK" (by decide)).append_blank hopener hname
  unfold checkClause Dialect.columnCheck Dialect.columnConditions enumTexts
  cases htype : c.type with
  | enum values =>
      have hsigned : c.unsigned = false := by
        rw [← Bool.not_eq_true]
        intro h
        have := hnumeric h
        rw [htype] at this
        cases this
      cases values with
      | nil => exact absurd htype henum
      | cons v rest =>
          have hin := hopened.append_blank hopener (quiet_plain hopener "IN" (by decide))
          have hfirst : Quiet opener true (['('] ++ ['\'']) :=
            quiet_word hopener (unbroken_of_any (by decide)) ⟨'(', _, rfl, by decide⟩
          have hvalues := hin.append_blank hopener (.text v hfirst (quiet_values hopener rest))
          refine .inr ⟨_, ?_, hvalues⟩
          simp [hsigned, Dialect.hasEnum, Dialect.quoteTexts, String.toList_intercalate,
            intercalate_cons, List.flatMap_map]
  | _ =>
      cases hunsigned : c.unsigned with
      | false => exact .inl ⟨rfl, rfl⟩
      | true =>
          have hleast := (hopened.append_blank hopener (quiet_plain hopener ">=" (by decide))).append_blank
            hopener (quiet_plain hopener "0)" (by decide))
          refine .inr ⟨_, ?_, hleast⟩
          simp [Dialect.hasUnsigned]

/-- A definition is quiet but for the column's texts, unless a counter makes it the primary key. -/
theorem quiet_definition (hopener : opener ∈ openers)
    (hcounter : opener ≠ "PRIMARY".toList ∨ c.autoIncrement = false)
    (hcheck : SchemaCompiler.checkColumn c = .ok ()) (hliteral : c.HasLiteral) {s : String}
    (h : Dialect.sqlite.columnDefinition c = .ok s) : QuietBut opener false c.texts s.toList := by
  obtain ⟨type, htype, -, rfl⟩ := Dialect.columnDefinition_eq h
  have hname : QuietBut opener false [] (Dialect.sqlite.quoteName c.name).toList :=
    .plain (not_says_inside (isBlank_of_mem_opener hopener)
      (Dialect.isBlank_of_mem_quoteName (SchemaCompiler.isColumn_of_checkColumn hcheck)))
  have htyped := hname.append_blank hopener
    (quiet_plain hopener type (List.mem_append_left _ htype))
  have hdefault := (quiet_defaultClause hopener hliteral).append hopener
    ((quiet_nullability hopener c).append hopener htyped)
  have hwhole := (quiet_checkClause hopener hcheck).append hopener
    ((quiet_counterClause hopener hcounter).append hopener hdefault)
  simpa [texts] using hwhole

end Column

end Relational
