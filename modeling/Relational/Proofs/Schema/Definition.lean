import Relational.Proofs.Results
import Relational.Proofs.Schema.Literal
/-
Column definitions, written and read back.

A definition is the quoted name, the type and the clauses behind it.  It passes the
cutter as one entry, has no blanks at its ends, and opens with a quoted name, so it is
read back as the definition of a column.  An expression that is given as a default is
written as it is, so nothing is said about definitions that have one.
-/
namespace Relational

open TableSnapshot

/-! ### Column definitions -/

namespace Column

/-- The default is a value, if there is one, and not an expression. -/
def HasLiteral (c : Column) : Prop :=
  ∀ sql, c.default ≠ some (.raw sql)

/-- What the default adds to the definition. -/
def defaultClause (c : Column) : String :=
  match c.default with
  | some v => " DEFAULT " ++ Dialect.sqlite.renderDefault v
  | none => ""

/-- What a counter adds. -/
def counterClause (c : Column) : String :=
  if c.autoIncrement then " PRIMARY KEY AUTOINCREMENT" else ""

/-- What the check adds. -/
def checkClause (c : Column) : String :=
  match Dialect.sqlite.columnCheck c with
  | some check => " " ++ check
  | none => ""

/-- The name a definition opens with: that of the column in front of its first dot. -/
def openingName (c : Column) : String :=
  String.ofList ((c.name.toList.splitOn '.').headD [])

end Column

/-- The types that SQLite's columns have. -/
def sqliteTypes : List String :=
  ["INTEGER", "NUMERIC", "REAL", "TEXT", "BLOB"]

namespace Dialect

theorem sqliteType_mem {t : ColumnType} {type : String} (h : sqliteType t = .ok type) :
    type ∈ sqliteTypes := by
  cases t <;> cases h <;> decide

/-- A column that counts is the primary key, or is refused. -/
theorem counterClause_eq {c : Column} {counter : String}
    (h : (if c.autoIncrement then sqlite.autoIncrementClause c else .ok "") = .ok counter) :
    counter = c.counterClause ∧ (c.autoIncrement = true → c.isInlinePrimary = true) := by
  rw [Column.counterClause]
  cases hauto : c.autoIncrement with
  | false =>
      rw [hauto] at h
      cases h
      exact ⟨rfl, fun hcounts => by cases hcounts⟩
  | true =>
      rw [hauto] at h
      cases hinline : c.isInlinePrimary with
      | false =>
          simp only [autoIncrementClause, hinline, if_true] at h
          cases h
      | true =>
          simp only [autoIncrementClause, hinline, if_true] at h
          cases h
          exact ⟨rfl, fun _ => rfl⟩

/-- A definition is its clauses, one behind the other, and a counter is the primary key. -/
theorem columnDefinition_eq {c : Column} {s : String} (h : sqlite.columnDefinition c = .ok s) :
    ∃ type ∈ sqliteTypes, (c.autoIncrement = true → c.isInlinePrimary = true) ∧
      s = sqlite.quoteName c.name ++ " " ++ type ++ nullability c ++ c.defaultClause ++
        c.counterClause ++ c.checkClause := by
  have hcomment : (c.comment.bind sqlite.inlineComment).getD "" = "" := by
    cases c.comment <;> rfl
  obtain ⟨type, htype, h⟩ := exists_of_bind h
  dsimp only at h
  rw [hcomment] at h
  obtain ⟨counter, place, hcounter, rfl, hs⟩ : ∃ counter place,
      (if c.autoIncrement then sqlite.autoIncrementClause c else .ok "") = .ok counter ∧
      place = "" ∧ sqlite.quoteName c.name ++ " " ++ type ++ nullability c ++ c.defaultClause ++
        counter ++ c.checkClause ++ "" ++ place = s := by
    split at h
    · rename_i hauto
      obtain ⟨counter, hcounter, h⟩ := exists_of_bind h
      refine ⟨counter, _, (if_pos hauto).trans hcounter, ?_, Except.ok.inj h⟩
      cases c.after <;> rfl
    · rename_i hauto
      refine ⟨"", _, if_neg hauto, ?_, Except.ok.inj h⟩
      cases c.after <;> rfl
  obtain ⟨rfl, hinline⟩ := counterClause_eq hcounter
  rw [String.append_empty, String.append_empty] at hs
  exact ⟨type, sqliteType_mem htype, hinline, hs.symm⟩

end Dialect

namespace Column

variable {c : Column}

/-! ### Definitions pass -/

theorem passes_type {type : String} (h : type ∈ sqliteTypes) {depth : Nat} :
    Passes depth type.toList := by
  have hordinary : ∀ t ∈ sqliteTypes, t.toList.all isOrdinary = true := by
    decide
  exact passes_of_ordinary (hordinary type h)

theorem passes_nullability {depth : Nat} : Passes depth (Dialect.nullability c).toList := by
  unfold Dialect.nullability
  split
  · exact passes_of_ordinary (by decide)
  · exact passes_of_ordinary (by decide)

theorem passes_defaultClause (hliteral : c.HasLiteral) {depth : Nat} :
    Passes depth c.defaultClause.toList := by
  unfold defaultClause
  cases hdefault : c.default with
  | none => exact .nil
  | some v =>
      dsimp only
      rw [String.toList_append]
      refine (passes_of_ordinary (by decide)).append ?_
      cases v with
      | raw sql => exact absurd hdefault (hliteral sql)
      | literal v =>
          by_cases htext : ∃ text, v = .text text
          · obtain ⟨text, rfl⟩ := htext
            exact passes_quoteText text
          · exact (Dialect.bareWord_renderDefault fun text h => htext ⟨text, h⟩).passes depth

theorem passes_counterClause {depth : Nat} : Passes depth c.counterClause.toList := by
  unfold counterClause
  split
  · exact passes_of_ordinary (by decide)
  · exact .nil

theorem passes_condition {condition : String} (h : condition ∈ Dialect.sqlite.columnConditions c)
    {depth : Nat} : Passes (depth + 2) condition.toList := by
  have hlisted : ∀ values, Passes (depth + 2)
      (Dialect.sqlite.quoteName c.name ++ " IN (" ++ Dialect.sqlite.quoteTexts values ++
        ")").toList := by
    intro values
    have hgroup : Passes (depth + 2)
        ('(' :: ((Dialect.sqlite.quoteTexts values).toList ++ [')'])) :=
      (passes_quoteTexts values).group
    have hin : Passes (depth + 2) " IN ".toList := passes_of_ordinary (by decide)
    have htext : (Dialect.sqlite.quoteName c.name ++ " IN (" ++ Dialect.sqlite.quoteTexts values ++
        ")").toList = (Dialect.sqlite.quoteName c.name).toList ++ (" IN ".toList ++
          ('(' :: ((Dialect.sqlite.quoteTexts values).toList ++ [')']))) := by
      simp
    rw [htext]
    exact (passes_quoteName _).append (hin.append hgroup)
  rcases List.mem_append.mp h with h | h
  · cases htype : c.type with
    | enum values =>
        rw [htype] at h
        rw [List.mem_singleton.mp h]
        exact hlisted values
    | _ =>
        rw [htype] at h
        cases h
  · split at h
    · rw [List.mem_singleton.mp h, String.toList_append]
      exact (passes_quoteName _).append (passes_of_ordinary (by decide))
    · cases h

theorem passes_checkClause {depth : Nat} : Passes (depth + 1) c.checkClause.toList := by
  unfold checkClause Dialect.columnCheck
  split
  · rename_i check hcheck
    split at hcheck
    · cases hcheck
    · rename_i conditions _
      cases hcheck
      have hinside : Passes (depth + 2)
          (String.intercalate " AND " (Dialect.sqlite.columnConditions c)).toList := by
        rw [String.toList_intercalate]
        refine (passes_of_ordinary (by decide)).joined fun part hpart => ?_
        obtain ⟨condition, hcondition, rfl⟩ := List.mem_map.mp hpart
        exact passes_condition hcondition
      have hcheck : Passes (depth + 1) " CHECK ".toList := passes_of_ordinary (by decide)
      have htext : (" " ++ ("CHECK (" ++
          String.intercalate " AND " (Dialect.sqlite.columnConditions c) ++ ")")).toList =
          " CHECK ".toList ++ ('(' ::
            ((String.intercalate " AND " (Dialect.sqlite.columnConditions c)).toList ++ [')'])) := by
        simp
      rw [htext]
      exact hcheck.append hinside.group
  · exact .nil

/-- A definition passes as an entry. -/
theorem passes_definition (hliteral : c.HasLiteral) {s : String}
    (h : Dialect.sqlite.columnDefinition c = .ok s) {depth : Nat} : Passes (depth + 1) s.toList := by
  obtain ⟨type, htype, -, rfl⟩ := Dialect.columnDefinition_eq h
  simp only [String.toList_append]
  refine Passes.append (.append (.append (.append (.append (.append (passes_quoteName _) ?_)
    (passes_type htype)) passes_nullability) (passes_defaultClause hliteral))
    passes_counterClause) passes_checkClause
  exact passes_of_ordinary (by decide)

/-! ### Where a definition starts and ends -/

/-- The quoted name starts with its first segment. -/
theorem quoteName_opens (h : Name.isColumn c.name = true) : ∃ more,
    (Dialect.sqlite.quoteName c.name).toList =
      '"' :: (Text.doubled '"' c.openingName.toList ++ '"' :: more) ∧ more.head? ≠ some '"' := by
  rw [Dialect.quoteName_of_isColumn _ h, Dialect.quoteDotted, String.toList_intercalate]
  have hdotted : Name.isDotted c.name.toList = true := by
    rw [Name.isColumn, Name.isIdentifier, Bool.and_eq_true, bne, Bool.not_eq_true', Bool.or_eq_true] at h
    exact h.2.resolve_left (by rw [h.1]; exact Bool.false_ne_true)
  unfold Name.isDotted at hdotted
  rw [openingName]
  cases hsplit : c.name.toList.splitOn '.' with
  | nil =>
      rw [hsplit] at hdotted
      cases hdotted
  | cons first others =>
      rw [hsplit] at hdotted
      dsimp only at hdotted
      rw [Bool.and_eq_true] at hdotted
      have hfirst : (Dialect.sqlite.quoteSegment (String.ofList first)).toList =
          '"' :: (Text.doubled '"' first ++ ['"']) := by
        have hstar : (String.ofList first == "*") = false := by
          rw [beq_eq_false_iff_ne]
          intro heq
          have hchars : first = ['*'] := by
            have := congrArg String.toList heq
            rwa [String.toList_ofList] at this
          rw [hchars] at hdotted
          exact absurd hdotted.1 (by decide)
        rw [Dialect.quoteSegment, hstar]
        simp [Text.enclosed, Dialect.quotes]
      cases others with
      | nil => exact ⟨[], by simp [hfirst], by simp⟩
      | cons next rest =>
          let tail := (next :: rest).map fun s => Dialect.sqlite.quoteSegment (String.ofList s)
          refine ⟨'.' :: List.intercalate ['.'] (tail.map String.toList), ?_, by simp⟩
          have hjoin : ".".toList.intercalate ((((first :: next :: rest).map fun s =>
              Dialect.sqlite.quoteSegment (String.ofList s))).map String.toList) =
              (Dialect.sqlite.quoteSegment (String.ofList first)).toList ++ ['.'] ++
                List.intercalate ['.'] (tail.map String.toList) :=
            List.intercalate_cons_cons ..
          rw [hjoin, hfirst, String.toList_ofList, List.headD_cons]
          simp

theorem closedName?_doubled (name : List Char) {rest : List Char} (h : rest.head? ≠ some '"') :
    TableItem.closedName? '"' true (Text.doubled '"' name ++ '"' :: rest) = some name := by
  induction name with
  | nil =>
      cases rest with
      | nil => rfl
      | cons d others =>
          have hd : (d == '"') = false := by
            simpa using h
          show TableItem.closedName? '"' true ('"' :: d :: others) = _
          simp [TableItem.closedName?, hd]
  | cons c name ih =>
      rw [Text.doubled]
      split
      · rename_i hc
        subst hc
        rw [List.cons_append, List.cons_append, TableItem.closedName?, ih]
        rfl
      · rename_i hc
        cases hinner : Text.doubled '"' name ++ '"' :: rest with
        | nil => simp at hinner
        | cons d others =>
            rw [List.cons_append, hinner, TableItem.closedName?, if_neg hc, ← hinner, ih]
            rfl

/-- A definition is read as that of a column. -/
theorem ofChars_definition (hname : Name.isColumn c.name = true) {s : String}
    (h : Dialect.sqlite.columnDefinition c = .ok s) :
    TableItem.ofChars s.toList = .column c.openingName s := by
  obtain ⟨type, -, -, hs⟩ := Dialect.columnDefinition_eq h
  obtain ⟨more, hmore, hhead⟩ := quoteName_opens hname
  obtain ⟨rest, hrest, hrest'⟩ : ∃ rest, s.toList =
      '"' :: (Text.doubled '"' c.openingName.toList ++ '"' :: rest) ∧ rest.head? ≠ some '"' := by
    rw [hs]
    simp only [String.toList_append, hmore]
    refine ⟨more ++ ' ' :: (type.toList ++ (Dialect.nullability c).toList ++
      c.defaultClause.toList ++ c.counterClause.toList ++ c.checkClause.toList), by simp, ?_⟩
    cases more with
    | nil => simp
    | cons x others => exact hhead
  rw [TableItem.ofChars, hrest, TableItem.leadingName?, if_pos (.inl rfl),
    closedName?_doubled _ hrest', ← hrest]
  simp

theorem ends_defaultClause (hliteral : c.HasLiteral) : Ends c.defaultClause.toList := by
  unfold defaultClause
  cases hdefault : c.default with
  | none => exact .inl rfl
  | some v =>
      dsimp only
      rw [String.toList_append]
      cases v with
      | raw sql => exact absurd hdefault (hliteral sql)
      | literal v =>
          refine .inr ?_
          by_cases htext : ∃ text, v = .text text
          · obtain ⟨text, rfl⟩ := htext
            refine ⟨" DEFAULT ".toList ++ '\'' :: Text.doubled '\'' text.toList, '\'', ?_, rfl⟩
            simp [Dialect.renderDefault, Dialect.quoteText, Text.enclosed]
          · have hword := Dialect.bareWord_renderDefault fun text h => htext ⟨text, h⟩
            obtain ⟨x, rest, hstart, -⟩ := hword.start
            have hne : (Dialect.sqlite.renderDefault (.literal v)).toList ≠ [] := by
              simp [hstart]
            refine ⟨" DEFAULT ".toList ++
              (Dialect.sqlite.renderDefault (.literal v)).toList.dropLast, _, ?_,
              hword.unbroken _ (List.getLast_mem hne)⟩
            rw [List.append_assoc, List.dropLast_append_getLast]

theorem tight_definition (hname : Name.isColumn c.name = true) (hliteral : c.HasLiteral) {s : String}
    (h : Dialect.sqlite.columnDefinition c = .ok s) : Tight s.toList := by
  obtain ⟨type, htype, -, rfl⟩ := Dialect.columnDefinition_eq h
  obtain ⟨more, hmore, -⟩ := quoteName_opens hname
  simp only [String.toList_append]
  have hfront : (Dialect.sqlite.quoteName c.name).toList ++ " ".toList ++ type.toList ++
      (Dialect.nullability c).toList ++ c.defaultClause.toList ++ c.counterClause.toList ++
      c.checkClause.toList ≠ [] := by
    simp
  have hnull : ∃ front, (Dialect.nullability c).toList = front ++ ['L'] := by
    unfold Dialect.nullability
    split
    · exact ⟨" NUL".toList, rfl⟩
    · exact ⟨" NOT NUL".toList, rfl⟩
  have hbase : Ends ((Dialect.sqlite.quoteName c.name).toList ++ " ".toList ++ type.toList ++
      (Dialect.nullability c).toList) := by
    obtain ⟨front, hfront⟩ := hnull
    rw [hfront]
    exact .inr ⟨_, 'L', (List.append_assoc ..).symm, rfl⟩
  have hcounter : Ends c.counterClause.toList := by
    unfold counterClause
    split
    · exact .inr ⟨" PRIMARY KEY AUTOINCREMEN".toList, 'T', rfl, rfl⟩
    · exact .inl rfl
  have hcheck : Ends c.checkClause.toList := by
    unfold checkClause Dialect.columnCheck
    split
    · rename_i check hcheck
      split at hcheck
      · cases hcheck
      · cases hcheck
        refine .inr ⟨" CHECK (".toList ++
          (String.intercalate " AND " (Dialect.sqlite.columnConditions c)).toList, ')', ?_, rfl⟩
        simp
    · exact .inl rfl
  have hends := ((hbase.append (ends_defaultClause hliteral)).append hcounter).append hcheck
  exact ⟨⟨'"', _, by rw [hmore]; rfl, rfl⟩, hends.resolve_left hfront⟩

end Column

end Relational
