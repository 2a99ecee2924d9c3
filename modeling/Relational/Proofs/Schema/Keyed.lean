import Relational.Proofs.Schema.Creation
import Relational.Proofs.Schema.Starless
import Relational.Proofs.Words
/-
The primary key of a new table.

A key is declared in three places: by a column that counts up, by the marks of columns, which make
one key together, and by itself.  The definition of a counter has the word for it, and so has the
constraint that is written for the other two; names are quoted, and nothing else that is written has
that word.  A blueprint that declares more than one key is refused, so a statement that comes out has
the word as often as a key is declared, and at most once.
-/
namespace Relational

namespace Name

theorem startsApart_bareDotted (parts : List (List Char)) : Text.StartsApart (bareDotted parts) := by
  refine Text.startsApart_of_unlettered fun c hc => ?_
  rcases mem_bareDotted hc with rfl | rfl
  · decide
  · decide

/-- What is left of a name starts with a dot, a star, or the blank in front of its alias. -/
theorem startsApart_bare (name : String) : Text.StartsApart (bare name) := by
  have hkeyword : Text.StartsApart " AS ".toList := by decide
  fun_induction bare name with
  | case1 name expression label hsplit ih =>
      refine (ih.append hkeyword).append (Text.startsApart_of_unlettered fun c hc => ?_)
      rw [eq_star_of_mem_bareSegment hc]
      decide
  | case2 name hsplit => exact startsApart_bareDotted _

end Name

namespace Dialect

/-- The word for a primary key. -/
def keyWord : List Char :=
  "PRIMARY".toList

variable {d : Dialect}

/-! ### Names and values -/

theorem counts_quoteName (name : String) : d.Counts keyWord (d.quoteName name) 0 := by
  have hletter : 'P' ∉ Name.bare name := fun h => absurd (Name.bare_subset name h) (by decide)
  exact .without (leaves_quoteName name) (Name.startsApart_bare name) (by decide) hletter

theorem has_quoteNames (names : List String) : d.Has keyWord (d.quoteNames names) 0 := by
  refine .intercalate_none (by decide) fun part hpart => ?_
  obtain ⟨name, -, rfl⟩ := List.mem_map.mp hpart
  exact (counts_quoteName name).has

theorem counts_enclosed (s : String) : d.Counts keyWord (Text.enclosed '\'' '\'' s) 0 :=
  ⟨[], ⟨[], leaves_text s, by decide, rfl⟩, rfl⟩

theorem has_quoteText (s : String) : d.Has keyWord (d.quoteText s) 0 := by
  cases d with
  | sqlServer => exact (Has.literal (by decide)).append (counts_enclosed s)
  | _ => exact (counts_enclosed s).has

theorem has_quoteTexts (texts : List String) : d.Has keyWord (d.quoteTexts texts) 0 := by
  refine .intercalate_none (by decide) fun part hpart => ?_
  obtain ⟨text, -, rfl⟩ := List.mem_map.mp hpart
  exact has_quoteText text

theorem has_signed (negative : Bool) {body : List Char} (hplain : AllPlain body)
    (h : 'P' ∉ body) : d.Has keyWord (String.ofList (Decimal.signed negative body)) 0 := by
  have hwhole : AllPlain (Decimal.signed negative body) ∧ 'P' ∉ Decimal.signed negative body := by
    cases negative with
    | false => exact ⟨hplain, h⟩
    | true => exact ⟨List.forall_mem_cons.mpr ⟨by decide, hplain⟩,
        List.mem_cons.not.mpr (not_or.mpr ⟨by decide, h⟩)⟩
  refine .without (c := 'P') (.plain ?_) (by decide) ?_
  · rw [String.toList_ofList]
    exact hwhole.1
  · rw [String.toList_ofList]
    exact hwhole.2

theorem has_inlineText (x : Binary64) : d.Has keyWord (Decimal.inlineText x) 0 := by
  unfold Decimal.inlineText
  split
  · exact .literal (by decide)
  · split
    · exact has_signed _ (by decide) (by decide)
    · split
      · exact has_signed _ (by decide) (by decide)
      · have hnumerals := (Decimal.forall_mem_positional (Decimal.shortest .up x)).2
        exact has_signed _ (fun c hc => (isTame_of_isNumeral (hnumerals c hc)).2)
          fun hmem => absurd (hnumerals _ hmem) (by decide)

theorem has_ofInt (n : Int) : d.Has keyWord (String.ofList (Decimal.ofInt n)) 0 := by
  rw [Decimal.ofInt_eq_signed]
  exact has_signed _
    (fun c hc => (isTame_of_isDigit (Decimal.isDigit_of_mem_digitsOf hc)).2)
    fun hmem => absurd (Decimal.isDigit_of_mem_digitsOf hmem) (by decide)

theorem has_inline (v : Value) : d.Has keyWord v.inline 0 := by
  cases v with
  | null => exact .literal (by decide)
  | bool b => cases b <;> exact .literal (by decide)
  | int n => exact has_ofInt n.toInt
  | float x => exact has_inlineText x
  | text s => exact (counts_enclosed s).has
  | blob bytes =>
      rw [Value.inline_blob]
      exact (Has.literal (by decide)).append (counts_enclosed _)

theorem has_renderDefault {v : DefaultValue} (h : ∀ sql, v = .raw sql → d.Has keyWord sql 0) :
    d.Has keyWord (d.renderDefault v) 0 := by
  cases v with
  | raw sql => exact h sql rfl
  | literal v =>
      cases v with
      | bool b => cases d <;> cases b <;> exact .literal (by decide)
      | text s => exact has_quoteText s
      | _ => exact has_inline _

/-! ### Types -/

theorem counts_closing : d.Counts keyWord ")" 0 :=
  .literal (by decide)

theorem has_sized (name : String) (n : Nat) (h : d.Has keyWord name 0) :
    d.Has keyWord (sized name n) 0 := by
  exact (h.none_join (by decide) (Counts.number n (by decide)).has).none_append counts_closing

theorem has_decimalType (precision scale : Nat) :
    d.Has keyWord (decimalType precision scale) 0 := by
  have hopened : d.Has keyWord "DECIMAL(" 0 := .literal (by decide)
  have hboth := (hopened.none_append (Counts.number precision (by decide))).none_join
    (by decide : Separates keyWord ", ") (Counts.number scale (by decide)).has
  exact hboth.none_append counts_closing

theorem has_sqliteType {t : ColumnType} {type : String} (h : sqliteType t = .ok type) :
    d.Has keyWord type 0 := by
  cases t with
  | jsonb => cases h
  | _ => cases h; exact .literal (by decide)

theorem has_postgresType (t : ColumnType) : d.Has keyWord (postgresType t) 0 := by
  cases t with
  | char n => exact has_sized _ n (.literal (by decide))
  | string n => exact has_sized _ n (.literal (by decide))
  | decimal precision scale => exact has_decimalType precision scale
  | enum values => exact Has.literal (s := "VARCHAR(255)") (by decide)
  | _ => exact .literal (by decide)

theorem has_serialType (t : ColumnType) : d.Has keyWord (serialType t) 0 := by
  unfold serialType
  split <;> exact .literal (by decide)

theorem has_mysqlType {t : ColumnType} {type : String} (h : mysqlType t = .ok type) :
    mysql.Has keyWord type 0 := by
  cases t with
  | jsonb => cases h
  | char n => cases h; exact has_sized _ n (.literal (by decide))
  | string n => cases h; exact has_sized _ n (.literal (by decide))
  | decimal precision scale => cases h; exact has_decimalType precision scale
  | enum values =>
      cases h
      have hopened : mysql.Has keyWord ("ENUM(" ++ mysql.quoteTexts values) 0 :=
        .behind (n := 0) (by decide) (has_quoteTexts values)
      exact hopened.none_append counts_closing
  | _ => cases h; exact .literal (by decide)

theorem has_sqlServerType {t : ColumnType} {type : String} (h : sqlServerType t = .ok type) :
    d.Has keyWord type 0 := by
  cases t with
  | jsonb => cases h
  | char n => cases h; exact has_sized _ n (.literal (by decide))
  | string n => cases h; exact has_sized _ n (.literal (by decide))
  | decimal precision scale => cases h; exact has_decimalType precision scale
  | _ => cases h; exact .literal (by decide)

variable {c : Column}

theorem has_typeName {type : String} (h : d.typeName c = .ok type) : d.Has keyWord type 0 := by
  cases d with
  | sqlite => exact has_sqliteType h
  | sqlServer => exact has_sqlServerType h
  | postgres =>
      cases h
      split
      · exact has_serialType c.type
      · exact has_postgresType c.type
  | mysql =>
      obtain ⟨name, hname, h⟩ := exists_of_bind h
      cases h
      split
      · exact (has_mysqlType hname).none_append (.literal (by decide))
      · exact has_mysqlType hname

/-! ### The definition of a column -/

theorem counts_optionText {words : String} (hwords : Separates keyWord words)
    {text : Option String} (h : ∀ s ∈ text, d.Has keyWord s 0) :
    d.Counts keyWord (optionText words text) 0 := by
  cases text with
  | none => exact .empty
  | some text => exact .behind hwords (h text rfl)

theorem counts_nullability (c : Column) : d.Counts keyWord (nullability c) 0 := by
  unfold nullability
  split
  · exact .literal (by decide)
  · exact .literal (by decide)

theorem counts_defaultText (h : ∀ sql ∈ c.given, d.Has keyWord sql 0) :
    d.Counts keyWord (d.defaultText c) 0 := by
  unfold defaultText
  split
  · rename_i v hv
    refine .behind (by decide) (has_renderDefault fun sql hsql => h sql ?_)
    rw [Column.given, hv, hsql]
    exact List.mem_singleton_self sql
  · exact .empty

/-- A counter is the key of its table or is not. -/
theorem counts_autoIncrementClause {counter : String} (h : d.autoIncrementClause c = .ok counter) :
    d.Counts keyWord counter (if c.isInlinePrimary then 1 else 0) := by
  unfold autoIncrementClause at h
  cases hinline : c.isInlinePrimary with
  | true =>
      rw [hinline] at h
      cases d <;> cases h <;> exact .literal (by decide)
  | false =>
      rw [hinline] at h
      cases d with
      | sqlite => cases h
      | postgres => cases h; exact .empty
      | mysql => cases h; exact .literal (by decide)
      | sqlServer => cases h; exact .literal (by decide)

theorem has_columnCheck {check : String} (h : d.columnCheck c = some check) :
    d.Has keyWord check 0 := by
  have hname := counts_quoteName (d := d) c.name
  have hconditions : ∀ condition ∈ d.columnConditions c, d.Has keyWord condition 0 := by
    unfold columnConditions
    rw [List.forall_mem_append]
    constructor
    · split
      · rename_i values _
        split
        · simp
        · refine List.forall_mem_singleton.mpr ?_
          have hlisted := hname.has.none_join (by decide : Separates keyWord " IN (")
            (has_quoteTexts values)
          exact hlisted.none_append counts_closing
      · simp
    · split
      · refine List.forall_mem_singleton.mpr ?_
        exact hname.has.none_append (.literal (by decide))
      · simp
  unfold columnCheck at h
  split at h
  · cases h
  · cases h
    have hopened : d.Has keyWord
        ("CHECK (" ++ String.intercalate " AND " (d.columnConditions c)) 0 :=
      .behind (n := 0) (by decide)
        (.intercalate_none (by decide) hconditions)
    exact hopened.none_append counts_closing

theorem counts_checkText (c : Column) : d.Counts keyWord (optionText " " (d.columnCheck c)) 0 :=
  counts_optionText (by decide) fun _ => has_columnCheck

theorem counts_commentText (c : Column) :
    d.Counts keyWord ((c.comment.bind d.inlineComment).getD "") 0 := by
  cases hinline : c.comment.bind d.inlineComment with
  | none => exact .empty
  | some written =>
      obtain ⟨comment, -, hwritten⟩ := Option.bind_eq_some_iff.mp hinline
      cases d with
      | mysql => cases hwritten; exact .behind (by decide) (has_quoteText comment)
      | _ => cases hwritten

theorem counts_placeText (c : Column) : d.Counts keyWord (d.placeText c) 0 := by
  unfold placeText
  split
  · split
    · exact .behind (by decide) (counts_quoteName _).has
    · exact .empty
  · exact .empty

/-- The definition of a column has the word once if the column is the key by counting up. -/
theorem has_columnDefinition (h : ∀ sql ∈ c.given, d.Has keyWord sql 0) {s : String}
    (hs : d.columnDefinition c = .ok s) :
    d.Has keyWord s (if c.isInlinePrimary then 1 else 0) := by
  obtain ⟨type, htype, hs⟩ := exists_of_bind hs
  have hfront := (counts_quoteName c.name).has.none_join (by decide : Separates keyWord " ")
    (has_typeName htype) |>.none_append (counts_nullability c) |>.none_append (counts_defaultText h)
  have hbehind : ∀ {counter : String} {n : Nat}, d.Counts keyWord counter n →
      d.Has keyWord (d.quoteName c.name ++ " " ++ type ++ nullability c ++ d.defaultText c ++
        counter ++ optionText " " (d.columnCheck c) ++
          (c.comment.bind d.inlineComment).getD "" ++ d.placeText c) n := by
    intro counter n hcounter
    have hwhole := hfront.append hcounter |>.append (counts_checkText c)
      |>.append (counts_commentText c) |>.append (counts_placeText c)
    rwa [Nat.zero_add] at hwhole
  dsimp only at hs
  split at hs
  · obtain ⟨counter, hcounter, hs⟩ := exists_of_bind hs
    cases hs
    exact hbehind (counts_autoIncrementClause hcounter)
  · rename_i hcounter
    cases hs
    have hinline : c.isInlinePrimary = false := by
      rw [Column.isInlinePrimary, Bool.eq_false_of_not_eq_true hcounter, Bool.false_and]
    rw [hinline]
    exact hbehind .empty

/-! ### Keys and tables -/

theorem has_primaryConstraint (table : String) (i : Index) :
    d.Has keyWord (d.primaryConstraint table i) 1 := by
  have hopened : d.Has keyWord ("PRIMARY KEY (" ++ d.quoteNames i.columns) 1 :=
    .behind (n := 1) (by decide) (has_quoteNames i.columns)
  have hkey := hopened.append counts_closing
  have hnamed : ∀ name, d.Has keyWord
      ("CONSTRAINT " ++ d.quoteName name ++ " " ++
        ("PRIMARY KEY (" ++ d.quoteNames i.columns ++ ")")) 1 := by
    intro name
    have hname : d.Has keyWord ("CONSTRAINT " ++ d.quoteName name) 0 :=
      .none_append (.literal (by decide)) (counts_quoteName name)
    have hwhole := hname.join (by decide : Separates keyWord " ") hkey
    rwa [Nat.zero_add] at hwhole
  unfold primaryConstraint
  split
  · exact hkey
  · exact hnamed _
  · exact hnamed _
  · exact hkey

theorem counts_actionText {words : String} (hwords : Separates keyWord words)
    (action : Option ForeignAction) : d.Counts keyWord (actionText words action) 0 := by
  cases action with
  | none => exact .empty
  | some action =>
      have haction : d.Has keyWord action.sql 0 := by
        cases action <;> exact .literal (by decide)
      exact .behind hwords haction

theorem has_foreignKeyClause (fk : ForeignKey) : d.Has keyWord (d.foreignKeyClause fk) 0 := by
  have hopened : d.Has keyWord ("CONSTRAINT " ++ d.quoteName fk.resolvedName) 0 :=
    .none_append (.literal (by decide)) (counts_quoteName _)
  have hcolumns := hopened.none_join (by decide : Separates keyWord " FOREIGN KEY (")
    (has_quoteNames fk.columns)
  have htable := hcolumns.none_join (by decide : Separates keyWord ") REFERENCES ")
    (counts_quoteName fk.referencedTable).has
  have hreferenced := (htable.none_join (by decide : Separates keyWord " (")
    (has_quoteNames fk.referencedColumns)).none_append counts_closing
  exact (hreferenced.none_append (counts_actionText (by decide) fk.onDelete)).none_append
    (counts_actionText (by decide) fk.onUpdate)

theorem has_createTable (table : String) (ifNotExists : Bool) {body : List String}
    {counts : List Nat} (h : List.Forall₂ (d.Has keyWord) body counts) :
    d.Has keyWord (d.createTable table ifNotExists body) counts.sum := by
  have hopened : d.Has keyWord
      ("CREATE TABLE " ++ (if ifNotExists then "IF NOT EXISTS " else "")) 0 := by
    cases ifNotExists <;> exact .literal (by decide)
  have hbody := (hopened.none_append (counts_quoteName table)).join
    (by decide : Separates keyWord " (") (Has.intercalate (by decide : Separates keyWord ", ") h)
  rw [Nat.zero_add] at hbody
  exact hbody.append counts_closing

theorem counts_tableOptions {engine charset collation : Option String}
    (h : ∀ s ∈ engine.toList ++ charset.toList ++ collation.toList, d.Has keyWord s 0) :
    d.Counts keyWord ((d.tableOptions engine charset collation).getD "") 0 := by
  rw [List.forall_mem_append, List.forall_mem_append] at h
  simp only [Option.mem_toList] at h
  cases d with
  | mysql =>
      have hengine : mysql.Counts keyWord (optionText " ENGINE = " engine) 0 :=
        counts_optionText (by decide) h.1.1
      have hcharset : mysql.Counts keyWord (optionText " DEFAULT CHARACTER SET " charset) 0 :=
        counts_optionText (by decide) h.1.2
      have hcollation : mysql.Counts keyWord (optionText " COLLATE " collation) 0 :=
        counts_optionText (by decide) h.2
      exact (hengine.none_append hcharset).none_append hcollation
  | _ => exact .empty

end Dialect

/-! ### What is declared -/

namespace Blueprint

/-- The number of primary keys that a blueprint declares: each counter that is one, the marked
columns together, and each key by itself. -/
def primarySources (b : Blueprint) : Nat :=
  b.columns.countP (·.isInlinePrimary) + (if b.columns.any (·.primary.isSome) then 1 else 0) +
    b.indexes.countP (·.kind = .primary)

/-- The SQL that a new table is given: the defaults of its columns and its storage options. -/
def givenNew (b : Blueprint) : List String :=
  b.columns.flatMap (·.given) ++ (b.engine.toList ++ b.charset.toList ++ b.collation.toList)

variable {b : Blueprint}

theorem map_fst_marks (columns : List Column) :
    (columns.filterMap Column.mark?).map Prod.fst =
      (columns.filter (·.primary.isSome)).map (·.name) := by
  induction columns with
  | nil => rfl
  | cons c columns ih =>
      cases hprimary : c.primary with
      | none => simpa [Column.mark?, hprimary] using ih
      | some flag => simpa [Column.mark?, hprimary] using ih

theorem findSome?_marks (columns : List Column) :
    (columns.filterMap Column.mark?).findSome? (·.2.name?) =
      columns.findSome? fun c => c.primary.bind (·.name?) := by
  induction columns with
  | nil => rfl
  | cons c columns ih =>
      cases hprimary : c.primary with
      | none => simpa [Column.mark?, hprimary] using ih
      | some flag => simp [Column.mark?, hprimary, List.findSome?_cons, ← ih]

theorem filterMap_mark?_eq_nil (columns : List Column) :
    columns.filterMap Column.mark? = [] ↔ columns.any (·.primary.isSome) = false := by
  simp [Column.mark?]

theorem filterMap_mark?_ne_nil {columns : List Column}
    (h : columns.any (·.primary.isSome) = true) : columns.filterMap Column.mark? ≠ [] := by
  rw [ne_eq, filterMap_mark?_eq_nil, h]
  exact Bool.noConfusion

theorem primarySources_eq (b : Blueprint) :
    b.primarySources = b.columns.countP (·.isInlinePrimary) +
      (if b.columns.filterMap Column.mark? = [] then 0 else 1) +
        (b.indexes.filter (·.kind = .primary)).length := by
  rw [primarySources, List.countP_eq_length_filter (l := b.indexes)]
  cases hmarked : b.columns.any (·.primary.isSome) with
  | false => rw [if_pos ((filterMap_mark?_eq_nil _).mpr hmarked), if_neg Bool.false_ne_true]
  | true => rw [if_neg (filterMap_mark?_ne_nil hmarked), if_pos rfl]

/-- With one key declared at most, the constraint for it is there unless a counter is the key. -/
theorem length_primaryKey? (h : b.primarySources ≤ 1) :
    b.columns.countP (·.isInlinePrimary) + b.primaryKey?.toList.length = b.primarySources := by
  rw [primarySources_eq] at h ⊢
  unfold primaryKey?
  split
  · rename_i i declared hdeclared
    rw [hdeclared, List.length_cons] at h ⊢
    rw [Option.toList_some, List.length_singleton]
    omega
  · rename_i hdeclared hmarked
    rw [hdeclared, hmarked, if_pos rfl]
    rfl
  · rename_i hdeclared hmarked
    rw [hdeclared, if_neg hmarked]
    rfl

/-- All marked columns are one key together. -/
theorem primaryKey?_of_marked (h : b.primarySources ≤ 1)
    (hmarked : b.columns.any (·.primary.isSome) = true) :
    b.primaryKey? = some
      { kind := .primary
        columns := (b.columns.filter (·.primary.isSome)).map (·.name)
        name := b.columns.findSome? fun c => c.primary.bind (·.name?) } := by
  have hsome := filterMap_mark?_ne_nil hmarked
  rw [primarySources_eq, if_neg hsome] at h
  have hdeclared : b.indexes.filter (·.kind = .primary) = [] :=
    List.eq_nil_of_length_eq_zero (by omega)
  rw [← map_fst_marks, ← findSome?_marks, primaryKey?, hdeclared]
  cases hlist : b.columns.filterMap Column.mark? with
  | nil => exact absurd hlist hsome
  | cons mark marks => rfl

/-- A key that is declared by itself is the key. -/
theorem primaryKey?_of_declared (h : b.primarySources ≤ 1) {i : Index} (hi : i ∈ b.indexes)
    (hkind : i.kind = .primary) : b.primaryKey? = some i := by
  have hmem : i ∈ b.indexes.filter (·.kind = .primary) :=
    List.mem_filter.mpr ⟨hi, decide_eq_true hkind⟩
  rw [primarySources_eq] at h
  unfold primaryKey?
  split
  · rename_i first rest hdeclared
    rw [hdeclared, List.length_cons] at h
    have hrest : rest = [] := List.eq_nil_of_length_eq_zero (by omega)
    rw [hdeclared, hrest, List.mem_singleton] at hmem
    rw [hmem]
  · rename_i hdeclared _
    rw [hdeclared] at hmem
    cases hmem
  · rename_i hdeclared _
    rw [hdeclared] at hmem
    cases hmem

/-- Beside a counter that is the key no constraint is written for one. -/
theorem primaryKey?_of_inline (h : b.primarySources ≤ 1) {c : Column} (hc : c ∈ b.columns)
    (hinline : c.isInlinePrimary = true) : b.primaryKey? = none := by
  have hcounters : 0 < b.columns.countP (·.isInlinePrimary) :=
    List.countP_pos_iff.mpr ⟨c, hc, hinline⟩
  have hlength := length_primaryKey? h
  exact Option.toList_eq_nil_iff.mp (List.eq_nil_of_length_eq_zero (by omega))

end Blueprint

namespace SchemaCompiler

variable {k : SchemaCompiler} {table : String} {b : Blueprint}

theorem sum_inlinePrimaries {commands : List BlueprintCommand} {parts : List CreatePart}
    (h : List.Forall₂ (fun command part => k.createPart table command = .ok part) commands parts) :
    (parts.map (·.inlinePrimaries)).sum =
      (commands.filterMap (·.column?)).countP (·.isInlinePrimary) := by
  rw [List.filterMap_eq_flatMap_toList]
  induction h with
  | nil => rfl
  | @cons command part commands parts hfirst _ ih =>
      rw [List.map_cons, List.sum_cons, List.flatMap_cons, List.countP_append, ih,
        (columns_createPart hfirst).2]

/-- The compiler counts what the blueprint declares. -/
theorem primarySources_parts {parts : List CreatePart}
    (h : List.Forall₂ (fun command part => k.createPart table command = .ok part) b.commands
      parts) :
    primarySources parts = b.primarySources := by
  rw [primarySources, flatMap_marked h, flatMap_declared h, ← List.sum_eq_foldl,
    sum_inlinePrimaries h, Blueprint.primarySources_eq]
  simp only [List.isEmpty_iff]
  rfl

/-- What the first statement for a new table says about its primary key. -/
structure OneKey (k : SchemaCompiler) (b : Blueprint) (create : String) : Prop where
  /-- No more than one key is declared. -/
  sources : b.primarySources ≤ 1
  /-- The definitions of the columns come first, and the constraint for the key behind them. -/
  body : ∃ definitions,
    List.Forall₂ (fun c s => k.dialect.columnDefinition c = .ok s) b.columns definitions ∧
      create = k.dialect.createTable (k.tableName b.table) b.ifNotExists
        (definitions ++ k.constraintsOf b) ++ k.optionsOf b
  /-- Beside a counter that is the key there is no such constraint. -/
  inline : ∀ c ∈ b.columns, c.isInlinePrimary = true → b.primaryKey? = none
  /-- All marked columns are one key, in their order. -/
  marked : b.columns.any (·.primary.isSome) = true → b.primaryKey? = some
    { kind := .primary
      columns := (b.columns.filter (·.primary.isSome)).map (·.name)
      name := b.columns.findSome? fun c => c.primary.bind (·.name?) }
  /-- A key that is declared by itself is the key. -/
  declared : ∀ i ∈ b.indexes, i.kind = .primary → b.primaryKey? = some i
  /-- Outside quotes the statement has the word for a key as often as one is declared, unless SQL
  that is given has it. -/
  written : (∀ sql ∈ b.givenNew, k.dialect.Has Dialect.keyWord sql 0) →
    (Text.tokens (k.dialect.unquoted create)).count Dialect.keyWord = b.primarySources

theorem counts_optionsOf
    (h : ∀ s ∈ b.engine.toList ++ b.charset.toList ++ b.collation.toList,
      k.dialect.Has Dialect.keyWord s 0) :
    k.dialect.Counts Dialect.keyWord (k.optionsOf b) 0 := by
  unfold optionsOf
  split
  · exact Dialect.counts_tableOptions h
  · exact .empty

/-- How often the word for a key is in the constraints of a new table. -/
theorem forall₂_constraintsOf (k : SchemaCompiler) (b : Blueprint) :
    List.Forall₂ (k.dialect.Has Dialect.keyWord) (k.constraintsOf b)
      (b.primaryKey?.toList.map (fun _ => 1) ++ b.foreignKeys.map fun _ => 0) := by
  have hkey : List.Forall₂ (k.dialect.Has Dialect.keyWord)
      (b.primaryKey?.map (k.dialect.primaryConstraint (k.tableName b.table))).toList
      (b.primaryKey?.toList.map fun _ => 1) := by
    cases b.primaryKey? with
    | none => exact .nil
    | some i => exact .cons (Dialect.has_primaryConstraint _ i) .nil
  refine List.rel_append hkey ?_
  rw [List.forall₂_map_left_iff, List.forall₂_map_right_iff]
  exact List.forall₂_same.mpr fun fk _ => Dialect.has_foreignKeyClause _

theorem sum_inline (columns : List Column) :
    (columns.map fun c => if c.isInlinePrimary then 1 else 0).sum =
      columns.countP (·.isInlinePrimary) := by
  induction columns with
  | nil => rfl
  | cons c columns ih => rw [List.map_cons, List.sum_cons, ih, List.countP_cons, Nat.add_comm]

/-- The statement of a new table has the word for a key as often as one is declared. -/
theorem has_create {definitions : List String} (hsources : b.primarySources ≤ 1)
    (hdefinitions : List.Forall₂ (fun c s => k.dialect.columnDefinition c = .ok s) b.columns
      definitions)
    (hgiven : ∀ sql ∈ b.givenNew, k.dialect.Has Dialect.keyWord sql 0) :
    k.dialect.Has Dialect.keyWord
      (k.dialect.createTable (k.tableName b.table) b.ifNotExists (definitions ++ k.constraintsOf b) ++
        k.optionsOf b) b.primarySources := by
  have hdefaults : ∀ c ∈ b.columns, ∀ sql ∈ c.given, k.dialect.Has Dialect.keyWord sql 0 :=
    fun c hc sql hsql => hgiven sql (List.mem_append_left _ (List.mem_flatMap.mpr ⟨c, hc, hsql⟩))
  have hcolumns : List.Forall₂ (k.dialect.Has Dialect.keyWord) definitions
      (b.columns.map fun c => if c.isInlinePrimary then 1 else 0) := by
    rw [List.forall₂_map_right_iff]
    exact (((List.forall₂_and_left _ _).mpr ⟨hdefaults, hdefinitions⟩).imp fun c s h =>
      Dialect.has_columnDefinition h.1 h.2).flip
  have hoptions := counts_optionsOf (k := k) (b := b) fun s hs =>
    hgiven s (List.mem_append_right _ hs)
  have hbody : List.Forall₂ (k.dialect.Has Dialect.keyWord) (definitions ++ k.constraintsOf b)
      ((b.columns.map fun c => if c.isInlinePrimary then 1 else 0) ++
        (b.primaryKey?.toList.map (fun _ => 1) ++ b.foreignKeys.map fun _ => 0)) :=
    List.rel_append hcolumns (k.forall₂_constraintsOf b)
  have hwhole := (Dialect.has_createTable (k.tableName b.table) b.ifNotExists hbody).append hoptions
  have hkey : (b.primaryKey?.toList.map fun _ => 1).sum = b.primaryKey?.toList.length := by simp
  have hforeign : (b.foreignKeys.map fun _ => 0).sum = 0 := by simp
  rwa [List.sum_append, List.sum_append, sum_inline, hkey, hforeign, Nat.add_zero, Nat.add_zero,
    Blueprint.length_primaryKey? hsources] at hwhole

/-- More than one key is refused. -/
theorem compileCreate_of_several (h : 1 < b.primarySources) (hcolumns : b.columns ≠ [])
    {parts : List CreatePart}
    (hparts : b.commands.mapM (k.createPart (k.tableName b.table)) = .ok parts) :
    k.compileCreate b = .error (.invalidBlueprint (k.tableName b.table) .severalPrimaries) := by
  have hsome : ¬b.columns.isEmpty = true := by simpa using hcolumns
  have hcount : 1 < primarySources parts := by
    rwa [primarySources_parts (forall₂_of_mapM hparts)]
  unfold compileCreate
  rw [if_neg hsome, hparts]
  exact if_pos hcount

/-- A compiled table declares one key at most. -/
theorem oneKey_compileCreate {statements : List String} (h : k.compileCreate b = .ok statements) :
    ∃ create trailing, statements = create :: trailing ∧ k.OneKey b create := by
  obtain ⟨parts, hparts, hcolumns, rfl⟩ := compileCreate_eq_ok h
  have hsources : b.primarySources ≤ 1 := by
    by_contra hseveral
    rw [compileCreate_of_several (Nat.lt_of_not_le hseveral) hcolumns hparts] at h
    cases h
  have hdefinitions : List.Forall₂ (fun c s => k.dialect.columnDefinition c = .ok s) b.columns
      (parts.flatMap (·.columns)) :=
    forall₂_columns (forall₂_of_mapM hparts) fun _ _ hpart =>
      (columns_createPart hpart).1.imp fun _ _ hcolumn => hcolumn.2
  exact ⟨_, _, rfl,
    { sources := hsources
      body := ⟨_, hdefinitions, rfl⟩
      inline := fun _ => Blueprint.primaryKey?_of_inline hsources
      marked := Blueprint.primaryKey?_of_marked hsources
      declared := fun _ => Blueprint.primaryKey?_of_declared hsources
      written := fun hgiven => (has_create hsources hdefinitions hgiven).count_unquoted }⟩

/-- **The statement for a new table declares one primary key at most.**  If a new table is compiled,
in any dialect, no more than one of its counters, the marks of its columns together and its keys by
themselves is a primary key: the counter's definition is, or one constraint behind the definitions
of all columns, which for marked columns is over these in their order.  Unless SQL that is given has
it, the word for a key is in the statement so often as well.  A table with more than one is refused,
and for that reason if it could be compiled otherwise. -/
theorem new_table_has_one_key (k : SchemaCompiler) {b : Blueprint} (hmode : b.mode = .create) :
    (∀ statements, k.compile b = .ok statements →
        ∃ create trailing, statements = create :: trailing ∧ k.OneKey b create) ∧
      (1 < b.primarySources → ∃ e, k.compile b = .error e ∧
        (checkName b.table = .ok () → b.columns ≠ [] →
          (∃ parts, b.commands.mapM (k.createPart (k.tableName b.table)) = .ok parts) →
            e = .invalidBlueprint (k.tableName b.table) .severalPrimaries)) := by
  have hcompiled : ∀ statements, k.compile b = .ok statements →
      k.compileCreate b = .ok statements := by
    intro statements h
    obtain ⟨⟨⟩, -, h⟩ := exists_of_bind h
    rwa [hmode] at h
  refine ⟨fun statements h => oneKey_compileCreate (hcompiled statements h), fun hseveral => ?_⟩
  cases hresult : k.compile b with
  | ok statements =>
      obtain ⟨create, trailing, -, hone⟩ := oneKey_compileCreate (hcompiled statements hresult)
      exact absurd hone.sources (Nat.not_le_of_lt hseveral)
  | error e =>
      refine ⟨e, rfl, fun hname hcolumns hcommands => ?_⟩
      obtain ⟨parts, hparts⟩ := hcommands
      have hcreate : k.compile b = k.compileCreate b := by
        rw [compile, hname, hmode]
        rfl
      rw [hcreate, compileCreate_of_several hseveral hcolumns hparts] at hresult
      cases hresult
      rfl

/-- Memberships, with a key over two columns. -/
def membershipTable : Blueprint :=
  { table := "memberships"
    mode := .create
    commands := [
      .column { name := "team_id", type := .bigInteger, primary := some .generated },
      .column { name := "user_id", type := .bigInteger, primary := some (.named "members") },
      .column (Column.useCurrent { name := "joined_at", type := .timestamp })] }

/-- Teams, numbered by a counter that is marked as well. -/
def teamTable : Blueprint :=
  { table := "teams"
    mode := .create
    commands := [.column { Column.id with primary := some .generated }] }

/-- Two marked columns are one key, and a mark on a counter is one too many. -/
theorem marks_beside_counter :
    let k : SchemaCompiler := { dialect := .postgres }
    let create := "CREATE TABLE \"memberships\" (\"team_id\" BIGINT NOT NULL, " ++
      "\"user_id\" BIGINT NOT NULL, \"joined_at\" TIMESTAMP NOT NULL DEFAULT CURRENT_TIMESTAMP, " ++
      "CONSTRAINT \"members\" PRIMARY KEY (\"team_id\", \"user_id\"))"
    k.compile membershipTable = .ok [create] ∧ k.OneKey membershipTable create ∧
      (Text.tokens (k.dialect.unquoted create)).count Dialect.keyWord = 1 ∧
      k.compile teamTable = .error (.invalidBlueprint "teams" .severalPrimaries) := by
  intro k create
  have hcompiled : k.compile membershipTable = .ok [create] := by decide +kernel
  obtain ⟨_, _, hstatements, hone⟩ := (new_table_has_one_key k rfl).1 _ hcompiled
  obtain ⟨rfl, rfl⟩ := List.cons.inj hstatements
  have hgiven : ∀ sql ∈ membershipTable.givenNew, k.dialect.Has Dialect.keyWord sql 0 :=
    List.forall_mem_singleton.mpr (.literal (s := "CURRENT_TIMESTAMP") (by decide))
  obtain ⟨e, hrefused, hseveral⟩ :=
    (new_table_has_one_key k (b := teamTable) rfl).2 (by decide +kernel)
  have hparts : ∃ parts, teamTable.commands.mapM (k.createPart "teams") = .ok parts :=
    ⟨_, rfl⟩
  refine ⟨hcompiled, hone, hone.written hgiven, ?_⟩
  rw [hrefused, hseveral (by decide +kernel) (by decide) hparts]
  rfl

end SchemaCompiler

end Relational
