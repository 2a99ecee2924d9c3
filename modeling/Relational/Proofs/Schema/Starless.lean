import Relational.Dialect.Index
import Relational.Dialect.Rebuild
import Relational.Proofs.Results
import Relational.Proofs.Schema.Literal
import Relational.Proofs.Unquoted
/-
Texts without a star outside quotes.

What a dialect writes about tables is words, quoted names and quoted texts, and SQL that is given to
it and written as it is.  If no name has a wildcard segment and no given SQL has a star outside its
quotes, then none is written, in any statement of any dialect.
-/
namespace Relational

namespace Dialect

/-! ### Texts without a star -/

/-- Outside quotes, which are all closed, the text has no star. -/
def Starless (d : Dialect) (s : String) : Prop :=
  ∃ left, d.Leaves s.toList left ∧ '*' ∉ left

/-- A text opens with a plain character, closes its quotes and has no star outside them. -/
def IsLiteral (d : Dialect) : List Char → Prop
  | [] => True
  | c :: rest =>
    IsPlainChar c ∧ (rest.foldl (Quotes.next d) .outside).IsOut ∧
      '*' ∉ c :: d.unquotedFrom .outside rest

instance (d : Dialect) : DecidablePred d.IsLiteral
  | [] => isTrue trivial
  | _ :: _ => inferInstanceAs (Decidable (_ ∧ _ ∧ _))

variable {d : Dialect}

theorem unquotedFrom_append (q : Quotes) (s rest : List Char) :
    d.unquotedFrom q (s ++ rest) =
      d.unquotedFrom q s ++ d.unquotedFrom (s.foldl (Quotes.next d) q) rest := by
  induction s generalizing q with
  | nil => rfl
  | cons c s ih =>
      rw [List.cons_append, unquotedFrom, unquotedFrom, List.foldl_cons]
      split
      · rename_i hnext
        rw [ih, hnext, List.cons_append]
      · exact ih _

namespace Starless

variable {s t : String}

theorem empty : d.Starless "" :=
  ⟨[], .nil, List.not_mem_nil⟩

theorem append (hs : d.Starless s) (ht : d.Starless t) : d.Starless (s ++ t) := by
  obtain ⟨left, hleft, hstar⟩ := hs
  obtain ⟨left', hleft', hstar'⟩ := ht
  refine ⟨left ++ left', ?_, fun h => (List.mem_append.mp h).elim hstar hstar'⟩
  rw [String.toList_append]
  exact hleft.append hleft'

theorem words (s : String) (h : AllTame s.toList) : d.Starless s :=
  ⟨s.toList, .tame h, star_not_mem_of_tame h⟩

/-- A text as it stands in the dialect, with its own quotes. -/
theorem literal (s : String) (h : d.IsLiteral s.toList) : d.Starless s := by
  unfold Starless
  generalize s.toList = text at h
  cases text with
  | nil => exact ⟨[], .nil, List.not_mem_nil⟩
  | cons c rest =>
      obtain ⟨hplain, hout, hstar⟩ := h
      refine ⟨_, fun q after hq => ⟨_, hout, ?_⟩, hstar⟩
      rw [List.cons_append, unquotedFrom, if_pos (next_plain hq hplain), unquotedFrom_append,
        List.cons_append]

theorem name {n : String} (h : ¬Name.IsWild n) : d.Starless (d.quoteName n) :=
  ⟨_, leaves_quoteName n, Name.star_mem_bare.not.mpr h⟩

theorem segment {n : String} (h : ¬Name.IsWild n) : d.Starless (d.quoteSegment n) := by
  refine ⟨_, leaves_quoteSegment n, fun hstar => h ?_⟩
  obtain rfl : n = "*" := String.toList_injective (Name.star_mem_bareSegment.mp hstar)
  decide +kernel

theorem enclosed (s : String) : d.Starless (Text.enclosed '\'' '\'' s) :=
  ⟨[], leaves_text s, List.not_mem_nil⟩

theorem text (s : String) : d.Starless (d.quoteText s) := by
  cases d with
  | sqlServer => exact append (.words _ (by decide)) (enclosed s)
  | _ => exact enclosed s

theorem intercalate {separator : String} (hseparator : d.Starless separator) {parts : List String}
    (h : ∀ part ∈ parts, d.Starless part) : d.Starless (String.intercalate separator parts) := by
  unfold Starless
  rw [String.toList_intercalate]
  obtain ⟨gap, hgap, hbetween⟩ := hseparator
  induction parts with
  | nil => exact ⟨[], .nil, List.not_mem_nil⟩
  | cons part parts ih =>
      obtain ⟨⟨left, hleft, hfirst⟩, hparts⟩ := List.forall_mem_cons.mp h
      cases parts with
      | nil => exact ⟨left, by simpa using hleft, hfirst⟩
      | cons next parts =>
          obtain ⟨others, hothers, hrest⟩ := ih hparts
          refine ⟨left ++ gap ++ others, ?_, ?_⟩
          · rw [List.map_cons, List.map_cons, List.intercalate_cons_cons]
            exact hleft |>.append hgap |>.append hothers
          · rw [List.mem_append, List.mem_append]
            exact not_or.mpr ⟨not_or.mpr ⟨hfirst, hbetween⟩, hrest⟩

/-- A whole text has no star outside quotes. -/
theorem unquoted (h : d.Starless s) : '*' ∉ d.unquoted s := by
  obtain ⟨left, hleft, hstar⟩ := h
  rwa [hleft.unquoted]

end Starless

theorem Starless.number (n : Nat) : d.Starless (toString n) :=
  .words _ (allTame_number n)

theorem Starless.names {ns : List String} (h : ∀ n ∈ ns, ¬Name.IsWild n) :
    d.Starless (d.quoteNames ns) := by
  refine .intercalate (.words _ (by decide)) fun part hpart => ?_
  obtain ⟨n, hn, rfl⟩ := List.mem_map.mp hpart
  exact .name (h n hn)

theorem Starless.texts (ts : List String) : d.Starless (d.quoteTexts ts) := by
  refine .intercalate (.words _ (by decide)) fun part hpart => ?_
  obtain ⟨t, -, rfl⟩ := List.mem_map.mp hpart
  exact .text t

/-- A text behind its word, if there is one. -/
def optionText (word : String) (text : Option String) : String :=
  match text with
  | some text => word ++ text
  | none => ""

theorem Starless.optionText {word : String} {text : Option String} (hword : AllTame word.toList)
    (h : ∀ s ∈ text, d.Starless s) : d.Starless (optionText word text) := by
  cases text with
  | none => exact .empty
  | some text => exact (Starless.words _ hword).append (h text rfl)

/-- No name has a wildcard segment, and no SQL that is given has a star outside its quotes. -/
structure Tame (d : Dialect) (names given : List String) : Prop where
  names : ∀ n ∈ names, ¬Name.IsWild n
  given : ∀ s ∈ given, d.Starless s

theorem Tame.mono {names given names' given' : List String} (h : d.Tame names given)
    (hnames : names' ⊆ names) (hgiven : given' ⊆ given) : d.Tame names' given' :=
  ⟨fun n hn => h.names n (hnames hn), fun s hs => h.given s (hgiven hs)⟩

end Dialect

/-! ### Values -/

theorem Decimal.ofInt_eq_signed (n : Int) :
    Decimal.ofInt n = Decimal.signed (n < 0) (Decimal.digitsOf n.natAbs) := by
  unfold Decimal.ofInt Decimal.signed
  simp

/-- Bytes are written as a text of hexadecimal digits. -/
theorem Value.inline_blob (bytes : List UInt8) :
    (Value.blob bytes).inline =
      "X" ++ Text.enclosed '\'' '\'' (String.ofList (bytes.flatMap Value.hexByte)) := by
  have hquotes : '\'' ∉ bytes.flatMap Value.hexByte := by
    intro hmem
    obtain ⟨b, -, hb⟩ := List.mem_flatMap.mp hmem
    exact (Value.mem_hexByte hb).2 rfl
  rw [Value.inline, Text.enclosed, String.toList_ofList, Value.doubled_of_not_mem hquotes]
  exact String.toList_injective (by simp)

/-! ### Columns -/

namespace Column

/-- The names in the definition of a column. -/
def names (c : Column) : List String :=
  c.name :: c.after.toList

/-- The SQL that a column is given. -/
def given (c : Column) : List String :=
  match c.default with
  | some (.raw sql) => [sql]
  | _ => []

end Column

namespace Dialect

variable {d : Dialect} {c : Column}

theorem starless_sized (name : String) (n : Nat) (h : AllTame name.toList) :
    d.Starless (sized name n) :=
  Starless.words name h |>.append (.words _ (by decide)) |>.append (.number n)
    |>.append (.words _ (by decide))

theorem starless_decimalType (precision scale : Nat) : d.Starless (decimalType precision scale) :=
  Starless.words _ (by decide) |>.append (.number precision) |>.append (.words _ (by decide))
    |>.append (.number scale) |>.append (.words _ (by decide))

theorem starless_sqliteType {t : ColumnType} {type : String} (h : sqliteType t = .ok type) :
    d.Starless type := by
  cases t with
  | jsonb => cases h
  | _ => cases h; exact .words _ (by decide)

theorem starless_postgresType (t : ColumnType) : d.Starless (postgresType t) := by
  cases t with
  | char n => exact starless_sized _ n (by decide)
  | string n => exact starless_sized _ n (by decide)
  | decimal precision scale => exact starless_decimalType precision scale
  | enum values => exact .words "VARCHAR(255)" (by decide)
  | _ => exact .words _ (by decide)

theorem starless_serialType (t : ColumnType) : d.Starless (serialType t) := by
  unfold serialType
  split <;> exact .words _ (by decide)

theorem starless_mysqlType {t : ColumnType} {type : String} (h : mysqlType t = .ok type) :
    mysql.Starless type := by
  cases t with
  | jsonb => cases h
  | char n => cases h; exact starless_sized _ n (by decide)
  | string n => cases h; exact starless_sized _ n (by decide)
  | decimal precision scale => cases h; exact starless_decimalType precision scale
  | enum values =>
      cases h
      exact Starless.words _ (by decide) |>.append (.texts values)
        |>.append (.words _ (by decide))
  | _ => cases h; exact .words _ (by decide)

theorem starless_sqlServerType {t : ColumnType} {type : String} (h : sqlServerType t = .ok type) :
    d.Starless type := by
  cases t with
  | jsonb => cases h
  | char n => cases h; exact starless_sized _ n (by decide)
  | string n => cases h; exact starless_sized _ n (by decide)
  | decimal precision scale => cases h; exact starless_decimalType precision scale
  | _ => cases h; exact .words _ (by decide)

theorem starless_typeName {type : String} (h : d.typeName c = .ok type) : d.Starless type := by
  cases d with
  | sqlite => exact starless_sqliteType h
  | sqlServer => exact starless_sqlServerType h
  | postgres =>
      cases h
      split
      · exact starless_serialType c.type
      · exact starless_postgresType c.type
  | mysql =>
      obtain ⟨name, hname, h⟩ := exists_of_bind h
      cases h
      split
      · exact (starless_mysqlType hname).append (.words _ (by decide))
      · exact starless_mysqlType hname

theorem starless_autoIncrementClause {counter : String}
    (h : d.autoIncrementClause c = .ok counter) : d.Starless counter := by
  unfold autoIncrementClause at h
  split at h
  all_goals first
    | cases h; exact .words _ (by decide)
    | cases h

theorem isTame_of_isNumeral {x : Char} (h : Decimal.isNumeral x = true) : IsTame x := by
  rw [Decimal.isNumeral, Bool.or_eq_true, beq_iff_eq] at h
  rcases h with h | rfl
  · exact isTame_of_isDigit h
  · decide

theorem starless_signed (negative : Bool) {body : List Char} (h : AllTame body) :
    d.Starless (String.ofList (Decimal.signed negative body)) := by
  refine .words _ ?_
  rw [String.toList_ofList]
  cases negative with
  | false => exact h
  | true => exact List.forall_mem_cons.mpr ⟨by decide, h⟩

theorem starless_ofInt (n : Int) : d.Starless (String.ofList (Decimal.ofInt n)) := by
  rw [Decimal.ofInt_eq_signed]
  exact starless_signed _ fun x hx => isTame_of_isDigit (Decimal.isDigit_of_mem_digitsOf hx)

theorem starless_inlineText (x : Binary64) : d.Starless (Decimal.inlineText x) := by
  unfold Decimal.inlineText
  split
  · exact .words _ (by decide)
  · refine starless_signed _ ?_
    split
    · decide
    · split
      · decide
      · exact fun c hc => isTame_of_isNumeral ((Decimal.forall_mem_positional _).2 c hc)

theorem starless_blob (bytes : List UInt8) : d.Starless (Value.blob bytes).inline := by
  rw [Value.inline_blob]
  exact (Starless.words _ (by decide)).append (.enclosed _)

theorem starless_inline (v : Value) : d.Starless v.inline := by
  cases v with
  | null => exact .words _ (by decide)
  | bool b => cases b <;> exact .words _ (by decide)
  | int n => exact starless_ofInt n.toInt
  | float x => exact starless_inlineText x
  | text s => exact .enclosed s
  | blob bytes => exact starless_blob bytes

theorem starless_renderDefault {v : DefaultValue} (h : ∀ sql, v = .raw sql → d.Starless sql) :
    d.Starless (d.renderDefault v) := by
  cases v with
  | raw sql => exact h sql rfl
  | literal v =>
      cases v with
      | bool b =>
          have hwords : ∀ (d : Dialect) (b : Bool), AllTame (d.boolLiteral b).toList := by
            intro d b
            cases d <;> cases b <;> decide
          exact .words _ (hwords d b)
      | text s => exact .text s
      | _ => exact starless_inline _

theorem Tame.starless_default {names : List String} (h : d.Tame names c.given) {v : DefaultValue}
    (hv : c.default = some v) : d.Starless (d.renderDefault v) := by
  refine starless_renderDefault fun sql hsql => h.given sql ?_
  rw [Column.given, hv, hsql]
  exact List.mem_singleton_self sql

theorem starless_columnCheck (h : ¬Name.IsWild c.name) {check : String}
    (hcheck : d.columnCheck c = some check) : d.Starless check := by
  have hconditions : ∀ condition ∈ d.columnConditions c, d.Starless condition := by
    unfold columnConditions
    rw [List.forall_mem_append]
    constructor
    · split
      · rename_i values _
        split
        · simp
        · refine List.forall_mem_singleton.mpr ?_
          exact Starless.name h |>.append (.words _ (by decide)) |>.append (.texts values)
            |>.append (.words _ (by decide))
      · simp
    · split
      · exact List.forall_mem_singleton.mpr ((Starless.name h).append (.words _ (by decide)))
      · simp
  unfold columnCheck at hcheck
  split at hcheck
  · cases hcheck
  · cases hcheck
    exact Starless.words _ (by decide) |>.append (.intercalate (.words _ (by decide)) hconditions)
      |>.append (.words _ (by decide))

theorem starless_nullability (c : Column) : d.Starless (nullability c) := by
  unfold nullability
  split <;> exact .words _ (by decide)

theorem starless_inlineComment (comment : String) :
    ∀ s, d.inlineComment comment = some s → d.Starless s := by
  intro s hs
  cases d with
  | mysql => cases hs; exact (Starless.words _ (by decide)).append (.text comment)
  | _ => cases hs

theorem starless_commentStatement {table column : String} (htable : ¬Name.IsWild table)
    (hcolumn : ¬Name.IsWild column) (comment : String) :
    ∀ s ∈ d.commentStatement table column comment, d.Starless s := by
  intro s hs
  cases d with
  | sqlite => cases hs
  | mysql => cases hs
  | postgres =>
      cases hs
      exact Starless.words _ (by decide) |>.append (.name htable) |>.append (.words _ (by decide))
        |>.append (.name hcolumn) |>.append (.words _ (by decide)) |>.append (.text comment)
  | sqlServer =>
      cases hs
      exact Starless.literal _ (by decide) |>.append (.text comment)
        |>.append (.literal _ (by decide)) |>.append (.text table)
        |>.append (.literal _ (by decide)) |>.append (.text column)

/-- What the default adds to the definition of a column. -/
def defaultText (d : Dialect) (c : Column) : String :=
  match c.default with
  | some v => " DEFAULT " ++ d.renderDefault v
  | none => ""

/-- What the column in front of it adds, where columns are placed. -/
def placeText (d : Dialect) (c : Column) : String :=
  match c.after with
  | some column => if d.placesColumns then " AFTER " ++ d.quoteName column else ""
  | none => ""

theorem Tame.starless_defaultText {names : List String} (h : d.Tame names c.given) :
    d.Starless (d.defaultText c) := by
  unfold defaultText
  split
  · exact (Starless.words _ (by decide)).append (h.starless_default ‹_›)
  · exact .empty

theorem Tame.starless_placeText {given : List String} (h : d.Tame c.names given) :
    d.Starless (d.placeText c) := by
  unfold placeText
  split
  · rename_i column hafter
    split
    · refine (Starless.words _ (by decide)).append (.name (h.names column ?_))
      exact List.mem_cons_of_mem _ (Option.mem_toList.mpr hafter)
    · exact .empty
  · exact .empty

theorem starless_columnDefinition (h : d.Tame c.names c.given) {s : String}
    (hs : d.columnDefinition c = .ok s) : d.Starless s := by
  obtain ⟨type, htype, hs⟩ := exists_of_bind hs
  have hname : ¬Name.IsWild c.name := h.names _ List.mem_cons_self
  have hcheck : d.Starless (optionText " " (d.columnCheck c)) :=
    .optionText (by decide) fun _ hcheck => starless_columnCheck hname hcheck
  have hcomment : d.Starless ((c.comment.bind d.inlineComment).getD "") := by
    cases hinline : c.comment.bind d.inlineComment with
    | none => exact .empty
    | some comment =>
        obtain ⟨text, -, hinline⟩ := Option.bind_eq_some_iff.mp hinline
        exact starless_inlineComment text comment hinline
  have hfront := Starless.name hname |>.append (.words " " (by decide))
    |>.append (starless_typeName htype) |>.append (starless_nullability c)
    |>.append h.starless_defaultText
  dsimp only at hs
  split at hs
  · obtain ⟨counter, hcounter, hs⟩ := exists_of_bind hs
    cases hs
    exact hfront |>.append (starless_autoIncrementClause hcounter) |>.append hcheck
      |>.append hcomment |>.append h.starless_placeText
  · cases hs
    exact hfront |>.append .empty |>.append hcheck |>.append hcomment
      |>.append h.starless_placeText

/-! ### Tables -/

variable {table : String}

theorem starless_createTable (h : ¬Name.IsWild table) (ifNotExists : Bool) {body : List String}
    (hbody : ∀ entry ∈ body, d.Starless entry) :
    d.Starless (d.createTable table ifNotExists body) := by
  have hwords : AllTame (if ifNotExists then "IF NOT EXISTS " else "").toList := by
    cases ifNotExists <;> decide
  exact Starless.words _ (by decide) |>.append (.words _ hwords) |>.append (.name h)
    |>.append (.words _ (by decide)) |>.append (.intercalate (.words _ (by decide)) hbody)
    |>.append (.words _ (by decide))

theorem starless_tableOptions {engine charset collation : Option String}
    (h : ∀ s ∈ engine.toList ++ charset.toList ++ collation.toList, d.Starless s) :
    d.Starless ((d.tableOptions engine charset collation).getD "") := by
  rw [List.forall_mem_append, List.forall_mem_append] at h
  simp only [Option.mem_toList] at h
  cases d with
  | mysql =>
      have hengine : mysql.Starless (optionText " ENGINE = " engine) :=
        .optionText (by decide) h.1.1
      have hcharset : mysql.Starless (optionText " DEFAULT CHARACTER SET " charset) :=
        .optionText (by decide) h.1.2
      have hcollation : mysql.Starless (optionText " COLLATE " collation) :=
        .optionText (by decide) h.2
      exact (hengine.append hcharset).append hcollation
  | _ => exact .empty

theorem starless_dropTable (h : ¬Name.IsWild table) : d.Starless (d.dropTable table) :=
  (Starless.words _ (by decide)).append (.name h)

theorem starless_dropTableIfExists (h : ¬Name.IsWild table) :
    d.Starless (d.dropTableIfExists table) :=
  (Starless.words _ (by decide)).append (.name h)

theorem starless_renameTable {target : String} (h : ¬Name.IsWild table)
    (htarget : ¬Name.IsWild target) : d.Starless (d.renameTable table target) := by
  cases d with
  | sqlServer =>
      exact Starless.words _ (by decide) |>.append (.text table) |>.append (.words _ (by decide))
        |>.append (.text target)
  | _ =>
      exact Starless.words _ (by decide) |>.append (.name h) |>.append (.words _ (by decide))
        |>.append (.name htarget)

theorem starless_alterTable (h : ¬Name.IsWild table) : d.Starless (d.alterTable table) :=
  (Starless.words _ (by decide)).append (.name h)

theorem starless_addColumn (htable : ¬Name.IsWild table) (h : d.Tame c.names c.given) {s : String}
    (hs : d.addColumn table c = .ok s) : d.Starless s := by
  have hadded : ∀ {words : String}, AllTame words.toList → ∀ {definition : String},
      d.columnDefinition c = .ok definition →
        d.Starless (d.alterTable table ++ words ++ definition) :=
    fun hwords _ hdefinition => starless_alterTable htable |>.append (.words _ hwords)
      |>.append (starless_columnDefinition h hdefinition)
  unfold addColumn at hs
  split at hs
  · split at hs
    · cases hs
    · split at hs
      · cases hs
      · obtain ⟨definition, hdefinition, hs⟩ := exists_of_bind hs
        cases hs
        exact hadded (by decide) hdefinition
  all_goals
    obtain ⟨definition, hdefinition, hs⟩ := exists_of_bind hs
    cases hs
    exact hadded (by decide) hdefinition

theorem starless_dropColumn {column : String} (htable : ¬Name.IsWild table)
    (h : ¬Name.IsWild column) : d.Starless (d.dropColumn table column) :=
  starless_alterTable htable |>.append (.words _ (by decide)) |>.append (.name h)

theorem starless_renameColumn {source target : String} (htable : ¬Name.IsWild table)
    (hsource : ¬Name.IsWild source) (htarget : ¬Name.IsWild target) :
    d.Starless (d.renameColumn table source target) := by
  cases d with
  | sqlServer =>
      exact Starless.words _ (by decide) |>.append (.text _) |>.append (.words _ (by decide))
        |>.append (.text target) |>.append (.literal _ (by decide))
  | _ =>
      exact starless_alterTable htable |>.append (.words _ (by decide)) |>.append (.name hsource)
        |>.append (.words _ (by decide)) |>.append (.name htarget)

/-! ### Changed columns -/

/-- The names in the statements that change a column. -/
def changeNames (table : String) (c : Column) : List String :=
  table :: checkName table c.name :: defaultConstraintName table c.name :: c.names

variable {s : String}

theorem starless_modifyPostgresColumn
    (h : postgres.Tame (changeNames table c) c.given) :
    ∀ s ∈ modifyPostgresColumn table c, postgres.Starless s := by
  have hcolumn : postgres.Tame c.names c.given :=
    h.mono (fun n hn => by simp [changeNames, hn]) (List.Subset.refl _)
  have htable := starless_alterTable (d := postgres) (h.names table (by simp [changeNames]))
  have hcheck : postgres.Starless (postgres.quoteName (checkName table c.name)) :=
    .name (h.names _ (by simp [changeNames]))
  have hname : ¬Name.IsWild c.name := hcolumn.names _ List.mem_cons_self
  have haltered := htable |>.append (.words " ALTER COLUMN " (by decide)) |>.append (.name hname)
  have htype := starless_postgresType (d := postgres) c.type
  unfold modifyPostgresColumn
  simp only [List.forall_mem_append, List.forall_mem_cons, List.not_mem_nil, false_imp_iff,
    implies_true, and_true]
  refine ⟨⟨htable |>.append (.words _ (by decide)) |>.append hcheck, ?_, ?_, ?_⟩, ?_⟩
  · exact haltered |>.append (.words _ (by decide)) |>.append htype
      |>.append (.words _ (by decide)) |>.append (.name hname) |>.append (.words _ (by decide))
      |>.append htype
  · refine haltered.append ?_
    split <;> exact .words _ (by decide)
  · refine haltered.append ?_
    split
    · exact (Starless.words _ (by decide)).append (hcolumn.starless_default ‹_›)
    · exact .words _ (by decide)
  · split
    · rename_i condition hcondition
      refine List.forall_mem_singleton.mpr ?_
      exact htable |>.append (.words _ (by decide)) |>.append hcheck
        |>.append (.words _ (by decide)) |>.append (starless_columnCheck hname hcondition)
    · simp

theorem starless_dropBoundConstraints (table column : String) :
    sqlServer.Starless (dropBoundConstraints table column) := by
  have htext : ∀ s, sqlServer.Starless (sqlServer.quoteText s) := fun s => .text s
  have hid := Starless.literal (d := sqlServer) "COLUMNPROPERTY(OBJECT_ID(" (by decide)
    |>.append (htext (sqlServer.quoteName table)) |>.append (.words "), " (by decide))
    |>.append (htext column) |>.append (.literal ", 'ColumnId')" (by decide))
  have hcollect : ∀ {source : String}, AllTame source.toList → sqlServer.Starless
      ("SELECT @sql += " ++
        sqlServer.quoteText (sqlServer.alterTable table ++ " DROP CONSTRAINT ") ++
        " + QUOTENAME(name) + N'; ' FROM sys." ++ source ++
        " WHERE parent_object_id = OBJECT_ID(" ++
        sqlServer.quoteText (sqlServer.quoteName table) ++ ") AND ") := fun hsource =>
    Starless.words _ (by decide) |>.append (htext _) |>.append (.literal _ (by decide))
      |>.append (.words _ hsource) |>.append (.words _ (by decide)) |>.append (htext _)
      |>.append (.words _ (by decide))
  exact Starless.literal _ (by decide) |>.append (hcollect (by decide))
    |>.append (.words _ (by decide)) |>.append hid |>.append (.words _ (by decide))
    |>.append (hcollect (by decide)) |>.append (.words _ (by decide)) |>.append hid
    |>.append (.words _ (by decide)) |>.append (htext _) |>.append (.words _ (by decide))

theorem starless_modifySqlServerColumn (h : sqlServer.Tame (changeNames table c) c.given)
    {statements : List String} (hs : modifySqlServerColumn table c = .ok statements) :
    ∀ s ∈ statements, sqlServer.Starless s := by
  have hcolumn : sqlServer.Tame c.names c.given :=
    h.mono (fun n hn => by simp [changeNames, hn]) (List.Subset.refl _)
  have htable := starless_alterTable (d := sqlServer) (h.names table (by simp [changeNames]))
  have hname : ¬Name.IsWild c.name := hcolumn.names _ List.mem_cons_self
  obtain ⟨type, htype, hs⟩ := exists_of_bind hs
  cases hs
  simp only [List.forall_mem_append, List.forall_mem_cons, List.not_mem_nil, false_imp_iff,
    implies_true, and_true]
  refine ⟨⟨⟨starless_dropBoundConstraints table c.name, ?_⟩, ?_⟩, ?_⟩
  · exact htable |>.append (.words _ (by decide)) |>.append (.name hname)
      |>.append (.words _ (by decide)) |>.append (starless_typeName htype)
      |>.append (starless_nullability c)
  · split
    · rename_i v hv
      refine List.forall_mem_singleton.mpr ?_
      exact htable |>.append (.words _ (by decide))
        |>.append (.name (h.names _ (by simp [changeNames]))) |>.append (.words _ (by decide))
        |>.append (hcolumn.starless_default hv) |>.append (.words _ (by decide))
        |>.append (.name hname)
    · simp
  · split
    · rename_i condition hcondition
      refine List.forall_mem_singleton.mpr ?_
      exact htable |>.append (.words _ (by decide))
        |>.append (.name (h.names _ (by simp [changeNames]))) |>.append (.words _ (by decide))
        |>.append (starless_columnCheck hname hcondition)
    · simp

theorem starless_modifyColumn (h : d.Tame (changeNames table c) c.given)
    {statements : List String} (hs : d.modifyColumn table c = .ok statements) :
    ∀ s ∈ statements, d.Starless s := by
  unfold modifyColumn at hs
  split at hs
  · cases hs
  · split at hs
    · cases hs
    · cases hs
      exact starless_modifyPostgresColumn h
  · obtain ⟨definition, hdefinition, hs⟩ := exists_of_bind hs
    cases hs
    have hcolumn : mysql.Tame c.names c.given :=
      h.mono (fun n hn => by simp [changeNames, hn]) (List.Subset.refl _)
    have htable := starless_alterTable (d := mysql) (h.names table (by simp [changeNames]))
    exact List.forall_mem_singleton.mpr (htable |>.append (.words _ (by decide))
      |>.append (starless_columnDefinition hcolumn hdefinition))
  · split at hs
    · cases hs
    · exact starless_modifySqlServerColumn h hs

end Dialect

/-! ### Indexes and keys -/

/-- The names in the statements about an index. -/
def Index.names (table : String) (i : Index) : List String :=
  table :: i.nameOn table :: i.columns

/-- The SQL that an index is given; MySQL has the method in upper case. -/
def Index.given (i : Index) : List String :=
  i.algorithm.toList ++ (i.algorithm.map Text.uppercase).toList ++ i.operatorClass.toList

/-- The names in the clause of a foreign key. -/
def ForeignKey.names (fk : ForeignKey) : List String :=
  fk.resolvedName :: fk.referencedTable :: (fk.columns ++ fk.referencedColumns)

namespace Dialect

variable {d : Dialect} {table : String} {i : Index} {s : String}

theorem starless_primaryConstraint {given : List String} (h : d.Tame (i.names table) given) :
    d.Starless (d.primaryConstraint table i) := by
  have hname : d.Starless (d.quoteName (i.nameOn table)) :=
    .name (h.names _ (by simp [Index.names]))
  have hcolumns : d.Starless (d.quoteNames i.columns) :=
    .names fun n hn => h.names n (by simp [Index.names, hn])
  have hkey := Starless.words "PRIMARY KEY (" (by decide) |>.append hcolumns
    |>.append (.words ")" (by decide))
  have hnamed := Starless.words "CONSTRAINT " (by decide) |>.append hname
    |>.append (.words " " (by decide)) |>.append hkey
  unfold primaryConstraint
  split
  · exact hkey
  · exact hnamed
  · rename_i name hgiven
    rw [Index.nameOn, hgiven] at hnamed
    exact hnamed
  · exact hkey

theorem starless_addPrimary {given : List String} (h : d.Tame (i.names table) given)
    (hs : d.addPrimary table i = .ok s) : d.Starless s := by
  unfold addPrimary at hs
  split at hs
  · cases hs
  · cases hs
    exact starless_alterTable (h.names table (by simp [Index.names]))
      |>.append (.words _ (by decide)) |>.append (starless_primaryConstraint h)

theorem starless_dropPrimary {name : Option String} (htable : ¬Name.IsWild table)
    (h : ¬Name.IsWild (name.getD (table ++ "_pkey"))) (hs : d.dropPrimary table name = .ok s) :
    d.Starless s := by
  have hdropped := starless_alterTable htable |>.append (.words " DROP CONSTRAINT " (by decide))
    |>.append (.name (d := d) h)
  unfold dropPrimary at hs
  split at hs
  · cases hs
  · cases hs
    exact hdropped
  · cases hs
    exact (starless_alterTable htable).append (.words _ (by decide))
  · cases hs
    exact hdropped
  · cases hs

theorem starless_createIndexAs {given : List String} (h : d.Tame (i.names table) given)
    {keyword : String} (hkeyword : AllTame keyword.toList) :
    d.Starless (d.createIndexAs keyword table i) :=
  Starless.words _ (by decide) |>.append (.words _ hkeyword) |>.append (.words _ (by decide))
    |>.append (.name (h.names _ (by simp [Index.names]))) |>.append (.words _ (by decide))
    |>.append (.name (h.names table (by simp [Index.names]))) |>.append (.words _ (by decide))
    |>.append (.names fun n hn => h.names n (by simp [Index.names, hn]))
    |>.append (.words _ (by decide))

/-- A column of an index with its operator class. -/
def classText (i : Index) (column : String) : String :=
  match i.operatorClass with
  | some operatorClass => postgres.quoteName column ++ " " ++ operatorClass
  | none => postgres.quoteName column

theorem starless_createPostgresIndex (h : postgres.Tame (i.names table) i.given)
    (hs : createPostgresIndex table i = .ok s) : postgres.Starless s := by
  have htable : postgres.Starless (postgres.quoteName table) :=
    .name (h.names table (by simp [Index.names]))
  have hcolumn : ∀ c ∈ i.columns, postgres.Starless (postgres.quoteName c) := fun c hc =>
    .name (h.names c (by simp [Index.names, hc]))
  have hclassed : ∀ c ∈ i.columns, postgres.Starless (classText i c) := by
    intro c hc
    unfold classText
    split
    · exact hcolumn c hc |>.append (.words _ (by decide))
        |>.append (h.given _ (by simp_all [Index.given]))
    · exact hcolumn c hc
  have hcolumns := Starless.intercalate (.words ", " (by decide))
    (List.forall_mem_map.mpr hclassed)
  have hmethod : postgres.Starless (optionText " USING " i.algorithm) :=
    .optionText (by decide) fun algorithm halgorithm =>
      h.given algorithm (by simp_all [Index.given])
  have hmade : ∀ {keyword rest : String}, AllTame keyword.toList →
      postgres.Starless rest → postgres.Starless ("CREATE " ++ keyword ++ " " ++
        postgres.quoteName (i.nameOn table) ++ " ON " ++ postgres.quoteName table ++ rest) :=
    fun hkeyword hrest => Starless.words _ (by decide) |>.append (.words _ hkeyword)
      |>.append (.words _ (by decide)) |>.append (.name (h.names _ (by simp [Index.names])))
      |>.append (.words _ (by decide)) |>.append htable |>.append hrest
  have hlisted := hmethod |>.append (.words " (" (by decide)) |>.append hcolumns
    |>.append (.words ")" (by decide))
  unfold createPostgresIndex at hs
  dsimp only at hs
  split at hs
  · exact starless_addPrimary h hs
  · cases hs
    exact hmade (by decide) hlisted
  · cases hs
    exact hmade (by decide) hlisted
  · cases hs
    exact hmade (by decide) (Starless.words _ (by decide) |>.append hcolumns
      |>.append (.words _ (by decide)))
  · cases hs
    exact hmade (by decide) (Starless.literal _ (by decide)
      |>.append (.intercalate (.literal _ (by decide)) (List.forall_mem_map.mpr hcolumn))
      |>.append (.words _ (by decide)))

theorem starless_createIndex (h : d.Tame (i.names table) i.given)
    (hs : d.createIndex table i = .ok s) : d.Starless s := by
  unfold createIndex at hs
  split at hs
  · exact starless_createPostgresIndex h hs
  · exact starless_addPrimary h hs
  · cases hs
    refine (starless_createIndexAs h ?_).append ?_
    · split <;> decide
    · split
      · rename_i algorithm halgorithm
        exact (Starless.words _ (by decide)).append
          (h.given _ (by simp [Index.given, halgorithm]))
      · exact .empty
  · cases hs
    exact starless_createIndexAs h (by decide)
  · cases hs
    exact starless_createIndexAs h (by decide)
  · cases hs
    exact starless_createIndexAs h (by decide)
  · cases hs
  · cases hs

theorem starless_dropIndex {name : String} (htable : ¬Name.IsWild table) (h : ¬Name.IsWild name) :
    d.Starless (d.dropIndex table name) := by
  have hdropped := (Starless.words "DROP INDEX " (by decide)).append
    (.name (d := d) h)
  unfold dropIndex
  split
  · exact hdropped |>.append (.words _ (by decide)) |>.append (.name htable)
  · exact hdropped |>.append (.words _ (by decide)) |>.append (.name htable)
  · exact hdropped

/-- What happens to the referring rows, behind its words, if anything is said. -/
def actionText (words : String) (action : Option ForeignAction) : String :=
  match action with
  | some a => words ++ a.sql
  | none => ""

theorem starless_actionText (words : String) (hwords : AllTame words.toList)
    (action : Option ForeignAction) : d.Starless (actionText words action) := by
  cases action with
  | none => exact .empty
  | some a =>
      have hsql : AllTame a.sql.toList := by
        cases a <;> decide
      exact (Starless.words _ hwords).append (.words _ hsql)

theorem starless_foreignKeyClause {fk : ForeignKey} (h : ∀ n ∈ fk.names, ¬Name.IsWild n) :
    d.Starless (d.foreignKeyClause fk) := by
  have hdelete := starless_actionText (d := d) " ON DELETE " (by decide) fk.onDelete
  have hupdate := starless_actionText (d := d) " ON UPDATE " (by decide) fk.onUpdate
  have hcolumns : d.Starless (d.quoteNames fk.columns) :=
    .names fun n hn => h n (by simp [ForeignKey.names, hn])
  have hreferenced : d.Starless (d.quoteNames fk.referencedColumns) :=
    .names fun n hn => h n (by simp [ForeignKey.names, hn])
  have hnamed := Starless.words "CONSTRAINT " (by decide)
    |>.append (.name (d := d) (h fk.resolvedName (by simp [ForeignKey.names])))
    |>.append (.words " FOREIGN KEY (" (by decide)) |>.append hcolumns
  exact hnamed |>.append (.words _ (by decide))
    |>.append (.name (h fk.referencedTable (by simp [ForeignKey.names])))
    |>.append (.words _ (by decide)) |>.append hreferenced |>.append (.words _ (by decide))
    |>.append hdelete |>.append hupdate

theorem starless_addForeign {fk : ForeignKey} (htable : ¬Name.IsWild table)
    (h : ∀ n ∈ fk.names, ¬Name.IsWild n) (hs : d.addForeign table fk = .ok s) : d.Starless s := by
  unfold addForeign at hs
  split at hs
  · cases hs
  · cases hs
    exact starless_alterTable htable |>.append (.words _ (by decide))
      |>.append (starless_foreignKeyClause h)

theorem starless_dropForeign {name : String} (htable : ¬Name.IsWild table) (h : ¬Name.IsWild name)
    (hs : d.dropForeign table name = .ok s) : d.Starless s := by
  unfold dropForeign at hs
  split at hs
  · cases hs
  all_goals
    cases hs
    exact starless_alterTable htable |>.append (.words _ (by decide)) |>.append (.name h)

end Dialect

/-! ### Tables built anew -/

/-- The SQL of an entry of a stored definition that a copy can hold. -/
def TableItem.given (item : TableItem) : List String :=
  item.sql :: item.references?.toList

namespace TableSnapshot

/-- The names in the statements that build a table anew. -/
def names (s : TableSnapshot) : List String :=
  s.table :: Dialect.copyName s.table :: s.items.filterMap (·.name?)

/-- The stored SQL that is written again. -/
def given (s : TableSnapshot) : List String :=
  s.options :: (s.dependents ++ s.items.flatMap (·.given))

end TableSnapshot

namespace Dialect

theorem starless_copyExpression {stored : String} {c : Column} (hstored : ¬Name.IsWild stored)
    (h : sqlite.Tame c.names c.given) {source : String}
    (hs : copyExpression stored c = .ok source) : sqlite.Starless source := by
  obtain ⟨type, htype, hs⟩ := exists_of_bind hs
  cases hs
  have hcast := Starless.words "CAST(" (by decide) |>.append (.segment hstored)
    |>.append (.words " AS " (by decide)) |>.append (starless_typeName htype)
    |>.append (.words ")" (by decide))
  split
  · rename_i v hv
    split
    · exact hcast
    · exact Starless.words _ (by decide) |>.append hcast |>.append (.words _ (by decide))
        |>.append (h.starless_default hv) |>.append (.words _ (by decide))
  · exact hcast

/-- What an entry of the copy brings is without stars. -/
def CopiedItem.Starless (item : CopiedItem) : Prop :=
  sqlite.Starless item.definition ∧
    ∀ t ∈ item.transfer, sqlite.Starless t.1 ∧ sqlite.Starless t.2

theorem starless_copyItem {changes : List Column}
    (hchanges : ∀ c ∈ changes, sqlite.Tame c.names c.given) {item : TableItem}
    (hitem : sqlite.Tame item.name?.toList item.given) {copied : CopiedItem}
    (hs : copyItem changes item = .ok copied) : CopiedItem.Starless copied := by
  have hsql : sqlite.Starless item.sql := hitem.given _ List.mem_cons_self
  unfold copyItem at hs
  split at hs
  · cases hs
    exact ⟨hsql, fun t ht => nomatch ht⟩
  · rename_i name hname
    have hstored : ¬Name.IsWild name := hitem.names name (by simp [hname])
    split at hs
    · rename_i c hfound
      have hc := hchanges c (List.mem_of_find?_eq_some hfound)
      obtain ⟨definition, hdefinition, hs⟩ := exists_of_bind hs
      obtain ⟨source, hsource, hs⟩ := exists_of_bind hs
      cases hs
      refine ⟨(starless_columnDefinition hc hdefinition).append ?_, fun t ht => ?_⟩
      · split
        · rename_i clause hclause
          exact (Starless.words _ (by decide)).append
            (hitem.given clause (by simp [TableItem.given, hclause]))
        · exact .empty
      · cases ht
        exact ⟨.name (hc.names _ List.mem_cons_self),
          starless_copyExpression hstored hc hsource⟩
    · cases hs
      refine ⟨hsql, fun t ht => ?_⟩
      dsimp only at ht
      split at ht
      · cases ht
      · cases ht
        exact ⟨.segment hstored, .segment hstored⟩

theorem starless_rebuildStatements {s : TableSnapshot} (h : sqlite.Tame s.names s.given)
    {items : List CopiedItem} (hitems : ∀ item ∈ items, CopiedItem.Starless item) :
    ∀ statement ∈ rebuildStatements s items, sqlite.Starless statement := by
  have htable : ¬Name.IsWild s.table := h.names _ (by simp [TableSnapshot.names])
  have hcopy : ¬Name.IsWild (copyName s.table) := h.names _ (by simp [TableSnapshot.names])
  have htransfers : ∀ t ∈ items.filterMap (·.transfer),
      sqlite.Starless t.1 ∧ sqlite.Starless t.2 := by
    intro t ht
    obtain ⟨item, hitem, htransfer⟩ := List.mem_filterMap.mp ht
    exact (hitems item hitem).2 t htransfer
  have hdefinitions : ∀ s ∈ items.map (·.definition), sqlite.Starless s :=
    List.forall_mem_map.mpr fun item hitem => (hitems item hitem).1
  unfold rebuildStatements
  simp only [List.forall_mem_append, List.forall_mem_cons, List.not_mem_nil, false_imp_iff,
    implies_true, and_true]
  refine ⟨⟨⟨⟨?_, ?_, starless_dropTableIfExists hcopy, ?_, ?_, starless_dropTable htable,
    starless_renameTable hcopy htable⟩, fun statement hs => ?_⟩, ?_⟩, ?_⟩
  · exact List.forall_mem_singleton.mpr (.words _ (by decide))
  · exact .words _ (by decide)
  · refine (starless_createTable hcopy false hdefinitions).append ?_
    split
    · exact .empty
    · exact (Starless.words _ (by decide)).append (h.given _ (by simp [TableSnapshot.given]))
  · exact Starless.words _ (by decide) |>.append (.name hcopy) |>.append (.words _ (by decide))
      |>.append (.intercalate (.words _ (by decide)) (List.forall_mem_map.mpr fun t ht =>
        (htransfers t ht).1))
      |>.append (.words _ (by decide))
      |>.append (.intercalate (.words _ (by decide)) (List.forall_mem_map.mpr fun t ht =>
        (htransfers t ht).2))
      |>.append (.words _ (by decide)) |>.append (.name htable)
  · exact h.given _ (by simp [TableSnapshot.given, hs])
  · exact .words _ (by decide)
  · exact List.forall_mem_singleton.mpr (.words _ (by decide))

theorem starless_rebuildTable {d : Dialect} {s : TableSnapshot} (h : d.Tame s.names s.given)
    {changes : List Column} (hchanges : ∀ c ∈ changes, d.Tame c.names c.given)
    {statements : List String} (hs : d.rebuildTable s changes = .ok statements) :
    ∀ statement ∈ statements, d.Starless statement := by
  cases d with
  | sqlite =>
      obtain ⟨-, -, hs⟩ := exists_of_bind hs
      obtain ⟨items, hitems, hs⟩ := exists_of_bind hs
      cases hs
      refine starless_rebuildStatements h fun copied hcopied => ?_
      obtain ⟨item, hitem, hcopy⟩ := exists_of_mem_mapM hitems hcopied
      refine starless_copyItem hchanges
        ⟨fun n hn => h.names n ?_, fun sql hsql => h.given sql ?_⟩ hcopy
      · have hmem : n ∈ s.items.filterMap (·.name?) :=
          List.mem_filterMap.mpr ⟨item, hitem, Option.mem_toList.mp hn⟩
        simp [TableSnapshot.names, hmem]
      · have hmem : sql ∈ s.items.flatMap (·.given) := List.mem_flatMap.mpr ⟨item, hitem, hsql⟩
        simp [TableSnapshot.given, hmem]
  | _ => cases hs

end Dialect

end Relational
