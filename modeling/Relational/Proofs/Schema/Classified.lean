import Relational.Proofs.Schema.Copy
import Relational.Proofs.Schema.Keywords
/-
What a new table's columns are taken for later.

A stored column is taken for computed, for the primary key or for a reference by what its
definition says.  A new table declares nothing of the kind but the key of a counter, and
no phrase stands outside its quotes; so a column is taken for what it is not exactly if
one of its texts is, taken by itself.  A rebuild copies all columns that it does not
change but those that are taken for computed, and leaves the values of these out.
-/
namespace Relational

open Text

namespace Column

open TableItem

variable {c : Column} {name s : String}

/-! ### One definition -/

/-- Whether one of the texts by itself would be taken for what is asked. -/
def inText (c : Column) (asked : TableItem → Bool) : Bool :=
  c.texts.any fun text => asked (.column c.name (Dialect.sqlite.quoteText text))

theorem starts_quoteText (text : String) : Starts (Dialect.sqlite.quoteText text) :=
  ⟨'\'', Text.doubled '\'' text.toList ++ ['\''], by simp [Dialect.quoteText, enclosed], rfl⟩

section Definition

variable (hcheck : SchemaCompiler.checkColumn c = .ok ()) (hliteral : c.HasLiteral)
  (h : Dialect.sqlite.columnDefinition c = .ok s)
include hcheck hliteral h

theorem starts_definition : Starts s :=
  (tight_definition (SchemaCompiler.isColumn_of_checkColumn hcheck) hliteral h).head

/-- What a definition says, one of its texts says. -/
theorem says_definition {opener phrase : List Char} (hphrase : IsPhrase opener phrase)
    (hcounter : opener ≠ "PRIMARY".toList ∨ c.autoIncrement = false) :
    Says phrase false s.toList ↔
      ∃ text ∈ c.texts, Says phrase false (Dialect.sqlite.quoteText text).toList :=
  (quiet_definition hphrase.opener_mem hcounter hcheck hliteral h).says_iff hphrase

theorem isGenerated_definition :
    (TableItem.column name s).isGenerated = c.inText TableItem.isGenerated := by
  rw [Bool.eq_iff_iff, isGenerated_iff (starts_definition hcheck hliteral h), inText, List.any_eq_true]
  constructor
  · rintro ⟨phrase, hmem, hsays⟩
    obtain ⟨opener, hother, hphrase⟩ := isPhrase_generated hmem
    obtain ⟨text, htext, hsaid⟩ :=
      (says_definition hcheck hliteral h hphrase (.inl hother)).mp hsays
    exact ⟨text, htext, (isGenerated_iff (starts_quoteText text)).mpr ⟨phrase, hmem, hsaid⟩⟩
  · rintro ⟨text, htext, hsaid⟩
    obtain ⟨phrase, hmem, hsays⟩ := (isGenerated_iff (starts_quoteText text)).mp hsaid
    obtain ⟨opener, hother, hphrase⟩ := isPhrase_generated hmem
    exact ⟨phrase, hmem,
      (says_definition hcheck hliteral h hphrase (.inl hother)).mpr ⟨text, htext, hsays⟩⟩

theorem isSome_references?_definition :
    (TableItem.column name s).references?.isSome = c.inText (·.references?.isSome) := by
  rw [Bool.eq_iff_iff, isSome_references?_iff, inText, List.any_eq_true,
    says_definition hcheck hliteral h isPhrase_references (.inl (by decide))]
  exact exists_congr fun text => and_congr_right fun _ => isSome_references?_iff.symm

omit hcheck hliteral in
/-- A counter says that it is the primary key. -/
theorem says_primary (hauto : c.autoIncrement = true) :
    Says " PRIMARY KEY".toList false s.toList := by
  obtain ⟨type, -, -, rfl⟩ := Dialect.columnDefinition_eq h
  rw [counterClause, if_pos hauto]
  obtain ⟨front, back, hsplit⟩ : ∃ front back, (Dialect.sqlite.quoteName c.name ++ " " ++ type ++
      Dialect.nullability c ++ c.defaultClause ++ " PRIMARY KEY AUTOINCREMENT" ++
      c.checkClause).toList = front ++ ' ' :: ("PRIMARY KE".toList ++ 'Y' :: back) :=
    ⟨(Dialect.sqlite.quoteName c.name ++ " " ++ type ++ Dialect.nullability c ++
      c.defaultClause).toList, " AUTOINCREMENT".toList ++ c.checkClause.toList, by simp⟩
  have hkey : asciiUpper (folded true ("PRIMARY KE".toList ++ ['Y'])) = " PRIMARY KEY".toList := by
    decide
  rw [hsplit, Says, folded_append_blank (by decide), folded_append_letter (by decide),
    asciiUpper_append, asciiUpper_append, hkey]
  exact ⟨_, _, List.append_assoc ..⟩

theorem isInlinePrimary_definition : (TableItem.column name s).isInlinePrimary =
    (c.isInlinePrimary || c.inText TableItem.isInlinePrimary) := by
  have hstarts := starts_definition hcheck hliteral h
  cases hauto : c.autoIncrement with
  | true =>
      obtain ⟨-, -, hinline, -⟩ := Dialect.columnDefinition_eq h
      rw [hinline hauto, Bool.true_or]
      exact (isInlinePrimary_iff hstarts).mpr (says_primary h hauto)
  -- Only without the counter's clause is the definition quiet about keys.
  | false =>
      have hinline : c.isInlinePrimary = false := by
        rw [Column.isInlinePrimary, hauto, Bool.false_and]
      rw [hinline, Bool.false_or, Bool.eq_iff_iff, isInlinePrimary_iff hstarts, inText,
        List.any_eq_true, says_definition hcheck hliteral h isPhrase_primary (.inr hauto)]
      exact exists_congr fun text => and_congr_right fun _ =>
        (isInlinePrimary_iff (starts_quoteText text)).symm

end Definition

/-! ### All columns of a table -/

/-- How a column is read back: under its name, as its definition, and taken for the key of a counter
that it is, and for whatever its texts are taken for. -/
structure ReadAs (c : Column) (item : TableItem) : Prop where
  definition : ∃ s, Dialect.sqlite.columnDefinition c = .ok s ∧ item = .column c.openingName s
  generated : item.isGenerated = c.inText TableItem.isGenerated
  inlinePrimary : item.isInlinePrimary = (c.isInlinePrimary || c.inText TableItem.isInlinePrimary)
  references : item.references?.isSome = c.inText (·.references?.isSome)

/-- A column that is not changed is copied, if no text makes it look computed. -/
def CopiedAs (changes : List Column) (c : Column) (e : Dialect.CopiedItem) : Prop :=
  (∀ x ∈ changes, eqIgnoringCase x.name c.openingName = false) →
    e.transfer = if c.inText TableItem.isGenerated then none
      else some (Dialect.sqlite.quoteSegment c.openingName, Dialect.sqlite.quoteSegment c.openingName)

theorem ReadAs.copied {item : TableItem} (h : c.ReadAs item) {changes : List Column}
    {e : Dialect.CopiedItem} (he : Dialect.copyItem changes item = .ok e) : c.CopiedAs changes e := by
  obtain ⟨s, -, rfl⟩ := h.definition
  intro hchanges
  have hfind : changes.find? (eqIgnoringCase ·.name c.openingName) = none :=
    List.find?_eq_none.mpr fun x hx => by simp [hchanges x hx]
  simp only [Dialect.copyItem, TableItem.name?, hfind, h.generated] at he
  cases he
  rfl

theorem read_columns {columns : List Column} {definitions : List String}
    (h : List.Forall₂ SchemaCompiler.Defines columns definitions)
    (hliteral : ∀ c ∈ columns, c.HasLiteral) :
    List.Forall₂ ReadAs columns
      (List.zipWith (fun c s => .column c.openingName s) columns definitions) := by
  induction h with
  | nil => exact .nil
  | @cons c s columns definitions hfirst _ ih =>
      obtain ⟨hcheck, hdefinition⟩ := hfirst
      have hc := hliteral c (by simp)
      exact .cons
        { definition := ⟨s, hdefinition, rfl⟩
          generated := isGenerated_definition hcheck hc hdefinition
          inlinePrimary := isInlinePrimary_definition hcheck hc hdefinition
          references := isSome_references?_definition hcheck hc hdefinition }
        (ih fun x hx => hliteral x (by simp [hx]))

theorem copied_columns {changes : List Column} {columns : List Column} {items : List TableItem}
    (h : List.Forall₂ ReadAs columns items) {copied : List Dialect.CopiedItem}
    (hcopied : items.mapM (Dialect.copyItem changes) = .ok copied) :
    List.Forall₂ (CopiedAs changes) columns copied :=
  (forall₂_comp.mpr ⟨items, h, forall₂_of_mapM hcopied⟩).imp
    fun _ _ ⟨_, hread, hitem⟩ => hread.copied hitem

end Column

namespace Dialect

/-- Constraints are copied as they are. -/
theorem copied_constraints (changes : List Column) (constraints : List String) :
    (constraints.map TableItem.constraint).mapM (copyItem changes) =
      .ok (constraints.map fun s => ⟨s, none⟩) := by
  induction constraints with
  | nil => rfl
  | cons s rest ih =>
      rw [List.map_cons, List.mapM_cons, ih]
      rfl

/-- A rebuild copies the entries of the definition one by one. -/
theorem exists_copied {snapshot : TableSnapshot} {changes : List Column} {script : List String}
    (h : rebuildTable .sqlite snapshot changes = .ok script) {columns : List TableItem}
    {constraints : List String}
    (hitems : snapshot.items = columns ++ constraints.map TableItem.constraint) :
    ∃ copied, columns.mapM (copyItem changes) = .ok copied ∧
      script = rebuildStatements snapshot (copied ++ constraints.map fun s => ⟨s, none⟩) := by
  obtain ⟨-, items, hcopied, rfl⟩ := rebuildTable_eq_ok.mp h
  rw [hitems, List.mapM_append, copied_constraints] at hcopied
  obtain ⟨copied, hcolumns, hcopied⟩ := exists_of_bind hcopied
  cases hcopied
  exact ⟨copied, hcolumns, rfl⟩

end Dialect

/-! ### New tables -/

namespace SchemaCompiler

/-- **What a new table's columns are taken for.**  Without expressions as defaults, the statement of
a new table is read back as its columns, in order, and constraints.  A column is the key exactly if
it is a counter that is, and is neither computed nor a reference, unless one of its texts would be
taken for that by itself; and a rebuild copies every column that it does not change and that no text
makes look computed. -/
theorem created_columns_classified {k : SchemaCompiler} (hdialect : k.dialect = .sqlite)
    {b : Blueprint} (hmode : b.mode = .create) (hliteral : ∀ c ∈ b.columns, c.HasLiteral)
    {statements : List String} (h : k.compile b = .ok statements) (dependents : List String) :
    ∃ create trailing snapshot, ∃ (columns : List TableItem) (constraints : List String),
      statements = create :: trailing ∧
      TableSnapshot.parse (k.tableName b.table) create dependents = .ok snapshot ∧
      snapshot.items = columns ++ constraints.map TableItem.constraint ∧
      List.Forall₂ Column.ReadAs b.columns columns ∧
      ∀ changes script, Dialect.rebuildTable .sqlite snapshot changes = .ok script →
        ∃ copied, script =
            Dialect.rebuildStatements snapshot (copied ++ constraints.map fun s => ⟨s, none⟩) ∧
          List.Forall₂ (Column.CopiedAs changes) b.columns copied := by
  obtain ⟨definitions, constraints, trailing, hdefinitions, rfl, hparse⟩ :=
    parse_created hdialect hmode hliteral h (k.tableName b.table) dependents
  have hread := Column.read_columns hdefinitions hliteral
  refine ⟨_, trailing, _, _, constraints, rfl, hparse, rfl, hread, fun changes script hscript => ?_⟩
  obtain ⟨copied, hcopied, hstatements⟩ := Dialect.exists_copied hscript rfl
  exact ⟨copied, hstatements, Column.copied_columns hread hcopied⟩

/-- Posts with a title, and a body whose default speaks of an expression. -/
def postsBlueprint : Blueprint :=
  ((Blueprint.create "posts").add { name := "title", type := .string 255 }).add
    ({ name := "body", type := .text : Column }.withDefault "use AS (x)")

/-- The compiler for SQLite, without a prefix. -/
def plainSqlite : SchemaCompiler :=
  { dialect := .sqlite }

theorem hasLiteral_posts : ∀ c ∈ postsBlueprint.columns, c.HasLiteral := by
  intro c hc sql
  simp only [postsBlueprint, Blueprint.columns, Blueprint.add, Blueprint.record, Blueprint.create,
    List.nil_append, List.cons_append, List.filterMap_cons, List.filterMap_nil,
    BlueprintCommand.column?, List.mem_cons, List.not_mem_nil, or_false] at hc
  rcases hc with rfl | rfl
  · simp
  · simp [Column.withDefault]

/-- The statement that makes the posts. -/
def postsStatement : String :=
  "CREATE TABLE \"posts\" (\"title\" TEXT NOT NULL, \"body\" TEXT NOT NULL DEFAULT 'use AS (x)')"

theorem compile_posts : plainSqlite.compile postsBlueprint = .ok [postsStatement] := by
  decide +kernel

/-- What the posts are read back as, and what a rebuild copies of them. -/
theorem posts_classified :
    ∃ create trailing snapshot, ∃ (columns : List TableItem) (constraints : List String),
      [postsStatement] = create :: trailing ∧
      TableSnapshot.parse "posts" create [] = .ok snapshot ∧
      snapshot.items = columns ++ constraints.map TableItem.constraint ∧
      List.Forall₂ Column.ReadAs postsBlueprint.columns columns ∧
      ∀ changes script, Dialect.rebuildTable .sqlite snapshot changes = .ok script →
        ∃ copied, script =
            Dialect.rebuildStatements snapshot (copied ++ constraints.map fun s => ⟨s, none⟩) ∧
          List.Forall₂ (Column.CopiedAs changes) postsBlueprint.columns copied :=
  created_columns_classified (k := plainSqlite) rfl rfl hasLiteral_posts compile_posts []

/-- The title without a bound, to be changed. -/
def changedTitle : Column :=
  { name := "title", type := .text, change := true }

/-- A text can make a column look computed, and then its values are left out: the rebuild that
changes the title does not copy the bodies. -/
theorem text_default_taken_for_expression :
    (∀ c ∈ postsBlueprint.columns, c.HasLiteral) ∧
    plainSqlite.compile postsBlueprint = .ok [postsStatement] ∧
    ∃ snapshot script, TableSnapshot.parse "posts" postsStatement [] = .ok snapshot ∧
      snapshot.items.map (fun item => (item.name?, item.isGenerated)) =
        [(some "title", false), (some "body", true)] ∧
      Dialect.rebuildTable .sqlite snapshot [changedTitle] = .ok script ∧
      "INSERT INTO \"__quarry_tmp_posts\" (\"title\") SELECT CAST(\"title\" AS TEXT) FROM \"posts\"" ∈
        script := by
  have hparse : TableSnapshot.parse "posts" postsStatement [] = .ok
      { table := "posts"
        items := [.column "title" "\"title\" TEXT NOT NULL",
          .column "body" "\"body\" TEXT NOT NULL DEFAULT 'use AS (x)'"]
        options := ""
        dependents := [] } := by
    decide +kernel
  refine ⟨hasLiteral_posts, compile_posts, _, _, hparse, by decide +kernel, rfl, by decide +kernel⟩

end SchemaCompiler

end Relational
