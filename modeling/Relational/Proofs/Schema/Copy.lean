import Mathlib.Data.List.Pairwise
import Relational.Proofs.Schema.Definition
import Relational.Dialect.Rebuild
/-
What a rebuild makes of the stored definition.

An accepted rebuild treats the stored entries one by one, each in one of three ways: a
constraint is kept, a column that no change names is kept and copied from itself unless it
is computed, and a column that a change names is written anew and read from its old name.
Body, targets and sources are all taken from this one list, so they cannot get out of
step.  That the columns filled are just those that are not computed rests on the names of
the table being told apart in every letter case, for a change is checked against the first
column of its name and carried out on all of them.
-/
namespace Relational

open Text (eqIgnoringCase)

/-! ### Names -/

/-- A name as one identifier, in quotes, whatever it holds. -/
def quotedName (name : String) : String :=
  Text.enclosed '"' '"' name

namespace Dialect

theorem quoteSegment_eq {name : String} (h : name ≠ "*") :
    sqlite.quoteSegment name = quotedName name := by
  rw [quoteSegment, if_neg (by simpa using h)]
  rfl

theorem quoteName_eq {name : String} (h : Name.isColumn name = true) (hdot : '.' ∉ name.toList) :
    sqlite.quoteName name = quotedName name := by
  have hstar : name ≠ "*" := by
    rintro rfl
    cases h
  rw [quoteName_of_isColumn _ h, quoteDotted, Name.splitOn_of_not_mem hdot]
  simp [quoteSegment_eq hstar]

end Dialect

theorem eqIgnoringCase_comm (a b : String) : eqIgnoringCase a b = eqIgnoringCase b a := by
  rw [eqIgnoringCase, eqIgnoringCase, BEq.comm]

theorem eqIgnoringCase_congr {a b : String} (h : eqIgnoringCase a b = true) (c : String) :
    eqIgnoringCase a c = eqIgnoringCase b c := by
  rw [eqIgnoringCase, beq_iff_eq] at h
  rw [eqIgnoringCase, eqIgnoringCase, h]

namespace TableItem

/-- Whether the entry is a column of that name, in any letter case. -/
def isNamed (name : String) (item : TableItem) : Bool :=
  item.name?.any (eqIgnoringCase · name)

/-- The name of a column that is not computed. -/
def fillable? (item : TableItem) : Option String :=
  if item.isGenerated then none else item.name?

/-- The entry's own reference to another table, as it goes behind a new definition. -/
def referenceClause (item : TableItem) : String :=
  match item.references? with
  | some clause => " " ++ clause
  | none => ""

theorem any_isNamed_comm (a b : TableItem) : b.name?.any a.isNamed = a.name?.any b.isNamed := by
  cases a with
  | constraint => cases b <;> rfl
  | column name =>
      cases b with
      | constraint => rfl
      | column name' => exact eqIgnoringCase_comm name name'

theorem any_isNamed {a b : TableItem} {name : String} (ha : a.isNamed name = true)
    (hb : b.isNamed name = true) : b.name?.any a.isNamed = true := by
  cases a with
  | constraint => cases ha
  | column =>
      cases b with
      | constraint => cases hb
      | column name' =>
          refine (eqIgnoringCase_congr ha name').trans ?_
          rw [eqIgnoringCase_comm]
          exact hb

/-- The change that the entry gets. -/
def change? (changes : List Column) (item : TableItem) : Option Column :=
  changes.find? (item.isNamed ·.name)

theorem of_change? {changes : List Column} {item : TableItem} {c : Column}
    (h : item.change? changes = some c) : c ∈ changes ∧ item.isNamed c.name = true := by
  refine ⟨List.mem_of_find?_eq_some h, ?_⟩
  simpa using List.find?_some h

theorem change?_eq_none {changes : List Column} {item : TableItem} :
    item.change? changes = none ↔ ∀ c ∈ changes, item.isNamed c.name = false := by
  simp [change?]

end TableItem

namespace TableSnapshot

/-- No two columns have the same name, whatever the letter case. -/
def Distinct (s : TableSnapshot) : Prop :=
  s.items.Pairwise fun a b => b.name?.any a.isNamed = false

instance (s : TableSnapshot) : Decidable s.Distinct :=
  inferInstanceAs (Decidable (List.Pairwise _ s.items))

/-- The names of the columns that are not computed, in order. -/
def fillable (s : TableSnapshot) : List String :=
  s.items.filterMap TableItem.fillable?

/-- What no rebuild can do to a table: make a column a counter, or change one that is not there, is
computed, or is the key by its own definition. -/
def Refuses (s : TableSnapshot) (c : Column) : Prop :=
  c.autoIncrement = true ∨ (∀ item ∈ s.items, item.isNamed c.name = false) ∨
    ∃ item ∈ s.items, item.isNamed c.name = true ∧
      (item.isGenerated = true ∨ item.isInlinePrimary = true)

theorem Distinct.eq {s : TableSnapshot} (h : s.Distinct) {a b : TableItem} (ha : a ∈ s.items)
    (hb : b ∈ s.items) {name : String} (hnamed : a.isNamed name = true)
    (hnamed' : b.isNamed name = true) : a = b := by
  have hsymm : Std.Symm fun a b : TableItem => b.name?.any a.isNamed = false := by
    refine ⟨fun a b hab => ?_⟩
    rwa [TableItem.any_isNamed_comm]
  by_contra hne
  have hshared := TableItem.any_isNamed hnamed hnamed'
  rw [List.Pairwise.forall h ha hb hne] at hshared
  cases hshared

end TableSnapshot

/-! ### One entry -/

namespace Dialect

/-- What becomes of an entry of the stored definition. -/
inductive Copies (changes : List Column) (item : TableItem) : CopiedItem → Prop where
  | kept (hfind : item.change? changes = none) :
      Copies changes item
        ⟨item.sql, item.fillable?.map fun name =>
          (sqlite.quoteSegment name, sqlite.quoteSegment name)⟩
  | changed {name written source : String} {c : Column} (hname : item.name? = some name)
      (hfind : item.change? changes = some c) (hwritten : sqlite.columnDefinition c = .ok written)
      (hsource : copyExpression name c = .ok source) :
      Copies changes item
        ⟨written ++ item.referenceClause, some (sqlite.quoteName c.name, source)⟩

theorem copyItem_column (changes : List Column) (name definition : String) :
    copyItem changes (.column name definition) =
      match (TableItem.column name definition).change? changes with
      | some c => do
        let written ← sqlite.columnDefinition c
        let source ← copyExpression name c
        return ⟨written ++ (TableItem.column name definition).referenceClause,
          some (sqlite.quoteName c.name, source)⟩
      | none => .ok ⟨definition, (TableItem.column name definition).fillable?.map fun name =>
          (sqlite.quoteSegment name, sqlite.quoteSegment name)⟩ := by
  have hnamed : (fun c : Column => eqIgnoringCase c.name name) =
      fun c => (TableItem.column name definition).isNamed c.name :=
    funext fun c => eqIgnoringCase_comm c.name name
  have hfillable : (if (TableItem.column name definition).isGenerated then none
      else some (sqlite.quoteSegment name, sqlite.quoteSegment name)) =
      (TableItem.column name definition).fillable?.map fun name =>
        (sqlite.quoteSegment name, sqlite.quoteSegment name) := by
    unfold TableItem.fillable?
    split
    · rfl
    · rfl
  rw [← hfillable, TableItem.change?, ← hnamed]
  rfl

theorem copies_copyItem {changes : List Column} {item : TableItem} {copied : CopiedItem}
    (h : copyItem changes item = .ok copied) : Copies changes item copied := by
  cases item with
  | constraint sql =>
      cases h
      exact .kept (TableItem.change?_eq_none.mpr fun _ _ => rfl)
  | column name definition =>
      rw [copyItem_column] at h
      cases hfind : (TableItem.column name definition).change? changes with
      | some c =>
          rw [hfind] at h
          obtain ⟨written, hwritten, h⟩ := exists_of_bind h
          obtain ⟨source, hsource, h⟩ := exists_of_bind h
          cases h
          exact .changed rfl hfind hwritten hsource
      | none =>
          rw [hfind] at h
          cases h
          exact .kept hfind

/-! ### Accepted rebuilds -/

theorem forM_eq_ok {ε α : Type} {f : α → Except ε Unit} {xs : List α} :
    xs.forM f = .ok () ↔ ∀ x ∈ xs, f x = .ok () := by
  induction xs with
  | nil => exact ⟨fun _ => List.forall_mem_nil _, fun _ => rfl⟩
  | cons first rest ih =>
      rw [List.forall_mem_cons, ← ih]
      constructor
      · intro h
        obtain ⟨⟨⟩, hfirst, hrest⟩ := exists_of_bind h
        exact ⟨hfirst, hrest⟩
      · rintro ⟨hfirst, hrest⟩
        show (f first >>= fun _ => rest.forM f) = .ok ()
        rw [hfirst]
        exact hrest

variable {s : TableSnapshot} {changes : List Column} {script : List String}

/-- An accepted rebuild: every change has passed, and every stored entry has become one of the
copy. -/
theorem rebuildTable_eq_ok : rebuildTable .sqlite s changes = .ok script ↔
    (∀ c ∈ changes, checkChange s c = .ok ()) ∧
      ∃ copied, s.items.mapM (copyItem changes) = .ok copied ∧ script = rebuildStatements s copied := by
  constructor
  · intro h
    obtain ⟨⟨⟩, hchecked, h⟩ := exists_of_bind h
    obtain ⟨copied, hcopied, h⟩ := exists_of_bind h
    cases h
    exact ⟨forM_eq_ok.mp hchecked, copied, hcopied, rfl⟩
  · rintro ⟨hchecked, copied, hcopied, rfl⟩
    show (changes.forM (checkChange s) >>= fun _ => s.items.mapM (copyItem changes) >>= _) = _
    rw [forM_eq_ok.mpr hchecked, hcopied]
    rfl

theorem copies_of_mapM {items : List TableItem} {copied : List CopiedItem}
    (h : items.mapM (copyItem changes) = .ok copied) :
    List.Forall₂ (Copies changes) items copied :=
  (forall₂_of_mapM h).imp fun _ _ => copies_copyItem

/-- What passes is there, and is neither computed nor the key. -/
theorem checkChange_eq_ok {c : Column} (h : checkChange s c = .ok ()) :
    c.autoIncrement = false ∧ ∃ item ∈ s.items, item.isNamed c.name = true ∧
      item.isGenerated = false ∧ item.isInlinePrimary = false := by
  unfold checkChange at h
  split at h
  · cases h
  rename_i hauto
  split at h
  · cases h
  rename_i item hfind
  split at h
  · cases h
  rename_i hfixed
  rw [Bool.or_eq_true, not_or, Bool.not_eq_true, Bool.not_eq_true] at hfixed
  exact ⟨by simpa using hauto, item, List.mem_of_find?_eq_some hfind, List.find?_some hfind, hfixed⟩

/-- In an accepted rebuild no change falls on a computed column. -/
theorem isGenerated_of_change? (hdistinct : s.Distinct)
    (hchecked : ∀ c ∈ changes, checkChange s c = .ok ()) {item : TableItem} (hitem : item ∈ s.items)
    {c : Column} (hfind : item.change? changes = some c) : item.isGenerated = false := by
  obtain ⟨hc, hcalled⟩ := TableItem.of_change? hfind
  obtain ⟨-, checked, hmem, hnamed, hplain, -⟩ := checkChange_eq_ok (hchecked c hc)
  rw [hdistinct.eq hitem hmem hcalled hnamed]
  exact hplain

theorem not_accepted_of_refuses (hdistinct : s.Distinct) {c : Column} (hc : c ∈ changes)
    (h : s.Refuses c) : rebuildTable .sqlite s changes ≠ .ok script := by
  intro haccepted
  obtain ⟨hauto, item, hitem, hnamed, hgenerated, hprimary⟩ :=
    checkChange_eq_ok ((rebuildTable_eq_ok.mp haccepted).1 c hc)
  rcases h with hcounter | habsent | ⟨other, hother, hnamed', hfixed⟩
  · rw [hauto] at hcounter
    cases hcounter
  · rw [habsent item hitem] at hnamed
    cases hnamed
  · rw [← hdistinct.eq hitem hother hnamed hnamed', hgenerated, hprimary] at hfixed
    simp at hfixed

end Dialect

/-! ### What the copy holds -/

/-- The name of the column is a single segment. -/
def Column.IsSingle (c : Column) : Prop :=
  Name.isColumn c.name = true ∧ '.' ∉ c.name.toList

/-- Reads what is stored as a value of the column's type; where there is none, a required column
takes its default. -/
def Column.reading (c : Column) (stored type : String) : String :=
  let cast := "CAST(" ++ stored ++ " AS " ++ type ++ ")"
  match c.default with
  | some v =>
    if c.nullable then cast else "COALESCE(" ++ cast ++ ", " ++ Dialect.sqlite.renderDefault v ++ ")"
  | none => cast

/-- What stands in the copy for a stored entry: the entry as it is unless a change names it, and
otherwise what the first change of that name makes of it, with the entry's own reference behind. -/
structure CopiedEntry (changes : List Column) (item : TableItem) (entry : String) : Prop where
  kept : (∀ c ∈ changes, item.isNamed c.name = false) → entry = item.sql
  changed : ∀ c ∈ changes, item.isNamed c.name = true →
    ∃ made written, changes.find? (item.isNamed ·.name) = some made ∧
      Dialect.sqlite.columnDefinition made = .ok written ∧ entry = written ++ item.referenceClause

/-- How the rows of a stored column get into the copy, as target and source: a column that no change
names under its name and from itself, and another under the name of the first change of it and from
its stored name, read as what this change makes of it. -/
structure Transferred (changes : List Column) (name : String) (transfer : String × String) : Prop
    where
  kept : (∀ c ∈ changes, eqIgnoringCase name c.name = false) →
    transfer = (quotedName name, quotedName name)
  changed : ∀ c ∈ changes, eqIgnoringCase name c.name = true →
    ∃ made type, changes.find? (eqIgnoringCase name ·.name) = some made ∧
      (made.IsSingle → transfer.1 = quotedName made.name) ∧
      Dialect.sqliteType made.type = .ok type ∧ transfer.2 = made.reading (quotedName name) type

/-- The statements of a rebuild, with the entries of the copy's definition and with the targets and
sources of its rows. -/
def rebuildScript (s : TableSnapshot) (entries : List String) (transfers : List (String × String)) :
    List String :=
  let table := Dialect.sqlite.quoteName s.table
  let copy := Dialect.sqlite.quoteName ("__quarry_tmp_" ++ s.table)
  let options := if s.options = "" then "" else " " ++ s.options
  ["PRAGMA foreign_keys = OFF", "SAVEPOINT quarry_rebuild", "DROP TABLE IF EXISTS " ++ copy,
    "CREATE TABLE " ++ copy ++ " (" ++ String.intercalate ", " entries ++ ")" ++ options,
    "INSERT INTO " ++ copy ++ " (" ++ String.intercalate ", " (transfers.map Prod.fst) ++
      ") SELECT " ++ String.intercalate ", " (transfers.map Prod.snd) ++ " FROM " ++ table,
    "DROP TABLE " ++ table, "ALTER TABLE " ++ copy ++ " RENAME TO " ++ table] ++
    s.dependents ++ ["RELEASE quarry_rebuild", "PRAGMA foreign_keys = ON"]

namespace Dialect

theorem rebuildStatements_eq_script (s : TableSnapshot) (copied : List CopiedItem) :
    rebuildStatements s copied =
      rebuildScript s (copied.map (·.definition)) (copied.filterMap (·.transfer)) := by
  have hoptions : (if s.options.isEmpty then "" else " " ++ s.options) =
      if s.options = "" then "" else " " ++ s.options := by
    simp [String.isEmpty_iff]
  have hcreate : sqlite.createTable (copyName s.table) false (copied.map (·.definition)) =
      "CREATE TABLE " ++ sqlite.quoteName (copyName s.table) ++ " (" ++
        String.intercalate ", " (copied.map (·.definition)) ++ ")" := by
    have hlead : ("CREATE TABLE " ++ if false then "IF NOT EXISTS " else "") = "CREATE TABLE " :=
      String.append_empty
    unfold createTable
    rw [hlead]
  have hset : "SAVEPOINT " ++ rebuildSavepoint = "SAVEPOINT quarry_rebuild" := by
    decide
  have hrelease : "RELEASE " ++ rebuildSavepoint = "RELEASE quarry_rebuild" := by
    decide
  unfold rebuildStatements rebuildScript
  simp only [hoptions, hcreate, hset, hrelease, disableForeignKeys, enableForeignKeys,
    Option.toList_some, List.cons_append, List.nil_append, List.append_assoc]
  rfl

theorem copyExpression_eq {stored source : String} {c : Column} (hstar : stored ≠ "*")
    (h : copyExpression stored c = .ok source) :
    ∃ type, sqliteType c.type = .ok type ∧ source = c.reading (quotedName stored) type := by
  obtain ⟨type, htype, h⟩ := exists_of_bind h
  rw [quoteSegment_eq hstar] at h
  cases h
  exact ⟨type, htype, rfl⟩

theorem Copies.entry {item : TableItem} {copied : CopiedItem} (h : Copies changes item copied) :
    CopiedEntry changes item copied.definition := by
  cases h with
  | kept hfind =>
      refine ⟨fun _ => rfl, fun c hc hnamed => ?_⟩
      rw [TableItem.change?_eq_none.mp hfind c hc] at hnamed
      cases hnamed
  | @changed name written source made hname hfind hwritten hsource =>
      obtain ⟨hmade, hnamed⟩ := TableItem.of_change? hfind
      refine ⟨fun hspared => ?_, fun _ _ _ => ⟨made, written, hfind, hwritten, rfl⟩⟩
      rw [hspared made hmade] at hnamed
      cases hnamed

theorem Copies.transfer {item : TableItem} {copied : CopiedItem} (h : Copies changes item copied)
    (hplain : ∀ c, item.change? changes = some c → item.isGenerated = false) :
    Option.Rel (fun name transfer => name ≠ "*" → Transferred changes name transfer)
      item.fillable? copied.transfer := by
  cases item with
  | constraint sql =>
      cases h with
      | kept => exact .none
      | changed hname => cases hname
  | column name definition =>
  cases h with
  | kept hfind =>
      unfold TableItem.fillable?
      split
      · exact .none
      · refine .some fun hstar => ⟨fun _ => ?_, fun c hc hnamed => ?_⟩
        · exact Prod.ext (quoteSegment_eq hstar) (quoteSegment_eq hstar)
        · rw [show eqIgnoringCase name c.name = false from
            TableItem.change?_eq_none.mp hfind c hc] at hnamed
          cases hnamed
  | @changed _ written source made hname hfind hwritten hsource =>
      cases hname
      have hfillable : (TableItem.column name definition).fillable? = some name := by
        rw [TableItem.fillable?, hplain made hfind]
        rfl
      obtain ⟨hmade, hnamed⟩ := TableItem.of_change? hfind
      rw [hfillable]
      refine .some fun hstar => ⟨fun hspared => ?_, fun _ _ _ => ?_⟩
      · rw [show (TableItem.column name definition).isNamed made.name = false from
          hspared made hmade] at hnamed
        cases hnamed
      · obtain ⟨type, htype, hread⟩ := copyExpression_eq hstar hsource
        exact ⟨made, type, hfind, fun hsingle => quoteName_eq hsingle.1 hsingle.2, htype, hread⟩

/-- **A rebuild copies the stored columns.**  The copy has one entry for each stored one, in their
order, and keeps those that no change names; targets and sources are pairs, one for each stored
column that is not computed, in their order; and what hangs on the table follows behind the new name.
A change into a counter, or of a column that is not there, computed or the key, is refused.  The
wildcard is no name that a rebuild could put in quotes, so of a column with this name nothing is
said. -/
theorem rebuild_copies_columns {s : TableSnapshot} (hdistinct : s.Distinct) (changes : List Column) :
    (∀ script, rebuildTable .sqlite s changes = .ok script → ∃ entries transfers,
      script = rebuildScript s entries transfers ∧
      List.Forall₂ (CopiedEntry changes) s.items entries ∧
      List.Forall₂ (fun name transfer => name ≠ "*" → Transferred changes name transfer)
        s.fillable transfers) ∧
    ∀ c ∈ changes, s.Refuses c → ∃ e, rebuildTable .sqlite s changes = .error e := by
  constructor
  · intro script hscript
    obtain ⟨hchecked, copied, hcopied, rfl⟩ := rebuildTable_eq_ok.mp hscript
    refine ⟨_, _, rebuildStatements_eq_script s copied, ?_, ?_⟩
    · rw [List.forall₂_map_right_iff]
      exact (copies_of_mapM hcopied).imp fun _ _ h => h.entry
    · have hplain : ∀ item ∈ s.items, ∀ c, item.change? changes = some c →
          item.isGenerated = false :=
        fun item hitem c hfind => isGenerated_of_change? hdistinct hchecked hitem hfind
      exact List.rel_filterMap (fun _ _ h => h.2.transfer h.1)
        ((List.forall₂_and_left _ _).mpr ⟨hplain, copies_of_mapM hcopied⟩)
  · intro c hc hrefused
    cases hscript : rebuildTable .sqlite s changes with
    | ok script => exact absurd hscript (not_accepted_of_refuses hdistinct hc hrefused)
    | error e => exact ⟨e, rfl⟩

/-- Stock with a key, a price, a computed worth and a rule, and an index that hangs on it. -/
def stockSnapshot : TableSnapshot :=
  { table := "stock"
    items := [.column "id" "id INTEGER PRIMARY KEY",
      .column "Price" "Price INTEGER REFERENCES prices (amount)",
      .column "worth" "worth INTEGER GENERATED ALWAYS AS (Price * 2)",
      .constraint "CHECK (Price > 0)"]
    options := "STRICT"
    dependents := ["CREATE INDEX by_price ON stock (Price)"] }

/-- The price as a number of its own, to be changed. -/
def changedPrice : Column :=
  { name := "price", type := .double, default := some (.literal (.int 1)), change := true }

/-- The rebuild that changes the price. -/
def stockScript : List String :=
  ["PRAGMA foreign_keys = OFF", "SAVEPOINT quarry_rebuild",
    "DROP TABLE IF EXISTS \"__quarry_tmp_stock\"",
    "CREATE TABLE \"__quarry_tmp_stock\" (id INTEGER PRIMARY KEY, " ++
      "\"price\" REAL NOT NULL DEFAULT 1 REFERENCES prices (amount), " ++
      "worth INTEGER GENERATED ALWAYS AS (Price * 2), CHECK (Price > 0)) STRICT",
    "INSERT INTO \"__quarry_tmp_stock\" (\"id\", \"price\") " ++
      "SELECT \"id\", COALESCE(CAST(\"Price\" AS REAL), 1) FROM \"stock\"",
    "DROP TABLE \"stock\"", "ALTER TABLE \"__quarry_tmp_stock\" RENAME TO \"stock\"",
    "CREATE INDEX by_price ON stock (Price)", "RELEASE quarry_rebuild", "PRAGMA foreign_keys = ON"]

/-- The price is changed, and the worth is not. -/
theorem stock_copied :
    stockSnapshot.Distinct ∧ rebuildTable .sqlite stockSnapshot [changedPrice] = .ok stockScript ∧
    (∃ entries transfers, stockScript = rebuildScript stockSnapshot entries transfers ∧
      List.Forall₂ (CopiedEntry [changedPrice]) stockSnapshot.items entries ∧
      List.Forall₂ (fun name transfer => name ≠ "*" → Transferred [changedPrice] name transfer)
        ["id", "Price"] transfers) ∧
    ∃ e, rebuildTable .sqlite stockSnapshot [{ changedPrice with name := "Worth" }] = .error e := by
  have hdistinct : stockSnapshot.Distinct := by decide
  have haccepted : rebuildTable .sqlite stockSnapshot [changedPrice] = .ok stockScript := by
    decide +kernel
  have hfillable : stockSnapshot.fillable = ["id", "Price"] := by decide +kernel
  have hrefused : stockSnapshot.Refuses { changedPrice with name := "Worth" } :=
    .inr (.inr ⟨_, .tail _ (.tail _ (.head _)), by decide, .inl (by decide +kernel)⟩)
  refine ⟨hdistinct, haccepted, ?_,
    (rebuild_copies_columns hdistinct _).2 _ (List.mem_singleton_self _) hrefused⟩
  rw [← hfillable]
  exact (rebuild_copies_columns hdistinct _).1 _ haccepted

/-- A table with a column called like the wildcard. -/
def starredSnapshot : TableSnapshot :=
  { table := "t"
    items := [.column "*" "\"*\" INTEGER", .column "b" "\"b\" INTEGER"]
    options := ""
    dependents := [] }

/-- The other column as text, to be changed. -/
def changedOther : Column :=
  { name := "b", type := .text, change := true }

/-- The rebuild that changes it. -/
def starredScript : List String :=
  ["PRAGMA foreign_keys = OFF", "SAVEPOINT quarry_rebuild",
    "DROP TABLE IF EXISTS \"__quarry_tmp_t\"",
    "CREATE TABLE \"__quarry_tmp_t\" (\"*\" INTEGER, \"b\" TEXT NOT NULL)",
    "INSERT INTO \"__quarry_tmp_t\" (*, \"b\") SELECT *, CAST(\"b\" AS TEXT) FROM \"t\"",
    "DROP TABLE \"t\"", "ALTER TABLE \"__quarry_tmp_t\" RENAME TO \"t\"",
    "RELEASE quarry_rebuild", "PRAGMA foreign_keys = ON"]

theorem eq_of_transferred_starred {transfers : List (String × String)}
    (h : List.Forall₂ (Transferred [changedOther]) starredSnapshot.fillable transfers) :
    transfers = [("\"*\"", "\"*\""), ("\"b\"", "CAST(\"b\" AS TEXT)")] := by
  rw [show starredSnapshot.fillable = ["*", "b"] by decide +kernel] at h
  cases h with
  | cons hstar h =>
  cases h with
  | @cons _ transfer _ _ hother h =>
  cases h
  obtain ⟨made, type, hmade, htarget, htype, hsource⟩ :=
    hother.changed changedOther (List.mem_singleton_self _) (by decide)
  obtain rfl := List.mem_singleton.mp (List.mem_of_find?_eq_some hmade)
  cases htype
  have hrow : transfer = ("\"b\"", "CAST(\"b\" AS TEXT)") := by
    refine Prod.ext ((htarget ⟨by decide, by decide⟩).trans (by decide)) (hsource.trans ?_)
    decide +kernel
  rw [hstar.kept (by decide), hrow]
  rfl

/-- A column called like the wildcard is not copied from itself: the rows are read by the wildcard
into the wildcard. -/
theorem starred_column_not_copied :
    TableSnapshot.parse "t" "CREATE TABLE \"t\" (\"*\" INTEGER, \"b\" INTEGER)" [] =
      .ok starredSnapshot ∧
    starredSnapshot.Distinct ∧
    rebuildTable .sqlite starredSnapshot [changedOther] = .ok starredScript ∧
    ¬ ∃ entries transfers, starredScript = rebuildScript starredSnapshot entries transfers ∧
      List.Forall₂ (Transferred [changedOther]) starredSnapshot.fillable transfers := by
  refine ⟨by decide +kernel, by decide, by decide +kernel, ?_⟩
  rintro ⟨entries, transfers, hscript, hrows⟩
  rw [eq_of_transferred_starred hrows] at hscript
  have hinsert := congrArg (·[4]?) hscript
  -- the entries stand in the statement before
  change starredScript[4]? = (rebuildScript starredSnapshot []
    [("\"*\"", "\"*\""), ("\"b\"", "CAST(\"b\" AS TEXT)")])[4]? at hinsert
  revert hinsert
  decide +kernel

end Dialect

end Relational
