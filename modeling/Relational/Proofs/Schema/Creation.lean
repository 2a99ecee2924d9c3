import Mathlib.Data.List.Forall2
import Relational.Proofs.Schema.Constraint
import Relational.Proofs.Schema.Definition
/-
New tables, compiled and read back.

A blueprint for a new table is compiled command by command.  What the commands contribute
is put together as the definitions of all columns, the primary key unless a counter is
one, and the foreign keys; the stored definition is read back as just these entries, in
this order.
-/
namespace Relational

open TableSnapshot

/-! ### The key and the constraints -/

/-- The mark of a column that it belongs to the primary key. -/
def Column.mark? (c : Column) : Option (String × IndexFlag) :=
  c.primary.map fun flag => (c.name, flag)

/-- The primary key of a new table, unless it is a counter: the first one that is declared by itself,
or else one over the marked columns, under the first name that a mark gives. -/
def Blueprint.primaryKey? (b : Blueprint) : Option Index :=
  match b.indexes.filter (·.kind = .primary), b.columns.filterMap Column.mark? with
  | i :: _, _ => some i
  | [], [] => none
  | [], marked =>
    some { kind := .primary, columns := marked.map Prod.fst, name := marked.findSome? (·.2.name?) }

namespace SchemaCompiler

variable {k : SchemaCompiler} {table : String}

/-- The clause of a foreign key of a new table. -/
def foreignClause (k : SchemaCompiler) (fk : ForeignKey) : String :=
  k.dialect.foreignKeyClause (k.prefixedForeign fk)

/-- The constraints of a new table: its primary key, then its foreign keys in their order. -/
def constraintsOf (k : SchemaCompiler) (b : Blueprint) : List String :=
  (b.primaryKey?.map (k.dialect.primaryConstraint (k.tableName b.table))).toList ++
    b.foreignKeys.map k.foreignClause

theorem readsAsConstraint_of_mem (hdialect : k.dialect = .sqlite) {b : Blueprint} {s : String}
    (h : s ∈ k.constraintsOf b) : ReadsAsConstraint s := by
  unfold constraintsOf foreignClause at h
  rw [hdialect, List.mem_append, Option.mem_toList, Option.map_eq_some_iff, List.mem_map] at h
  rcases h with ⟨i, -, rfl⟩ | ⟨fk, -, rfl⟩
  · exact Dialect.primaryConstraint_reads _ i
  · exact Dialect.foreignKeyClause_reads _

/-! ### One command -/

/-- A column that was checked, and its definition. -/
def Defines (c : Column) (s : String) : Prop :=
  checkColumn c = .ok () ∧ Dialect.sqlite.columnDefinition c = .ok s

/-- What a command contributes to a new table: a column its definition and its mark, an index the
key that it may be, and a foreign key its clause. -/
structure Contributes (k : SchemaCompiler) (command : BlueprintCommand) (part : CreatePart) :
    Prop where
  columns : List.Forall₂ Defines command.column?.toList part.columns
  marked : part.marked = (command.column?.bind Column.mark?).toList
  declared : part.declared = (command.index?.filter (·.kind = .primary)).toList
  constraints : part.constraints = (command.foreign?.map k.foreignClause).toList

/-- The mark, the key and the foreign key of a command are taken over, in any dialect. -/
theorem marks_createPart {command : BlueprintCommand} {part : CreatePart}
    (h : k.createPart table command = .ok part) :
    part.marked = (command.column?.bind Column.mark?).toList ∧
      part.declared = (command.index?.filter (·.kind = .primary)).toList ∧
      part.constraints = (command.foreign?.map k.foreignClause).toList := by
  cases command with
  | column c =>
      obtain ⟨⟨⟩, -, h⟩ := exists_of_bind h
      change (if c.change then _ else _) = _ at h
      split at h
      · cases h
      obtain ⟨s, -, h⟩ := exists_of_bind h
      obtain ⟨indexes, -, h⟩ := exists_of_bind h
      cases h
      exact ⟨rfl, rfl, rfl⟩
  | index i =>
      obtain ⟨⟨⟩, -, h⟩ := exists_of_bind h
      change (if i.kind = .primary then _ else _) = _ at h
      split at h
      · rename_i hkind
        cases h
        exact ⟨rfl, by simp [BlueprintCommand.index?, Option.filter, hkind], rfl⟩
      · rename_i hkind
        obtain ⟨statement, -, h⟩ := exists_of_bind h
        cases h
        exact ⟨rfl, by simp [BlueprintCommand.index?, Option.filter, hkind], rfl⟩
  | foreign fk =>
      obtain ⟨⟨⟩, -, h⟩ := exists_of_bind h
      cases h
      exact ⟨rfl, rfl, rfl⟩
  | _ => cases h

/-- A column contributes its definition, in any dialect, and is counted if it is the key. -/
theorem columns_createPart {command : BlueprintCommand} {part : CreatePart}
    (h : k.createPart table command = .ok part) :
    List.Forall₂ (fun c s => checkColumn c = .ok () ∧ k.dialect.columnDefinition c = .ok s)
        command.column?.toList part.columns ∧
      part.inlinePrimaries = command.column?.toList.countP (·.isInlinePrimary) := by
  cases command with
  | column c =>
      obtain ⟨⟨⟩, hcheck, h⟩ := exists_of_bind h
      change (if c.change then _ else _) = _ at h
      split at h
      · cases h
      obtain ⟨s, hdefinition, h⟩ := exists_of_bind h
      obtain ⟨indexes, -, h⟩ := exists_of_bind h
      cases h
      exact ⟨.cons ⟨hcheck, hdefinition⟩ .nil, by simp [BlueprintCommand.column?, List.countP_cons]⟩
  | index i =>
      obtain ⟨⟨⟩, -, h⟩ := exists_of_bind h
      change (if i.kind = .primary then _ else _) = _ at h
      split at h
      · cases h
        exact ⟨.nil, rfl⟩
      · obtain ⟨statement, -, h⟩ := exists_of_bind h
        cases h
        exact ⟨.nil, rfl⟩
  | foreign fk =>
      obtain ⟨⟨⟩, -, h⟩ := exists_of_bind h
      cases h
      exact ⟨.nil, rfl⟩
  | _ => cases h

theorem contributes_createPart (hdialect : k.dialect = .sqlite) {command : BlueprintCommand}
    {part : CreatePart} (h : k.createPart table command = .ok part) : k.Contributes command part := by
  obtain ⟨hmarked, hdeclared, hconstraints⟩ := marks_createPart h
  have hcolumns := (columns_createPart h).1
  rw [hdialect] at hcolumns
  exact ⟨hcolumns, hmarked, hdeclared, hconstraints⟩

/-! ### All commands -/

/-- The columns of the commands and what the parts have for them stand in the same order. -/
theorem forall₂_columns {R : BlueprintCommand → CreatePart → Prop} {S : Column → String → Prop}
    {commands : List BlueprintCommand} {parts : List CreatePart} (h : List.Forall₂ R commands parts)
    (hone : ∀ command part, R command part → List.Forall₂ S command.column?.toList part.columns) :
    List.Forall₂ S (commands.filterMap (·.column?)) (parts.flatMap (·.columns)) := by
  rw [List.filterMap_eq_flatMap_toList]
  induction h with
  | nil => exact .nil
  | @cons command part commands parts hfirst _ ih =>
      rw [List.flatMap_cons, List.flatMap_cons]
      exact List.rel_append (hone command part hfirst) ih

/-- What every command has at most one of is found in the parts in the order of the commands. -/
theorem flatMap_parts {α β γ : Type} {R : α → β → Prop} {commands : List α} {parts : List β}
    (h : List.Forall₂ R commands parts) {f : β → List γ} {g : α → Option γ}
    (hone : ∀ command part, R command part → f part = (g command).toList) :
    parts.flatMap f = commands.filterMap g := by
  induction h with
  | nil => rfl
  | @cons command part commands parts hfirst _ ih =>
      rw [List.flatMap_cons, hone command part hfirst, ih]
      cases hg : g command with
      | none => simp [hg]
      | some a => simp [hg]

theorem flatMap_marked {b : Blueprint} {parts : List CreatePart}
    (h : List.Forall₂ (fun command part => k.createPart table command = .ok part) b.commands parts) :
    parts.flatMap (·.marked) = b.columns.filterMap Column.mark? := by
  rw [Blueprint.columns, List.filterMap_filterMap]
  exact flatMap_parts h fun _ _ hpart => (marks_createPart hpart).1

theorem flatMap_declared {b : Blueprint} {parts : List CreatePart}
    (h : List.Forall₂ (fun command part => k.createPart table command = .ok part) b.commands parts) :
    parts.flatMap (·.declared) = b.indexes.filter (·.kind = .primary) := by
  rw [Blueprint.indexes, List.filter_filterMap]
  exact flatMap_parts h fun _ _ hpart => (marks_createPart hpart).2.1

theorem primaryKey?_parts {b : Blueprint} {parts : List CreatePart}
    (h : List.Forall₂ (fun command part => k.createPart table command = .ok part) b.commands parts) :
    primaryKey? parts = b.primaryKey? := by
  rw [primaryKey?, flatMap_declared h, flatMap_marked h]
  rfl

/-- A new table has its columns and its constraints behind them; the rest of the parts follows. -/
theorem compileCreate_eq_ok {b : Blueprint} {statements : List String}
    (h : k.compileCreate b = .ok statements) : ∃ parts,
      b.commands.mapM (k.createPart (k.tableName b.table)) = .ok parts ∧ b.columns ≠ [] ∧
      statements = (k.dialect.createTable (k.tableName b.table) b.ifNotExists
        (parts.flatMap (·.columns) ++ k.constraintsOf b) ++ k.optionsOf b) ::
          parts.flatMap (·.trailing) := by
  unfold compileCreate at h
  dsimp only at h
  split at h
  · cases h
  rename_i hcolumns
  obtain ⟨parts, hparts, h⟩ := exists_of_bind h
  split at h
  · cases h
  cases h
  have hall := forall₂_of_mapM hparts
  have hforeign : parts.flatMap (·.constraints) = b.foreignKeys.map k.foreignClause := by
    rw [Blueprint.foreignKeys, List.map_filterMap]
    exact flatMap_parts hall fun _ _ hpart => (marks_createPart hpart).2.2
  refine ⟨parts, hparts, by simpa using hcolumns, ?_⟩
  rw [primaryKey?_parts hall, hforeign, constraintsOf, List.append_assoc]

/-- A new table's first statement holds the definitions of all columns, and its constraints behind
them. -/
theorem compileCreate_body (hdialect : k.dialect = .sqlite) {b : Blueprint}
    {statements : List String} (h : k.compileCreate b = .ok statements) :
    ∃ definitions trailing,
      statements = Dialect.sqlite.createTable (k.tableName b.table) b.ifNotExists
        (definitions ++ k.constraintsOf b) :: trailing ∧
      List.Forall₂ Defines b.columns definitions ∧ b.columns ≠ [] := by
  obtain ⟨parts, hparts, hcolumns, rfl⟩ := compileCreate_eq_ok h
  have hcontributes : List.Forall₂ k.Contributes b.commands parts :=
    (forall₂_of_mapM hparts).imp fun _ _ => contributes_createPart hdialect
  have hoptions : k.optionsOf b = "" := by
    unfold optionsOf
    rw [hdialect]
    split
    · rfl
    · rfl
  refine ⟨parts.flatMap CreatePart.columns, parts.flatMap CreatePart.trailing, ?_,
    forall₂_columns hcontributes fun _ _ hpart => hpart.columns, hcolumns⟩
  rw [hoptions, String.append_empty, hdialect]

/-! ### Reading it back -/

theorem isColumn_of_checkName {name : String} (h : checkName name = .ok ()) :
    Name.isColumn name = true := by
  unfold checkName at h
  split at h
  · assumption
  · cases h

theorem isColumn_of_checkColumn {c : Column} (h : checkColumn c = .ok ()) :
    Name.isColumn c.name = true := by
  obtain ⟨⟨⟩, hname, -⟩ := exists_of_bind h
  exact isColumn_of_checkName hname

/-- Definitions of columns pass as entries, and are read as these columns. -/
theorem definitions_read {columns : List Column} {definitions : List String}
    (h : List.Forall₂ Defines columns definitions) (hliteral : ∀ c ∈ columns, c.HasLiteral) :
    (∀ s ∈ definitions, Passes 1 s.toList ∧ Tight s.toList) ∧
      definitions.map (fun s => TableItem.ofChars s.toList) =
        List.zipWith (fun c s => .column c.openingName s) columns definitions := by
  induction h with
  | nil => exact ⟨by simp, rfl⟩
  | @cons c s columns definitions hfirst hrest ih =>
      obtain ⟨hentries, hread⟩ := ih fun x hx => hliteral x (by simp [hx])
      obtain ⟨hcheck, hdefinition⟩ := hfirst
      have hname := isColumn_of_checkColumn hcheck
      have hc := hliteral c (by simp)
      refine ⟨fun t ht => ?_, ?_⟩
      · rcases List.mem_cons.mp ht with rfl | ht
        · exact ⟨Column.passes_definition hc hdefinition, Column.tight_definition hname hc hdefinition⟩
        · exact hentries t ht
      · rw [List.map_cons, List.zipWith_cons_cons, hread, Column.ofChars_definition hname hdefinition]

/-- Definitions of columns and constraints behind them pass as entries, and are read as what they
are. -/
theorem body_read {columns : List Column} {definitions constraints : List String}
    (h : List.Forall₂ Defines columns definitions) (hliteral : ∀ c ∈ columns, c.HasLiteral)
    (hconstraints : ∀ s ∈ constraints, ReadsAsConstraint s) :
    (∀ e ∈ (definitions ++ constraints).map String.toList, Passes 1 e ∧ Tight e) ∧
      ((definitions ++ constraints).map String.toList).map TableItem.ofChars =
        List.zipWith (fun c s => .column c.openingName s) columns definitions ++
          constraints.map .constraint := by
  obtain ⟨hcolumns, hread⟩ := definitions_read h hliteral
  refine ⟨fun e he => ?_, ?_⟩
  · obtain ⟨s, hs, rfl⟩ := List.mem_map.mp he
    rcases List.mem_append.mp hs with hs | hs
    · exact hcolumns s hs
    · exact ⟨(hconstraints s hs).passes, (hconstraints s hs).tight⟩
  · rw [List.map_map, List.map_append]
    exact congrArg₂ (· ++ ·) hread (List.map_congr_left fun s hs => (hconstraints s hs).read)

/-- The statement of a new table: its lead, and the entries between parentheses. -/
theorem toList_createTable (words table : String) (body : List String) :
    ("CREATE TABLE " ++ words ++ table ++ " (" ++ String.intercalate ", " body ++ ")").toList =
      "CREATE TABLE ".toList ++ (words.toList ++ (table.toList ++ [' '])) ++
        '(' :: (List.intercalate [',', ' '] (body.map String.toList) ++ [')']) := by
  simp [String.toList_intercalate]

theorem passes_lead (table : String) (ifNotExists : Bool) :
    Passes 0 ("CREATE TABLE ".toList ++ ((if ifNotExists then "IF NOT EXISTS " else "").toList ++
      ((Dialect.sqlite.quoteName table).toList ++ [' ']))) := by
  have hwords : Passes 0 (if ifNotExists then "IF NOT EXISTS " else "").toList := by
    split
    · exact passes_of_ordinary (by decide)
    · exact .nil
  exact (passes_of_ordinary (by decide)).append (hwords.append ((passes_quoteName _).append
    (passes_of_ordinary (by decide))))

/-- A new table is read back as its columns, in their order, and its constraints behind them. -/
theorem parse_created_body (hdialect : k.dialect = .sqlite) {b : Blueprint} (hmode : b.mode = .create)
    (hliteral : ∀ c ∈ b.columns, c.HasLiteral) {statements : List String}
    (h : k.compile b = .ok statements) (table : String) (dependents : List String) :
    ∃ definitions trailing, List.Forall₂ Defines b.columns definitions ∧
      statements = Dialect.sqlite.createTable (k.tableName b.table) b.ifNotExists
        (definitions ++ k.constraintsOf b) :: trailing ∧
      TableSnapshot.parse table (Dialect.sqlite.createTable (k.tableName b.table) b.ifNotExists
          (definitions ++ k.constraintsOf b)) dependents =
        .ok
          { table
            items := List.zipWith (fun c s => .column c.openingName s) b.columns definitions ++
              (k.constraintsOf b).map .constraint
            options := ""
            dependents } := by
  obtain ⟨⟨⟩, -, h⟩ := exists_of_bind h
  rw [hmode] at h
  obtain ⟨definitions, trailing, rfl, hdefinitions, hne⟩ := compileCreate_body hdialect h
  refine ⟨definitions, trailing, hdefinitions, rfl, ?_⟩
  obtain ⟨hentries, hitems⟩ :=
    body_read hdefinitions hliteral fun _ => readsAsConstraint_of_mem (b := b) hdialect
  have hdefined : definitions ≠ [] := by
    rintro rfl
    exact hne (List.forall₂_nil_right_iff.mp hdefinitions)
  rw [← hitems]
  exact parse_of_passes (passes_lead (k.tableName b.table) b.ifNotExists) (by simp [hdefined])
    (fun e he => (hentries e he).1) (fun e he => (hentries e he).2) (toList_createTable _ _ _)
    table dependents

theorem parse_created (hdialect : k.dialect = .sqlite) {b : Blueprint} (hmode : b.mode = .create)
    (hliteral : ∀ c ∈ b.columns, c.HasLiteral) {statements : List String}
    (h : k.compile b = .ok statements) (table : String) (dependents : List String) :
    ∃ definitions constraints trailing, List.Forall₂ Defines b.columns definitions ∧
      statements = Dialect.sqlite.createTable (k.tableName b.table) b.ifNotExists
        (definitions ++ constraints) :: trailing ∧
      TableSnapshot.parse table (Dialect.sqlite.createTable (k.tableName b.table) b.ifNotExists
          (definitions ++ constraints)) dependents =
        .ok
          { table
            items := List.zipWith (fun c s => .column c.openingName s) b.columns definitions ++
              constraints.map .constraint
            options := ""
            dependents } := by
  obtain ⟨definitions, trailing, hcreated⟩ :=
    parse_created_body hdialect hmode hliteral h table dependents
  exact ⟨definitions, k.constraintsOf b, trailing, hcreated⟩

end SchemaCompiler

end Relational
