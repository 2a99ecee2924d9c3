import Relational.Proofs.Schema.Literal
/-
A prefix stands in front of every table name, once.

Compiling under a prefix is compiling without one what has the prefix in its table names
already.  Everything the compiler writes, and every fault it reports, goes by the name
with the prefix: the statements on the table, the generated names, the owner of a foreign
key and the table it refers to, and the stored definition that a rebuild asks for.  Only
whether a name is one is asked of the name alone, and a prefix that is a name by itself
does not change that.
-/
namespace Relational

/-! ### Plain names -/

namespace Name

/-- A prefix that is a name leaves a name one. -/
theorem isSegment_append {p t : List Char} (hp : isSegment p = true) (ht : isSegment t = true) :
    isSegment (p ++ t) = true := by
  cases p with
  | nil => cases hp
  | cons c rest =>
      rw [isSegment, Bool.and_eq_true, List.all_eq_true] at hp
      rw [List.cons_append, isSegment, Bool.and_eq_true, List.all_eq_true]
      refine ⟨hp.1, fun x hx => ?_⟩
      rcases List.mem_append.mp hx with hx | hx
      · exact hp.2 x hx
      · exact isPart_of_isSegment ht hx

theorem isColumn_of_isSegment {name : String} (h : isSegment name.toList = true) :
    isColumn name = true := by
  have hdot : '.' ∉ name.toList := fun hmem => by
    cases isPart_of_isSegment h hmem
  have hstar : name ≠ "*" := by
    rintro rfl
    cases h
  have hdotted : isDotted name.toList = true := by
    rw [isDotted, splitOn_of_not_mem hdot]
    simpa using h
  simp [isColumn, isIdentifier, hstar, hdotted]

end Name

/-! ### Names with the prefix -/

/-- The foreign key with the prefix in front of its tables; where it refers to no table, there is
nothing to put it in front of. -/
def ForeignKey.prefixed (p : String) (fk : ForeignKey) : ForeignKey :=
  { fk with
    table := p ++ fk.table
    referencedTable := if fk.referencedTable = "" then "" else p ++ fk.referencedTable }

/-- The command with the prefix in front of table names. -/
def BlueprintCommand.prefixed (p : String) : BlueprintCommand → BlueprintCommand
  | .foreign fk => .foreign (fk.prefixed p)
  | command => command

/-- The blueprint with the prefix in front of table names. -/
def Blueprint.prefixed (p : String) (b : Blueprint) : Blueprint :=
  { b with table := p ++ b.table, commands := b.commands.map (·.prefixed p) }

namespace SchemaOperation

/-- The change with the prefix in front of table names. -/
def prefixed (p : String) : SchemaOperation → SchemaOperation
  | table b => table (b.prefixed p)
  | drop t => drop (p ++ t)
  | dropIfExists t => dropIfExists (p ++ t)
  | rename source target => rename (p ++ source) (p ++ target)
  | raw sql => raw sql

/-- The names of the tables that are made, changed, dropped or renamed. -/
def tables : SchemaOperation → List String
  | table b => [b.table]
  | drop t | dropIfExists t => [t]
  | rename source target => [source, target]
  | raw _ => []

end SchemaOperation

namespace BlueprintCommand

variable (p : String) (command : BlueprintCommand)

@[simp] theorem column?_prefixed : (command.prefixed p).column? = command.column? := by
  cases command <;> rfl

@[simp] theorem changed?_prefixed : (command.prefixed p).changed? = command.changed? := by
  rw [changed?, column?_prefixed, changed?]

@[simp] theorem describe_prefixed : (command.prefixed p).describe = command.describe := by
  cases command <;> rfl

end BlueprintCommand

@[simp] theorem Blueprint.columns_prefixed (p : String) (b : Blueprint) :
    (b.prefixed p).columns = b.columns := by
  simp [columns, prefixed, List.filterMap_map]

namespace SchemaCompiler

/-- The compiler without its prefix. -/
def unprefixed (k : SchemaCompiler) : SchemaCompiler :=
  { k with tablePrefix := "" }

variable (k : SchemaCompiler)

@[simp] theorem tableName_unprefixed (t : String) :
    k.unprefixed.tableName (k.tablePrefix ++ t) = k.tableName t :=
  String.empty_append

@[simp] theorem prefixedForeign_unprefixed (fk : ForeignKey) :
    k.unprefixed.prefixedForeign (fk.prefixed k.tablePrefix) = k.prefixedForeign fk := by
  by_cases hunset : fk.referencedTable = ""
  · simp [prefixedForeign, ForeignKey.prefixed, hunset]
  · have hset : k.tablePrefix ++ fk.referencedTable ≠ "" := by
      simp [hunset]
    simp [prefixedForeign, ForeignKey.prefixed, hunset, hset]

/-! ### New tables -/

theorem createPart_unprefixed (table : String) (command : BlueprintCommand) :
    k.unprefixed.createPart table (command.prefixed k.tablePrefix) =
      k.createPart table command := by
  cases command with
  | foreign fk =>
      simp only [BlueprintCommand.prefixed, createPart, prefixedForeign_unprefixed]
      rfl
  | _ => rfl

theorem compileCreate_unprefixed (b : Blueprint) :
    k.unprefixed.compileCreate (b.prefixed k.tablePrefix) = k.compileCreate b := by
  have hparts :
      (b.prefixed k.tablePrefix).commands.mapM (k.unprefixed.createPart (k.tableName b.table)) =
        b.commands.mapM (k.createPart (k.tableName b.table)) := by
    have hpart := funext (k.createPart_unprefixed (k.tableName b.table))
    rw [Blueprint.prefixed, List.mapM_map]
    exact congrArg (List.mapM · b.commands) hpart
  have htable : k.unprefixed.tableName (b.prefixed k.tablePrefix).table = k.tableName b.table :=
    k.tableName_unprefixed b.table
  have hoptions : k.unprefixed.optionsOf (b.prefixed k.tablePrefix) = k.optionsOf b := rfl
  have hdialect : k.unprefixed.dialect = k.dialect := rfl
  have hguard : (b.prefixed k.tablePrefix).ifNotExists = b.ifNotExists := rfl
  simp only [compileCreate, htable, Blueprint.columns_prefixed, hparts, hoptions, hdialect, hguard]

/-! ### Changed tables -/

theorem rebuild_unprefixed (table : String) (b : Blueprint) :
    k.unprefixed.rebuild table (b.prefixed k.tablePrefix) = k.rebuild table b := by
  simp only [rebuild, Blueprint.prefixed, List.takeWhile_map, List.dropWhile_map, List.any_map,
    List.filterMap_map, Function.comp_def, BlueprintCommand.changed?_prefixed]
  rfl

theorem alterCommand_unprefixed (table : String) (b : Blueprint) (rebuilt : Bool)
    (command : BlueprintCommand) :
    k.unprefixed.alterCommand table (b.prefixed k.tablePrefix) rebuilt
        (command.prefixed k.tablePrefix) =
      k.alterCommand table b rebuilt command := by
  cases command with
  | column c =>
      simp only [BlueprintCommand.prefixed, alterCommand, alterColumn, rebuild_unprefixed]
      rfl
  | foreign fk =>
      simp only [BlueprintCommand.prefixed, alterCommand, prefixedForeign_unprefixed]
      rfl
  | _ => rfl

theorem alterCommands_unprefixed (table : String) (b : Blueprint) (rebuilt : Bool)
    (commands : List BlueprintCommand) :
    k.unprefixed.alterCommands table (b.prefixed k.tablePrefix) rebuilt
        (commands.map (·.prefixed k.tablePrefix)) =
      k.alterCommands table b rebuilt commands := by
  induction commands generalizing rebuilt with
  | nil => rfl
  | cons command rest ih =>
      simp only [List.map_cons, alterCommands, alterCommand_unprefixed,
        BlueprintCommand.changed?_prefixed, ih]

theorem compileAlter_unprefixed (b : Blueprint) :
    k.unprefixed.compileAlter (b.prefixed k.tablePrefix) = k.compileAlter b := by
  have htable : k.unprefixed.tableName (b.prefixed k.tablePrefix).table = k.tableName b.table :=
    k.tableName_unprefixed b.table
  rw [compileAlter, htable]
  exact k.alterCommands_unprefixed _ b false b.commands

/-! ### Whole changes -/

/-- A plain name is accepted, by itself and behind a plain prefix. -/
theorem checkName_of_isSegment {p t : String} (hp : Name.isSegment p.toList = true)
    (ht : Name.isSegment t.toList = true) :
    checkName t = .ok () ∧ checkName (p ++ t) = .ok () := by
  have hboth : Name.isSegment (p ++ t).toList = true := by
    rw [String.toList_append]
    exact Name.isSegment_append hp ht
  exact ⟨if_pos (Name.isColumn_of_isSegment ht), if_pos (Name.isColumn_of_isSegment hboth)⟩

variable {k} (hplain : Name.isSegment k.tablePrefix.toList = true)
include hplain

theorem compile_unprefixed {b : Blueprint} (htable : Name.isSegment b.table.toList = true) :
    k.unprefixed.compile (b.prefixed k.tablePrefix) = k.compile b := by
  obtain ⟨halone, hbehind⟩ := checkName_of_isSegment hplain htable
  unfold compile
  rw [compileCreate_unprefixed, compileAlter_unprefixed, halone]
  exact congrArg (· >>= _) hbehind

theorem compileOperation_unprefixed {operation : SchemaOperation}
    (htables : ∀ t ∈ operation.tables, Name.isSegment t.toList = true) :
    k.unprefixed.compileOperation (operation.prefixed k.tablePrefix) =
      k.compileOperation operation := by
  cases operation with
  | table b =>
      exact compile_unprefixed hplain (htables b.table (by simp [SchemaOperation.tables]))
  | drop t =>
      obtain ⟨halone, hbehind⟩ :=
        checkName_of_isSegment hplain (htables t (by simp [SchemaOperation.tables]))
      simp only [SchemaOperation.prefixed, compileOperation, halone, hbehind, tableName_unprefixed]
      rfl
  | dropIfExists t =>
      obtain ⟨halone, hbehind⟩ :=
        checkName_of_isSegment hplain (htables t (by simp [SchemaOperation.tables]))
      simp only [SchemaOperation.prefixed, compileOperation, halone, hbehind, tableName_unprefixed]
      rfl
  | rename source target =>
      obtain ⟨hsource, hsource'⟩ :=
        checkName_of_isSegment hplain (htables source (by simp [SchemaOperation.tables]))
      obtain ⟨htarget, htarget'⟩ :=
        checkName_of_isSegment hplain (htables target (by simp [SchemaOperation.tables]))
      simp only [SchemaOperation.prefixed, compileOperation, hsource, hsource', htarget, htarget',
        tableName_unprefixed]
      rfl
  | raw sql => rfl

theorem compilePlan_unprefixed {plan : SchemaPlan}
    (htables : ∀ operation ∈ plan, ∀ t ∈ operation.tables, Name.isSegment t.toList = true) :
    k.unprefixed.compilePlan (plan.map (·.prefixed k.tablePrefix)) = k.compilePlan plan := by
  have hparts : (plan.map (·.prefixed k.tablePrefix)).mapM k.unprefixed.compileOperation =
      plan.mapM k.compileOperation := by
    induction plan with
    | nil => rw [List.map_nil, List.mapM_nil, List.mapM_nil]
    | cons operation rest ih =>
        rw [List.map_cons, List.mapM_cons, List.mapM_cons,
          compileOperation_unprefixed hplain (htables operation (by simp)),
          ih fun other hmem => htables other (by simp [hmem])]
  simp only [compilePlan, hparts]

omit hplain

/-- **A prefix stands in front of every table name, once.**  Under a prefix that is a plain name, a
blueprint, a change or a plan on tables of plain names compiles to the statements, or fails with the
error, that it has without a prefix and with the same stored definition, once the prefix is put in
front of its tables, of the owners of its foreign keys and of the tables these refer to. -/
theorem prefix_in_front_of_tables (k : SchemaCompiler)
    (hplain : Name.isSegment k.tablePrefix.toList = true) :
    (∀ b : Blueprint, Name.isSegment b.table.toList = true →
      k.compile b = k.unprefixed.compile (b.prefixed k.tablePrefix)) ∧
    (∀ operation : SchemaOperation,
      (∀ t ∈ operation.tables, Name.isSegment t.toList = true) →
      k.compileOperation operation =
        k.unprefixed.compileOperation (operation.prefixed k.tablePrefix)) ∧
    ∀ plan : SchemaPlan,
      (∀ operation ∈ plan, ∀ t ∈ operation.tables, Name.isSegment t.toList = true) →
      k.compilePlan plan =
        k.unprefixed.compilePlan (plan.map (·.prefixed k.tablePrefix)) := by
  refine ⟨fun b htable => ?_, fun operation htables => ?_, fun plan htables => ?_⟩
  · exact (compile_unprefixed hplain htable).symm
  · exact (compileOperation_unprefixed hplain htables).symm
  · exact (compilePlan_unprefixed hplain htables).symm

/-- A compiler that changes columns of the posts of a shop. -/
def shopCompiler : SchemaCompiler :=
  { dialect := .sqlite
    tablePrefix := "shop_"
    snapshot := some
      { table := "shop_posts"
        items := [.column "title" "\"title\" INTEGER"]
        options := ""
        dependents := [] } }

/-- Titles become texts, then comments are made that refer to posts, and the posts get another
name. -/
def shopPlan : SchemaPlan :=
  [.table
    { table := "posts"
      mode := .alter
      commands := [
        .column { name := "title", type := .text, change := true, unique := some .generated }] },
   .table
    { table := "comments"
      mode := .create
      commands := [
        .column { name := "post", type := .integer },
        .foreign
          { table := "comments", columns := ["post"], referencedTable := "posts"
            referencedColumns := ["id"] }] },
   .rename "posts" "articles"]

/-- The shop's plan is the plan with the prefix in its names, and that one can be compiled. -/
theorem shop_prefix_in_front :
    Name.isSegment shopCompiler.tablePrefix.toList = true ∧
    (∀ operation ∈ shopPlan, ∀ t ∈ operation.tables, Name.isSegment t.toList = true) ∧
    shopCompiler.compilePlan shopPlan =
      shopCompiler.unprefixed.compilePlan (shopPlan.map (·.prefixed shopCompiler.tablePrefix)) ∧
    (shopCompiler.compilePlan shopPlan).isOk = true := by
  refine ⟨by decide, by decide, ?_, by decide +kernel⟩
  exact (prefix_in_front_of_tables shopCompiler (by decide)).2.2 shopPlan (by decide)

end SchemaCompiler

end Relational
