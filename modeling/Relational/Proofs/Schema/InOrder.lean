import Relational.Proofs.Schema.Merged
/-
Statements in the order of what was declared.

What a command of an alter blueprint compiles to depends on the rest of the blueprint in one
case only: a change where tables are rebuilt.  Everywhere else the blueprint compiles to what
its commands compile to by themselves, and the first of them that fails is the one that is
told.  With changes and a dialect that rebuilds, the first change brings the statements of
the one rebuild.  After it a change has nothing left to contribute but the indexes that are
asked for on its column: the dialect has no statement for a key or a comment.
-/
namespace Relational

/-! ### In turn -/

section InTurn

variable {ε α β : Type} {f : α → Except ε (List β)} {xs : List α} {whole : Except ε (List β)}

/-- The whole is what the members give, one behind the other, or the error of the first that
fails. -/
def InTurn (f : α → Except ε (List β)) (xs : List α) (whole : Except ε (List β)) : Prop :=
  match whole with
  | .ok all =>
    ∃ parts, List.Forall₂ (fun x part => f x = .ok part) xs parts ∧ all = parts.flatten
  | .error e =>
    ∃ before x after, xs = before ++ x :: after ∧ (∀ y ∈ before, ∃ part, f y = .ok part) ∧
      f x = .error e

theorem InTurn.cons {x : α} {part : List β} (hx : f x = .ok part) (h : InTurn f xs whole) :
    InTurn f (x :: xs) ((part ++ ·) <$> whole) := by
  cases whole with
  | ok all =>
      obtain ⟨parts, hparts, rfl⟩ := h
      exact ⟨part :: parts, .cons hx hparts, List.flatten_cons.symm⟩
  | error e =>
      obtain ⟨before, y, after, rfl, hbefore, hy⟩ := h
      exact ⟨x :: before, y, after, rfl, List.forall_mem_cons.mpr ⟨⟨part, hx⟩, hbefore⟩, hy⟩

theorem inTurn_mapM (f : α → Except ε (List β)) (xs : List α) :
    InTurn f xs (List.flatten <$> xs.mapM f) := by
  induction xs with
  | nil => exact ⟨[], .nil, rfl⟩
  | cons x xs ih =>
      rw [List.mapM_cons]
      cases hx : f x with
      | error e => exact ⟨[], x, xs, rfl, by simp, hx⟩
      | ok part =>
          have hcons := InTurn.cons hx ih
          cases hrest : xs.mapM f with
          | error e =>
              rw [hrest] at hcons
              exact hcons
          | ok parts =>
              rw [hrest] at hcons
              exact hcons

end InTurn

namespace SchemaCompiler

variable {k : SchemaCompiler} {b : Blueprint} {table : String} {command : BlueprintCommand}
  {statements : List String}

/-! ### Commands by themselves -/

/-- What a command compiles to when it is the only one of the blueprint. -/
def compileAlone (k : SchemaCompiler) (b : Blueprint) (command : BlueprintCommand) :
    Except SchemaError (List String) :=
  k.compile { b with commands := [command] }

theorem compile_alter (hmode : b.mode = .alter) (hname : Name.isColumn b.table = true) :
    k.compile b = k.alterCommands (k.tableName b.table) b false b.commands := by
  rw [compile, checkName, if_pos hname, hmode]
  rfl

theorem compileAlone_eq (hmode : b.mode = .alter) (hname : Name.isColumn b.table = true)
    (command : BlueprintCommand) : k.compileAlone b command =
      k.alterCommand (k.tableName b.table) { b with commands := [command] } false command := by
  have hone := compile_alter (k := k) (b := { b with commands := [command] }) hmode hname
  rw [compileAlone, hone, alterCommands]
  cases k.alterCommand (k.tableName b.table) { b with commands := [command] } false command with
  | error e => rfl
  | ok own => exact congrArg Except.ok (List.append_nil own)

/-- Only a change that takes a rebuild depends on the rest of the blueprint. -/
theorem alterCommand_congr (h : k.dialect.rebuildsTables = false ∨ command.changed? = none)
    (b' : Blueprint) (rebuilt rebuilt' : Bool) :
    k.alterCommand table b rebuilt command = k.alterCommand table b' rebuilt' command := by
  cases command with
  | column c =>
      have hkept : (c.change && k.dialect.rebuildsTables) = false := by
        rcases h with hdialect | hchanged
        · rw [hdialect, Bool.and_false]
        · have hchange : c.change = false := by
            simpa using Option.filter_eq_none_iff.mp hchanged c rfl
          rw [hchange, Bool.false_and]
      simp only [alterCommand, alterColumn, hkept]
      rfl
  | _ => rfl

theorem alterCommands_eq_mapM {f : BlueprintCommand → Except SchemaError (List String)}
    {commands : List BlueprintCommand}
    (h : ∀ command ∈ commands, ∀ rebuilt, k.alterCommand table b rebuilt command = f command)
    (rebuilt : Bool) :
    k.alterCommands table b rebuilt commands = List.flatten <$> commands.mapM f := by
  induction commands generalizing rebuilt with
  | nil => rfl
  | cons command rest ih =>
      obtain ⟨hfirst, hrest⟩ := List.forall_mem_cons.mp h
      rw [alterCommands, hfirst, ih hrest, List.mapM_cons]
      cases f command with
      | error e => rfl
      | ok own => cases rest.mapM f <;> rfl

/-- Without a rebuild the commands do not depend on each other. -/
theorem compile_inTurn (hmode : b.mode = .alter) (hname : Name.isColumn b.table = true)
    (h : k.dialect.rebuildsTables = false ∨ b.changes = []) :
    InTurn (k.compileAlone b) b.commands (k.compile b) := by
  have halone : ∀ command ∈ b.commands, ∀ rebuilt,
      k.alterCommand (k.tableName b.table) b rebuilt command = k.compileAlone b command := by
    intro command hcommand rebuilt
    rw [compileAlone_eq hmode hname]
    have hown : k.dialect.rebuildsTables = false ∨ command.changed? = none :=
      h.imp_right fun hnone => List.filterMap_eq_nil_iff.mp hnone _ hcommand
    exact alterCommand_congr hown _ _ _
  rw [compile_alter hmode hname, alterCommands_eq_mapM halone]
  exact inTurn_mapM _ _

/-! ### Commands behind a rebuild -/

/-- What a command contributes besides the rebuild. -/
def contribution (k : SchemaCompiler) (b : Blueprint) (command : BlueprintCommand) :
    Except SchemaError (List String) :=
  match command.changed? with
  | some c => k.columnIndexes (k.tableName b.table) c
  | none => k.compileAlone b command

/-- A change that succeeds has no statement for a key or a comment. -/
theorem exists_changed (hdialect : k.dialect = .sqlite) {c : Column} (hchange : c.change = true)
    {rebuilt : Bool} (h : k.alterColumn table b rebuilt c = .ok statements) :
    ∃ own indexes, k.changeStatements table b rebuilt c = .ok own ∧
      k.columnIndexes table c = .ok indexes ∧ statements = own ++ indexes := by
  obtain ⟨own, key, indexes, hown, hkey, hindexes, rfl⟩ := exists_alterColumn h
  rw [if_pos hchange] at hown
  have hcomment : k.columnComment table c = [] := by
    rw [columnComment, hdialect]
    cases c.comment <;> rfl
  have hnokey : key = [] := by
    rw [hdialect] at hkey
    cases hprimary : c.primary with
    | none =>
        rw [hprimary] at hkey
        exact (Except.ok.inj hkey).symm
    | some flag =>
        rw [hprimary] at hkey
        cases hkey
  exact ⟨own, indexes, hown, hindexes, by rw [hnokey, hcomment]; simp⟩

/-- Once the table is rebuilt, every command gives what it contributes besides. -/
theorem contribution_of_rebuilt (hmode : b.mode = .alter) (hname : Name.isColumn b.table = true)
    (hdialect : k.dialect = .sqlite)
    (h : k.alterCommand (k.tableName b.table) b true command = .ok statements) :
    k.contribution b command = .ok statements := by
  rw [contribution]
  cases hchanged : command.changed? with
  | none =>
      have hsame : k.alterCommand (k.tableName b.table) b true command =
          k.alterCommand (k.tableName b.table) { b with commands := [command] } false command :=
        alterCommand_congr (.inr hchanged) _ _ _
      rw [compileAlone_eq hmode hname, ← hsame, h]
  | some c =>
      obtain ⟨rfl, hchange⟩ := BlueprintCommand.of_changed? hchanged
      obtain ⟨own, indexes, hown, hindexes, rfl⟩ := exists_changed hdialect hchange h
      rw [changeStatements, hdialect] at hown
      cases hown
      exact hindexes

theorem contributions_of_rebuilt (hmode : b.mode = .alter) (hname : Name.isColumn b.table = true)
    (hdialect : k.dialect = .sqlite) {commands : List BlueprintCommand}
    (h : k.alterCommands (k.tableName b.table) b true commands = .ok statements) :
    InTurn (k.contribution b) commands (.ok statements) := by
  induction commands generalizing statements with
  | nil =>
      cases h
      exact ⟨[], .nil, rfl⟩
  | cons command rest ih =>
      obtain ⟨own, hown, h⟩ := exists_of_bind h
      obtain ⟨later, hlater, h⟩ := exists_of_bind h
      cases h
      exact (ih hlater).cons (contribution_of_rebuilt hmode hname hdialect hown)

theorem column_of_changed {commands : List BlueprintCommand}
    (h : ∀ command ∈ commands, command.changed?.isSome) :
    (commands.filterMap BlueprintCommand.changed?).map .column = commands := by
  induction commands with
  | nil => rfl
  | cons command rest ih =>
      obtain ⟨hfirst, hrest⟩ := List.forall_mem_cons.mp h
      obtain ⟨c, hchanged⟩ := Option.isSome_iff_exists.mp hfirst
      rw [List.filterMap_cons_some hchanged, List.map_cons, ih hrest,
        (BlueprintCommand.of_changed? hchanged).1]

/-- No command stands in front of a change. -/
theorem changes_first (hothers :
      (b.commands.dropWhile (·.changed?.isSome)).filterMap BlueprintCommand.changed? = []) :
    ∃ others, b.commands = b.changes.map .column ++ others ∧
      ∀ command ∈ others, command.changed? = none := by
  refine ⟨_, ?_, List.filterMap_eq_nil_iff.mp hothers⟩
  have hchanges : b.changes =
      (b.commands.takeWhile (·.changed?.isSome)).filterMap BlueprintCommand.changed? := by
    rw [Blueprint.changes, ← List.append_nil (List.filterMap _ (List.takeWhile _ _)), ← hothers,
      ← List.filterMap_append, List.takeWhile_append_dropWhile]
  have hleading : ∀ command ∈ b.commands.takeWhile (·.changed?.isSome),
      command.changed?.isSome = true :=
    List.all_eq_true.mp List.all_takeWhile
  rw [hchanges, column_of_changed hleading, List.takeWhile_append_dropWhile]

/-- The first change brings the rebuild, and nothing else does. -/
theorem compile_rebuilt (hmode : b.mode = .alter) (hname : Name.isColumn b.table = true)
    (hdialect : k.dialect = .sqlite) (hchanges : b.changes ≠ [])
    (h : k.compile b = .ok statements) :
    (∃ others, b.commands = b.changes.map .column ++ others ∧
      ∀ command ∈ others, command.changed? = none) ∧
    ∃ s script later, k.snapshot = some s ∧ s.table = k.tableName b.table ∧
      Dialect.rebuildTable .sqlite s b.changes = .ok script ∧
      InTurn (k.contribution b) b.commands (.ok later) ∧ statements = script ++ later := by
  rw [compile_alter hmode hname] at h
  obtain ⟨script, hscript⟩ := exists_rebuild hdialect hchanges h
  obtain ⟨hothers, s, hs, htable, hrebuilt⟩ := rebuild_eq_ok hdialect hscript
  have hfirst := changes_first hothers
  refine ⟨hfirst, s, script, ?_⟩
  obtain ⟨others, hcommands, -⟩ := hfirst
  obtain ⟨c, more, hmore⟩ := List.exists_cons_of_ne_nil hchanges
  have hchanged : (BlueprintCommand.column c).changed? = some c := by
    have hc : c ∈ b.changes := hmore ▸ List.mem_cons_self
    obtain ⟨command, -, hcommand⟩ := List.mem_filterMap.mp hc
    rwa [(BlueprintCommand.of_changed? hcommand).1] at hcommand
  rw [hmore, List.map_cons, List.cons_append] at hcommands
  rw [hcommands] at h
  obtain ⟨own, hown, h⟩ := exists_of_bind h
  obtain ⟨later, hlater, h⟩ := exists_of_bind h
  cases h
  obtain ⟨_, indexes, hscript', hindexes, rfl⟩ :=
    exists_changed hdialect (BlueprintCommand.of_changed? hchanged).2 hown
  rw [changeStatements_first hdialect] at hscript'
  obtain rfl := Except.ok.inj (hscript.symm.trans hscript')
  rw [hchanged] at hlater
  have hcontribution : k.contribution b (.column c) = .ok indexes := by
    rw [contribution, hchanged]
    exact hindexes
  refine ⟨indexes ++ later, hs, htable, hrebuilt, ?_, List.append_assoc ..⟩
  rw [hcommands]
  exact (contributions_of_rebuilt hmode hname hdialect hlater).cons hcontribution

/-! ### Blueprints and plans -/

/-- **Statements come in the order of the commands.**  An alter blueprint compiles to what its
commands compile to by themselves, one behind the other, and fails as the first of them that fails,
unless it takes a rebuild.  A blueprint that does has its changes first; it compiles to one rebuild
for all of them and what the commands contribute besides, which for a change are the indexes asked
for on its column.  A plan compiles to what its operations compile to. -/
theorem compiled_in_order (k : SchemaCompiler) :
    (∀ b : Blueprint, b.mode = .alter → Name.isColumn b.table = true →
      (k.dialect ≠ .sqlite ∨ b.changes = [] →
        InTurn (k.compileAlone b) b.commands (k.compile b)) ∧
      (k.dialect = .sqlite → b.changes ≠ [] → ∀ statements, k.compile b = .ok statements →
        (∃ others, b.commands = b.changes.map .column ++ others ∧
          ∀ command ∈ others, command.changed? = none) ∧
        ∃ s script later, k.snapshot = some s ∧ s.table = k.tableName b.table ∧
          Dialect.rebuildTable .sqlite s b.changes = .ok script ∧
          InTurn (k.contribution b) b.commands (.ok later) ∧ statements = script ++ later)) ∧
    ∀ plan : SchemaPlan, InTurn k.compileOperation plan (k.compilePlan plan) := by
  refine ⟨fun b hmode hname => ⟨fun h => ?_, fun hdialect hchanges statements h => ?_⟩,
    fun plan => ?_⟩
  · refine compile_inTurn hmode hname (h.imp_left fun hdialect => ?_)
    cases hkind : k.dialect with
    | sqlite => exact absurd hkind hdialect
    | _ => rfl
  · exact compile_rebuilt hmode hname hdialect hchanges h
  · have hplan : k.compilePlan plan = List.flatten <$> plan.mapM k.compileOperation := by
      rw [compilePlan]
      cases plan.mapM k.compileOperation <;> rfl
    rw [hplan]
    exact inTurn_mapM _ _

/-- The price becomes an indexed text, the amount a number, and then the amount takes a new name. -/
def reshapedItems : Blueprint :=
  { table := "items"
    mode := .alter
    commands := [.column { changeInto "price" .text with index := some .generated },
      .column (changeInto "amount" .double), .renameColumn "amount" "stock"] }

/-- Behind the one rebuild stand the index and the renaming; where no table is rebuilt the three
commands compile by themselves. -/
theorem items_reshaped_in_order :
    (∃ statements s script later, itemsCompiler.compile reshapedItems = .ok statements ∧
      Dialect.rebuildTable .sqlite s reshapedItems.changes = .ok script ∧
      InTurn (itemsCompiler.contribution reshapedItems) reshapedItems.commands (.ok later) ∧
      statements = script ++ later ∧
      later = ["CREATE INDEX \"items_price_index\" ON \"items\" (\"price\")",
        "ALTER TABLE \"items\" RENAME COLUMN \"amount\" TO \"stock\""]) ∧
    InTurn (compileAlone { dialect := .postgres } reshapedItems) reshapedItems.commands
      (compile { dialect := .postgres } reshapedItems) := by
  have hchanges : reshapedItems.changes ≠ [] := by decide
  have hname : Name.isColumn reshapedItems.table = true := by decide
  have hcompiles : ∃ statements, itemsCompiler.compile reshapedItems = .ok statements := ⟨_, rfl⟩
  obtain ⟨statements, h⟩ := hcompiles
  obtain ⟨-, s, script, later, hs, -, hscript, hlater, hstatements⟩ :=
    ((compiled_in_order itemsCompiler).1 reshapedItems rfl hname).2 rfl hchanges statements h
  refine ⟨⟨statements, s, script, later, h, hscript, hlater, hstatements, ?_⟩,
    ((compiled_in_order { dialect := .postgres }).1 reshapedItems rfl hname).1
      (.inl (by decide))⟩
  obtain ⟨parts, hparts, rfl⟩ := hlater
  have hcontributions : reshapedItems.commands.mapM (itemsCompiler.contribution reshapedItems) = .ok
      [["CREATE INDEX \"items_price_index\" ON \"items\" (\"price\")"], [],
        ["ALTER TABLE \"items\" RENAME COLUMN \"amount\" TO \"stock\""]] := by
    decide +kernel
  obtain rfl := Except.ok.inj ((mapM_of_forall₂ hparts).symm.trans hcontributions)
  rfl

end SchemaCompiler

end Relational
