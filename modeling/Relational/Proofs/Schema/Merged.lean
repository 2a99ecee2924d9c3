import Relational.Proofs.Schema.Copy
import Relational.Schema.Compiler
/-
Several changes of a table in one rebuild.

A rebuild carries out all changes of a blueprint at once, and of those that name a column it takes
the first.  One rebuild after the other ends with the last of them instead: the induction is on the
changes, and it goes through because a changed column keeps its name up to letter case, so a later
change finds it where the first one did.  The two ways agree if no column is changed twice.
-/
namespace Relational

open Text (eqIgnoringCase)

/-! ### One entry -/

namespace TableItem

/-- The entry that a rebuild leaves in its place. -/
def changedBy (changes : List Column) (item : TableItem) : Except SchemaError TableItem :=
  match item.change? changes with
  | some c => do
    let written ← Dialect.sqlite.columnDefinition c
    return .column c.name (written ++ item.referenceClause)
  | none => .ok item

/-- What the entry has become: the column that the change defines, maybe with a reference behind it,
or without a change what it was. -/
def Becomes (item : TableItem) (change? : Option Column) (after : TableItem) : Prop :=
  match change? with
  | some c => ∃ written clause, Dialect.sqlite.columnDefinition c = .ok written ∧
      after = .column c.name (written ++ clause)
  | none => after = item

variable {changes : List Column} {item after : TableItem}

theorem change?_append (changes more : List Column) (item : TableItem) :
    item.change? (changes ++ more) = (item.change? changes).or (item.change? more) :=
  List.find?_append

theorem changedBy_of_some {c : Column} (h : item.change? changes = some c) :
    item.changedBy changes = do
      let written ← Dialect.sqlite.columnDefinition c
      return .column c.name (written ++ item.referenceClause) := by
  rw [changedBy, h]

theorem changedBy_of_none (h : item.change? changes = none) : item.changedBy changes = .ok item := by
  rw [changedBy, h]

theorem becomes_of_changedBy (h : item.changedBy changes = .ok after) :
    item.Becomes (item.change? changes) after := by
  cases hchange : item.change? changes with
  | some c =>
      rw [changedBy_of_some hchange] at h
      obtain ⟨written, hwritten, h⟩ := exists_of_bind h
      cases h
      exact ⟨written, _, hwritten, rfl⟩
  | none =>
      rw [changedBy_of_none hchange] at h
      cases h
      rfl

/-- A changed column keeps its name, up to letter case. -/
theorem isNamed_changedBy (h : item.changedBy changes = .ok after) (name : String) :
    after.isNamed name = item.isNamed name := by
  have hbecomes := becomes_of_changedBy h
  cases hchange : item.change? changes with
  | some c =>
      rw [hchange] at hbecomes
      obtain ⟨written, clause, -, rfl⟩ := hbecomes
      have hnamed := (of_change? hchange).2
      cases item with
      | constraint => cases hnamed
      | column => exact (eqIgnoringCase_congr hnamed name).symm
  | none =>
      rw [hchange] at hbecomes
      obtain rfl := hbecomes
      rfl

theorem change?_changedBy (h : item.changedBy changes = .ok after) (others : List Column) :
    after.change? others = item.change? others := by
  simp only [change?, isNamed_changedBy h]

/-- An entry of another name stays as it is. -/
theorem eq_of_changedBy {c : Column} (h : item.changedBy [c] = .ok after) {name : String}
    (hother : eqIgnoringCase c.name name = false) (hnamed : item.isNamed name = true) :
    after = item := by
  have hspared : item.change? [c] = none := by
    refine change?_eq_none.mpr (List.forall_mem_singleton.mpr ?_)
    cases item with
    | constraint => rfl
    | column own =>
        by_contra hshared
        rw [Bool.not_eq_false] at hshared
        rw [← eqIgnoringCase_congr hshared, show eqIgnoringCase own name = true from hnamed] at hother
        cases hother
  rw [changedBy_of_none hspared] at h
  cases h
  rfl

/-- What later changes make of a changed entry is what they make of the entry itself, unless they
leave it as it has become. -/
theorem Becomes.behind {c : Column} {middle : TableItem} (h : item.changedBy [c] = .ok middle)
    {later : List Column} (hlater : middle.Becomes (middle.change? later) after) :
    item.Becomes (item.change? (later ++ [c])) after := by
  rw [change?_append]
  rw [change?_changedBy h] at hlater
  cases hchange : item.change? later with
  | some d =>
      rw [hchange] at hlater
      exact hlater
  | none =>
      rw [hchange] at hlater
      obtain rfl : after = middle := hlater
      exact becomes_of_changedBy h

/-- A change that no other repeats can be made beforehand. -/
theorem changedBy_cons {c : Column} {rest : List Column}
    (honce : ∀ d ∈ rest, eqIgnoringCase c.name d.name = false) (item : TableItem) :
    item.changedBy (c :: rest) = item.changedBy [c] >>= changedBy rest := by
  have hsplit : item.change? (c :: rest) = (item.change? [c]).or (item.change? rest) :=
    change?_append [c] rest item
  cases hchange : item.change? [c] with
  | some made =>
      obtain rfl := List.mem_singleton.mp (of_change? hchange).1
      rw [hchange, Option.some_or] at hsplit
      rw [changedBy_of_some hsplit, changedBy_of_some hchange, bind_assoc]
      refine bind_congr fun written => ?_
      have hspared : (column made.name (written ++ item.referenceClause)).change? rest = none :=
        change?_eq_none.mpr honce
      exact (changedBy_of_none hspared).symm
  | none =>
      rw [hchange, Option.none_or] at hsplit
      rw [changedBy_of_none hchange, changedBy, hsplit]
      rfl

end TableItem

/-! ### One table -/

namespace TableSnapshot

/-- The table that an accepted rebuild leaves. -/
def rebuilt (changes : List Column) (s : TableSnapshot) : Except SchemaError TableSnapshot := do
  let _ ← Dialect.rebuildTable .sqlite s changes
  let items ← s.items.mapM (TableItem.changedBy changes)
  return { s with items }

/-- The table that is left when every change gets a rebuild of its own, one after the other. -/
def rebuiltInTurn (changes : List Column) (s : TableSnapshot) : Except SchemaError TableSnapshot :=
  changes.foldlM (fun s c => s.rebuilt [c]) s

end TableSnapshot

/-- No column is changed twice, whatever the letter case. -/
def ChangesOnce (changes : List Column) : Prop :=
  changes.Pairwise fun a b => eqIgnoringCase a.name b.name = false

instance (changes : List Column) : Decidable (ChangesOnce changes) :=
  inferInstanceAs (Decidable (List.Pairwise _ changes))

namespace Dialect

variable {changes : List Column} {item after : TableItem}

theorem Copies.changedBy {copied : CopiedItem} (h : Copies changes item copied) :
    ∃ after, item.changedBy changes = .ok after ∧ copied.definition = after.sql := by
  cases h with
  | kept hfind => exact ⟨item, TableItem.changedBy_of_none hfind, rfl⟩
  | @changed _ written _ c _ hfind hwritten _ =>
      refine ⟨.column c.name (written ++ item.referenceClause), ?_, rfl⟩
      rw [TableItem.changedBy_of_some hfind, hwritten]
      rfl

/-- An entry that can be changed can be copied: the type that its values are read as is in its
definition. -/
theorem exists_copyItem (h : item.changedBy changes = .ok after) :
    ∃ copied, copyItem changes item = .ok copied := by
  cases item with
  | constraint sql => exact ⟨_, rfl⟩
  | column name definition =>
      rw [copyItem_column]
      cases hchange : (TableItem.column name definition).change? changes with
      | none => exact ⟨_, rfl⟩
      | some c =>
          rw [TableItem.changedBy_of_some hchange] at h
          obtain ⟨written, hwritten, -⟩ := exists_of_bind h
          obtain ⟨type, htype, -⟩ := exists_of_bind hwritten
          have hsource : ∃ source, copyExpression name c = .ok source := by
            simp only [copyExpression, htype]
            exact ⟨_, rfl⟩
          obtain ⟨source, hsource⟩ := hsource
          simp only [hwritten, hsource]
          exact ⟨_, rfl⟩

theorem exists_rebuildTable {s : TableSnapshot} {items : List TableItem}
    (hchecked : ∀ c ∈ changes, checkChange s c = .ok ())
    (hitems : List.Forall₂ (fun item after => item.changedBy changes = .ok after) s.items items) :
    ∃ script, rebuildTable .sqlite s changes = .ok script := by
  have hcopied : List.Forall₂ (Relation.Comp (fun item copied => copyItem changes item = .ok copied)
      fun _ _ => True) s.items items := by
    refine hitems.imp fun item after h => ?_
    obtain ⟨copied, hcopied⟩ := exists_copyItem h
    exact ⟨copied, hcopied, trivial⟩
  obtain ⟨copied, hcopied, -⟩ := forall₂_comp.mp hcopied
  exact ⟨_, rebuildTable_eq_ok.mpr ⟨hchecked, copied, mapM_of_forall₂ hcopied, rfl⟩⟩

end Dialect

namespace TableSnapshot

variable {changes : List Column} {s after : TableSnapshot}

theorem rebuilt_eq_ok : s.rebuilt changes = .ok after ↔
    (∃ script, Dialect.rebuildTable .sqlite s changes = .ok script) ∧
      ∃ items, List.Forall₂ (fun item after => item.changedBy changes = .ok after) s.items items ∧
        after = { s with items } := by
  constructor
  · intro h
    obtain ⟨script, hscript, h⟩ := exists_of_bind h
    obtain ⟨items, hitems, h⟩ := exists_of_bind h
    cases h
    exact ⟨⟨script, hscript⟩, items, forall₂_of_mapM hitems, rfl⟩
  · rintro ⟨⟨script, hscript⟩, items, hitems, rfl⟩
    rw [rebuilt, hscript, mapM_of_forall₂ hitems]
    rfl

/-- The statements of a rebuild define the table that it leaves. -/
theorem exists_rebuilt {script : List String}
    (h : Dialect.rebuildTable .sqlite s changes = .ok script) : ∃ after transfers,
      s.rebuilt changes = .ok after ∧
        script = rebuildScript s (after.items.map TableItem.sql) transfers := by
  obtain ⟨-, copied, hcopied, rfl⟩ := Dialect.rebuildTable_eq_ok.mp h
  obtain ⟨items, hitems, htexts⟩ :=
    forall₂_comp.mp ((Dialect.copies_of_mapM hcopied).imp fun _ _ hcopies => hcopies.changedBy)
  have hbody : items.map TableItem.sql = copied.map (·.definition) := by
    rw [← List.forall₂_eq_eq_eq, List.forall₂_map_left_iff, List.forall₂_map_right_iff]
    exact htexts.imp fun _ _ htext => htext.symm
  refine ⟨{ s with items }, copied.filterMap (·.transfer),
    rebuilt_eq_ok.mpr ⟨⟨_, h⟩, items, hitems, rfl⟩, ?_⟩
  rw [Dialect.rebuildStatements_eq_script, hbody]

theorem becomes_rebuilt (h : s.rebuilt changes = .ok after) :
    List.Forall₂ (fun item after => item.Becomes (item.change? changes) after) s.items
      after.items := by
  obtain ⟨-, items, hitems, rfl⟩ := rebuilt_eq_ok.mp h
  exact hitems.imp fun _ _ hchanged => TableItem.becomes_of_changedBy hchanged

/-- The last change of a column remains. -/
theorem becomes_rebuiltInTurn (h : s.rebuiltInTurn changes = .ok after) :
    List.Forall₂ (fun item after => item.Becomes (item.change? changes.reverse) after) s.items
      after.items := by
  induction changes generalizing s with
  | nil =>
      cases h
      exact List.forall₂_same.mpr fun _ _ => rfl
  | cons c rest ih =>
      obtain ⟨next, hnext, h⟩ := exists_of_bind h
      obtain ⟨-, items, hitems, rfl⟩ := rebuilt_eq_ok.mp hnext
      rw [List.reverse_cons]
      exact (forall₂_comp.mpr ⟨items, hitems, ih h⟩).imp
        fun _ _ ⟨_, hchanged, hlater⟩ => hlater.behind hchanged

/-! ### Changes that do not repeat each other -/

theorem find?_changed {c : Column} {items afters : List TableItem}
    (h : List.Forall₂ (fun item after => item.changedBy [c] = .ok after) items afters)
    {name : String} (hother : eqIgnoringCase c.name name = false) :
    afters.find? (·.isNamed name) = items.find? (·.isNamed name) := by
  induction h with
  | nil => rfl
  | @cons item after _ _ hfirst _ ih =>
      rw [List.find?_cons, List.find?_cons, ih, TableItem.isNamed_changedBy hfirst]
      cases hnamed : item.isNamed name with
      | true => rw [TableItem.eq_of_changedBy hfirst hother hnamed]
      | false => rfl

theorem checkChange_changed {c d : Column} {items : List TableItem}
    (h : List.Forall₂ (fun item after => item.changedBy [c] = .ok after) s.items items)
    (hother : eqIgnoringCase c.name d.name = false) :
    Dialect.checkChange { s with items } d = Dialect.checkChange s d := by
  have hcolumn : TableSnapshot.column? { s with items } d.name = s.column? d.name :=
    find?_changed h hother
  rw [Dialect.checkChange, hcolumn]
  rfl

theorem rebuilt_cons {c : Column} {rest : List Column}
    (honce : ∀ d ∈ rest, eqIgnoringCase c.name d.name = false)
    (h : s.rebuilt (c :: rest) = .ok after) :
    ∃ next, s.rebuilt [c] = .ok next ∧ next.rebuilt rest = .ok after := by
  obtain ⟨⟨script, hscript⟩, items, hitems, rfl⟩ := rebuilt_eq_ok.mp h
  obtain ⟨hfirst, hrest⟩ := List.forall_mem_cons.mp (Dialect.rebuildTable_eq_ok.mp hscript).1
  obtain ⟨middle, hmiddle, hitems⟩ := forall₂_comp.mp <| hitems.imp fun item after hchanged => by
    rw [TableItem.changedBy_cons honce] at hchanged
    exact exists_of_bind hchanged
  have hrest' : ∀ d ∈ rest, Dialect.checkChange { s with items := middle } d = .ok () := by
    intro d hd
    rw [checkChange_changed hmiddle (honce d hd)]
    exact hrest d hd
  refine ⟨{ s with items := middle }, rebuilt_eq_ok.mpr ⟨?_, middle, hmiddle, rfl⟩,
    rebuilt_eq_ok.mpr ⟨?_, items, hitems, rfl⟩⟩
  · exact Dialect.exists_rebuildTable (List.forall_mem_singleton.mpr hfirst) hmiddle
  · exact Dialect.exists_rebuildTable hrest' hitems

/-- Changes that do not repeat each other can be made one after the other. -/
theorem rebuiltInTurn_of_once (honce : ChangesOnce changes) (h : s.rebuilt changes = .ok after) :
    s.rebuiltInTurn changes = .ok after := by
  induction changes generalizing s with
  | nil =>
      obtain ⟨-, items, hitems, rfl⟩ := rebuilt_eq_ok.mp h
      have hsame : s.items = items := by
        rw [← List.forall₂_eq_eq_eq]
        exact hitems.imp fun _ _ hchanged => Except.ok.inj hchanged
      rw [← hsame]
      rfl
  | cons c rest ih =>
      obtain ⟨hfirst, hrest⟩ := List.pairwise_cons.mp honce
      obtain ⟨next, hnext, h⟩ := rebuilt_cons hfirst h
      show (s.rebuilt [c] >>= fun next => next.rebuiltInTurn rest) = _
      rw [hnext]
      exact ih hrest h

end TableSnapshot

/-! ### Blueprints -/

/-- The changes of columns, in order. -/
def Blueprint.changes (b : Blueprint) : List Column :=
  b.commands.filterMap BlueprintCommand.changed?

theorem BlueprintCommand.of_changed? {command : BlueprintCommand} {c : Column}
    (h : command.changed? = some c) : command = .column c ∧ c.change = true := by
  cases command with
  | column own =>
      obtain ⟨hown, hchange⟩ := Option.filter_eq_some_iff.mp h
      cases hown
      exact ⟨rfl, hchange⟩
  | _ => cases h

namespace SchemaCompiler

variable {k : SchemaCompiler} {b : Blueprint} {table : String}

/-- A rebuild makes all changes of the blueprint, and no command stands in front of one. -/
theorem rebuild_eq_ok (hdialect : k.dialect = .sqlite) {script : List String}
    (h : k.rebuild table b = .ok script) :
    (b.commands.dropWhile (·.changed?.isSome)).filterMap BlueprintCommand.changed? = [] ∧
      ∃ s, k.snapshot = some s ∧ s.table = table ∧
        Dialect.rebuildTable .sqlite s b.changes = .ok script := by
  unfold rebuild at h
  simp only at h
  split at h
  · cases h
  rename_i hlate
  have hothers :
      (b.commands.dropWhile (·.changed?.isSome)).filterMap BlueprintCommand.changed? = [] := by
    rw [List.filterMap_eq_nil_iff]
    simpa using hlate
  have hchanges : b.changes =
      (b.commands.takeWhile (·.changed?.isSome)).filterMap BlueprintCommand.changed? := by
    rw [Blueprint.changes, ← List.append_nil (List.filterMap _ (List.takeWhile _ _)), ← hothers,
      ← List.filterMap_append, List.takeWhile_append_dropWhile]
  obtain ⟨-, -, h⟩ := exists_of_bind h
  split at h
  · rename_i s hsnapshot
    obtain ⟨hs, htable⟩ := Option.filter_eq_some_iff.mp hsnapshot
    rw [hdialect, ← hchanges] at h
    exact ⟨hothers, s, hs, by simpa using htable, h⟩
  · cases h

/-- The statements that change a column by themselves. -/
def changeStatements (k : SchemaCompiler) (table : String) (b : Blueprint) (rebuilt : Bool)
    (c : Column) : Except SchemaError (List String) :=
  if k.dialect.rebuildsTables then if rebuilt then .ok [] else k.rebuild table b
  else k.dialect.modifyColumn table c

/-- The statements that add or change a column: its own, then its key, its indexes and its
comment. -/
theorem exists_alterColumn {c : Column} {rebuilt : Bool} {statements : List String}
    (h : k.alterColumn table b rebuilt c = .ok statements) : ∃ own key indexes,
      (if c.change then k.changeStatements table b rebuilt c
        else (k.dialect.addColumn table c).map ([·])) = .ok own ∧
      (match c.primary with
        | some flag => (k.dialect.addPrimary table (flaggedIndex .primary c flag)).map ([·])
        | none => .ok []) = .ok key ∧
      k.columnIndexes table c = .ok indexes ∧
      statements = own ++ key ++ indexes ++ k.columnComment table c := by
  obtain ⟨-, -, h⟩ := exists_of_bind h
  -- what follows the column's own statements is the same in all branches
  cases hchange : c.change <;> cases hprimary : c.primary <;>
    cases hrebuilds : k.dialect.rebuildsTables <;> cases rebuilt
  all_goals
    simp only [changeStatements, hchange, hprimary, hrebuilds, Bool.and_true, Bool.and_false, if_true,
      if_false, Bool.false_eq_true] at h ⊢
    obtain ⟨own, hown, h⟩ := exists_of_bind h
    obtain ⟨key, hkey, h⟩ := exists_of_bind h
    obtain ⟨indexes, hindexes, h⟩ := exists_of_bind h
    cases h
    exact ⟨own, key, indexes, hown, hkey, hindexes, rfl⟩

theorem alterColumn_eq_ok {c : Column} (hchange : c.change = true) {rebuilt : Bool}
    {statements : List String} (h : k.alterColumn table b rebuilt c = .ok statements) :
    ∃ own more, k.changeStatements table b rebuilt c = .ok own ∧ statements = own ++ more := by
  obtain ⟨own, key, indexes, hown, -, -, rfl⟩ := exists_alterColumn h
  rw [if_pos hchange] at hown
  exact ⟨own, key ++ indexes ++ k.columnComment table c, hown, by simp⟩

theorem changeStatements_first (hdialect : k.dialect = .sqlite) (c : Column) :
    k.changeStatements table b false c = k.rebuild table b := by
  rw [changeStatements, hdialect]
  rfl

theorem exists_rebuild (hdialect : k.dialect = .sqlite) {commands : List BlueprintCommand}
    (hchanges : commands.filterMap BlueprintCommand.changed? ≠ []) {statements : List String}
    (h : k.alterCommands table b false commands = .ok statements) :
    ∃ script, k.rebuild table b = .ok script := by
  induction commands generalizing statements with
  | nil => exact absurd rfl hchanges
  | cons command rest ih =>
      obtain ⟨own, hown, h⟩ := exists_of_bind h
      obtain ⟨later, hlater, -⟩ := exists_of_bind h
      cases hchanged : command.changed? with
      | some c =>
          obtain ⟨rfl, hchange⟩ := BlueprintCommand.of_changed? hchanged
          obtain ⟨script, -, hscript, -⟩ := alterColumn_eq_ok hchange hown
          rw [changeStatements_first hdialect] at hscript
          exact ⟨script, hscript⟩
      | none =>
          rw [List.filterMap_cons_none hchanged] at hchanges
          rw [hchanged] at hlater
          exact ih hchanges hlater

/-- A blueprint that changes columns opens with the rebuild that makes all of its changes. -/
theorem compile_changes (hdialect : k.dialect = .sqlite) (hmode : b.mode = .alter)
    (hchanges : b.changes ≠ []) {statements : List String} (h : k.compile b = .ok statements) :
    ∃ s script later, k.snapshot = some s ∧ s.table = k.tableName b.table ∧
      Dialect.rebuildTable .sqlite s b.changes = .ok script ∧ statements = script ++ later := by
  obtain ⟨-, -, h⟩ := exists_of_bind h
  rw [hmode] at h
  obtain ⟨script, hscript⟩ := exists_rebuild hdialect hchanges h
  obtain ⟨hothers, s, hs, htable, hrebuilt⟩ := rebuild_eq_ok hdialect hscript
  have hfirst : ∃ c rest, b.commands = .column c :: rest ∧ c.change = true := by
    rw [Blueprint.changes] at hchanges
    cases hcommands : b.commands with
    | nil =>
        rw [hcommands] at hchanges
        exact absurd rfl hchanges
    | cons command rest =>
        rw [hcommands] at hothers hchanges
        cases hchanged : command.changed? with
        | some c =>
            obtain ⟨rfl, hchange⟩ := BlueprintCommand.of_changed? hchanged
            exact ⟨c, rest, rfl, hchange⟩
        | none =>
            rw [List.dropWhile_cons_of_neg (by simp [hchanged])] at hothers
            exact absurd hothers hchanges
  obtain ⟨c, rest, hcommands, hchange⟩ := hfirst
  change k.alterCommands _ b false b.commands = _ at h
  rw [hcommands] at h
  obtain ⟨own, hown, h⟩ := exists_of_bind h
  obtain ⟨later, -, h⟩ := exists_of_bind h
  cases h
  obtain ⟨_, more, hscript', rfl⟩ := alterColumn_eq_ok hchange hown
  rw [changeStatements_first hdialect] at hscript'
  obtain rfl := Except.ok.inj (hscript.symm.trans hscript')
  exact ⟨s, script, more ++ later, hs, htable, hrebuilt, List.append_assoc ..⟩

/-- The part of a command that changes a column opens with the dialect's own statements for it. -/
def OpensWithChange (k : SchemaCompiler) (table : String) (command : BlueprintCommand)
    (part : List String) : Prop :=
  ∀ c, command.changed? = some c → ∃ own more,
    k.dialect.modifyColumn table c = .ok own ∧ part = own ++ more

theorem alterCommands_in_order (hrebuilds : k.dialect.rebuildsTables = false) {rebuilt : Bool}
    {commands : List BlueprintCommand} {statements : List String}
    (h : k.alterCommands table b rebuilt commands = .ok statements) :
    ∃ parts, statements = parts.flatten ∧
      List.Forall₂ (k.OpensWithChange table) commands parts := by
  induction commands generalizing rebuilt statements with
  | nil =>
      cases h
      exact ⟨[], rfl, .nil⟩
  | cons command rest ih =>
      obtain ⟨part, hpart, h⟩ := exists_of_bind h
      obtain ⟨later, hlater, h⟩ := exists_of_bind h
      cases h
      obtain ⟨parts, rfl, hparts⟩ := ih hlater
      refine ⟨part :: parts, List.flatten_cons.symm, .cons (fun c hchanged => ?_) hparts⟩
      obtain ⟨rfl, hchange⟩ := BlueprintCommand.of_changed? hchanged
      obtain ⟨own, more, hown, hmore⟩ := alterColumn_eq_ok hchange hpart
      rw [changeStatements, hrebuilds] at hown
      exact ⟨own, more, hown, hmore⟩

/-- Where no table is rebuilt, the statements of the commands stand one behind the other, so of
several changes of a column the last one is the last to run. -/
theorem changes_in_order (hrebuilds : k.dialect.rebuildsTables = false) (hmode : b.mode = .alter)
    {statements : List String} (h : k.compile b = .ok statements) :
    ∃ parts, statements = parts.flatten ∧
      List.Forall₂ (k.OpensWithChange (k.tableName b.table)) b.commands parts := by
  obtain ⟨-, -, h⟩ := exists_of_bind h
  rw [hmode] at h
  exact alterCommands_in_order hrebuilds h

/-- **The first change of a column counts.**  A blueprint that changes columns opens with one
rebuild, whose table has each changed column as its first change defines it.  One rebuild for each
change, in order, would leave it as the last one does; that is the same table if no column is changed
twice. -/
theorem rebuild_takes_first_changes {k : SchemaCompiler} (hdialect : k.dialect = .sqlite)
    {b : Blueprint} (hmode : b.mode = .alter) (hchanges : b.changes ≠ []) {statements : List String}
    (h : k.compile b = .ok statements) :
    ∃ s merged transfers later, k.snapshot = some s ∧ s.table = k.tableName b.table ∧
      statements = rebuildScript s (merged.items.map TableItem.sql) transfers ++ later ∧
      s.rebuilt b.changes = .ok merged ∧
      List.Forall₂ (fun item after => item.Becomes (item.change? b.changes) after) s.items
        merged.items ∧
      (∀ final, s.rebuiltInTurn b.changes = .ok final →
        List.Forall₂ (fun item after => item.Becomes (item.change? b.changes.reverse) after) s.items
          final.items) ∧
      (ChangesOnce b.changes → s.rebuiltInTurn b.changes = .ok merged) := by
  obtain ⟨s, script, later, hs, htable, hscript, rfl⟩ :=
    compile_changes hdialect hmode hchanges h
  obtain ⟨merged, transfers, hmerged, rfl⟩ := TableSnapshot.exists_rebuilt hscript
  exact ⟨s, merged, transfers, later, hs, htable, rfl, hmerged,
    TableSnapshot.becomes_rebuilt hmerged, fun _ => TableSnapshot.becomes_rebuiltInTurn,
    fun honce => TableSnapshot.rebuiltInTurn_of_once honce hmerged⟩

/-- Items with a price and an amount. -/
def itemsSnapshot : TableSnapshot :=
  { table := "items"
    items := [.column "price" "\"price\" INTEGER NOT NULL",
      .column "amount" "\"amount\" INTEGER NOT NULL"]
    options := ""
    dependents := [] }

/-- The compiler for SQLite that knows the items. -/
def itemsCompiler : SchemaCompiler :=
  { dialect := .sqlite, snapshot := some itemsSnapshot }

/-- A column as it is to be. -/
def changeInto (name : String) (type : ColumnType) : Column :=
  { name, type, change := true }

/-- The price becomes a text, and the amount a number. -/
def repricedItems : Blueprint :=
  { table := "items"
    mode := .alter
    commands := [.column (changeInto "price" .text), .column (changeInto "Amount" .double)] }

/-- The two columns are changed at once as they would be one after the other. -/
theorem items_repriced :
    repricedItems.changes ≠ [] ∧ ∃ statements, itemsCompiler.compile repricedItems = .ok statements ∧
      ∃ s merged transfers later, itemsCompiler.snapshot = some s ∧ s.table = "items" ∧
        statements = rebuildScript s (merged.items.map TableItem.sql) transfers ++ later ∧
        s.rebuilt repricedItems.changes = .ok merged ∧
        List.Forall₂ (fun item after => item.Becomes (item.change? repricedItems.changes) after)
          s.items merged.items ∧
        s.rebuiltInTurn repricedItems.changes = .ok merged ∧
        List.Forall₂
          (fun item after => item.Becomes (item.change? repricedItems.changes.reverse) after)
          s.items merged.items := by
  have hchanges : repricedItems.changes ≠ [] := by decide
  have htable : itemsCompiler.tableName repricedItems.table = "items" := by decide
  have hcompiles : ∃ statements, itemsCompiler.compile repricedItems = .ok statements := ⟨_, rfl⟩
  obtain ⟨statements, h⟩ := hcompiles
  obtain ⟨s, merged, transfers, later, hs, hnamed, hstatements, hmerged, hfirst, hlast, honce⟩ :=
    rebuild_takes_first_changes (k := itemsCompiler) rfl rfl hchanges h
  have hturn := honce (by decide)
  exact ⟨hchanges, statements, h, s, merged, transfers, later, hs, hnamed.trans htable, hstatements,
    hmerged, hfirst, hturn, hlast merged hturn⟩

/-- The price becomes a text first and then a number. -/
def twiceRepricedItems : Blueprint :=
  { table := "items"
    mode := .alter
    commands := [.column (changeInto "price" .text), .column (changeInto "price" .double)] }

/-- The second change of the price is lost: the rebuild leaves a text, and one rebuild after the
other would leave a number. -/
theorem second_change_lost :
    TableSnapshot.parse "items"
      "CREATE TABLE \"items\" (\"price\" INTEGER NOT NULL, \"amount\" INTEGER NOT NULL)" [] =
        .ok itemsSnapshot ∧
    itemsCompiler.compile twiceRepricedItems = .ok
      ["PRAGMA foreign_keys = OFF", "SAVEPOINT quarry_rebuild",
        "DROP TABLE IF EXISTS \"__quarry_tmp_items\"",
        "CREATE TABLE \"__quarry_tmp_items\" (\"price\" TEXT NOT NULL, " ++
          "\"amount\" INTEGER NOT NULL)",
        "INSERT INTO \"__quarry_tmp_items\" (\"price\", \"amount\") " ++
          "SELECT CAST(\"price\" AS TEXT), \"amount\" FROM \"items\"",
        "DROP TABLE \"items\"", "ALTER TABLE \"__quarry_tmp_items\" RENAME TO \"items\"",
        "RELEASE quarry_rebuild", "PRAGMA foreign_keys = ON"] ∧
    itemsSnapshot.rebuiltInTurn twiceRepricedItems.changes = .ok
      { itemsSnapshot with
        items := [.column "price" "\"price\" REAL NOT NULL",
          .column "amount" "\"amount\" INTEGER NOT NULL"] } ∧
    ∃ merged, itemsSnapshot.rebuilt twiceRepricedItems.changes = .ok merged ∧
      ¬ List.Forall₂
        (fun item after => item.Becomes (item.change? twiceRepricedItems.changes.reverse) after)
        itemsSnapshot.items merged.items := by
  have hmerged : itemsSnapshot.rebuilt twiceRepricedItems.changes = .ok
      { itemsSnapshot with
        items := [.column "price" "\"price\" TEXT NOT NULL",
          .column "amount" "\"amount\" INTEGER NOT NULL"] } := by
    decide +kernel
  refine ⟨by decide +kernel, by decide +kernel, by decide +kernel, _, hmerged, ?_⟩
  intro hlast
  cases hlast with
  | cons hprice =>
      have hchange : (TableItem.column "price" "\"price\" INTEGER NOT NULL").change?
          twiceRepricedItems.changes.reverse = some (changeInto "price" .double) := by
        decide
      have hdefined : Dialect.sqlite.columnDefinition (changeInto "price" .double) =
          .ok "\"price\" REAL NOT NULL" := by
        decide +kernel
      rw [hchange] at hprice
      obtain ⟨written, clause, hwritten, hafter⟩ := hprice
      obtain rfl := Except.ok.inj (hdefined.symm.trans hwritten)
      obtain ⟨-, htext⟩ := TableItem.column.inj hafter
      have htype := congrArg (fun text => (text.toList.drop 8).head?) htext
      simp at htype

end SchemaCompiler

end Relational
