import Relational.Proofs.Schema.Merged
import Relational.Proofs.Session.Keeping
import Relational.Session.Mock
/-
Plans do not see stored definitions.

A plan is compiled before anything is asked, so without the stored definition of any
table, while a blueprint that is run by itself has its table's definition looked up if it
takes a rebuild.  As long as no table is built anew the two are the same.  Where one is,
the plan fails before its first statement: up to the first change no command depends on
a definition, and there the compiler asks for one, so a blueprint that compiles with any
definition fails without it for want of it and for no other reason.
-/
namespace Relational

open Action

/-! ### Blueprints that need a definition -/

namespace Blueprint

variable {b : Blueprint} {d : Dialect}

theorem changes_eq_filter (b : Blueprint) : b.changes = b.columns.filter (·.change) :=
  List.filter_filterMap.symm

theorem Rebuilds.dialect (h : b.Rebuilds d) : d = .sqlite := by
  cases d with
  | sqlite => rfl
  | _ => simp [Rebuilds, Dialect.rebuildsTables] at h

theorem Rebuilds.mode (h : b.Rebuilds d) : b.mode = .alter := by
  simp only [Rebuilds, changesColumns, Bool.and_eq_true, beq_iff_eq] at h
  exact h.1.1

theorem Rebuilds.changes_ne_nil (h : b.Rebuilds d) : b.changes ≠ [] := by
  simp only [Rebuilds, changesColumns, Bool.and_eq_true, List.any_eq_true] at h
  obtain ⟨⟨-, c, hc, hchange⟩, -⟩ := h
  rw [changes_eq_filter]
  exact List.ne_nil_of_mem (List.mem_filter.mpr ⟨hc, hchange⟩)

end Blueprint

namespace SchemaCompiler

variable {k : SchemaCompiler} {b : Blueprint} {table : String} {statements : List String}

/-- Only the change of a column can depend on a stored definition. -/
theorem alterCommand_of_unchanged {command : BlueprintCommand} (h : command.changed? = none)
    (rebuilt : Bool) (snapshot : Option TableSnapshot) :
    ({ k with snapshot }).alterCommand table b rebuilt command =
      k.alterCommand table b rebuilt command := by
  cases command with
  | column c =>
      have hchange : c.change = false := by
        simpa using Option.filter_eq_none_iff.mp h c rfl
      simp only [alterCommand, alterColumn, hchange]
      rfl
  | _ => rfl

theorem rebuild_without_definition (h : k.rebuild table b = .ok statements) :
    ({ k with snapshot := none }).rebuild table b =
      .error (.invalidBlueprint table .definitionNeeded) := by
  unfold rebuild at h ⊢
  simp only at h ⊢
  split at h
  · cases h
  · rename_i hlate
    obtain ⟨⟨⟩, hchecked, -⟩ := exists_of_bind h
    rw [if_neg hlate, hchecked]
    rfl

theorem alterCommands_without_definition (hdialect : k.dialect = .sqlite)
    {commands : List BlueprintCommand}
    (hchanges : commands.filterMap BlueprintCommand.changed? ≠ [])
    (h : k.alterCommands table b false commands = .ok statements) :
    ({ k with snapshot := none }).alterCommands table b false commands =
      .error (.invalidBlueprint table .definitionNeeded) := by
  induction commands generalizing statements with
  | nil => exact absurd rfl hchanges
  | cons command rest ih =>
      obtain ⟨own, hown, h⟩ := exists_of_bind h
      obtain ⟨later, hlater, -⟩ := exists_of_bind h
      cases hchanged : command.changed? with
      | some c =>
          -- The first change: here the two part.
          obtain ⟨rfl, hchange⟩ := BlueprintCommand.of_changed? hchanged
          obtain ⟨⟨⟩, hchecked, -⟩ := exists_of_bind hown
          obtain ⟨script, -, hscript, -⟩ := alterColumn_eq_ok hchange hown
          rw [changeStatements_first hdialect] at hscript
          have hrebuilds : k.dialect.rebuildsTables = true := by rw [hdialect]; rfl
          simp only [alterCommands, alterCommand, alterColumn, hchecked, hchange, hrebuilds,
            rebuild_without_definition hscript, bind, Except.bind, Bool.and_self, if_true,
            Bool.false_eq_true, if_false]
      | none =>
          rw [List.filterMap_cons_none hchanged] at hchanges
          rw [hchanged] at hlater
          rw [alterCommands, alterCommand_of_unchanged hchanged, hown, hchanged]
          simp only [bind, Except.bind, Option.isSome_none, Bool.or_false, ih hchanges hlater]

/-- A blueprint that can be compiled with some definition lacks nothing else. -/
theorem compile_without_definition (hrebuilds : b.Rebuilds k.dialect)
    (h : k.compile b = .ok statements) :
    ({ k with snapshot := none }).compile b =
      .error (.invalidBlueprint (k.tableName b.table) .definitionNeeded) := by
  obtain ⟨⟨⟩, hname, h⟩ := exists_of_bind h
  rw [hrebuilds.mode] at h
  rw [compile, hname, hrebuilds.mode]
  exact alterCommands_without_definition hrebuilds.dialect hrebuilds.changes_ne_nil h

theorem exists_error_of_rebuilds (hrebuilds : b.Rebuilds k.dialect) (hnone : k.snapshot = none) :
    ∃ e, k.compile b = .error e := by
  cases h : k.compile b with
  | error e => exact ⟨e, rfl⟩
  | ok statements =>
      obtain ⟨s, -, -, hs, -⟩ :=
        compile_changes hrebuilds.dialect hrebuilds.mode hrebuilds.changes_ne_nil h
      rw [hnone] at hs
      cases hs

theorem compilePlan_singleton (operation : SchemaOperation) :
    k.compilePlan [operation] = k.compileOperation operation := by
  rw [compilePlan, List.mapM_cons, List.mapM_nil]
  cases k.compileOperation operation with
  | error e => rfl
  | ok statements => exact congrArg Except.ok (List.append_nil statements)

/-- One blueprint that lacks its definition fails the whole plan. -/
theorem exists_error_of_mem {plan : SchemaPlan} (hmem : .table b ∈ plan)
    (hrebuilds : b.Rebuilds k.dialect) (hnone : k.snapshot = none) :
    ∃ e, k.compilePlan plan = .error e := by
  cases h : k.compilePlan plan with
  | error e => exact ⟨e, rfl⟩
  | ok statements =>
      obtain ⟨parts, hparts, -⟩ := exists_of_bind h
      have hall : ∀ operation ∈ plan, ∃ part, k.compileOperation operation = .ok part :=
        ((List.forall₂_and_left plan parts).mp
          ((forall₂_of_mapM hparts).imp fun _ part hpart => ⟨⟨part, hpart⟩, hpart⟩)).1
      obtain ⟨part, hpart⟩ := hall _ hmem
      obtain ⟨e, he⟩ := exists_error_of_rebuilds hrebuilds hnone
      cases he.symm.trans hpart

end SchemaCompiler

/-! ### Running plans -/

namespace Schema

variable {σ : Type}

/-- **A plan does not see stored definitions.**  A plan with one blueprint is that blueprint applied,
and as long as no table is built anew that is the blueprint run by itself.  A plan that is to build a
table anew only fails, whatever else is in it.  Run by itself such a blueprint fails in the same way if
no definition is stored; if one is, it runs what it compiles to by that, and should this be anything,
then the plan has failed for want of the definition. -/
theorem plan_lacks_definitions (s : Schema σ) (b : Blueprint) :
    s.run [.table b] = s.apply (.table b) ∧
    if b.Rebuilds s.executor.dialect then
      (∀ plan, .table b ∈ plan → ∃ e, s.run plan = throw (.schema e)) ∧
      ∃ e, s.apply (.table b) = throw (.schema e) ∧
        s.blueprint b = (do
          match ← s.snapshot b.table with
          | none => throw (.schema e)
          | some definition =>
            let statements ← compiled (({ s.compiler with snapshot := some definition }).compile b)
            s.executor.executeScript statements s.executor.dialect.abandonRebuild) ∧
        ∀ snapshot statements, ({ s.compiler with snapshot }).compile b = .ok statements →
          e = .invalidBlueprint (s.compiler.tableName b.table) .definitionNeeded
    else s.apply (.table b) = s.blueprint b := by
  constructor
  · rw [run, apply, SchemaCompiler.compilePlan_singleton]
  split
  · rename_i hrebuilds
    constructor
    · intro plan hmem
      obtain ⟨e, he⟩ := SchemaCompiler.exists_error_of_mem (k := s.compiler) hmem hrebuilds rfl
      exact ⟨e, by rw [run, he]; rfl⟩
    obtain ⟨e, he⟩ := SchemaCompiler.exists_error_of_rebuilds (k := s.compiler) hrebuilds rfl
    refine ⟨e, ?_, ?_, fun snapshot statements h => ?_⟩
    · show compiled (s.compiler.compile b) >>= _ = _
      rw [he]
      rfl
    · rw [blueprint_of_rebuilds hrebuilds]
      refine bind_congr fun snapshot => ?_
      cases snapshot with
      | none =>
          show compiled (s.compiler.compile b) >>= _ = _
          rw [he]
          rfl
      | some definition => rfl
    · have hlacks := SchemaCompiler.compile_without_definition
        (k := { s.compiler with snapshot }) hrebuilds h
      exact Except.error.inj (he.symm.trans hlacks)
  · rename_i hplain
    exact (blueprint_of_not_rebuilds hplain).symm

/-! ### Longer titles -/

/-- Lets the titles of posts be longer. -/
def longerTitles : Blueprint :=
  (Blueprint.alter "posts").add { name := "title", type := .string 200, change := true }

/-- The definition of the posts is stored. -/
def storedPosts : Mock where
  rules := [{
    on := "SELECT type, sql FROM sqlite_master"
    rows := [Row.ofList [("type", .text "table"),
      ("sql", .text "CREATE TABLE \"posts\" (\"id\" INTEGER NOT NULL, \"title\" TEXT)")]] }]

def ofMock : Schema Mock where
  executor := Mock.executor "main" "" .sqlite

/-- The blueprint looks up the definition and sends the nine statements of a rebuild; as a plan it
sends nothing and fails. -/
theorem longer_titles_not_planned :
    let lone := (ofMock.blueprint longerTitles).outcome storedPosts
    let applied := (ofMock.apply (.table longerTitles)).outcome storedPosts
    let planned := (ofMock.run [.table longerTitles]).outcome storedPosts
    lone.1 = .ok () ∧ lone.2.log.length = 10 ∧
    applied.1 = .error (.schema (.invalidBlueprint "posts" .definitionNeeded)) ∧
    applied.2.log = [] ∧ planned.1 = applied.1 ∧ planned.2.log = [] := by
  decide +kernel

end Schema

end Relational
