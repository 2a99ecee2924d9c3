import Mathlib.Data.List.Basic
import Relational.Proofs.Schema.Copy
import Relational.Proofs.Session.Savepoint
/-
A rebuild that fails leaves no trace.

A rebuild sends two statements, is then inside its savepoint for as long as its body
runs, and leaves it with the last statement but one.  So a failure finds the session
either as it was, where giving up finds no savepoint and does nothing, or inside, where
giving up restores what the savepoint remembers.  Nothing else about the body matters.
-/
namespace Relational

/-! ### Statements of a rebuild -/

namespace Dialect

/-- What comes before a rebuild's body. -/
def rebuildOpening : List String :=
  ["PRAGMA foreign_keys = OFF", "SAVEPOINT " ++ rebuildSavepoint]

/-- What comes behind a rebuild's body. -/
def rebuildClosing : List String :=
  ["RELEASE " ++ rebuildSavepoint, "PRAGMA foreign_keys = ON"]

theorem opens_dropTableIfExists (table : String) :
    SessionCommand.Opens "DROP" (sqlite.dropTableIfExists table) :=
  have h : SessionCommand.Opens "DROP" "DROP TABLE IF EXISTS " := ⟨_, rfl⟩
  h.append _

theorem opens_dropTable (table : String) : SessionCommand.Opens "DROP" (sqlite.dropTable table) :=
  have h : SessionCommand.Opens "DROP" "DROP TABLE " := ⟨_, rfl⟩
  h.append _

theorem opens_renameTable (source target : String) :
    SessionCommand.Opens "ALTER" (sqlite.renameTable source target) :=
  have h : SessionCommand.Opens "ALTER" "ALTER TABLE " := ⟨_, rfl⟩
  ((h.append _).append _).append _

theorem opens_createTable (table : String) (ifNotExists : Bool) (body : List String) :
    SessionCommand.Opens "CREATE" (sqlite.createTable table ifNotExists body) :=
  have h : SessionCommand.Opens "CREATE" "CREATE TABLE " := ⟨_, rfl⟩
  ((((h.append _).append _).append _).append _).append _

theorem ofSql_dropTableIfExists (table : String) :
    SessionCommand.ofSql (sqlite.dropTableIfExists table) = .other :=
  SessionCommand.ofSql_of_opens "drop" (opens_dropTableIfExists table) (by decide) (by decide)

theorem ofSql_dropTable (table : String) :
    SessionCommand.ofSql (sqlite.dropTable table) = .other :=
  SessionCommand.ofSql_of_opens "drop" (opens_dropTable table) (by decide) (by decide)

theorem ofSql_renameTable (source target : String) :
    SessionCommand.ofSql (sqlite.renameTable source target) = .other :=
  SessionCommand.ofSql_of_opens "alter" (opens_renameTable source target) (by decide) (by decide)

theorem ofSql_createTable (table : String) (ifNotExists : Bool) (body : List String)
    (options : String) :
    SessionCommand.ofSql (sqlite.createTable table ifNotExists body ++ options) = .other :=
  SessionCommand.ofSql_of_opens "create" ((opens_createTable table ifNotExists body).append options)
    (by decide) (by decide)

theorem rebuildStatements_eq (s : TableSnapshot) (items : List CopiedItem) :
    ∃ definitions options insert, SessionCommand.Opens "INSERT" insert ∧
      rebuildStatements s items = rebuildOpening ++
        ([sqlite.dropTableIfExists (copyName s.table),
          sqlite.createTable (copyName s.table) false definitions ++ options, insert,
          sqlite.dropTable s.table, sqlite.renameTable (copyName s.table) s.table] ++ s.dependents ++
        rebuildClosing) := by
  have hinsert : SessionCommand.Opens "INSERT" "INSERT INTO " := ⟨_, rfl⟩
  refine ⟨?definitions, ?options, ?insert, ?opens, ?statements⟩
  case statements =>
    simp only [rebuildStatements, List.append_assoc]
    rfl
  case opens =>
    exact ((((((hinsert.append _).append _).append _).append _).append _).append _).append _

/-- A rebuild is its opening, statements for the database, and its closing. -/
theorem exists_body {snapshot : TableSnapshot} {changes : List Column} {script : List String}
    (h : rebuildTable .sqlite snapshot changes = .ok script)
    (hdependents : ∀ sql ∈ snapshot.dependents, SessionCommand.ofSql sql = .other) :
    ∃ body, (∀ sql ∈ body, SessionCommand.ofSql sql = .other) ∧
      script = rebuildOpening ++ (body ++ rebuildClosing) := by
  obtain ⟨-, items, -, rfl⟩ := rebuildTable_eq_ok.mp h
  obtain ⟨definitions, options, insert, hinsert, hstatements⟩ := rebuildStatements_eq snapshot items
  refine ⟨_, ?_, hstatements⟩
  intro sql hsql
  simp only [List.cons_append, List.nil_append, List.mem_cons] at hsql
  rcases hsql with rfl | rfl | rfl | rfl | rfl | hdependent
  · exact ofSql_dropTableIfExists _
  · exact ofSql_createTable ..
  · exact SessionCommand.ofSql_of_opens "insert" hinsert (by decide) (by decide)
  · exact ofSql_dropTable _
  · exact ofSql_renameTable ..
  · exact hdependents sql hdependent

end Dialect

/-! ### Inside and outside the savepoint -/

namespace Session

open Dialect

/-- `t` holds what `s` holds, and checks foreign keys. -/
structure Restored (s t : Session D) : Prop where
  database : t.database = s.database
  savepoints : t.savepoints = s.savepoints
  foreignKeys : t.foreignKeys = true

/-- `t` is on the way of a rebuild that `s` began. -/
inductive Underway (s t : Session D) : Prop where
  | outside (database : t.database = s.database) (savepoints : t.savepoints = s.savepoints)
  | inside (savepoints : t.savepoints = (rebuildSavepoint, s.database) :: s.savepoints)

/-- What was sent in between does not matter. -/
theorem Underway.sent {s t : Session D} (h : s.Underway t) (sent : List String) :
    s.Underway { t with sent } := by
  cases h with
  | outside hdatabase hsavepoints => exact .outside hdatabase hsavepoints
  | inside hinside => exact .inside hinside

theorem openFrom_innermost {s : Session D} {name : String} {database : D}
    {rest : List (String × D)} (h : s.savepoints = (name, database) :: rest) :
    s.openFrom name = (name, database) :: rest := by
  rw [openFrom, h]
  simp

theorem openFrom_absent {s : Session D} {name : String} (h : ∀ p ∈ s.savepoints, p.1 ≠ name) :
    s.openFrom name = [] := by
  rw [openFrom, ← List.append_nil s.savepoints,
    List.dropWhile_append_of_pos fun p hp => by simpa using h p hp, List.dropWhile_nil]

end Session

namespace Engine

open Dialect Session

variable {engine : Engine D} {s t : Session D}

theorem ofSql_disable : SessionCommand.ofSql "PRAGMA foreign_keys = OFF" = .foreignKeys false := by
  decide

theorem ofSql_enable : SessionCommand.ofSql "PRAGMA foreign_keys = ON" = .foreignKeys true := by
  decide

theorem ofSql_savepoint :
    SessionCommand.ofSql ("SAVEPOINT " ++ rebuildSavepoint) = .savepoint rebuildSavepoint := by
  decide

theorem ofSql_rollback :
    SessionCommand.ofSql ("ROLLBACK TO " ++ rebuildSavepoint) = .rollbackTo rebuildSavepoint := by
  decide

theorem ofSql_release :
    SessionCommand.ofSql ("RELEASE " ++ rebuildSavepoint) = .release rebuildSavepoint := by
  decide

/-- The opening ends inside the savepoint. -/
theorem runs_opening (h : engine.Accepts s.sent rebuildOpening) :
    engine.Runs s rebuildOpening ∧ (rebuildOpening.foldl engine.after s).savepoints =
      (rebuildSavepoint, s.database) :: s.savepoints := by
  obtain ⟨hoff, hset, -⟩ := h
  have hoff' := fault?_of_accepted hoff (by rw [ofSql_disable]; rfl)
  have hset' : engine.fault? (engine.after s "PRAGMA foreign_keys = OFF")
      ("SAVEPOINT " ++ rebuildSavepoint) = none :=
    fault?_of_accepted hset (by rw [ofSql_savepoint]; rfl)
  refine ⟨⟨hoff', hset', trivial⟩, ?_⟩
  show (engine.after (engine.after s _) _).savepoints = _
  rw [after_of_runs hset', ofSql_savepoint, after_of_runs hoff', ofSql_disable]
  rfl

/-- From inside, going back restores what the savepoint remembers and keeps it set. -/
theorem rollback_inside {database : D} {others : List (String × D)}
    (hinside : s.savepoints = (rebuildSavepoint, database) :: others)
    (h : engine.refusal? s.sent ("ROLLBACK TO " ++ rebuildSavepoint) = none) :
    (engine.after s ("ROLLBACK TO " ++ rebuildSavepoint)).database = database ∧
      (engine.after s ("ROLLBACK TO " ++ rebuildSavepoint)).savepoints = s.savepoints := by
  have hopen := openFrom_innermost hinside
  rw [after_of_runs (fault?_of_accepted h (by rw [ofSql_rollback, lacks, hopen]; rfl)),
    ofSql_rollback, follow, hopen, hinside]
  exact ⟨rfl, rfl⟩

/-- From inside, releasing the savepoint leaves those that were set before it. -/
theorem release_inside {database : D} {others : List (String × D)}
    (hinside : s.savepoints = (rebuildSavepoint, database) :: others)
    (h : engine.refusal? s.sent ("RELEASE " ++ rebuildSavepoint) = none) :
    engine.fault? s ("RELEASE " ++ rebuildSavepoint) = none ∧
      (engine.after s ("RELEASE " ++ rebuildSavepoint)).database = s.database ∧
      (engine.after s ("RELEASE " ++ rebuildSavepoint)).savepoints = others := by
  have hopen := openFrom_innermost hinside
  have hfault := fault?_of_accepted h (by rw [ofSql_release, lacks, hopen]; rfl)
  rw [after_of_runs hfault, ofSql_release, follow, hopen]
  exact ⟨hfault, rfl, rfl⟩

/-- Turning the checking of foreign keys on does nothing else. -/
theorem enable_foreignKeys (h : engine.refusal? s.sent "PRAGMA foreign_keys = ON" = none) :
    engine.fault? s "PRAGMA foreign_keys = ON" = none ∧
      engine.after s "PRAGMA foreign_keys = ON" =
        { s with foreignKeys := true, sent := s.sent ++ ["PRAGMA foreign_keys = ON"] } := by
  have hfault := fault?_of_accepted h (by rw [ofSql_enable]; rfl)
  refine ⟨hfault, ?_⟩
  rw [after_of_runs hfault, ofSql_enable, follow]

/-- From inside, the closing leaves the savepoint behind. -/
theorem runs_closing {database : D} {others : List (String × D)}
    (hinside : s.savepoints = (rebuildSavepoint, database) :: others)
    (h : engine.Accepts s.sent rebuildClosing) :
    engine.Runs s rebuildClosing ∧ (rebuildClosing.foldl engine.after s).savepoints = others ∧
      (rebuildClosing.foldl engine.after s).foreignKeys = true := by
  obtain ⟨hrelease, hon, -⟩ := h
  obtain ⟨hfault, -, hothers⟩ := release_inside hinside hrelease
  rw [← sent_after engine] at hon
  obtain ⟨hfault', hafter⟩ := enable_foreignKeys hon
  refine ⟨⟨hfault, hfault', trivial⟩, ?_⟩
  show (engine.after (engine.after s _) _).savepoints = _ ∧
    (engine.after (engine.after s _) _).foreignKeys = _
  rw [hafter]
  exact ⟨hothers, rfl⟩

/-- Giving up restores what the session was, whether or not it had reached the savepoint. -/
theorem restored_abandon (hfree : ∀ p ∈ s.savepoints, p.1 ≠ rebuildSavepoint)
    (h : s.Underway t) (haccepts : engine.Accepts t.sent (abandonRebuild .sqlite)) :
    s.Restored ((abandonRebuild .sqlite).foldl engine.after t) := by
  obtain ⟨hrollback, hrelease, hon, -⟩ := haccepts
  show s.Restored (engine.after (engine.after (engine.after t _) _) _)
  rw [(enable_foreignKeys hon).2]
  cases h with
  | outside hdatabase hsavepoints =>
      -- There is no savepoint to go back to, nor one to release.
      have habsent : t.openFrom rebuildSavepoint = [] := openFrom_absent (by rwa [hsavepoints])
      obtain ⟨hdatabase₁, hsavepoints₁⟩ : _ ∧ (engine.after t _).savepoints = t.savepoints :=
        after_of_lacks (by rw [ofSql_rollback, lacks, habsent]; rfl)
      have habsent₁ : (engine.after t ("ROLLBACK TO " ++ rebuildSavepoint)).openFrom
          rebuildSavepoint = [] := by
        rw [openFrom, hsavepoints₁]
        exact habsent
      obtain ⟨hdatabase₂, hsavepoints₂⟩ : _ ∧ (engine.after (engine.after t _) _).savepoints = _ :=
        after_of_lacks (by rw [ofSql_release, lacks, habsent₁]; rfl)
      exact ⟨hdatabase₂.trans (hdatabase₁.trans hdatabase),
        hsavepoints₂.trans (hsavepoints₁.trans hsavepoints), rfl⟩
  | inside hinside =>
      obtain ⟨hdatabase, hkept⟩ := rollback_inside hinside hrollback
      obtain ⟨-, hsame, hothers⟩ := release_inside (hkept.trans hinside) hrelease
      exact ⟨hsame.trans hdatabase, hothers, rfl⟩

/-- What stands before the last but one of a text's entries, or earlier, is part of the text in front
of its last two. -/
theorem prefix_of_append_pair {α : Type} {body before rest : List α} {a b x : α}
    (h : body ++ [a, b] = before ++ x :: rest) (hrest : rest ≠ []) : before <+: body := by
  have hlength := congrArg List.length h
  have hpos := List.length_pos_iff.mpr hrest
  simp only [List.length_append, List.length_cons, List.length_nil] at hlength
  exact List.prefix_of_prefix_length_le (h ▸ List.prefix_append before _)
    (List.prefix_append body _) (by omega)

/-- Wherever a rebuild stops before its last statement, it got there without a failure and is on its
way. -/
theorem underway_of_prefix {body before rest : List String} {sql : String}
    (hother : ∀ sql ∈ body, SessionCommand.ofSql sql = .other)
    (hscript : rebuildOpening ++ (body ++ rebuildClosing) = before ++ sql :: rest)
    (hrest : rest ≠ []) (haccepts : engine.Accepts s.sent before) :
    engine.Runs s before ∧ s.Underway (before.foldl engine.after s) := by
  match before with
  | [] => exact ⟨trivial, .outside rfl rfl⟩
  | [first] =>
      obtain ⟨rfl, -⟩ : "PRAGMA foreign_keys = OFF" = first ∧ _ := List.cons.inj hscript
      have hfault := fault?_of_accepted haccepts.1 (by rw [ofSql_disable]; rfl)
      refine ⟨⟨hfault, trivial⟩, ?_⟩
      rw [List.foldl_cons, List.foldl_nil, after_of_runs hfault, ofSql_disable]
      exact .outside rfl rfl
  | first :: second :: inner =>
      obtain ⟨rfl, hsecond⟩ : "PRAGMA foreign_keys = OFF" = first ∧ _ := List.cons.inj hscript
      obtain ⟨rfl, hinner⟩ : "SAVEPOINT " ++ rebuildSavepoint = second ∧ _ := List.cons.inj hsecond
      obtain ⟨later, rfl⟩ := prefix_of_append_pair hinner hrest
      have hothers : ∀ sql ∈ inner, SessionCommand.ofSql sql = .other :=
        fun sql hsql => hother sql (List.mem_append_left later hsql)
      have hopening : engine.Accepts s.sent (rebuildOpening ++ inner) := haccepts
      rw [accepts_append] at hopening
      obtain ⟨hruns, hsavepoints⟩ := runs_opening hopening.1
      have hbody := hopening.2
      rw [← sent_foldl engine] at hbody
      show engine.Runs s (rebuildOpening ++ inner) ∧
        s.Underway ((rebuildOpening ++ inner).foldl engine.after s)
      rw [runs_append, List.foldl_append]
      exact ⟨⟨hruns, runs_of_other hothers hbody⟩,
        .inside ((savepoints_foldl_of_other hothers).trans hsavepoints)⟩

/-- A rebuild of which nothing is refused runs through and leaves its savepoint behind. -/
theorem runs_rebuild {body : List String} (hother : ∀ sql ∈ body, SessionCommand.ofSql sql = .other)
    (h : engine.Accepts s.sent (rebuildOpening ++ (body ++ rebuildClosing))) :
    engine.Runs s (rebuildOpening ++ (body ++ rebuildClosing)) ∧
      ((rebuildOpening ++ (body ++ rebuildClosing)).foldl engine.after s).savepoints =
        s.savepoints ∧
      ((rebuildOpening ++ (body ++ rebuildClosing)).foldl engine.after s).foreignKeys = true := by
  rw [accepts_append, ← sent_foldl engine, accepts_append, ← sent_foldl engine] at h
  obtain ⟨hopening, hbody, hclosing⟩ := h
  obtain ⟨hruns, hinside⟩ := runs_opening hopening
  obtain ⟨hruns', hsavepoints, hchecked⟩ :=
    runs_closing ((savepoints_foldl_of_other hother).trans hinside) hclosing
  rw [runs_append, runs_append, List.foldl_append, List.foldl_append]
  exact ⟨⟨hruns, runs_of_other hother hbody, hruns'⟩, hsavepoints, hchecked⟩

/-- **A rebuild is all or nothing.**  If the engine refuses one of its statements but the last, the
failure is that statement's, only what gives the rebuild up is sent behind it, and the session is
what it was before, with foreign keys checked.  If it refuses none, no savepoint is left over. -/
theorem rebuild_all_or_nothing (engine : Engine D) (s : Session D)
    {snapshot : TableSnapshot} {changes : List Column} {script : List String}
    (hscript : rebuildTable .sqlite snapshot changes = .ok script)
    (hdependents : ∀ sql ∈ snapshot.dependents, SessionCommand.ofSql sql = .other)
    (hfree : ∀ p ∈ s.savepoints, p.1 ≠ rebuildSavepoint) :
    let recover := abandonRebuild .sqlite
    let run := (engine.executor.executeScript script recover).outcome s
    (∀ before sql rest failure, script = before ++ sql :: rest → rest ≠ [] →
      engine.Accepts s.sent before → engine.refusal? (s.sent ++ before) sql = some failure →
      engine.Accepts (s.sent ++ before ++ [sql]) recover →
      run.1 = .error failure ∧ run.2.sent = s.sent ++ before ++ sql :: recover ∧
      run.2.database = s.database ∧ run.2.savepoints = s.savepoints ∧
      run.2.foreignKeys = true) ∧
    (engine.Accepts s.sent script →
      run.1 = .ok () ∧ run.2.sent = s.sent ++ script ∧ run.2.savepoints = s.savepoints ∧
      run.2.foreignKeys = true) := by
  intro recover run
  obtain ⟨body, hother, hbody⟩ := exists_body hscript hdependents
  constructor
  · intro before sql rest failure hsplit hrest haccepts hrefused hrecover
    obtain ⟨hruns, hunderway⟩ := underway_of_prefix hother (hbody ▸ hsplit) hrest haccepts
    rw [← sent_foldl engine] at hrefused hrecover
    have hfault := fault?_of_refused hrefused
    have hrun : run = (.error failure, (before ++ sql :: recover).foldl engine.after s) := by
      rw [← outcome_executeScript_of_fault recover hruns hfault, ← hsplit]
    have hrestored : s.Restored (recover.foldl engine.after
        (engine.after (before.foldl engine.after s) sql)) := by
      refine restored_abandon hfree ?_ hrecover
      rw [after_of_fault hfault]
      exact hunderway.sent _
    rw [hrun, sent_foldl, List.foldl_append, List.foldl_cons]
    exact ⟨rfl, (List.append_assoc ..).symm, hrestored.database, hrestored.savepoints,
      hrestored.foreignKeys⟩
  · intro haccepts
    obtain ⟨hruns, hsavepoints, hchecked⟩ := runs_rebuild hother (hbody ▸ haccepts)
    have hrun : run = (.ok (), script.foldl engine.after s) := by
      rw [← outcome_executeScript recover (hbody ▸ hruns)]
    rw [hrun, sent_foldl, hbody]
    exact ⟨rfl, rfl, hsavepoints, hchecked⟩

/-! ### A table of posts -/

def posts : TableSnapshot where
  table := "posts"
  items := [.column "id" "\"id\" INTEGER NOT NULL PRIMARY KEY", .column "title" "\"title\" TEXT"]
  options := ""
  dependents := ["CREATE INDEX \"posts_title\" ON \"posts\" (\"title\")"]

def requiredTitle : Column where
  name := "title"
  type := .text

def postsRebuild : List String :=
  ["PRAGMA foreign_keys = OFF", "SAVEPOINT quarry_rebuild",
    "DROP TABLE IF EXISTS \"__quarry_tmp_posts\"",
    "CREATE TABLE \"__quarry_tmp_posts\" (\"id\" INTEGER NOT NULL PRIMARY KEY, " ++
      "\"title\" TEXT NOT NULL)",
    "INSERT INTO \"__quarry_tmp_posts\" (\"id\", \"title\") SELECT \"id\", " ++
      "CAST(\"title\" AS TEXT) FROM \"posts\"",
    "DROP TABLE \"posts\"", "ALTER TABLE \"__quarry_tmp_posts\" RENAME TO \"posts\"",
    "CREATE INDEX \"posts_title\" ON \"posts\" (\"title\")", "RELEASE quarry_rebuild",
    "PRAGMA foreign_keys = ON"]

theorem rebuildTable_posts : rebuildTable .sqlite posts [requiredTitle] = .ok postsRebuild := by
  decide +kernel

/-- Counts what it does, and has no room for an index. -/
def withoutRoom : Engine Nat where
  refusal? := fun _ sql =>
    if sql ∈ posts.dependents then some (.statement "database or disk is full" sql 0) else none
  effect := fun _ _ n => n + 1

/-- The index cannot be built, so the seven statements before it are undone, inside a savepoint of
someone else that stays set. -/
theorem posts_rebuild_undone :
    let s : Session Nat := { database := 7, savepoints := [("outer", 3)] }
    let recover := abandonRebuild .sqlite
    let run := (withoutRoom.executor.executeScript postsRebuild recover).outcome s
    run.1 = .error (.statement "database or disk is full" (postsRebuild.getD 7 "") 0) ∧
    run.2.sent = postsRebuild.take 8 ++ recover ∧ run.2.database = 7 ∧
    run.2.savepoints = [("outer", 3)] ∧ run.2.foreignKeys = true :=
  (rebuild_all_or_nothing withoutRoom _ rebuildTable_posts (by decide) (by decide)).1
    (postsRebuild.take 7) (postsRebuild.getD 7 "") (postsRebuild.drop 8) _ rfl (by decide)
    (by simp [Accepts, withoutRoom, postsRebuild, posts]) rfl
    (by simp [Accepts, withoutRoom, posts, abandonRebuild, enableForeignKeys, rebuildSavepoint])

end Engine

end Relational
