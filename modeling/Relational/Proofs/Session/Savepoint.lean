import Relational.Proofs.Action
import Relational.Session.Executor
/-
Sessions with savepoints.

A session is what its database holds, the savepoints that are set and the switch for
foreign keys.  What a statement does to the database, and whether the engine refuses it,
is left open, and both may depend on everything sent before; only savepoints and the
switch behave as the engine documents them.

`outcome_executeScript` and `outcome_executeScript_of_fault` say what running a script
comes to: every statement is sent up to the first that fails, and then all that is to
recover from it, whatever becomes of that.
-/
namespace Relational

open Action

/-! ### Statements of a session -/

/-- What a statement asks of the session itself. -/
inductive SessionCommand where
  | savepoint (name : String)
  | rollbackTo (name : String)
  | release (name : String)
  | foreignKeys (checked : Bool)
  /-- Nothing: it is for the database. -/
  | other
  deriving DecidableEq, Repr

namespace SessionCommand

/-- The words of a statement, in lower case. -/
def wordsOf (sql : String) : List String :=
  (Text.words (Text.asciiLower sql.toList)).map String.ofList

/-- Reads a statement, in any letter case. -/
def ofSql (sql : String) : SessionCommand :=
  match wordsOf sql with
  | ["savepoint", name] => savepoint name
  | ["rollback", "to", name] | ["rollback", "to", "savepoint", name]
  | ["rollback", "transaction", "to", name]
  | ["rollback", "transaction", "to", "savepoint", name] => rollbackTo name
  | ["release", name] | ["release", "savepoint", name] => release name
  | ["pragma", "foreign_keys", "=", "off"] => foreignKeys false
  | ["pragma", "foreign_keys", "=", "on"] => foreignKeys true
  | _ => other

/-- The text starts with `verb` and a space. -/
def Opens (verb sql : String) : Prop :=
  ∃ rest, sql.toList = verb.toList ++ ' ' :: rest

theorem Opens.append {verb sql : String} (h : Opens verb sql) (more : String) :
    Opens verb (sql ++ more) := by
  obtain ⟨rest, hrest⟩ := h
  exact ⟨rest ++ more.toList, by rw [String.toList_append, hrest]; simp⟩

theorem wordsOf_of_opens {verb sql : String} (h : Opens verb sql) :
    ∃ rest, wordsOf sql = wordsOf verb ++ rest := by
  obtain ⟨rest, hrest⟩ := h
  refine ⟨(Text.words (Text.asciiLower rest)).map String.ofList, ?_⟩
  have hblank : Text.isBlank (' ').toLower = true := by decide
  simp only [wordsOf, Text.words, Text.asciiLower, hrest, List.map_append, List.map_cons,
    List.splitOnP_append_cons _ _ hblank, List.filter_append]

/-- The verbs that ask something of a session. -/
def verbs : List String :=
  ["savepoint", "rollback", "release", "pragma"]

theorem ofSql_of_opens {verb sql : String} (word : String) (h : Opens verb sql)
    (hword : wordsOf verb = [word]) (hother : word ∉ verbs) : ofSql sql = other := by
  obtain ⟨rest, hrest⟩ := wordsOf_of_opens h
  rw [hword, List.singleton_append] at hrest
  unfold ofSql
  rw [hrest]
  split <;> simp_all [verbs]

end SessionCommand

/-! ### Sessions -/

/-- A session with one database. -/
structure Session (D : Type) where
  database : D
  /-- Innermost first, each with what the database held when it was set. -/
  savepoints : List (String × D) := []
  foreignKeys : Bool := true
  /-- Every statement so far, also those that failed. -/
  sent : List String := []

/-- What an engine does that is not said here; it may depend on the statements sent before. -/
structure Engine (D : Type) where
  /-- Why a statement is refused, if it is. -/
  refusal? : List String → String → Option Failure
  /-- What a statement does to the database. -/
  effect : List String → String → D → D

variable {D : Type}

namespace Session

/-- The savepoints from the innermost of that name on. -/
def openFrom (s : Session D) (name : String) : List (String × D) :=
  s.savepoints.dropWhile (·.1 != name)

/-- A savepoint is asked for that is not set. -/
def lacks (s : Session D) : SessionCommand → Bool
  | .rollbackTo name | .release name => (s.openFrom name).isEmpty
  | _ => false

/-- Does what a statement asks for. -/
def follow (s : Session D) (effect : D → D) : SessionCommand → Session D
  | .savepoint name => { s with savepoints := (name, s.database) :: s.savepoints }
  | .rollbackTo name =>
    match s.openFrom name with
    | [] => s
    | (kept, database) :: rest => { s with database, savepoints := (kept, database) :: rest }
  | .release name => { s with savepoints := (s.openFrom name).tail }
  | .foreignKeys checked => { s with foreignKeys := checked }
  | .other => { s with database := effect s.database }

end Session

namespace Engine

variable (engine : Engine D)

/-- Why a statement fails, if it does. -/
def fault? (s : Session D) (sql : String) : Option Failure :=
  match engine.refusal? s.sent sql with
  | some failure => some failure
  | none =>
    if s.lacks (.ofSql sql) then some (.statement "no such savepoint" sql 0) else none

/-- The session behind a statement; one that failed is only noted. -/
def after (s : Session D) (sql : String) : Session D :=
  let followed :=
    if (engine.fault? s sql).isSome then s else s.follow (engine.effect s.sent sql) (.ofSql sql)
  { followed with sent := s.sent ++ [sql] }

/-- Runs statements in a session.  Rebuilding a table asks nothing, so queries find nothing. -/
def executor : Executor (Session D) where
  dialect := .sqlite
  query := fun _ _ => pure []
  execute := fun sql _ => do
    let s ← get
    set (engine.after s sql)
    match engine.fault? s sql with
    | some failure => throw failure
    | none => return 0

/-- None of the statements is refused when they are sent in order. -/
def Accepts (sent : List String) : List String → Prop
  | [] => True
  | sql :: rest => engine.refusal? sent sql = none ∧ Accepts (sent ++ [sql]) rest

/-- None of the statements fails when they are sent in order. -/
def Runs (s : Session D) : List String → Prop
  | [] => True
  | sql :: rest => engine.fault? s sql = none ∧ Runs (engine.after s sql) rest

variable {s : Session D} {sql : String}

@[simp] theorem sent_after : (engine.after s sql).sent = s.sent ++ [sql] := rfl

theorem sent_foldl (statements : List String) :
    (statements.foldl engine.after s).sent = s.sent ++ statements := by
  induction statements generalizing s with
  | nil => simp
  | cons sql rest ih => simp [ih]

variable {engine}

theorem accepts_append {sent a b : List String} :
    engine.Accepts sent (a ++ b) ↔ engine.Accepts sent a ∧ engine.Accepts (sent ++ a) b := by
  induction a generalizing sent with
  | nil => simp [Accepts]
  | cons sql rest ih => simp [Accepts, ih, and_assoc]

theorem runs_append {a b : List String} :
    engine.Runs s (a ++ b) ↔ engine.Runs s a ∧ engine.Runs (a.foldl engine.after s) b := by
  induction a generalizing s with
  | nil => simp [Runs]
  | cons sql rest ih => simp [Runs, ih, and_assoc]

/-! ### One statement -/

theorem fault?_of_refused {failure : Failure} (h : engine.refusal? s.sent sql = some failure) :
    engine.fault? s sql = some failure := by
  rw [fault?, h]

theorem fault?_of_accepted (h : engine.refusal? s.sent sql = none)
    (hlacks : s.lacks (.ofSql sql) = false) : engine.fault? s sql = none := by
  rw [fault?, h]
  simp [hlacks]

/-- A statement that fails is noted and does nothing else. -/
theorem after_of_fault {failure : Failure} (h : engine.fault? s sql = some failure) :
    engine.after s sql = { s with sent := s.sent ++ [sql] } := by
  simp [after, h]

theorem after_of_runs (h : engine.fault? s sql = none) :
    engine.after s sql =
      { s.follow (engine.effect s.sent sql) (.ofSql sql) with sent := s.sent ++ [sql] } := by
  simp [after, h]

/-- Going back to a savepoint that is not set, or releasing it, fails, refused or not. -/
theorem after_of_lacks (h : s.lacks (.ofSql sql) = true) :
    (engine.after s sql).database = s.database ∧
      (engine.after s sql).savepoints = s.savepoints := by
  have hfault : ∃ failure, engine.fault? s sql = some failure := by
    rw [fault?]
    split
    · exact ⟨_, rfl⟩
    · exact ⟨_, if_pos h⟩
  obtain ⟨failure, hfailure⟩ := hfault
  rw [after_of_fault hfailure]
  exact ⟨rfl, rfl⟩

theorem outcome_executeText : (engine.executor.executeText sql).outcome s =
    ((engine.fault? s sql).elim (.ok ()) .error, engine.after s sql) := by
  show ((match engine.fault? s sql with
    | some failure => throw failure
    | none => pure 0 : Action (Session D) UInt64) >>= fun _ => pure ()).outcome
      (engine.after s sql) = _
  cases engine.fault? s sql with
  | none => rfl
  | some failure => rfl

/-! ### Scripts -/

theorem outcome_executeAll {statements : List String} (h : engine.Runs s statements) :
    (engine.executor.executeAll statements).outcome s =
      (.ok (), statements.foldl engine.after s) := by
  induction statements generalizing s with
  | nil => rfl
  | cons sql rest ih =>
      show ((engine.executor.executeText sql) >>= fun _ => engine.executor.executeAll rest).outcome s = _
      rw [outcome_bind, outcome_executeText, h.1]
      exact ih h.2

/-- The first statement that fails is the last one sent. -/
theorem outcome_executeAll_of_fault {before rest : List String} {failure : Failure}
    (h : engine.Runs s before)
    (hfault : engine.fault? (before.foldl engine.after s) sql = some failure) :
    (engine.executor.executeAll (before ++ sql :: rest)).outcome s =
      (.error failure, (before ++ [sql]).foldl engine.after s) := by
  induction before generalizing s with
  | nil =>
      show ((engine.executor.executeText sql) >>= fun _ => engine.executor.executeAll rest).outcome s = _
      rw [outcome_bind, outcome_executeText, show engine.fault? s sql = _ from hfault]
      rfl
  | cons first before ih =>
      show ((engine.executor.executeText first) >>= fun _ =>
        engine.executor.executeAll (before ++ sql :: rest)).outcome s = _
      rw [outcome_bind, outcome_executeText, h.1]
      exact ih h.2 hfault

/-- Statements that run whatever becomes of them all run. -/
theorem outcome_regardless (recover : List String) :
    (recover.forM fun sql => (engine.executor.executeText sql).regardless).outcome s =
      (.ok (), recover.foldl engine.after s) := by
  induction recover generalizing s with
  | nil => rfl
  | cons sql rest ih =>
      show ((engine.executor.executeText sql).regardless >>= fun _ =>
        rest.forM fun sql => (engine.executor.executeText sql).regardless).outcome s = _
      rw [outcome_bind, regardless, outcome_tryCatch, outcome_executeText]
      cases engine.fault? s sql with
      | none => exact ih
      | some failure => exact ih

theorem outcome_executeScript {statements : List String} (recover : List String)
    (h : engine.Runs s statements) :
    (engine.executor.executeScript statements recover).outcome s =
      (.ok (), statements.foldl engine.after s) := by
  rw [Executor.executeScript, outcome_tryCatch, outcome_executeAll h]

/-- Behind a statement that failed all of `recover` is sent, and nothing else. -/
theorem outcome_executeScript_of_fault {before rest : List String} (recover : List String)
    {failure : Failure} (h : engine.Runs s before)
    (hfault : engine.fault? (before.foldl engine.after s) sql = some failure) :
    (engine.executor.executeScript (before ++ sql :: rest) recover).outcome s =
      (.error failure, (before ++ sql :: recover).foldl engine.after s) := by
  rw [Executor.executeScript, outcome_tryCatch, outcome_executeAll_of_fault h hfault]
  show ((recover.forM fun sql => (engine.executor.executeText sql).regardless) >>= fun _ =>
    (throw failure : Action (Session D) Unit)).outcome _ = _
  rw [outcome_bind, outcome_regardless]
  simp

/-! ### Statements for the database -/

theorem fault?_of_other (hother : SessionCommand.ofSql sql = .other)
    (h : engine.refusal? s.sent sql = none) : engine.fault? s sql = none :=
  fault?_of_accepted h (by rw [hother]; rfl)

theorem savepoints_of_other (hother : SessionCommand.ofSql sql = .other) :
    (engine.after s sql).savepoints = s.savepoints := by
  cases h : engine.fault? s sql with
  | none => rw [after_of_runs h, hother]; rfl
  | some failure => rw [after_of_fault h]

theorem runs_of_other {body : List String} (hother : ∀ sql ∈ body, SessionCommand.ofSql sql = .other)
    (h : engine.Accepts s.sent body) : engine.Runs s body := by
  induction body generalizing s with
  | nil => trivial
  | cons sql rest ih =>
      exact ⟨fault?_of_other (hother sql (by simp)) h.1, ih (fun x hx => hother x (by simp [hx])) h.2⟩

/-- No number of them touches a savepoint. -/
theorem savepoints_foldl_of_other {body : List String}
    (hother : ∀ sql ∈ body, SessionCommand.ofSql sql = .other) :
    (body.foldl engine.after s).savepoints = s.savepoints := by
  induction body generalizing s with
  | nil => rfl
  | cons sql rest ih =>
      rw [List.foldl_cons, ih fun x hx => hother x (by simp [hx]),
        savepoints_of_other (hother sql (by simp))]

end Engine

end Relational
