import Relational.Action
import Relational.Row
import Relational.Sql
/-
Running statements.

What a database holds is left open: it is some state that running a statement may change, also when
the statement fails.  Everything above this module reaches the database through an executor only.
-/
namespace Relational

/-- Runs queries and statements of one dialect. -/
structure Executor (σ : Type) where
  dialect : Dialect
  /-- Runs a query and returns its rows. -/
  query : String → List Value → Action σ (List Row)
  /-- Runs a statement and returns the number of rows it changed. -/
  execute : String → List Value → Action σ UInt64

namespace Executor

variable {σ : Type}

/-- The first row of a query, if there is one. -/
def fetchRow (e : Executor σ) (s : Statement) : Action σ (Option Row) := do
  return (← e.query s.sql s.bindings).head?

/-- The first column of the first row of a query, if there is one. -/
def fetchValue (e : Executor σ) (s : Statement) : Action σ (Option Value) := do
  return (← e.fetchRow s).bind Row.first?

/-- Runs a statement without parameters. -/
def executeText (e : Executor σ) (sql : String) : Action σ Unit :=
  discard (e.execute sql [])

/-- Runs statements in order up to the first that fails. -/
def executeAll (e : Executor σ) (statements : List String) : Action σ Unit :=
  statements.forM e.executeText

/-- Runs statements in order.  If one fails, all of `recover` runs, whatever becomes of it, and the
failure stays what it was. -/
def executeScript (e : Executor σ) (statements recover : List String) : Action σ Unit :=
  tryCatch (e.executeAll statements) fun failure => do
    recover.forM fun sql => (e.executeText sql).regardless
    throw failure

/-! ### Pretending -/

/-- Notes statements instead of running them.  Queries find nothing, so what is asked for never
exists. -/
def recorder (d : Dialect) : Executor (List String) where
  dialect := d
  query := fun _ _ => pure []
  execute := fun sql _ => do
    modify (· ++ [sql])
    return 0

end Executor

end Relational
