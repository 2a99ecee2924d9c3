import Relational.Session.Transaction
import Relational.Text.Blank
/-
Mock connections.

A mock connection answers from rules: each says what becomes of the statements that hold a certain
text.  Everything a connection is asked for is noted, together with how it went, so that what a
migration does to a database can be told without one.
-/
namespace Relational

namespace Mock

/-- What becomes of statements. -/
structure Rule where
  /-- Stands in the statements that are meant. -/
  on : String
  /-- The connection that is meant, if it is a certain one. -/
  connection : Option String := none
  /-- How many more times the rule holds, if not always. -/
  times : Option Nat := none
  rows : List Row := []
  affected : UInt64 := 0
  /-- What is said when the statement is refused; if nothing, it is not. -/
  error : Option String := none

/-- Something that happened. -/
inductive Event where
  /-- A connection was asked for something. -/
  | asked (connection kind sql : String) (bindings : List Value) (refused : Bool)
  /-- A hook ran. -/
  | hook (kind label : String)
  deriving DecidableEq, Repr

end Mock

/-- The rules that are left, and what happened so far. -/
structure Mock where
  rules : List Mock.Rule := []
  log : List Mock.Event := []

namespace Mock

/-! ### Rules -/

/-- Whether a rule still holds for a statement on a connection. -/
def Rule.holds (r : Rule) (connection sql : String) : Bool :=
  Text.contains sql.toList r.on.toList && r.connection.all (· == connection) && r.times != some 0

/-- The first rule that holds, and the rules once it is used. -/
def applyRule (connection sql : String) : List Rule → Option Rule × List Rule
  | [] => (none, [])
  | r :: rest =>
    if r.holds connection sql then (some r, { r with times := r.times.map (· - 1) } :: rest)
    else
      let (found, rest) := applyRule connection sql rest
      (found, r :: rest)

/-! ### Connections -/

/-- Asks for something, and returns the rule that answers. -/
def ask (connection kind sql : String) (bindings : List Value) : Action Mock (Option Rule) := do
  let m ← get
  let (found, rules) := applyRule connection sql m.rules
  let error := found.bind (·.error)
  set (Mock.mk rules (m.log ++ [.asked connection kind sql bindings error.isSome]))
  match error with
  | some message => throw (.statement message sql bindings.length)
  | none => return found

/-- Runs statements; `place` stands in front of what is asked for. -/
def executor (connection place : String) (d : Dialect) : Executor Mock where
  dialect := d
  query := fun sql bindings => do
    return ((← ask connection (place ++ "query") sql bindings).map (·.rows)).getD []
  execute := fun sql bindings => do
    return ((← ask connection (place ++ "execute") sql bindings).map (·.affected)).getD 0

/-- A mock connection. -/
def connection (name : String) (d : Dialect) : Connection Mock where
  name := name
  executor := executor name "" d
  begin := do
    discard (ask name "begin" "BEGIN" [])
    return {
      executor := executor name "tx." d
      commit := discard (ask name "commit" "COMMIT" [])
      rollback := discard (ask name "rollback" "ROLLBACK" []) }

/-- Notes that a hook ran. -/
def ranHook (kind label : String) (m : Mock) : Mock :=
  { m with log := m.log ++ [.hook kind label] }

end Mock

end Relational
