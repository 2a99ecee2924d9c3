import Relational.Session.Schema
/-
Procedures: what a migration does, as data.

A procedure asks for one thing after the other and goes on with the answers; it cannot reach a
database in any other way.  The same procedure can so be run for real, inside a transaction, or on
an executor that only takes notes.
-/
namespace Relational

/-- Something a migration may ask for. -/
inductive SchemaCall where
  | blueprint (b : Blueprint)
  | apply (operation : SchemaOperation)
  | run (plan : SchemaPlan)
  | statement (sql : String)
  | hasTable (table : String)
  | hasColumn (table column : String)
  | tables
  | dropAll
  | snapshot (table : String)
  | get (q : Query)
  | first (q : Query)
  | value (q : Query) (column : String)
  | aggregate (q : Query) (function : Aggregate) (column : String)
  | count (q : Query)
  | hasRows (q : Query)
  | insert (q : Query) (rows : List Row)
  | update (q : Query) (values : Row)
  | delete (q : Query)
  | page (q : Query) (pager : OffsetPager)
  | pageAfter (q : Query) (pager : CursorPager) (token : Option String)

namespace SchemaCall

/-- What the answer is. -/
@[reducible] def Answer : SchemaCall → Type
  | blueprint _ | apply _ | run _ => Unit
  | statement _ | insert .. | update .. | delete _ | count _ => UInt64
  | hasTable _ | hasColumn .. | hasRows _ => Bool
  | tables | dropAll => List String
  | snapshot _ => Option TableSnapshot
  | get _ => List Row
  | first _ => Option Row
  | value .. | aggregate .. => Option Value
  | page .. => OffsetPage
  | pageAfter .. => CursorPage

/-- Does what is asked for. -/
def perform {σ : Type} (s : Schema σ) : (c : SchemaCall) → Action σ c.Answer
  | blueprint b => s.blueprint b
  | apply operation => s.apply operation
  | run plan => s.run plan
  | statement sql => s.statement sql
  | hasTable table => s.hasTable table
  | hasColumn table column => s.hasColumn table column
  | tables => s.tables
  | dropAll => s.dropAll
  | snapshot table => s.snapshot table
  | get q => s.queries.get q
  | first q => s.queries.first q
  | value q column => s.queries.value q column
  | aggregate q function column => s.queries.aggregate q function column
  | count q => s.queries.count q
  | hasRows q => s.queries.hasRows q
  | insert q rows => s.queries.insert q rows
  | update q values => s.queries.update q values
  | delete q => s.queries.delete q
  | page q pager => s.queries.page q pager
  | pageAfter q pager token => s.queries.pageAfter q pager token

end SchemaCall

/-- One thing after the other, up to a result. -/
inductive Procedure (α : Type) where
  | done (a : α)
  | fail (failure : Failure)
  | call (c : SchemaCall) (next : c.Answer → Procedure α)

namespace Procedure

variable {σ α : Type}

/-- Runs a procedure. -/
def perform (s : Schema σ) : Procedure α → Action σ α
  | done a => pure a
  | fail failure => throw failure
  | call c next => do
    let answer ← c.perform s
    (next answer).perform s

/-- Goes on with another procedure once there is a result. -/
def bind {α β : Type} : Procedure α → (α → Procedure β) → Procedure β
  | done a, f => f a
  | fail failure, _ => fail failure
  | call c next, f => call c fun answer => (next answer).bind f

instance : Monad Procedure where
  pure := done
  bind := bind

/-- Asks for one thing. -/
def ask (c : SchemaCall) : Procedure c.Answer :=
  call c done

/-- Asks for several things, whatever the answers. -/
def ofCalls : List SchemaCall → Procedure Unit
  | [] => done ()
  | c :: rest => call c fun _ => ofCalls rest

/-- Runs statements in order. -/
def ofStatements (statements : List String) : Procedure Unit :=
  ofCalls (statements.map .statement)

end Procedure

end Relational
