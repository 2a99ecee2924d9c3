import Relational.Failure
/-
Doing something that may fail half-way.

What is acted on is left open: it is some state that an action may change, also when the action
fails.
-/
namespace Relational

/-- Something that may change the state and may fail; a failure does not undo changes. -/
abbrev Action (σ α : Type) : Type := ExceptT Failure (StateM σ) α

namespace Action

variable {σ α : Type}

/-- A result that is known beforehand, with its own kind of error. -/
def ofExcept {ε : Type} (wrap : ε → Failure) : Except ε α → Action σ α
  | .ok a => pure a
  | .error e => throw (wrap e)

/-- Runs an action whatever becomes of it. -/
def regardless (a : Action σ Unit) : Action σ Unit :=
  tryCatch a fun _ => pure ()

end Action

end Relational
