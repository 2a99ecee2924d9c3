import Relational.Config.Basic
import Relational.Session.Transaction
/-
Connections by name.

A connection that is open already is taken as it is.  Any other is opened from its settings, if
there is an adapter for its dialect.
-/
namespace Relational

/-- Opens a connection under a name, at an address, with a number of sessions. -/
abbrev Adapter (σ : Type) : Type := String → String → UInt32 → Action σ (Connection σ)

/-- The connections of a configuration. -/
structure Registry (σ : Type) where
  config : Config
  opened : List (String × Connection σ) := []
  adapter? : Dialect → Option (Adapter σ) := fun _ => none

namespace Registry

variable {σ : Type}

/-- Opens a connection from its settings. -/
def connect (r : Registry σ) (name : String) (settings : ConnectionConfig) :
    Action σ (Connection σ) :=
  match r.adapter? settings.dialect with
  | none => throw (.configuration (.noAdapter settings.dialect))
  | some adapter => do
    let address ← Action.ofExcept .configuration settings.address
    adapter name address settings.poolSize

/-- The connection of a name. -/
def get (r : Registry σ) (name : String) : Action σ (Connection σ) :=
  match r.opened.lookup name with
  | some c => pure c
  | none => do
    let (name, settings) ← Action.ofExcept .configuration (r.config.connection (some name))
    r.connect name settings

end Registry

end Relational
