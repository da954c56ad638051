import ScriptSandbox.Data.Assoc

/-!
# Modules in memory

The entry of an execution is a module that is served from memory. It is registered under a name
that no other registration has, and taken at most once.
-/

namespace ScriptSandbox

/-- Sources that have been registered and not yet taken. -/
structure InlineModules where
  sources : Assoc String := []
  /-- How many registrations there have been. -/
  issued : Nat := 0
  deriving DecidableEq, Repr, Inhabited

namespace InlineModules

/-- The name of a registration. -/
def nameOf (label : String) (number : Nat) : String :=
  "jsbox:" ++ label ++ "/" ++ toString number ++ ".js"

/-- Registers a source under a new name. -/
def register (m : InlineModules) (label source : String) : String × InlineModules :=
  let name := nameOf label (m.issued + 1)
  (name, ⟨m.sources.put name source, m.issued + 1⟩)

/-- Takes the source registered under a name. -/
def take (m : InlineModules) (name : String) : Option String × InlineModules :=
  (m.sources.get? name, { m with sources := m.sources.erase name })

/-- Withdraws the registration of a name. -/
def revoke (m : InlineModules) (name : String) : InlineModules :=
  { m with sources := m.sources.erase name }

/-- How many registrations have been neither taken nor withdrawn. -/
def pending (m : InlineModules) : Nat := m.sources.length

end InlineModules
end ScriptSandbox
