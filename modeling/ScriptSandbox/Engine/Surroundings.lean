import ScriptSandbox.Modules.Fetch

/-!
# What an engine finds around it

An engine is made ready where tasks can run. Unless its modules are served by a provider that was
handed to it, it builds a client for the network then, and drops it when it is disposed of.
-/

namespace ScriptSandbox

/-- What an engine finds around it when it is made ready. -/
structure Surroundings where
  /-- Whether there is a reactor that drives tasks. -/
  reactor : Bool := true
  /-- Builds a client for the network, or says why there is none. -/
  client : ModuleSettings → Except String Fetch

namespace Surroundings

/-- What is said where tasks cannot run. -/
def noReactor : String :=
  "there is no reactor running, must be called from the context of a Tokio 1.x runtime"

/-- Surroundings over a network that answers requests. -/
def onNetwork (network : String → Except String Response) : Surroundings where
  client s := .ok (fetchOver network s)

/-- The provider to use: the one there is, or else a new client. -/
def provider (around : Surroundings) (s : ModuleSettings) (present : Option Provider) :
    Except String Provider :=
  match present with
  | some p => .ok p
  | none => (around.client s).map fun fetch => { fetch }

end Surroundings
end ScriptSandbox
