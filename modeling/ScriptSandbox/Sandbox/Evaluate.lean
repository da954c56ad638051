import ScriptSandbox.Outcome.Basic
import ScriptSandbox.Sandbox.Vm
import ScriptSandbox.Scan.ModuleSyntax

/-!
# One execution

A source is run on a machine of its own: as a module if it has the syntax of one, and as a script
otherwise. Jobs that the guest has left behind still run, and still print; then the value is
rendered.
-/

namespace ScriptSandbox

/-- What an execution needs. -/
structure EvalRequest where
  source : String
  limits : Limits
  resolver : Resolver
  provider : Provider

/-- What an execution leaves. -/
structure EvalOutcome where
  result : Outcome
  /-- The URLs of the modules that were fetched, in the order of the requests. -/
  modules : List String
  /-- The URLs that have been asked for. -/
  requests : List String
  /-- How often the interrupt handler was polled. -/
  interrupts : Nat
  deriving Inhabited

/-- Why an execution gives no outcome. -/
inductive EvalFailure where
  /-- There is no machine. -/
  | unallocated (why : String)
  /-- It cannot be told whether the source is a module. -/
  | undecided (e : Scan.SplitCharacter)

namespace Vm

variable {κ ν : Type} (vm : Vm κ ν)

/-- Imports a source as a module, up to its value. -/
def completeModule (source : String) : Attempted κ ν ν := ExceptT.mk do
  let name ← World.register "main" source
  let whole ← (vm.importWhole name).run
  World.revoke name
  match whole with
  | .ok v => (vm.completion v).run
  | .error e => return .error e

/-- Runs a source up to its value. -/
def complete (asModule : Bool) (source : String) : Attempted κ ν ν := do
  if asModule then vm.completeModule source else vm.settle (← vm.evaluate source)

/-- Runs a source; the result is the text of its value, or what went wrong. -/
def runSource (asModule : Bool) (source : String) :
    Change κ (Except GuestError (Option String)) := do
  match ← (vm.complete asModule source).run with
  | .ok v =>
    let _ ← vm.drainJobs
    return .ok (← vm.render v)
  | .error e => return .error (← vm.guestFailure e)

/-- Gives the guest a console and runs a source. -/
def runWithConsole (asModule : Bool) (source : String) :
    Change κ (Except GuestError (Option String)) := do
  match ← vm.installConsole.run with
  | .ok _ => vm.runSource asModule source
  | .error e => return .error (← vm.guestFailure e)

def outcomeOf (logs : List LogEntry) (r : Except GuestError (Option String)) : Outcome :=
  match r with
  | .ok v => .completed logs v
  | .error e => .failed logs e.message

/-- Runs a source on a machine of its own. -/
def execute (r : EvalRequest) : Except EvalFailure EvalOutcome :=
  match vm.boot r.limits, Scan.hasModuleSyntax r.source with
  | .error why, _ => .error (.unallocated why)
  | .ok _, .error e => .error (.undecided e)
  | .ok core, .ok asModule =>
    let world : World κ :=
      { core
        host :=
          { resolution := .network r.resolver
            fetch := r.provider.fetch
            requests := r.provider.requests } }
    let (result, w) := (vm.runWithConsole asModule r.source).run world
    .ok
      { result := outcomeOf w.host.logs.toList result
        modules := w.host.loaded
        requests := w.host.requests
        interrupts := vm.polls w }

end Vm
end ScriptSandbox
