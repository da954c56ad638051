import ScriptSandbox.Guest.Failure
import ScriptSandbox.Machine.State
import ScriptSandbox.Sandbox.Limits

/-!
# What a host asks of a machine

A host does not look into the machine that runs its guest code. `Vm` lists what it asks of one; what
the host does is written for any machine, and can be reasoned about without knowing how one works.
The parts of the state that host and machine share are in the open: the console output, the modules
in memory, the URLs that were asked for, and the rejections that nobody has asked about.
-/

namespace ScriptSandbox

/-- A failure of a machine: the guest threw something, or the host has only words for it. -/
inductive Fault (ν : Type) where
  | thrown (v : ν)
  | host (why : String)
  deriving Inhabited

/-- A machine with what surrounds it. -/
structure World (κ : Type) where
  /-- The machine itself. -/
  core : κ
  host : Host
  /-- Whether rejections are noted. -/
  tracks : Bool := false
  rejections : List Rejection := []
  deriving Inhabited

/-- What becomes of a promise. -/
inductive Settlement (ν : Type) where
  | pending
  | fulfilled (v : ν)
  | rejected (v : ν)
  deriving Inhabited

/-- An operation that changes the world and cannot fail. -/
abbrev Change (κ : Type) : Type → Type := StateM (World κ)

/-- An operation that may fail. -/
abbrev Attempted (κ ν : Type) : Type → Type := ExceptT (Fault ν) (Change κ)

/-- What a host asks of a machine with states `κ` and guest values `ν`. -/
structure Vm (κ ν : Type) where
  /-- Begins with a fresh context, or says why there is no machine. -/
  boot : Limits → Except String κ
  /-- Replaces the context by a fresh one. -/
  renew : Attempted κ ν Unit
  /-- Gives the guest a console that the host keeps. -/
  installConsole : Attempted κ ν Unit
  /-- Gives the guest a console that is recorded from inside, on top of one that keeps nothing. -/
  installRecorder : Attempted κ ν Unit
  /-- Runs a script. -/
  evaluate : String → Attempted κ ν ν
  /-- Begins to import a module; the result is a promise for what it exports. -/
  importModule : String → Attempted κ ν ν
  /-- What has become of a value, if it is a promise. -/
  settlement : World κ → ν → Option (Settlement ν)
  /-- Fails with words if a value is no object. -/
  needObject : ν → Attempted κ ν ν
  /-- What counts as the value of a module: its default export, all its exports, or nothing. -/
  completion : ν → Attempted κ ν ν
  /-- Does the oldest job, if there is one; tells whether there was. -/
  runJob : Change κ Bool
  /-- The text of a value; there is none for undefined. -/
  render : ν → Change κ (Option String)
  /-- Takes apart what was thrown. -/
  classify : ν → Change κ GuestError
  /-- Whether the heap was exhausted since the context was made. -/
  exhausted : World κ → Bool
  /-- How often the interrupt handler was polled. -/
  polls : World κ → Nat
  /-- Whether a run was given up because it seemed not to end. -/
  endless : World κ → Bool
  /-- Lets the next poll of the interrupt handler stop the guest, or not. -/
  setKilled : Bool → Change κ Unit

namespace Vm

variable {κ ν : Type} (vm : Vm κ ν)

/-- How many jobs are done before a host stops to wait for more. -/
def jobLimit : Nat := 1000000000

/-- What is said about a promise that nothing will settle. -/
def deadlock : String := "Error blocking on a promise resulted in a dead lock"

/-- Does jobs until there are none; counts them. -/
def drain : (fuel : Nat) → Change κ Nat
  | 0 => pure 0
  | fuel + 1 => do
    if ← vm.runJob then return (← drain fuel) + 1 else return 0

/-- Does all jobs; counts them. -/
def drainJobs : Change κ Nat := vm.drain jobLimit

/-- Does jobs until a promise is settled. -/
def await : (fuel : Nat) → ν → Attempted κ ν ν
  | 0, _ => throw (.host deadlock)
  | fuel + 1, v => do
    match vm.settlement (← get) v with
    | none => return v
    | some (.fulfilled w) => return w
    | some (.rejected w) => throw (.thrown w)
    | some .pending =>
      if ← vm.runJob then await fuel v else throw (.host deadlock)

/-- What becomes of a value, if it is a promise, or the value itself. -/
def settle (v : ν) : Attempted κ ν ν := vm.await jobLimit v

/-- Imports a module; the result is what it exports. -/
def importWhole (name : String) : Attempted κ ν ν := do
  vm.needObject (← vm.settle (← vm.importModule name))

/-- A failure as the host words it: what was thrown while the heap was exhausted may stand for
that. -/
def guestFailure (e : Fault ν) : Change κ GuestError := do
  let error ← match e with
    | .thrown v => vm.classify v
    | .host why => pure (.text why)
  return if vm.exhausted (← get) then error.onExhaustedHeap else error

end Vm

namespace World

variable {κ : Type}

/-- Registers a module in memory; the result is its name. -/
def register (label source : String) : Change κ String :=
  modifyGet fun w =>
    let (name, inline) := w.host.inline.register label source
    (name, { w with host := { w.host with inline } })

/-- Withdraws a module in memory. -/
def revoke (name : String) : Change κ Unit :=
  modify fun w => { w with host := { w.host with inline := w.host.inline.revoke name } }

/-- Takes the console output. -/
def takeLogs : Change κ (List LogEntry) :=
  modifyGet fun w => (w.host.logs.toList, { w with host := { w.host with logs := #[] } })

/-- Forgets the rejections that were noted. -/
def clearRejections : Change κ Unit := modify fun w => { w with rejections := [] }

/-- Notes rejections from now on. -/
def track : Change κ Unit := modify fun w => { w with tracks := true }

end World
end ScriptSandbox
