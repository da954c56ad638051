import ScriptSandbox.Engine.Error
import ScriptSandbox.Engine.Kind
import ScriptSandbox.Engine.Surroundings
import ScriptSandbox.Metrics.Counter
import ScriptSandbox.Metrics.Timer
import ScriptSandbox.Pace
import ScriptSandbox.Sandbox.Evaluate

/-!
# The interpreter engine

Every execution has a machine of its own, so nothing that the guest does outlasts the call; the
engine keeps settings, the provider of modules, and what it has measured. It has to be made ready
before the first execution, which fails early if there can be no machine.
-/

namespace ScriptSandbox

/-- An engine that makes a machine for every execution. -/
structure InterpreterEngine where
  settings : InterpreterSettings
  modules : ModuleSettings
  provider : Option Provider := none
  /-- Whether the provider was handed to the engine, which then keeps it. -/
  injected : Bool := false
  ready : Bool := false
  timer : Timer := {}
  counter : Counter := {}
  deriving Inhabited

namespace InterpreterEngine

variable {κ ν : Type}

def new (s : Settings) : InterpreterEngine where
  settings := s.interpreter
  modules := s.modules

/-- Lets the engine take its modules from a provider. -/
def withProvider (e : InterpreterEngine) (p : Provider) : InterpreterEngine :=
  { e with provider := some p, injected := true }

/-- How many executions there have been. -/
def executions (e : InterpreterEngine) : Nat := e.counter.get "executions"

/-- The bounds of a machine. -/
def limits (e : InterpreterEngine) : Limits := .ofInterpreter e.settings

/-- Where specifiers lead. -/
def resolver (e : InterpreterEngine) : Resolver := .ofSettings e.modules

/-- Makes the engine ready, unless it is. -/
def prepare (vm : Vm κ ν) (around : Surroundings) (e : InterpreterEngine) :
    Except EngineError Unit × InterpreterEngine :=
  if e.ready then (.ok (), e)
  else if !around.reactor then (.error (.initialization Surroundings.noReactor), e)
  else
    match around.provider e.modules e.provider with
    | .error why => (.error (.initialization why), e)
    | .ok p =>
      let e := { e with provider := some p }
      match vm.boot e.limits with
      | .error why => (.error (.initialization why), e)
      | .ok _ => (.ok (), { e with ready := true })

/-- Counts one execution that took some time. -/
def measured (span : Nat) (e : InterpreterEngine) : InterpreterEngine :=
  { e with
    timer := (e.timer.begin (.ofNanos 0)).finish (.ofNanos span)
    counter := e.counter.increment "executions" 1 }

def countFailure (e : InterpreterEngine) : InterpreterEngine :=
  { e with counter := e.counter.increment "guest_errors" 1 }

/-- Keeps what an execution has left. -/
def conclude (e : InterpreterEngine) (p : Provider) (o : EvalOutcome) : InterpreterEngine :=
  let e := e.measured (runNanos o.interrupts)
  let e :=
    { e with
      provider := some { p with requests := o.requests }
      counter := e.counter.increment "module_fetches" o.modules.length }
  if o.result.isError then e.countFailure else e

def execute (vm : Vm κ ν) (source : String) (e : InterpreterEngine) :
    Except EngineError Outcome × InterpreterEngine :=
  match e.ready, e.provider with
  | true, some p =>
    match vm.execute { source, limits := e.limits, resolver := e.resolver, provider := p } with
    | .ok o => (.ok o.result, e.conclude p o)
    | .error (.unallocated why) => (.ok (.failed [] why), (e.measured (runNanos 0)).countFailure)
    | .error (.undecided _) => (.error (.crashed "task panicked"), e.measured (runNanos 0))
  | _, _ => (.error .notReady, e)

/-- Lets go of what the engine has made for itself. -/
def dispose (e : InterpreterEngine) : InterpreterEngine :=
  if !e.ready then e
  else { e with ready := false, provider := if e.injected then e.provider else none }

end InterpreterEngine
end ScriptSandbox
