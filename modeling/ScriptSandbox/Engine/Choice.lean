import ScriptSandbox.Engine.Interpreter
import ScriptSandbox.Engine.Realm

/-!
# An engine of either kind

The two engines can be used in the same way: made ready, asked to execute sources, and disposed of.
-/

namespace ScriptSandbox

/-- An engine of either kind. -/
inductive Engine (κ : Type) where
  | interpreter (e : InterpreterEngine)
  | realm (e : RealmEngine (RealmThread κ))
  deriving Inhabited

namespace Engine

variable {κ ν : Type}

def new (kind : EngineKind) (s : Settings) : Engine κ :=
  match kind with
  | .interpreter => .interpreter (.new s)
  | .realm => .realm (.new s)

/-- Lets an engine take its modules from a provider. -/
def withProvider (p : Provider) : Engine κ → Engine κ
  | .interpreter e => .interpreter (e.withProvider p)
  | .realm e => .realm (e.withProvider p)

def kind : Engine κ → EngineKind
  | .interpreter _ => .interpreter
  | .realm _ => .realm

def isReady : Engine κ → Bool
  | .interpreter e => e.ready
  | .realm e => e.ready

/-- What serves the modules of an engine. -/
def provider : Engine κ → Option Provider
  | .interpreter e => e.provider
  | .realm e => e.provider

/-- Makes an engine ready, unless it is. -/
def prepare (vm : Vm κ ν) (around : Surroundings) :
    Engine κ → Except EngineError Unit × Engine κ
  | .interpreter e => (e.prepare vm around).map id .interpreter
  | .realm e => (e.prepare vm.threads around).map id .realm

def execute (vm : Vm κ ν) (source : String) : Engine κ → Except EngineError Outcome × Engine κ
  | .interpreter e => (e.execute vm source).map id .interpreter
  | .realm e => (e.execute vm.threads source).map id .realm

/-- Lets go of what an engine has made for itself. -/
def dispose : Engine κ → Engine κ
  | .interpreter e => .interpreter e.dispose
  | .realm e => .realm e.dispose

end Engine
end ScriptSandbox
