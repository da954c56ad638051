import ScriptSandbox.Settings

/-!
# Limits of a sandbox

How much memory, stack and time guest code may take. Time is counted in polls of the interrupt
handler; without a budget only the host can stop the guest.
-/

namespace ScriptSandbox

/-- The bounds of a sandbox. -/
structure Limits where
  /-- Bytes of heap, on top of what the sandbox itself takes. -/
  memoryLimit : Nat
  maxStackSize : Nat
  interruptBudget : Option Nat
  /-- Whether the host has asked the guest to stop. -/
  killed : Bool := false
  deriving DecidableEq, Repr, Inhabited

namespace Limits

def ofInterpreter (s : InterpreterSettings) : Limits :=
  ⟨s.memoryLimit, s.maxStackSize, some s.interruptBudget, false⟩

def ofRealm (s : RealmSettings) : Limits := ⟨s.memoryLimit, s.maxStackSize, none, false⟩

end Limits
end ScriptSandbox
