import ScriptSandbox.Realm.Execution

/-!
# Threads of realms

A realm lives on a thread of its own, which does one piece of work after another: it builds the
realm, and then executes what it is sent. What the threads do is a parameter of everything above
them; they may take any time for anything, never end, or die. `Vm.threads` are the threads that
run realms on a machine.

Times are in nanoseconds.
-/

namespace ScriptSandbox

/-- How a piece of work ends. -/
inductive Ending (α : Type) where
  /-- It is done after some time. -/
  | done (span : Nat) (result : α)
  /-- The thread ends after some time. -/
  | death (span : Nat)
  | never
  deriving Inhabited

/-- What threads of realms do, with states `σ`. -/
structure Threads (σ : Type) where
  /-- Starts a thread that builds a realm, or says why there is none. -/
  spawn : RealmConfig → Except String (Ending Unit × σ)
  /-- Executes code. -/
  execute : String → σ → Ending Outcome × σ
  /-- The URLs that have been asked for. -/
  requests : σ → List String

/-- A thread that runs a realm, if the realm could be built. -/
structure RealmThread (κ : Type) where
  realm : Option (Realm κ)
  /-- The URLs that have been asked for. -/
  requests : List String
  deriving Inhabited

namespace Vm

variable {κ ν : Type} (vm : Vm κ ν)

/-- Starts a thread; it ends at once if the realm cannot be built. -/
def startThread (config : RealmConfig) : Ending Unit × RealmThread κ :=
  match vm.buildRealm config with
  | .ok realm =>
    (.done (runNanos (vm.polls realm.world)) (), ⟨some realm, realm.world.host.requests⟩)
  | .error _ => (.death (runNanos 0), ⟨none, config.provider.requests⟩)

/-- Executes code on a thread. -/
def executeOn (code : String) (t : RealmThread κ) : Ending Outcome × RealmThread κ :=
  match t with
  | ⟨none, requests⟩ => (.never, ⟨none, requests⟩)
  | ⟨some realm, _⟩ =>
    let before := vm.polls realm.world
    let (outcome, realm) := vm.executeRealm code realm
    let requests := realm.world.host.requests
    if vm.endless realm.world then (.never, ⟨none, requests⟩)
    else (.done (runNanos (vm.polls realm.world - before)) outcome, ⟨some realm, requests⟩)

/-- The threads that run realms on a machine. -/
def threads : Threads (RealmThread κ) where
  spawn config := .ok (vm.startThread config)
  execute := vm.executeOn
  requests := RealmThread.requests

end Vm
end ScriptSandbox
