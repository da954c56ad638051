import ScriptSandbox.Modules.ImportMap
import ScriptSandbox.Outcome.Basic
import ScriptSandbox.Pace
import ScriptSandbox.Sandbox.Vm

/-!
# Executions in a realm

A realm is a machine that goes on from one execution to the next, while the contexts do not: every
execution has one of its own, and only the import map and the bounds carry over. The code is a
module in memory, registered for this execution and withdrawn after it. A rejection that nobody has
asked about when the jobs are done counts as a failure, unless the code itself has failed.
-/

namespace ScriptSandbox

/-- What a realm is built from. -/
structure RealmConfig where
  limits : Limits
  importMap : ImportMap
  resolver : Resolver
  provider : Provider
  deriving Inhabited

/-- A realm. -/
structure Realm (κ : Type) where
  world : World κ
  /-- Whether no guest code has run in the context. -/
  fresh : Bool := true
  deriving Inhabited

namespace Fault

variable {ν : Type}

/-- The words for a failure of the host's own preparations; what was thrown is not shown. -/
def words : Fault ν → String
  | .thrown _ => "Exception generated by QuickJS"
  | .host why => why

end Fault

namespace Vm

variable {κ ν : Type} (vm : Vm κ ν)

/-- The world of a realm in which nothing has happened. -/
def realmWorld (config : RealmConfig) (core : κ) : World κ where
  core := core
  host :=
    { resolution := .mapped config.importMap config.resolver
      fetch := config.provider.fetch
      requests := config.provider.requests }
  tracks := true

/-- Builds a realm, or says why there is none. The host has not asked it to stop. -/
def buildRealm (config : RealmConfig) : Except String (Realm κ) :=
  match vm.boot { config.limits with killed := false } with
  | .error why => .error why
  | .ok core =>
    match vm.installRecorder.run (realmWorld config core) with
    | (.ok _, world) => .ok { world }
    | (.error e, _) => .error e.words

/-- Makes a context in which no guest code has run, with its console. -/
def prepareContext (fresh : Bool) : Attempted κ ν Unit := do
  if fresh then return
  else
    vm.renew
    vm.installRecorder

/-- Imports a module in memory; the result is the text of its value, or what went wrong. -/
def runModule (name : String) : Change κ (Except GuestError (Option String)) := do
  match ← (vm.importWhole name >>= vm.completion).run with
  | .ok v => return .ok (← vm.render v)
  | .error e => return .error (← vm.guestFailure e)

/-- The outcome of a module: its failure, or the first rejection, or its value. -/
def moduleOutcome (logs : List LogEntry) (r : Except GuestError (Option String))
    (rejections : List Rejection) : Outcome :=
  match r, rejections with
  | .error e, _ => .failed logs e.message
  | .ok _, rejection :: _ => .failed logs rejection.message
  | .ok v, [] => .completed logs v

/-- Runs code in a context that has been made for it, up to the end of the jobs it leaves. -/
def runInContext (code : String) : Change κ Outcome := do
  let name ← World.register "realm" code
  let r ← vm.runModule name
  World.revoke name
  let _ ← vm.drainJobs
  let logs ← World.takeLogs
  return moduleOutcome logs r (← get).rejections

/-- Runs code in a context of its own. -/
def executeIn (fresh : Bool) (code : String) : Change κ Outcome := do
  let _ ← World.takeLogs
  World.clearRejections
  match ← (vm.prepareContext fresh).run with
  | .error e => return .failed [] ("realm context unavailable: " ++ e.words)
  | .ok _ => vm.runInContext code

def executeRealm (code : String) (r : Realm κ) : Outcome × Realm κ :=
  let (outcome, world) := (vm.executeIn r.fresh code).run r.world
  (outcome, ⟨world, false⟩)

end Vm
end ScriptSandbox
