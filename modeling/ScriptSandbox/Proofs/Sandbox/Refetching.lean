import ScriptSandbox.Proofs.Machine.Fetching
import ScriptSandbox.Proofs.Sandbox.Likeness
import ScriptSandbox.Proofs.Sandbox.Verdict

/-!
# Which URLs an execution asks for again

Whatever the guest does, modules only come to a machine when they are loaded, statically or by a
dynamic import. A machine of which that is true asks for a URL again only when loading it has failed:
in an execution, as often as it has failed and once more at most (`asked_again_after_failure`). That
is not once in every execution. A guest that imports a module again because it could not be loaded
makes the machine ask for it again, and if there was a source it is in the list of modules twice
(`module_fetched_twice`).
-/

namespace ScriptSandbox

/-! ## Machines that load modules -/

def World.machine (w : World Contexts) : Machine := { w.core.current with host := w.host }

/-- What an operation does to modules is what a run of the machine does; no context is replaced. -/
def Loads {α : Type} (act : Change Contexts α) : Prop :=
  ∀ w, w.core.retired = [] →
    (act.run w).2.core.retired = [] ∧ ∃ failed, w.machine.Run failed (act.run w).2.machine

theorem loads_pure {α : Type} (a : α) : Loads (pure a) := fun _ hnone => ⟨hnone, [], .start⟩

theorem Loads.bind {α β : Type} {act : Change Contexts α} {f : α → Change Contexts β}
    (h : Loads act) (hf : ∀ a, Loads (f a)) : Loads (act >>= f) := by
  intro w hnone
  obtain ⟨hnone', failed, hrun⟩ := h w hnone
  obtain ⟨hnone'', more, hmore⟩ := hf (act.run w).1 (act.run w).2 hnone'
  exact ⟨hnone'', failed ++ more, hrun.trans hmore⟩

theorem loads_loadModule (fuel : Nat) (base s : String) :
    Loads (Contexts.run (Exec.loadModule fuel base s)).run := by
  rintro ⟨⟨m, retired⟩, host, tracks, rejections⟩ hnone
  have hstart : Machine.Run { m with host } [] (Contexts.surrounded m host tracks rejections) :=
    .other .start rfl
  rw [StateT.run, ExceptT.run, Contexts.run, Contexts.runOn]
  simp only
  cases hload : Exec.loadModule fuel base s (Calls.level Library.library Calls.levels)
      (Contexts.surrounded m host tracks rejections) with
  | ok i m' => exact ⟨hnone, _, .other (.loaded hstart hload) rfl⟩
  | error e m' =>
      cases e with
      | thrown v => exact ⟨hnone, _, .other (.failed hstart hload) rfl⟩
      | exhausted => exact ⟨hnone, _, .other (.failed hstart hload) rfl⟩

/-- All that a machine does to modules in an execution is to load them. -/
structure Vm.LoadsModules {ν : Type} (vm : Vm Contexts ν) : Prop where
  boot {l : Limits} {core : Contexts} : vm.boot l = .ok core → core.retired = []
  installConsole : Loads vm.installConsole.run
  evaluate (source : String) : Loads (vm.evaluate source).run
  importModule (name : String) : Loads (vm.importModule name).run
  needObject (v : ν) : Loads (vm.needObject v).run
  completion (v : ν) : Loads (vm.completion v).run
  runJob : Loads vm.runJob
  render (v : ν) : Loads (vm.render v)
  classify (v : ν) : Loads (vm.classify v)

/-- A world to which a run of the machine has led; no context was replaced on the way. -/
def Led (start : Machine) (w : World Contexts) : Prop :=
  w.core.retired = [] ∧ ∃ failed, start.Run failed w.machine

section Led

variable {ν α : Type} {start : Machine} {act : Change Contexts α}

theorem Loads.led (h : Loads act) (w : World Contexts) (hw : Led start w) :
    Led start (act.run w).2 := by
  obtain ⟨hnone, failed, hrun⟩ := hw
  obtain ⟨hnone', more, hmore⟩ := h w hnone
  exact ⟨hnone', failed ++ more, hrun.trans hmore⟩

/-- What has nothing to do with modules leads nowhere else. -/
theorem Led.still {w w' : World Contexts} (hw : Led start w) (hcore : w'.core = w.core)
    (hfetching : w'.machine.fetching = w.machine.fetching) : Led start w' := by
  obtain ⟨hnone, failed, hrun⟩ := hw
  exact ⟨hcore ▸ hnone, failed, .other hrun hfetching⟩

theorem follows_register (label source : String) :
    (Likeness.same ν (Led start)).Follows Eq (World.register label source)
      (World.register label source) :=
  .same fun _ hw => hw.still rfl rfl

theorem follows_revoke (name : String) :
    (Likeness.same ν (Led start)).Follows Eq (World.revoke name) (World.revoke name) :=
  .same fun _ hw => hw.still rfl rfl

end Led

namespace Vm.LoadsModules

variable {ν : Type} {vm : Vm Contexts ν} (h : vm.LoadsModules)
include h

theorem preserves (start : Machine) : vm.Preserves (Led start) where
  importModule name := (h.importModule name).led
  needObject v := (h.needObject v).led
  completion v := (h.completion v).led
  runJob := h.runJob.led
  render v := (h.render v).led
  classify v := (h.classify v).led

theorem complete (start : Machine) (asModule : Bool) (source : String) :
    (Likeness.same ν (Led start)).Attempts Eq (vm.complete asModule source)
      (vm.complete asModule source) := by
  have hrespects := (h.preserves start).respects
  cases asModule with
  | false =>
      refine (Likeness.Attempts.same (h.evaluate source).led).bind fun v _ hv => ?_
      exact hrespects.await hv jobLimit
  | true =>
      refine Likeness.Follows.bind (follows_register "main" source) fun name _ hname => ?_
      subst hname
      refine Likeness.Follows.bind (hrespects.importWhole name) fun r r' hr => ?_
      refine Likeness.Follows.bind (follows_revoke name) fun _ _ _ => ?_
      cases hr with
      | ok hv => exact hrespects.completion hv
      | error he => exact .pure (.error he)

theorem runSource (start : Machine) (asModule : Bool) (source : String) :
    (Likeness.same ν (Led start)).Follows Eq (vm.runSource asModule source)
      (vm.runSource asModule source) := by
  have hrespects := (h.preserves start).respects
  refine Likeness.Follows.bind (h.complete start asModule source) fun r r' hr => ?_
  cases hr with
  | ok hv =>
      refine Likeness.Follows.bind (hrespects.drain jobLimit) fun _ _ _ => ?_
      exact (hrespects.render hv).bind fun _ _ ht => .pure (congrArg Except.ok ht)
  | error he => exact (hrespects.guestFailure he).bind fun _ _ ht => .pure (congrArg Except.error ht)

/-- Whatever is executed, a run of the machine leads to where it ends. -/
theorem runWithConsole (start : Machine) (asModule : Bool) (source : String) :
    (Likeness.same ν (Led start)).Follows Eq (vm.runWithConsole asModule source)
      (vm.runWithConsole asModule source) := by
  refine Likeness.Follows.bind (Likeness.Attempts.same h.installConsole.led) fun r r' hr => ?_
  cases hr with
  | ok _ => exact h.runSource start asModule source
  | error he =>
      refine ((h.preserves start).respects.guestFailure he).bind fun _ _ ht => ?_
      exact .pure (congrArg Except.error ht)

end Vm.LoadsModules

/-! ## A module that is imported again -/

namespace Retrier

open Exec

/-- A script that imports a module, and imports it again if that fails. -/
def script : String := "import('module').catch(() => import('module')).catch(() => 'gone')"

/-- The script is run where there are some modules. -/
def request (table : ModuleTable) : EvalRequest where
  source := script
  limits := .ofInterpreter {}
  resolver := .ofSettings {}
  provider := { fetch := table.fetch }

theorem script_is_script : Scan.hasModuleSyntax script = .ok false :=
  Vm.ok_of_toOption (by decide +kernel)

/-- Loads the module that the script imports. -/
def load : Change Contexts (Except (Fault Value) Nat) :=
  (Contexts.run (loadModule exportLimit Contexts.scriptName "module")).run

/-- A machine without a library, on which nothing has run. -/
def core (l : Limits) : Contexts := ⟨{ stackLimit := some l.maxStackSize }, []⟩

/-- What a host asks of a machine for this script. -/
def vm : Vm Contexts String where
  boot l := .ok (core l)
  renew := pure ()
  installConsole := pure ()
  installRecorder := pure ()
  evaluate _ := ExceptT.mk do
    match ← load with
    | .ok _ => return .ok "module"
    | .error _ =>
      match ← load with
      | .ok _ => return .ok "module"
      | .error _ => return .ok "gone"
  importModule _ := throw (.host "no modules")
  settlement _ _ := none
  needObject v := pure v
  completion v := pure v
  runJob := pure false
  render v := pure (some v)
  classify v := pure (.text v)
  exhausted _ := false
  polls w := w.core.current.interrupts.polls
  endless _ := false
  setKilled _ := pure ()

theorem loadsModules : vm.LoadsModules where
  boot := by
    rintro l _ ⟨⟩
    rfl
  installConsole := loads_pure _
  evaluate _ := by
    refine (loads_loadModule _ _ _).bind fun r => ?_
    cases r with
    | ok _ => exact loads_pure _
    | error _ => exact (loads_loadModule _ _ _).bind fun r => by cases r <;> exact loads_pure _
  importModule _ := loads_pure _
  needObject _ := loads_pure _
  completion _ := loads_pure _
  runJob := loads_pure _
  render _ := loads_pure _
  classify _ := loads_pure _

end Retrier

/-! ## Executions -/

def Vm.endWorld {κ ν : Type} (vm : Vm κ ν) (asModule : Bool) (r : EvalRequest) (core : κ) : World κ :=
  ((vm.runWithConsole asModule r.source).run (startWorld r core)).2

/-- If there is a machine and the source can be told to be a script or a module, there is an outcome.
All that was asked for on the way was asked for by loads of modules, and a URL was asked for as often
as such a load has failed on it or once more, whatever the guest does and whatever modules there are.
The list of modules has those for which there was a source; so none is in it more often than that. -/
theorem asked_again_after_failure {ν : Type} {vm : Vm Contexts ν} (hvm : vm.LoadsModules)
    {r : EvalRequest} {core : Contexts} {asModule : Bool} (hboot : vm.boot r.limits = .ok core)
    (hmode : Scan.hasModuleSyntax r.source = .ok asModule) :
    ∃ o, vm.execute r = .ok o ∧
      (∃ failed, (Vm.startWorld r core).machine.Run failed (vm.endWorld asModule r core).machine) ∧
      ∀ failed,
        (Vm.startWorld r core).machine.Run failed (vm.endWorld asModule r core).machine →
        ∃ asked, o.requests = r.provider.requests ++ asked ∧
          o.modules = asked.filter (fun url => (r.provider.fetch url).isOk) ∧
          ∀ url, failed.count url ≤ asked.count url ∧ asked.count url ≤ failed.count url + 1 ∧
            o.modules.count url ≤ failed.count url + 1 := by
  have hexecute := Vm.execute_eq hboot hmode (w := vm.endWorld asModule r core) rfl
  refine ⟨_, hexecute, ?_, fun failed hrun => ?_⟩
  · have hstart : Led (Vm.startWorld r core).machine (Vm.startWorld r core) :=
      ⟨hvm.boot hboot, [], .start⟩
    exact (hvm.runWithConsole _ asModule r.source _ _ ⟨rfl, hstart⟩).2.2.2
  · obtain ⟨asked, hcourse⟩ := hrun.course
    have hmodules : (vm.endWorld asModule r core).host.loaded =
        asked.filter fun url => (r.provider.fetch url).isOk := hcourse.loaded
    refine ⟨asked, hcourse.requests, hmodules, fun url => ?_⟩
    refine ⟨hcourse.failed_le url, hcourse.count_le url, ?_⟩
    simp only [hmodules]
    exact (List.filter_sublist.count_le url).trans (hcourse.count_le url)

/-- The script is run where there is no module: it asks for the module twice, the first time in
vain. -/
theorem asked_again_after_failure_retried :
    let r := Retrier.request []
    Retrier.vm.LoadsModules ∧ Scan.hasModuleSyntax r.source = .ok false ∧
      ∃ o failed, Retrier.vm.execute r = .ok o ∧
        (Vm.startWorld r (Retrier.core r.limits)).machine.Run failed
          (Retrier.vm.endWorld false r (Retrier.core r.limits)).machine ∧
        o.requests = ["https://esm.sh/module", "https://esm.sh/module"] ∧
        "https://esm.sh/module" ∈ failed := by
  have hscript : Scan.hasModuleSyntax (Retrier.request []).source = .ok false :=
    Retrier.script_is_script
  obtain ⟨o, hexecute, ⟨failed, hrun⟩, hlaw⟩ :=
    asked_again_after_failure Retrier.loadsModules rfl hscript
  have hrequests : (Retrier.vm.execute (Retrier.request [])).toOption.map (·.requests) =
      some ["https://esm.sh/module", "https://esm.sh/module"] := by decide +kernel
  rw [hexecute] at hrequests
  have hrequests : o.requests = _ := Option.some.inj hrequests
  refine ⟨Retrier.loadsModules, hscript, o, failed, hexecute, hrun, hrequests, ?_⟩
  obtain ⟨asked, hasked, -, hcount⟩ := hlaw failed hrun
  have hboth : asked = o.requests := hasked.symm
  have htwice := (hcount "https://esm.sh/module").2.1
  rw [hboth, hrequests] at htwice
  exact List.count_pos_iff.mp (Nat.le_of_succ_le_succ htwice)

/-- Whether no execution asks for a URL twice, or has one twice in the list of its modules. -/
def Vm.FetchesOnce {κ ν : Type} (vm : Vm κ ν) : Prop :=
  ∀ r o, r.provider.requests = [] → vm.execute r = .ok o → o.requests.Nodup ∧ o.modules.Nodup

/-- It is not so where the source of the module cannot be read: it is asked for twice, and is in the
list twice. -/
theorem module_fetched_twice : Retrier.vm.LoadsModules ∧ ¬ Retrier.vm.FetchesOnce := by
  refine ⟨Retrier.loadsModules, fun honce => ?_⟩
  have hlists : (Retrier.vm.execute
      (Retrier.request [("https://esm.sh/module", "export default = ;")])).toOption.map
        (fun o => (o.requests, o.modules)) =
      some (["https://esm.sh/module", "https://esm.sh/module"],
        ["https://esm.sh/module", "https://esm.sh/module"]) := by decide +kernel
  obtain ⟨o, ho, hlists⟩ := Option.map_eq_some_iff.mp hlists
  have hnodup := (honce _ o rfl (Vm.ok_of_toOption ho)).1
  rw [show o.requests = _ from congrArg (·.1) hlists] at hnodup
  exact absurd hnodup (by decide)

end ScriptSandbox
