import ScriptSandbox.Proofs.Realm.Exhaustion
import ScriptSandbox.Proofs.Sandbox.Likeness

/-!
# Executions in one realm do not see each other

A realm goes on from one execution to the next, whatever came of the last one. What an earlier guest
has left is out of sight all the same: guest code begins in a context that has just been made, with
its console and nothing else, and with no module registered but its own (`Clean`). Preparations that
fail leave the realm in a state from which the next ones begin anew.

So an earlier guest could be noticed only if a context that has just been made could be told from the
first one of a realm. Where guest code cannot do that, it comes to the outcome that it would have had
in a new realm (`executions_independent`). Two things differ that the guest has no part in: the times
of its console output, and the number in the name of its module.
-/

namespace ScriptSandbox

attribute [ext] InlineModules

/-! ## The history of a realm -/

namespace Vm

variable {κ ν : Type}

/-- The realms that there may be: a new one, and what any execution leaves of one. -/
inductive RealmReached (vm : Vm κ ν) (config : RealmConfig) : Realm κ → Prop where
  | built {r : Realm κ} (new : vm.buildRealm config = .ok r) : RealmReached vm config r
  | executed {r : Realm κ} (before : RealmReached vm config r) (code : String) :
      RealmReached vm config (vm.executeRealm code r).2

/-- A machine whose context has just been made: that of a new machine, or one that takes the place
of another. Nothing has run in it but what gives it the console. -/
inductive Furnished (vm : Vm κ ν) (config : RealmConfig) : κ → Prop where
  | first {core : κ} {w : World κ} (boot : vm.boot { config.limits with killed := false } = .ok core)
      (console : vm.installRecorder.run.run (realmWorld config core) = (.ok (), w)) :
      Furnished vm config w.core
  | renewed {w w' w'' : World κ} (renew : vm.renew.run.run w = (.ok (), w'))
      (console : vm.installRecorder.run.run w' = (.ok (), w'')) : Furnished vm config w''.core

/-- The world in which guest code begins: a context that has just been made, no console output, no
rejections, and one registered module. -/
structure Clean (vm : Vm κ ν) (config : RealmConfig) (name code : String) (w : World κ) : Prop where
  furnished : vm.Furnished config w.core
  logs : w.host.logs = #[]
  rejections : w.rejections = []
  sources : w.host.inline.sources = [(name, code)]

/-- Makes a context for an execution in a realm, if it needs another one. -/
def preparation (vm : Vm κ ν) (r : Realm κ) : Except (Fault ν) Unit × World κ :=
  (vm.prepareContext r.fresh).run.run (cleared r.world)

/-- What every execution leaves as it was when the realm was built. -/
structure Tidy (config : RealmConfig) (w : World κ) : Prop where
  resolution : w.host.resolution = .mapped config.importMap config.resolver
  fetch : w.host.fetch = config.provider.fetch
  reading : w.host.reading = ({} : Host).reading
  sources : w.host.inline.sources = []
  tracks : w.tracks = true

theorem Tidy.cleared {config : RealmConfig} {w : World κ} (h : Tidy config w) :
    Tidy config (cleared w) := ⟨h.resolution, h.fetch, h.reading, h.sources, h.tracks⟩

theorem Tidy.confined {config : RealmConfig} {w w' : World κ} (h : Tidy config w)
    (hw : Confined w w') : Tidy config w' where
  resolution := hw.resolution.trans h.resolution
  fetch := hw.fetch.trans h.fetch
  reading := hw.reading.trans h.reading
  sources := List.sublist_nil.mp (h.sources ▸ hw.sources)
  tracks := hw.tracks.trans h.tracks

variable {vm : Vm κ ν} {config : RealmConfig} {code : String}

/-! ## Preparations -/

theorem buildRealm_ok {r : Realm κ} (new : vm.buildRealm config = .ok r) :
    ∃ core, vm.boot { config.limits with killed := false } = .ok core ∧
      vm.installRecorder.run.run (realmWorld config core) = (.ok (), r.world) ∧
      r.fresh = true := by
  rw [buildRealm] at new
  split at new
  · cases new
  · next core hboot =>
      split at new
      · next w hconsole =>
          obtain rfl := Except.ok.inj new
          exact ⟨core, hboot, hconsole, rfl⟩
      · cases new

/-- A realm in whose context no guest code has run is a new one. -/
theorem RealmReached.new_of_fresh {r : Realm κ} (h : vm.RealmReached config r)
    (hfresh : r.fresh = true) : vm.buildRealm config = .ok r := by
  cases h with
  | built new => exact new
  | executed before code => cases hfresh

/-- A context that has run guest code is replaced by one that is given the console; the first one is
as it is. -/
theorem prepareContext_ok {fresh : Bool} {w ready : World κ}
    (hready : (vm.prepareContext fresh).run.run w = (.ok (), ready)) :
    fresh = true ∧ ready = w ∨ fresh = false ∧ ∃ w', vm.renew.run.run w = (.ok (), w') ∧
      vm.installRecorder.run.run w' = (.ok (), ready) := by
  cases fresh with
  | true => exact .inl ⟨rfl, (Prod.mk.inj hready).2.symm⟩
  | false =>
      refine .inr ⟨rfl, ?_⟩
      change (vm.renew >>= fun _ => vm.installRecorder).run.run w = _ at hready
      rw [Attempted.run_bind] at hready
      rcases hrenew : vm.renew.run.run w with ⟨_ | ⟨⟩, w'⟩
      · rw [hrenew] at hready
        cases hready
      · rw [hrenew] at hready
        exact ⟨w', rfl, hready⟩

namespace Confines

variable (h : vm.Confines)
include h

theorem prepareContext (fresh : Bool) (w : World κ) :
    Confined w ((vm.prepareContext fresh).run.run w).2 := by
  cases fresh with
  | true => exact .refl w
  | false =>
      change Confined w ((vm.renew >>= fun _ => vm.installRecorder).run.run w).2
      rw [Attempted.run_bind]
      have hrenew := h.renew w
      rcases hresult : vm.renew.run.run w with ⟨_ | ⟨⟩, w'⟩
      · rwa [hresult] at hrenew
      · rw [hresult] at hrenew
        exact hrenew.trans (h.installRecorder w')

theorem prepareContext_silent {fresh : Bool} {w ready : World κ}
    (hready : (vm.prepareContext fresh).run.run w = (.ok (), ready)) :
    ready.host.logs = w.host.logs ∧ ready.rejections = w.rejections := by
  rcases prepareContext_ok hready with ⟨-, rfl⟩ | ⟨-, w', hrenew, hconsole⟩
  · exact ⟨rfl, rfl⟩
  · have hrenewed := h.renew_silent w
    have hfurnished := h.installRecorder_silent w'
    rw [hrenew] at hrenewed
    rw [hconsole] at hfurnished
    exact ⟨hfurnished.1.trans hrenewed.1, hfurnished.2.trans hrenewed.2⟩

end Confines

theorem run_executeIn_of_error {fresh : Bool} {e : Fault ν} {w failed : World κ}
    (hfailed : (vm.prepareContext fresh).run.run (cleared w) = (.error e, failed)) :
    (vm.executeIn fresh code).run w =
      (.failed [] ("realm context unavailable: " ++ e.words), failed) := by
  rw [cleared] at hfailed
  simp only [executeIn, StateT.run_bind]
  simp only [bind, hfailed]
  rfl

theorem executeRealm_of_ready (code : String) {r : Realm κ} {ready : World κ}
    (hready : vm.preparation r = (.ok (), ready)) :
    vm.executeRealm code r =
      (((vm.runInContext code).run ready).1, ⟨((vm.runInContext code).run ready).2, false⟩) := by
  rw [executeRealm, run_executeIn hready]
  rfl

theorem executeRealm_of_fresh (code : String) {r : Realm κ} (hfresh : r.fresh = true) :
    vm.executeRealm code r =
      (((vm.runInContext code).run (cleared r.world)).1,
        ⟨((vm.runInContext code).run (cleared r.world)).2, false⟩) :=
  executeRealm_of_ready code (by rw [preparation, hfresh]; rfl)

/-! ## Executions -/

theorem register_sources (label source : String) {w : World κ}
    (hnone : w.host.inline.sources = []) :
    ((World.register label source).run w).2.host.inline.sources =
      [(((World.register label source).run w).1, source)] := by
  change w.host.inline.sources.put _ source = _
  rw [hnone]
  rfl

/-- Nothing is left of what was taken from a single module when its name has been withdrawn. -/
theorem erase_of_sublist {sources : Assoc String} {name source : String}
    (h : sources.Sublist [(name, source)]) : sources.erase name = [] := by
  have hnone := h.filter (·.1 != name)
  simpa [Assoc.erase] using hnone

/-- A machine that respects a likeness does so when it runs a module to its end. -/
theorem Respects.runModule {L : Likeness κ ν} (h : vm.Respects L) (name : String) :
    L.Follows Eq (vm.runModule name) (vm.runModule name) := by
  have hvalue : L.Attempts L.value (vm.importWhole name >>= vm.completion)
      (vm.importWhole name >>= vm.completion) :=
    (h.importWhole name).bind fun _ _ hv => h.completion hv
  refine Likeness.Follows.bind hvalue fun r r' hr => ?_
  cases hr with
  | ok hv => exact (h.render hv).bind fun _ _ ht => .pure (congrArg Except.ok ht)
  | error he => exact (h.guestFailure he).bind fun _ _ ht => .pure (congrArg Except.error ht)

namespace Confines

variable (h : vm.Confines)
include h

theorem runModule (name : String) (w : World κ) : Confined w ((vm.runModule name).run w).2 :=
  ((h.respects w).runModule name w w ⟨rfl, .refl w⟩).2.2

theorem drainJobs (w : World κ) : Confined w (vm.drainJobs.run w).2 :=
  ((h.respects w).drain jobLimit w w ⟨rfl, .refl w⟩).2.2

/-- An execution takes back the module that it has registered, if the guest has not taken it. -/
theorem runInContext {w : World κ} (hw : Tidy config w) :
    Tidy config ((vm.runInContext code).run w).2 := by
  rw [run_runInContext]
  have hrun := h.runModule ((World.register "realm" code).run w).1
    ((World.register "realm" code).run w).2
  have hsources := hrun.sources
  rw [register_sources "realm" code hw.sources] at hsources
  have hrevoked : Tidy config
      ((World.revoke ((World.register "realm" code).run w).1).run _).2 :=
    { resolution := hrun.resolution.trans hw.resolution
      fetch := hrun.fetch.trans hw.fetch
      reading := hrun.reading.trans hw.reading
      sources := erase_of_sublist hsources
      tracks := hrun.tracks.trans hw.tracks }
  have hdrained := hrevoked.confined (h.drainJobs _)
  exact ⟨hdrained.resolution, hdrained.fetch, hdrained.reading, hdrained.sources, hdrained.tracks⟩

theorem executeIn {fresh : Bool} {w : World κ} (hw : Tidy config w) :
    Tidy config ((vm.executeIn fresh code).run w).2 := by
  have hprepared := hw.cleared.confined (h.prepareContext fresh (cleared w))
  rcases hready : (vm.prepareContext fresh).run.run (cleared w) with ⟨e | ⟨⟩, w'⟩
  · rw [hready] at hprepared
    rwa [run_executeIn_of_error hready]
  · rw [hready] at hprepared
    rw [run_executeIn hready]
    exact h.runInContext hprepared

theorem reached_tidy {r : Realm κ} (hreached : vm.RealmReached config r) : Tidy config r.world := by
  induction hreached with
  | built new =>
      obtain ⟨core, -, hconsole, -⟩ := buildRealm_ok new
      have hconfined := h.installRecorder (realmWorld config core)
      rw [hconsole] at hconfined
      exact Tidy.confined ⟨rfl, rfl, rfl, rfl, rfl⟩ hconfined
  | executed before code ih => exact h.executeIn ih

end Confines

/-- When the context for an execution has been made, guest code begins in a clean world. -/
theorem clean_of_ready (h : vm.Confines) {r : Realm κ} (hreached : vm.RealmReached config r)
    {ready : World κ} (hready : vm.preparation r = (.ok (), ready)) :
    vm.Clean config ((World.register "realm" code).run ready).1 code
      ((World.register "realm" code).run ready).2 := by
  have hsilent := h.prepareContext_silent hready
  have hprepared :=
    (h.reached_tidy hreached).cleared.confined (h.prepareContext r.fresh (cleared r.world))
  rw [show (vm.prepareContext r.fresh).run.run (cleared r.world) = _ from hready] at hprepared
  refine ⟨?_, hsilent.1, hsilent.2, register_sources "realm" code hprepared.sources⟩
  rcases prepareContext_ok hready with ⟨hfresh, rfl⟩ | ⟨-, w', hrenew, hconsole⟩
  · obtain ⟨core, hboot, hconsole, -⟩ := buildRealm_ok (hreached.new_of_fresh hfresh)
    have hfirst : vm.Furnished config r.world.core := .first hboot hconsole
    exact hfirst
  · have hrenewed : vm.Furnished config ready.core := .renewed hrenew hconsole
    exact hrenewed

end Vm

/-! ## What guest code can tell apart -/

/-- An entry without the time at which it was made. -/
def LogEntry.untimed (e : LogEntry) : LogEntry := { e with timestamp := 0 }

/-- An outcome without the times of its console output. -/
def Outcome.untimed (o : Outcome) : Outcome := { o with logs := o.logs.map LogEntry.untimed }

/-- Which machines guest code cannot tell apart, together with the rejections that were noted, and
which values. -/
structure Resemblance (κ ν : Type) where
  inside : κ → List Rejection → κ → List Rejection → Prop
  value : ν → ν → Prop
  /-- What was noted has the same words. -/
  words {core core' : κ} {noted noted' : List Rejection} :
    inside core noted core' noted' → noted.map (·.message) = noted'.map (·.message)

namespace Resemblance

variable {κ ν : Type} (S : Resemblance κ ν)

/-- Worlds that guest code cannot tell apart: their machines are such, and what surrounds them is
the same, but for the times of the console output. -/
structure Alike (w w' : World κ) : Prop where
  inside : S.inside w.core w.rejections w'.core w'.rejections
  resolution : w.host.resolution = w'.host.resolution
  fetch : w.host.fetch = w'.host.fetch
  reading : w.host.reading = w'.host.reading
  inline : w.host.inline = w'.host.inline
  logs : w.host.logs.toList.map LogEntry.untimed = w'.host.logs.toList.map LogEntry.untimed
  tracks : w.tracks = w'.tracks

def likeness : Likeness κ ν where
  world := S.Alike
  value := S.value

variable {S}

/-! ### What the host does -/

theorem register (label source : String) :
    S.likeness.Follows Eq (World.register label source) (World.register label source) := by
  intro w w' hw
  have hsame : w.host.inline.register label source = w'.host.inline.register label source := by
    rw [hw.inline]
  exact ⟨congrArg (·.1) hsame, hw.inside, hw.resolution, hw.fetch, hw.reading,
    congrArg (·.2) hsame, hw.logs, hw.tracks⟩

theorem revoke (name : String) :
    S.likeness.Follows Eq (World.revoke name) (World.revoke name) := by
  intro w w' hw
  have hsame : w.host.inline.revoke name = w'.host.inline.revoke name := by rw [hw.inline]
  exact ⟨rfl, hw.inside, hw.resolution, hw.fetch, hw.reading, hsame, hw.logs, hw.tracks⟩

theorem takeLogs : S.likeness.Follows
    (fun logs logs' => logs.map LogEntry.untimed = logs'.map LogEntry.untimed)
    World.takeLogs World.takeLogs :=
  fun _ _ hw =>
    ⟨hw.logs, hw.inside, hw.resolution, hw.fetch, hw.reading, hw.inline, rfl, hw.tracks⟩

end Resemblance

namespace Vm

variable {κ ν : Type} {vm : Vm κ ν} {S : Resemblance κ ν}

/-- The outcome of a module depends on the words of the rejections, and not on the times of the
console output. -/
theorem moduleOutcome_untimed {logs logs' : List LogEntry} (r : Except GuestError (Option String))
    {noted noted' : List Rejection}
    (hlogs : logs.map LogEntry.untimed = logs'.map LogEntry.untimed)
    (hnoted : noted.map (·.message) = noted'.map (·.message)) :
    (moduleOutcome logs r noted).untimed = (moduleOutcome logs' r noted').untimed := by
  cases r with
  | error e => simp only [moduleOutcome, Outcome.untimed, Outcome.failed, hlogs]
  | ok v =>
      cases noted with
      | nil =>
          obtain rfl := List.map_eq_nil_iff.mp hnoted.symm
          simp only [moduleOutcome, Outcome.untimed, Outcome.completed, hlogs]
      | cons first rest =>
          obtain ⟨first', rest', rfl, hfirst, -⟩ := List.map_eq_cons_iff.mp hnoted.symm
          simp only [moduleOutcome, Outcome.untimed, Outcome.failed, hlogs, hfirst]

/-- In worlds that guest code cannot tell apart, it comes to the same outcome. -/
theorem Respects.runInContext (h : vm.Respects S.likeness) (code : String) :
    S.likeness.Follows (fun o o' => o.untimed = o'.untimed)
      (vm.runInContext code) (vm.runInContext code) := by
  refine (Resemblance.register "realm" code).bind fun name _ hname => ?_
  subst hname
  refine (h.runModule name).bind fun r _ hr => ?_
  subst hr
  refine (Resemblance.revoke name).bind fun _ _ _ => ?_
  refine Likeness.Follows.bind (h.drain jobLimit) fun _ _ _ => ?_
  refine Resemblance.takeLogs.bind fun logs logs' hlogs => ?_
  intro w w' hw
  exact ⟨moduleOutcome_untimed r hlogs (S.words hw.inside), hw⟩

/-- A context that takes the place of another cannot be told from the first one of a new realm, when
no jobs were left and the heap is not exhausted. -/
def ContextsAlike (vm : Vm κ ν) (config : RealmConfig) (S : Resemblance κ ν) : Prop :=
  ∀ (r new : Realm κ) (ready : World κ), vm.RealmReached config r → vm.buildRealm config = .ok new →
    r.fresh = false → vm.Idle (cleared r.world) → vm.preparation r = (.ok (), ready) →
    vm.exhausted ready = false → S.inside ready.core [] new.world.core []

end Vm

/-- A realm whose next module gets the number after a given one. -/
def Realm.numberedFrom {κ : Type} (issued : Nat) (r : Realm κ) : Realm κ :=
  { r with world := { r.world with host := { r.world.host with
      inline := { r.world.host.inline with issued } } } }

namespace Vm

variable {κ ν : Type} {vm : Vm κ ν} {S : Resemblance κ ν} {config : RealmConfig} {r new : Realm κ}

/-- Where an execution gets a context, guest code begins in a world like that in which it would begin
in a new realm that numbers its modules from where this one does. -/
theorem alike_of_ready (h : vm.Confines) (halike : vm.ContextsAlike config S)
    (hreached : vm.RealmReached config r) (hnew : vm.buildRealm config = .ok new)
    (hused : r.fresh = false) (hidle : vm.Idle (cleared r.world)) {ready : World κ}
    (hready : vm.preparation r = (.ok (), ready)) (hroom : vm.exhausted ready = false) :
    S.Alike ready (cleared (new.numberedFrom r.world.host.inline.issued).world) := by
  have hinside := halike r new ready hreached hnew hused hidle hready hroom
  have hsilent := h.prepareContext_silent hready
  have hconfined := h.prepareContext r.fresh (cleared r.world)
  rw [show (vm.prepareContext r.fresh).run.run (cleared r.world) = _ from hready] at hconfined
  have htidy := (h.reached_tidy hreached).cleared.confined hconfined
  have hnew := h.reached_tidy (.built hnew)
  exact
    { inside := by rwa [hsilent.2]
      resolution := htidy.resolution.trans hnew.resolution.symm
      fetch := htidy.fetch.trans hnew.fetch.symm
      reading := htidy.reading.trans hnew.reading.symm
      inline := InlineModules.ext (htidy.sources.trans hnew.sources.symm) hconfined.issued
      logs := by rw [hsilent.1]; rfl
      tracks := htidy.tracks.trans hnew.tracks.symm }

theorem numberedFrom_zero (h : vm.Confines) (hnew : vm.buildRealm config = .ok new) :
    new.numberedFrom 0 = new := by
  obtain ⟨core, -, hconsole, -⟩ := buildRealm_ok hnew
  have hissued := (h.installRecorder (realmWorld config core)).issued
  rw [hconsole] at hissued
  rw [Realm.numberedFrom, show 0 = new.world.host.inline.issued from hissued.symm]

end Vm

/-! ## A machine on which guests leave notes -/

/-- What a machine remembers on which guests leave notes: the notes in the context there is, whether
there is a console, and how many contexts there have been. -/
structure Notebook where
  notes : List String := []
  console : Bool := false
  contexts : Nat := 1

namespace Notebook

def sourceOf (name : String) (w : World Notebook) : String :=
  (w.host.inline.take name).1.getD ""

/-- Leaves the source of a module as a note and prints it; one of them is rejected as well. The
result is the notes that were there before. -/
def leave (name : String) (w : World Notebook) : String × World Notebook :=
  (", ".intercalate w.core.notes,
    { w with
      core := { w.core with notes := sourceOf name w :: w.core.notes }
      host := { w.host with
        inline := (w.host.inline.take name).2
        logs := w.host.logs.push ⟨.log, sourceOf name w, w.core.contexts⟩ }
      rejections :=
        if sourceOf name w = "b" then ⟨⟨w.core.contexts, 0⟩, "b"⟩ :: w.rejections
        else w.rejections })

/-- A new context is empty; the third one cannot be made. -/
def turn (w : World Notebook) : Except (Fault String) Unit × World Notebook :=
  let core : Notebook := { contexts := w.core.contexts + 1 }
  (if core.contexts = 3 then .error (.host "no context") else .ok (), { w with core })

/-- The fourth context gets no console. -/
def furnish (w : World Notebook) : Except (Fault String) Unit × World Notebook :=
  if w.core.contexts = 4 then (.error (.host "no console"), w)
  else (.ok (), { w with core := { w.core with console := true } })

/-- The machine: to run a module is to leave a note. -/
def vm : Vm Notebook String where
  boot _ := .ok {}
  renew := .mk turn
  installConsole := .mk furnish
  installRecorder := .mk furnish
  evaluate source := pure source
  importModule name := .mk fun w => (.ok (leave name w).1, (leave name w).2)
  settlement _ _ := none
  needObject v := pure v
  completion v := pure v
  runJob := pure false
  render v := pure (some v)
  classify v := pure (.text v)
  exhausted _ := false
  polls _ := 0
  endless _ := false
  setKilled _ := pure ()

theorem confines : vm.Confines where
  importModule name w := ⟨rfl, rfl, rfl, rfl, List.filter_sublist, rfl⟩
  needObject _ w := .refl w
  completion _ w := .refl w
  runJob w := .refl w
  render _ w := .refl w
  classify _ w := .refl w
  renew w := ⟨rfl, rfl, rfl, rfl, .refl _, rfl⟩
  installRecorder w := by
    change Confined w (furnish w).2
    rw [furnish]
    split
    · exact .refl w
    · exact ⟨rfl, rfl, rfl, rfl, .refl _, rfl⟩
  renew_silent w := ⟨rfl, rfl⟩
  installRecorder_silent w := by
    change (furnish w).2.host.logs = w.host.logs ∧ (furnish w).2.rejections = w.rejections
    rw [furnish]
    split <;> exact ⟨rfl, rfl⟩

/-- Guests see the notes and whether there is a console, but not how many contexts there have
been. -/
def sight : Resemblance Notebook String where
  inside core noted core' noted' :=
    core.notes = core'.notes ∧ core.console = core'.console ∧
      noted.map (·.message) = noted'.map (·.message)
  value := Eq
  words h := h.2.2

theorem respects : vm.Respects sight.likeness where
  importModule name := by
    intro w w' hw
    obtain ⟨hnotes, hconsole, hnoted⟩ := hw.inside
    have htake : w.host.inline.take name = w'.host.inline.take name := by rw [hw.inline]
    have hsource : sourceOf name w = sourceOf name w' := by rw [sourceOf, sourceOf, htake]
    refine ⟨.ok (congrArg (String.intercalate ", ") hnotes), ⟨?_, hconsole, ?_⟩, hw.resolution,
      hw.fetch, hw.reading, congrArg (·.2) htake, ?_, hw.tracks⟩
    · change sourceOf name w :: w.core.notes = sourceOf name w' :: w'.core.notes
      rw [hsource, hnotes]
    · change List.map _ (if sourceOf name w = "b" then _ else _) =
        List.map _ (if sourceOf name w' = "b" then _ else _)
      rw [hsource]
      split
      · exact congrArg ("b" :: ·) hnoted
      · exact hnoted
    · change List.map _ (w.host.logs.push ⟨.log, sourceOf name w, _⟩).toList =
        List.map _ (w'.host.logs.push ⟨.log, sourceOf name w', _⟩).toList
      rw [hsource, Array.toList_push, Array.toList_push, List.map_append, List.map_append, hw.logs]
      rfl
  needObject h := fun _ _ hw => ⟨.ok h, hw⟩
  completion h := fun _ _ hw => ⟨.ok h, hw⟩
  runJob := fun _ _ hw => ⟨rfl, hw⟩
  render h := fun _ _ hw => ⟨congrArg some h, hw⟩
  classify h := fun _ _ hw => ⟨congrArg GuestError.text h, hw⟩
  settlement _ _ := .none
  exhausted _ := rfl

theorem furnish_ok {w w' : World Notebook} (hok : furnish w = (.ok (), w')) :
    w'.core = { w.core with console := true } := by
  rw [furnish] at hok
  split at hok
  · cases hok
  · rw [← (Prod.mk.inj hok).2]

theorem contextsAlike (config : RealmConfig) : vm.ContextsAlike config sight := by
  intro r new ready _ hnew hused _ hready _
  obtain ⟨core, hboot, hconsole, -⟩ := Vm.buildRealm_ok hnew
  obtain rfl := Except.ok.inj hboot
  rcases Vm.prepareContext_ok hready with ⟨hfresh, -⟩ | ⟨-, w', hrenew, hfurnish⟩
  · rw [hused] at hfresh
    cases hfresh
  · have hempty : w'.core = { contexts := (Vm.cleared r.world).core.contexts + 1 } := by
      rw [← (Prod.mk.inj hrenew).2]
    change ready.core.notes = new.world.core.notes ∧ ready.core.console = new.world.core.console ∧ _
    rw [furnish_ok (w := w') hfurnish, furnish_ok (w := Vm.realmWorld config {}) hconsole, hempty]
    exact ⟨rfl, rfl, rfl⟩

/-- A realm in which nothing has been executed. -/
def first : Realm Notebook where
  world := (furnish (Vm.realmWorld default {})).2

/-- A realm after four executions, for the last two of which there was no context. -/
def used : Realm Notebook :=
  ["a", "b", "c", "d"].foldl (fun r code => (vm.executeRealm code r).2) first

end Notebook

end ScriptSandbox
