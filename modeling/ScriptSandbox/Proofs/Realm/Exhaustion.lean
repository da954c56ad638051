import ScriptSandbox.Realm.Execution
import ScriptSandbox.Sandbox.Contexts

/-!
# How a realm reports an exhausted heap

A guest that has used up its heap is stopped like one that has used up its time, and what it fails
with says no more than that. The failure of a module is put into words with a look at the heap, so
there an exhausted heap is told apart. A rejection that nobody asks about is put into words when it
is noted, without that look, and the words are reported as they are. `executeIn_error` says so for
any machine; `exhausted_job_unreported` is a heap that runs out in a job, on the machine of a host.
-/

namespace ScriptSandbox

/-! ## Failures behind which an exhausted heap may be -/

namespace GuestError

/-- Being interrupted, running out of memory, and failing without so much as an error object. -/
def MayBeExhaustion : GuestError → Prop
  | .text _ => False
  | .structured name message _ =>
    name = "InternalError" ∧ (message = "interrupted" ∨ message = "out of memory")
  | .other written => written = "null" ∨ written = "undefined"

theorem onExhaustedHeap_of_mayBe {e : GuestError} (h : e.MayBeExhaustion) :
    e.onExhaustedHeap = .text outOfMemoryMessage := by
  cases e with
  | text s => exact h.elim
  | structured name message stack =>
      obtain ⟨rfl, rfl | rfl⟩ := h
      · rfl
      · rfl
  | other written =>
      obtain rfl | rfl := h
      · rfl
      · rfl

/-- Every other failure stays what it is. -/
theorem onExhaustedHeap_of_not_mayBe {e : GuestError} (h : ¬ e.MayBeExhaustion) :
    e.onExhaustedHeap = e := by
  cases e with
  | text s => rfl
  | structured name message stack =>
      refine if_neg fun hfolds => h ?_
      simpa [MayBeExhaustion] using hfolds
  | other written =>
      refine if_neg fun hfolds => h ?_
      simpa [MayBeExhaustion] using hfolds

theorem message_onExhaustedHeap {e : GuestError} (h : e.MayBeExhaustion) :
    e.onExhaustedHeap.message = outOfMemoryMessage := by
  rw [onExhaustedHeap_of_mayBe h]
  rfl

end GuestError

namespace Vm

variable {κ ν : Type} (vm : Vm κ ν)

/-! ## The parts of an execution -/

/-- The world in which the context for an execution is made. -/
def cleared (w : World κ) : World κ := (World.clearRejections.run (World.takeLogs.run w).2).2

/-- Imports a module; the result is what counts as its value. -/
def moduleValue (name : String) : Attempted κ ν ν := vm.importWhole name >>= vm.completion

/-- A failure as it is, without a look at the heap. -/
def classified : Fault ν → Change κ GuestError
  | .thrown v => vm.classify v
  | .host why => pure (.text why)

/-- Withdraws a module and does the jobs that are left; the result is the console output. -/
def windDown (name : String) : Change κ (List LogEntry) := do
  World.revoke name
  let _ ← vm.drainJobs
  World.takeLogs

theorem run_guestFailure (e : Fault ν) (w : World κ) :
    (vm.guestFailure e).run w =
      (if vm.exhausted ((vm.classified e).run w).2 then
        ((vm.classified e).run w).1.onExhaustedHeap
      else ((vm.classified e).run w).1, ((vm.classified e).run w).2) := by
  cases e <;> rfl

/-- What is left to do when the module has come to its value or a failure. -/
theorem run_runInContext (code : String) (w : World κ) :
    (vm.runInContext code).run w =
      let begun := (World.register "realm" code).run w
      let result := (vm.runModule begun.1).run begun.2
      let ended := (vm.windDown begun.1).run result.2
      (moduleOutcome ended.1 result.1 ended.2.rejections, ended.2) := rfl

/-- The value is rendered if there is one; a fault is put into words otherwise. -/
theorem run_runModule (name : String) (w : World κ) :
    (vm.runModule name).run w =
      match (vm.moduleValue name).run.run w with
      | (.ok v, w') => (.ok ((vm.render v).run w').1, ((vm.render v).run w').2)
      | (.error e, w') => (.error ((vm.guestFailure e).run w').1, ((vm.guestFailure e).run w').2) := by
  rw [runModule, StateT.run_bind, ← moduleValue]
  rcases hvalue : (vm.moduleValue name).run.run w with ⟨_ | _, w'⟩
  · rfl
  · rfl

variable {vm} {fresh : Bool} {code : String} {w ready : World κ}

theorem run_executeIn (hready : (vm.prepareContext fresh).run.run (cleared w) = (.ok (), ready)) :
    (vm.executeIn fresh code).run w = (vm.runInContext code).run ready := by
  rw [cleared] at hready
  simp only [executeIn, StateT.run_bind]
  simp only [bind, hready]

/-- In a realm whose context is ready, what the module fails with is put into words with a look at
the heap: an exhausted heap is reported as one, if it may be behind the failure. Without such a
failure, the first rejection is reported as it was noted, whether the heap is exhausted or not, and
there is no error without a rejection. -/
theorem executeIn_error (hready : (vm.prepareContext fresh).run.run (cleared w) = (.ok (), ready))
    {name : String} {begun done : World κ} {outcome : Outcome}
    (hregister : (World.register "realm" code).run ready = (name, begun))
    (hdone : (vm.executeIn fresh code).run w = (outcome, done)) :
    (∀ e failed error worded, (vm.moduleValue name).run.run begun = (.error e, failed) →
      (vm.classified e).run failed = (error, worded) →
        (vm.exhausted worded = true → error.MayBeExhaustion →
          outcome.error = some GuestError.outOfMemoryMessage) ∧
        (vm.exhausted worded = false ∨ ¬ error.MayBeExhaustion →
          outcome = .failed outcome.logs error.message)) ∧
      ∀ v valued, (vm.moduleValue name).run.run begun = (.ok v, valued) →
        (∀ rejection ∈ done.rejections.head?, outcome = .failed outcome.logs rejection.message) ∧
          (done.rejections = [] → outcome.error = none) := by
  rw [run_executeIn hready, run_runInContext, hregister] at hdone
  dsimp only at hdone
  rw [run_runModule] at hdone
  refine ⟨?_, ?_⟩
  · intro e failed error worded hfailed hclassified
    rw [hfailed] at hdone
    obtain ⟨houtcome, -⟩ := Prod.mk.inj hdone
    have hworded : outcome =
        .failed outcome.logs ((vm.guestFailure e).run failed).1.message := by
      rw [← houtcome]
      rfl
    rw [run_guestFailure, hclassified] at hworded
    refine ⟨?_, ?_⟩
    · intro hexhausted hfolds
      rw [hworded, if_pos hexhausted, GuestError.message_onExhaustedHeap hfolds]
      rfl
    · rintro (hroom | hother)
      · rwa [if_neg (ne_true_of_eq_false hroom)] at hworded
      · rwa [GuestError.onExhaustedHeap_of_not_mayBe hother, ite_self] at hworded
  · intro v valued hvalued
    rw [hvalued] at hdone
    obtain ⟨rfl, rfl⟩ := Prod.mk.inj hdone
    cases hrejections : ((vm.windDown name).run ((vm.render v).run valued).2).2.rejections with
    | nil => exact ⟨nofun, fun _ => rfl⟩
    | cons rejection rejections =>
        refine ⟨?_, nofun⟩
        intro first hfirst
        obtain rfl := Option.some.inj hfirst
        rfl

end Vm

/-! ## The machine of a host -/

namespace Contexts

/-- The machine of a host, but importing a module is an operation that is given. -/
def importing (act : Attempted Contexts Value Value) : Vm Contexts Value :=
  { vm with importModule := fun _ => act }

/-- A machine whose heap was found to be exhausted. -/
def drained : World Contexts where
  core := ⟨{ memory := { tripped := true } }, []⟩
  host := {}
  tracks := true

/-- When there was no memory for an error, the guest has thrown no more than null; this is reported as
what it is. -/
theorem executeIn_error_of_null :
    let thrown : Fault Value := .thrown .null
    let begun := ((World.register "realm" "").run (Vm.cleared drained)).2
    let worded := ((importing (throw thrown)).classified thrown).run begun
    worded.1 = .other "null" ∧ (importing (throw thrown)).exhausted worded.2 = true ∧
      (((importing (throw thrown)).executeIn true "").run drained).1.error =
        some GuestError.outOfMemoryMessage := by
  intro thrown begun worded
  have hnull : worded.1 = .other "null" := by decide +kernel
  have hexhausted : (importing (throw thrown)).exhausted worded.2 = true := by decide +kernel
  have hready : ((importing (throw thrown)).prepareContext true).run.run (Vm.cleared drained) =
      (.ok (), Vm.cleared drained) := rfl
  have hregister : (World.register "realm" "").run (Vm.cleared drained) = (_, begun) := rfl
  obtain ⟨hfault, -⟩ := Vm.executeIn_error hready hregister rfl
  have hfolds : GuestError.MayBeExhaustion worded.1 := by
    rw [hnull]
    exact .inl rfl
  exact ⟨hnull, hexhausted, (hfault thrown begun worded.1 worded.2 rfl rfl).1 hexhausted hfolds⟩

/-- The objects of a machine, behind those that every machine knows: a promise, whether it has been
settled, the two functions that settle it, the promise for a module, and what the module exports. -/
def overfullHeap : Array Obj :=
  let slots := #[Value.obj firstFreePlace, .obj (firstFreePlace + 1)]
  (Array.replicate firstFreePlace default).set! Intrinsic.internalErrorPrototype.address
      { props := .ofList [(.named "name", .plain (.ofString "InternalError"))] } ++
    #[{ kind := .promise {} },
      { kind := .boxed (.bool false) },
      { kind := .native (.promise (.settle false)) slots false },
      { kind := .native (.promise (.settle true)) slots false },
      { kind := .promise { status := .fulfilled, value := .obj (firstFreePlace + 5) } },
      { kind := .plain }]

/-- The promise of which nobody has asked what becomes of it. -/
def unasked : Capability :=
  ⟨.obj firstFreePlace, .obj (firstFreePlace + 2), .obj (firstFreePlace + 3)⟩

/-- A machine that uses more memory than it may. There is a job left, in which a function is called;
what it throws, a promise is rejected with. -/
def overfull : World Contexts where
  core := ⟨{
    heap := overfullHeap
    jobs := ⟨[.reaction unasked.resolve false (some unasked) .undefined], []⟩
    memory := { charged := 1, budget := some 0 } }, []⟩
  host := {}
  tracks := true

/-- The module has its value, and the job is stopped since the heap is exhausted. What is reported is
that the guest was interrupted. -/
theorem exhausted_job_unreported :
    let loaded := importing (pure (.obj (firstFreePlace + 4)))
    let outcome := ((loaded.executeIn true "").run overfull).1
    let done := ((loaded.executeIn true "").run overfull).2
    loaded.exhausted done = true ∧
      (∃ e : GuestError, e.MayBeExhaustion ∧ done.rejections.map (·.message) = [e.message]) ∧
      outcome.error = some "InternalError: interrupted" ∧
      outcome.error ≠ some GuestError.outOfMemoryMessage := by
  intro loaded outcome done
  have hexhausted : loaded.exhausted done = true := by decide +kernel
  have herror : outcome.error = some "InternalError: interrupted" := by decide +kernel
  have hnoted : done.rejections.map (·.message) =
      [(GuestError.structured "InternalError" "interrupted" none).message] := by decide +kernel
  have hfolds : (GuestError.structured "InternalError" "interrupted" none).MayBeExhaustion :=
    ⟨rfl, .inl rfl⟩
  refine ⟨hexhausted, ⟨_, hfolds, hnoted⟩, herror, ?_⟩
  rw [herror]
  decide

end Contexts

end ScriptSandbox
