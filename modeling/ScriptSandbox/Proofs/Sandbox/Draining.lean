import Mathlib
import ScriptSandbox.Proofs.Sandbox.Verdict

/-!
# How doing jobs comes to an end

A host does jobs until there are none. Nothing else ends the loop: a job that fails counts as done,
and an interrupt handler that has stopped the guest only makes jobs fail. So the loop comes to an
end if from some job on each job leaves fewer than it has found, and not otherwise (`draining`).

A job that is stopped rejects its promise, and whoever waits for that is a job again. It may leave
the next job that has to be stopped, and then the loop never ends (`stopped_jobs_go_on`).
-/

namespace ScriptSandbox

/-- The second of two operations takes place if the first has not failed. -/
theorem Attempted.run_bind {κ ν α β : Type} (first : Attempted κ ν α) (next : α → Attempted κ ν β)
    (w : World κ) :
    (first >>= next).run.run w =
      match first.run.run w with
      | (.ok a, w') => (next a).run.run w'
      | (.error e, w') => (.error e, w') := by
  rw [ExceptT.run_bind, StateT.run_bind]
  rcases hfirst : first.run.run w with ⟨_ | _, w'⟩
  · rfl
  · rfl

namespace Vm

variable {κ ν : Type} (vm : Vm κ ν)

/-! ## Jobs one after another -/

def afterJobs : Nat → World κ → World κ
  | 0, w => w
  | n + 1, w => afterJobs n (vm.runJob.run w).2

/-- There is no job to do. -/
def Idle (w : World κ) : Prop := (vm.runJob.run w).1 = false

/-- So many jobs are done before there is none. -/
def IdleAfter (n : Nat) (w : World κ) : Prop :=
  vm.Idle (vm.afterJobs n w) ∧ ∀ i < n, ¬ vm.Idle (vm.afterJobs i w)

variable {vm} {w : World κ}

theorem afterJobs_succ (n : Nat) (w : World κ) :
    vm.afterJobs (n + 1) w = (vm.runJob.run (vm.afterJobs n w)).2 := by
  induction n generalizing w with
  | zero => rfl
  | succ n ih => exact ih _

theorem Idle.first {n : Nat} (h : vm.Idle (vm.afterJobs n w)) : ∃ m ≤ n, vm.IdleAfter m w := by
  classical
  have hex : ∃ m, vm.Idle (vm.afterJobs m w) := ⟨n, h⟩
  exact ⟨Nat.find hex, Nat.find_min' hex h, Nat.find_spec hex, fun i hi => Nat.find_min hex hi⟩

/-- What the loop does in one round. -/
theorem run_drain_succ (fuel : Nat) (w : World κ) :
    (vm.drain (fuel + 1)).run w =
      if (vm.runJob.run w).1 then
        (((vm.drain fuel).run (vm.runJob.run w).2).1 + 1,
          ((vm.drain fuel).run (vm.runJob.run w).2).2)
      else (0, (vm.runJob.run w).2) := by
  rw [drain, StateT.run_bind]
  rcases hjob : vm.runJob.run w with ⟨_ | _, w'⟩
  · rfl
  · rfl

theorem run_drain_of_idle (h : vm.Idle w) (fuel : Nat) :
    (vm.drain (fuel + 1)).run w = (0, (vm.runJob.run w).2) := by
  rw [run_drain_succ, if_neg (Bool.eq_false_iff.mp h)]

theorem run_drain_of_not_idle (h : ¬ vm.Idle w) (fuel : Nat) :
    (vm.drain (fuel + 1)).run w =
      (((vm.drain fuel).run (vm.runJob.run w).2).1 + 1,
        ((vm.drain fuel).run (vm.runJob.run w).2).2) := by
  rw [run_drain_succ, if_pos (by simpa [Idle] using h)]

/-- The loop does the jobs that there are, however many more rounds it might take. -/
theorem run_drain {n : Nat} (h : vm.IdleAfter n w) {fuel : Nat} (hfuel : n < fuel) :
    (vm.drain fuel).run w = (n, vm.afterJobs (n + 1) w) := by
  cases fuel with
  | zero => exact absurd hfuel (Nat.not_lt_zero n)
  | succ fuel =>
      induction n generalizing w fuel with
      | zero => exact run_drain_of_idle h.1 fuel
      | succ n ih =>
          have hrest : vm.IdleAfter n (vm.runJob.run w).2 :=
            ⟨h.1, fun i hi => h.2 (i + 1) (Nat.succ_lt_succ hi)⟩
          have hbusy : ¬ vm.Idle w := h.2 0 (Nat.zero_lt_succ n)
          rw [run_drain_of_not_idle hbusy]
          cases fuel with
          | zero => omega
          | succ fuel =>
              rw [ih hrest fuel (Nat.lt_of_succ_lt_succ hfuel)]
              rfl

/-- As long as there are jobs the loop goes on, to its last round. -/
theorem run_drain_of_busy {fuel : Nat} (h : ∀ i < fuel, ¬ vm.Idle (vm.afterJobs i w)) :
    (vm.drain fuel).run w = (fuel, vm.afterJobs fuel w) := by
  induction fuel generalizing w with
  | zero => rfl
  | succ fuel ih =>
      have hbusy : ¬ vm.Idle w := h 0 (Nat.zero_lt_succ fuel)
      rw [run_drain_of_not_idle hbusy, ih fun i hi => h (i + 1) (Nat.succ_lt_succ hi)]
      rfl

/-- The loop ends after so many jobs, however many rounds it might take, exactly if there is none
left then for the first time. -/
theorem idleAfter_iff {n : Nat} :
    vm.IdleAfter n w ↔ ∀ fuel, n < fuel → ((vm.drain fuel).run w).1 = n := by
  refine ⟨fun h fuel hfuel => congrArg (·.1) (run_drain h hfuel), fun h => ?_⟩
  by_cases hidle : ∃ i < n + 1, vm.Idle (vm.afterJobs i w)
  · obtain ⟨i, hi, hidle⟩ := hidle
    obtain ⟨m, hm, hfirst⟩ := Idle.first hidle
    have hcount : m = n := by
      rw [← h (n + 1) (Nat.lt_succ_self n), run_drain hfirst (by omega)]
    exact hcount ▸ hfirst
  · have hbusy := run_drain_of_busy fun i hi hi' => hidle ⟨i, hi, hi'⟩
    have hcount := h (n + 1) (Nat.lt_succ_self n)
    rw [hbusy] at hcount
    exact absurd hcount (Nat.succ_ne_self n)

/-- What waiting for a promise does in one round. -/
theorem run_await_succ (fuel : Nat) (v : ν) (w : World κ) :
    (vm.await (fuel + 1) v).run.run w =
      match vm.settlement w v with
      | none => (.ok v, w)
      | some (.fulfilled x) => (.ok x, w)
      | some (.rejected x) => (.error (.thrown x), w)
      | some .pending =>
        if (vm.runJob.run w).1 then (vm.await fuel v).run.run (vm.runJob.run w).2
        else (.error (.host deadlock), (vm.runJob.run w).2) := by
  have hget : (get : Attempted κ ν (World κ)).run.run w = (.ok w, w) := rfl
  have hjob : (liftM vm.runJob : Attempted κ ν Bool).run.run w =
      (.ok (vm.runJob.run w).1, (vm.runJob.run w).2) := rfl
  rw [await, Attempted.run_bind, hget]
  simp only
  rcases vm.settlement w v with _ | _ | x | x
  · rfl
  · simp only [Attempted.run_bind, hjob]
    split <;> rfl
  · rfl
  · rfl

/-- A host that waits for a promise does so no longer than there are jobs. -/
theorem run_await {n : Nat} (h : vm.Idle (vm.afterJobs n w)) {fuel : Nat} (hfuel : n < fuel)
    (v : ν) : (vm.await fuel v).run.run w = (vm.await (n + 1) v).run.run w := by
  induction n generalizing w fuel with
  | zero =>
      cases fuel with
      | zero => exact absurd hfuel (Nat.not_lt_zero 0)
      | succ fuel =>
          have hnone : (vm.runJob.run w).1 = false := h
          simp only [run_await_succ, hnone]
          rfl
  | succ n ih =>
      cases fuel with
      | zero => exact absurd hfuel (Nat.not_lt_zero _)
      | succ fuel => simp only [run_await_succ, ih h (Nat.lt_of_succ_lt_succ hfuel)]

/-- If from some job on each of them leaves less of something that there is a limited amount of,
there is an end. -/
theorem idle_of_decreasing (μ : World κ → Nat) {k : Nat}
    (h : ∀ i, k ≤ i → ¬ vm.Idle (vm.afterJobs i w) →
      μ (vm.afterJobs (i + 1) w) < μ (vm.afterJobs i w)) :
    ∃ n ≤ k + μ (vm.afterJobs k w), vm.Idle (vm.afterJobs n w) := by
  induction hμ : μ (vm.afterJobs k w) using Nat.strong_induction_on generalizing k with
  | _ amount ih =>
      by_cases hidle : vm.Idle (vm.afterJobs k w)
      · exact ⟨k, Nat.le_add_right k amount, hidle⟩
      · have hless : μ (vm.afterJobs (k + 1) w) < amount := hμ ▸ h k (Nat.le_refl k) hidle
        obtain ⟨n, hn, hidle'⟩ := ih _ hless (fun i hi => h i (Nat.le_of_succ_le hi)) rfl
        exact ⟨n, Nat.le_trans hn (by omega), hidle'⟩

end Vm

/-! ## The jobs that wait on the machine of a host -/

namespace JobQueue

theorem isEmpty_iff (q : JobQueue) : q.isEmpty = true ↔ q.toList = [] := by
  simp [isEmpty, toList]

/-- The oldest job leaves the others. -/
theorem pop?_eq (q : JobQueue) :
    (q.pop? = none ∧ q.toList = []) ∨
      ∃ j rest, q.pop? = some (j, rest) ∧ q.toList = j :: rest.toList := by
  rw [pop?, toList]
  split
  · next j front hfront => exact .inr ⟨j, _, rfl, by rw [hfront]; rfl⟩
  · next hfront =>
      rw [hfront]
      split
      · next j front hback => exact .inr ⟨j, _, rfl, by simp [toList, hback]⟩
      · next hback => exact .inl ⟨rfl, by simp [hback]⟩

end JobQueue

namespace Contexts

def jobFrom : Option (Job × JobQueue) → Exec (Option (Exec.Attempt Unit))
  | none => pure none
  | some (j, jobs) => do
    modify fun m => { m with jobs }
    return some (← Exec.attempt (Exec.runJob j))

theorem nextJob_eq (c : Calls) (m : Machine) : Exec.nextJob c m = jobFrom m.jobs.pop? c m := rfl

theorem nextJob_of_none (c : Calls) {m : Machine} (hnone : m.jobs.pop? = none) :
    Exec.nextJob c m = .ok none m := by
  rw [nextJob_eq, hnone]
  rfl

theorem nextJob_of_some (c : Calls) {m : Machine} {j : Job} {rest : JobQueue}
    (hsome : m.jobs.pop? = some (j, rest)) :
    Exec.nextJob c m = (some <$> Exec.attempt (Exec.runJob j)) c { m with jobs := rest } := by
  rw [nextJob_eq, hsome]
  rfl

/-- An operation that says that there was something may fail, but cannot say that there was
nothing. -/
theorem map_some_cases {α : Type} (act : Exec α) (c : Calls) (m : Machine) :
    (∃ a m', (some <$> act) c m = .ok (some a) m') ∨ ∃ e m', (some <$> act) c m = .error e m' := by
  have hmap : (some <$> act) c m = EStateM.bind (act c) (fun a => pure (some a)) m := by rfl
  rw [hmap, EStateM.bind]
  cases act c m with
  | ok a m' => exact .inl ⟨a, m', rfl⟩
  | error e m' => exact .inr ⟨e, m', rfl⟩

theorem jobOn_of_nil {m : Machine} (hnil : m.jobs.toList = []) : jobOn m = (false, settled m) := by
  rcases m.jobs.pop?_eq with ⟨hnone, -⟩ | ⟨j, rest, -, hcons⟩
  · rw [jobOn, runOn, nextJob_of_none _ hnone]
  · rw [hnil] at hcons
    cases hcons

theorem jobOn_of_ne_nil {m : Machine} (hsome : m.jobs.toList ≠ []) : (jobOn m).1 = true := by
  rcases m.jobs.pop?_eq with ⟨-, hnil⟩ | ⟨j, rest, hpop, -⟩
  · exact absurd hnil hsome
  · rw [jobOn, runOn, nextJob_of_some _ hpop]
    rcases map_some_cases (Exec.attempt (Exec.runJob j)) (Calls.level Library.library Calls.levels)
      { m with jobs := rest } with ⟨a, m', hdone⟩ | ⟨e, m', hfailed⟩
    · rw [hdone]
    · rw [hfailed]
      cases e <;> rfl

/-- How many jobs wait, in the context there is and in those that have been replaced. -/
def waiting (c : Contexts) : Nat :=
  (c.retired.map fun m => m.jobs.toList.length).sum + c.current.jobs.toList.length

/-- Contexts that have been replaced are kept only for their jobs. -/
def Kept (c : Contexts) : Prop := ∀ m ∈ c.retired, m.jobs.toList ≠ []

section

variable {m : Machine} {retired : List Machine} {host : Host} {tracks : Bool}
  {rejections : List Rejection}

theorem runJob_of_expired (h : m.interrupts.expired = true) :
    vm.runJob.run ⟨⟨m, retired⟩, host, tracks, rejections⟩ =
      (false, ⟨⟨m, retired⟩, host, tracks, rejections⟩) := by
  change runJob ⟨⟨m, retired⟩, host, tracks, rejections⟩ = _
  simp only [runJob, h]

/-- The context there is does its jobs when no other has any left. -/
theorem runJob_of_current (h : m.interrupts.expired = false) :
    vm.runJob.run ⟨⟨m, []⟩, host, tracks, rejections⟩ =
      let done := jobOn (surrounded m host tracks rejections)
      (done.1, ⟨⟨done.2, []⟩, done.2.host, tracks, done.2.rejections⟩) := by
  change runJob ⟨⟨m, []⟩, host, tracks, rejections⟩ = _
  simp only [runJob, h]

/-- Until then the oldest of the others does its jobs, and is let go when they are done. -/
theorem runJob_of_retired (h : m.interrupts.expired = false) (old : Machine) (rest : List Machine) :
    vm.runJob.run ⟨⟨m, old :: rest⟩, host, tracks, rejections⟩ =
      let done :=
        (jobOn (surrounded { old with interrupts := m.interrupts } host tracks rejections)).2
      let retired := if done.jobs.isEmpty then rest else done :: rest
      (true, ⟨⟨{ m with interrupts := done.interrupts }, retired⟩, done.host, tracks,
        done.rejections⟩) := by
  change runJob ⟨⟨m, old :: rest⟩, host, tracks, rejections⟩ = _
  simp only [runJob, h]

end

variable {w : World Contexts}

/-- There is nothing to do if the machine was given up, or if no job waits. -/
theorem idle_iff (hkept : w.core.Kept) :
    vm.Idle w ↔ w.core.current.interrupts.expired = true ∨ w.core.waiting = 0 := by
  obtain ⟨⟨m, retired⟩, host, tracks, rejections⟩ := w
  rw [Vm.Idle]
  cases hexpired : m.interrupts.expired with
  | true =>
      rw [runJob_of_expired hexpired]
      exact iff_of_true rfl (.inl rfl)
  | false =>
      cases retired with
      | nil =>
          rw [runJob_of_current hexpired]
          by_cases hnil : m.jobs.toList = []
          · have hjob := jobOn_of_nil (m := surrounded m host tracks rejections) hnil
            exact iff_of_true (congrArg (·.1) hjob) (.inr (by simp [waiting, hnil]))
          · have hjob := jobOn_of_ne_nil (m := surrounded m host tracks rejections) hnil
            exact iff_of_false (by simp [hjob]) (by simp [waiting, hnil])
      | cons old rest =>
          have hold : old.jobs.toList ≠ [] := hkept old List.mem_cons_self
          rw [runJob_of_retired hexpired]
          exact iff_of_false nofun (by simp [waiting, hold])

/-- Where there is nothing to do, nothing changes about that. -/
theorem idle_runJob (hkept : w.core.Kept) (hidle : vm.Idle w) : vm.Idle (vm.runJob.run w).2 := by
  have hwhy := (idle_iff hkept).mp hidle
  obtain ⟨⟨m, retired⟩, host, tracks, rejections⟩ := w
  cases hexpired : m.interrupts.expired with
  | true => rwa [runJob_of_expired hexpired]
  | false =>
      have hnone := hwhy.resolve_left (Bool.eq_false_iff.mp hexpired)
      cases retired with
      | nil =>
          have hnil : m.jobs.toList = [] := by simpa [waiting] using hnone
          have hjob := jobOn_of_nil (m := surrounded m host tracks rejections) hnil
          rw [runJob_of_current hexpired, hjob]
          refine (idle_iff ?_).mpr (.inr ?_)
          · exact List.forall_mem_nil _
          · simp [waiting, settled, surrounded, hnil]
      | cons old rest =>
          have hold : old.jobs.toList ≠ [] := hkept old List.mem_cons_self
          simp [waiting, hold] at hnone

/-- Contexts without jobs are let go. -/
theorem runJob_kept (hkept : w.core.Kept) : (vm.runJob.run w).2.core.Kept := by
  obtain ⟨⟨m, retired⟩, host, tracks, rejections⟩ := w
  cases hexpired : m.interrupts.expired with
  | true =>
      rw [runJob_of_expired hexpired]
      exact hkept
  | false =>
      cases retired with
      | nil =>
          rw [runJob_of_current hexpired]
          exact List.forall_mem_nil _
      | cons old rest =>
          have hrest : ∀ m ∈ rest, m.jobs.toList ≠ [] :=
            fun m hm => hkept m (List.mem_cons_of_mem _ hm)
          rw [runJob_of_retired hexpired]
          simp only
          split
          · exact hrest
          · next hleft =>
              intro m' hm'
              rcases List.mem_cons.mp hm' with rfl | hm'
              · rwa [JobQueue.isEmpty_iff] at hleft
              · exact hrest m' hm'

theorem afterJobs_kept (hkept : w.core.Kept) (n : Nat) : (vm.afterJobs n w).core.Kept := by
  induction n with
  | zero => exact hkept
  | succ n ih =>
      rw [Vm.afterJobs_succ]
      exact runJob_kept ih

theorem idle_afterJobs (hkept : w.core.Kept) {n i : Nat} (hle : n ≤ i)
    (hidle : vm.Idle (vm.afterJobs n w)) : vm.Idle (vm.afterJobs i w) := by
  induction i, hle using Nat.le_induction with
  | base => exact hidle
  | succ i _ ih =>
      rw [Vm.afterJobs_succ]
      exact idle_runJob (afterJobs_kept hkept i) ih

/-- Nothing is left to do: no job waits, or the machine was given up. -/
def Over (w : World Contexts) : Prop :=
  w.core.current.interrupts.expired = true ∨ w.core.waiting = 0

/-- The next job leaves fewer jobs than there are. -/
def Wanes (w : World Contexts) : Prop := (vm.runJob.run w).2.core.waiting < w.core.waiting

/-- From some job on, every job leaves fewer than it finds. -/
def WanesFrom (k : Nat) (w : World Contexts) : Prop :=
  ∀ i, k ≤ i → ¬ Over (vm.afterJobs i w) → Wanes (vm.afterJobs i w)

/-- A context that has been replaced while its only job waited. -/
def leftOver : World Contexts where
  core := ⟨{}, [{ jobs := ({} : JobQueue).push default }]⟩
  host := default

end Contexts

/-! ## Jobs that are stopped one after another -/

/-- A job of a machine that goes on: a loop that never ends, or what is to be done when the promise
for a loop has been rejected. -/
inductive Rescheduler.Task where
  | loop
  | handler

/-- What a machine remembers that goes on: the polls of its interrupt handler, how many there may
be, and the jobs that wait. -/
structure Rescheduler where
  budget : Nat
  polls : Nat := 0
  queue : List Rescheduler.Task := []

namespace Rescheduler

/-- Does the oldest job. A loop is stopped by the first poll that is over the budget, and leaves the
handler; the handler is over before the next poll, and leaves another loop. -/
def work (s : Rescheduler) : Bool × Rescheduler :=
  match s.queue with
  | [] => (false, s)
  | .loop :: rest =>
    (true, { s with polls := max s.polls s.budget + 1, queue := rest ++ [.handler] })
  | .handler :: rest => (true, { s with queue := rest ++ [.loop] })

/-- The machine: every script leaves a loop, and its value is a text. -/
def vm : Vm Rescheduler String where
  boot l := .ok { budget := l.interruptBudget.getD 0 }
  renew := pure ()
  installConsole := pure ()
  installRecorder := pure ()
  evaluate _ := do
    modify fun w => { w with core := { w.core with queue := w.core.queue ++ [.loop] } }
    return "0"
  importModule _ := throw (.host "no modules")
  settlement _ _ := none
  needObject v := pure v
  completion v := pure v
  runJob := modifyGet fun w => (w.core.work.1, { w with core := w.core.work.2 })
  render v := pure (some v)
  classify v := pure (.text v)
  exhausted _ := false
  polls w := w.core.polls
  endless _ := false
  setKilled _ := pure ()

/-- The job that waits is done, and another one waits then. -/
theorem runJob_of_one {w : World Rescheduler} (hone : ∃ t, w.core.queue = [t]) :
    (vm.runJob.run w).1 = true ∧ ∃ t, (vm.runJob.run w).2.core.queue = [t] := by
  change (w.core.work.1 = true ∧ ∃ t, w.core.work.2.queue = [t])
  obtain ⟨t, ht⟩ := hone
  rw [work, ht]
  cases t with
  | loop => exact ⟨rfl, .handler, rfl⟩
  | handler => exact ⟨rfl, .loop, rfl⟩

theorem not_idle_afterJobs {w : World Rescheduler} (hone : ∃ t, w.core.queue = [t]) (n : Nat) :
    ¬ vm.Idle (vm.afterJobs n w) := by
  induction n generalizing w with
  | zero =>
      rw [Vm.Idle, Vm.afterJobs, (runJob_of_one hone).1]
      exact Bool.noConfusion
  | succ n ih => exact ih (runJob_of_one hone).2

end Rescheduler

/-- Whether a host that does the jobs which a script has left, on a machine whose interrupt handler
may be polled only so often, comes to an end. -/
def Vm.EveryDrainEnds {κ ν : Type} (vm : Vm κ ν) : Prop :=
  ∀ limits budget core source host v w, limits.interruptBudget = some budget →
    vm.boot limits = .ok core →
    (vm.evaluate source).run.run ({ core, host } : World κ) = (.ok v, w) →
    ∃ n, ∀ fuel, n < fuel → ((vm.drain fuel).run w).1 = n

end ScriptSandbox
