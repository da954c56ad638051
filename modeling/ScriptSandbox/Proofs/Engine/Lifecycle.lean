import Mathlib.Data.List.Induction
import ScriptSandbox.Engine.Interpreter
import ScriptSandbox.Proofs.Engine.RealmRun

/-!
# The life of an engine

The two engines lead the same life: a call of its own makes an engine ready, sources are executed
while it is, and it is disposed of. `EngineLife` is what a host sees of either one, and `Contract`
what the host may rely on after any calls (`lifecycle_contract`). What a single call does is said
for each engine apart (`Lawful`), and then for all calls at once, by induction from the first on.

An engine that is ready but has nothing to serve modules with would answer that it is not ready.
There is no such engine (`Provided`): an engine gets a provider before it becomes ready, and gives
one up only when it stops being so.
-/

namespace ScriptSandbox

/-- A call of an engine; the machine and what the engine finds around it may be others each time. -/
inductive LifeCall (μ : Type) where
  | prepare (machine : μ) (around : Surroundings)
  | execute (machine : μ) (source : String)
  | dispose

/-- Whether a call executes something. -/
def LifeCall.IsExecution {μ : Type} : LifeCall μ → Prop
  | .execute .. => True
  | _ => False

/-- What came of a call. -/
inductive LifeEvent where
  | prepared (result : Except EngineError Unit)
  | executed (answer : Except EngineError Outcome)
  | disposed

/-- The engine has been made ready since it was last disposed of. -/
def ReadyAfter (past : List LifeEvent) : Prop :=
  ∃ before after, past = before ++ .prepared (.ok ()) :: after ∧ .disposed ∉ after

/-- An engine as its host uses it, on machines `μ`. -/
structure EngineLife (ε μ : Type) where
  isReady : ε → Bool
  provider : ε → Option Provider
  /-- Whether the provider was handed to the engine. -/
  injected : ε → Bool
  prepare : μ → Surroundings → ε → Except EngineError Unit × ε
  execute : μ → String → ε → Except EngineError Outcome × ε
  dispose : ε → ε
  /-- Two machines do the same for whoever serves modules in one way. -/
  Agree : Fetch → μ → μ → Prop

/-! ## Readiness and what has happened -/

theorem readyAfter_prepared (past : List LifeEvent) :
    ReadyAfter (past ++ [.prepared (.ok ())]) :=
  ⟨past, [], rfl, List.not_mem_nil⟩

theorem not_readyAfter_disposed (past : List LifeEvent) : ¬ ReadyAfter (past ++ [.disposed]) := by
  rintro ⟨before, after, hpast, hnone⟩
  cases after using List.reverseRecOn with
  | nil =>
      have hlast := congrArg List.getLast? hpast
      simp at hlast
  | append_singleton after event =>
      rw [← List.cons_append, ← List.append_assoc] at hpast
      obtain ⟨-, hevent⟩ := List.append_inj' hpast rfl
      obtain rfl := List.singleton_inj.mp hevent
      exact hnone (List.mem_append_right _ (List.mem_singleton_self _))

/-- What neither makes an engine ready nor disposes of it changes nothing about that. -/
theorem readyAfter_concat {past : List LifeEvent} {event : LifeEvent}
    (hprepared : event ≠ .prepared (.ok ())) (hdisposed : event ≠ .disposed) :
    ReadyAfter (past ++ [event]) ↔ ReadyAfter past := by
  constructor
  · rintro ⟨before, after, hpast, hnone⟩
    cases after using List.reverseRecOn with
    | nil =>
        obtain ⟨-, hevent⟩ := List.append_inj' hpast rfl
        exact absurd (List.cons.inj hevent).1 hprepared
    | append_singleton after last =>
        rw [← List.cons_append, ← List.append_assoc] at hpast
        obtain ⟨hpast, -⟩ := List.append_inj' hpast rfl
        exact ⟨before, after, hpast, fun hmem => hnone (List.mem_append_left _ hmem)⟩
  · rintro ⟨before, after, rfl, hnone⟩
    refine ⟨before, after ++ [event], by simp, ?_⟩
    rw [List.mem_append, List.mem_singleton, not_or]
    exact ⟨hnone, hdisposed.symm⟩

namespace EngineLife

variable {ε μ : Type} (m : EngineLife ε μ)

/-! ## Calls -/

/-- What one call makes of an engine, and of the list of what has happened to it. -/
def call (s : List LifeEvent × ε) : LifeCall μ → List LifeEvent × ε
  | .prepare machine around =>
    (s.1 ++ [.prepared (m.prepare machine around s.2).1], (m.prepare machine around s.2).2)
  | .execute machine source =>
    (s.1 ++ [.executed (m.execute machine source s.2).1], (m.execute machine source s.2).2)
  | .dispose => (s.1 ++ [.disposed], m.dispose s.2)

/-- What a sequence of calls makes of an engine, and what came of them. -/
def run (e : ε) (calls : List (LifeCall μ)) : List LifeEvent × ε := calls.foldl m.call ([], e)

/-- An engine that is ready has a provider, and the provider that was handed to it is there to
stay. -/
structure Provided (injected : Option Provider) (e : ε) : Prop where
  of_ready : m.isReady e = true → (m.provider e).isSome = true
  own : ∀ p ∈ injected,
    m.injected e = true ∧ ∃ p', m.provider e = some p' ∧ p'.fetch = p.fetch

/-- An engine is still provided for after a change that leaves its modules where they were. -/
theorem Provided.change {injected : Option Provider} {m : EngineLife ε μ} {e e' : ε}
    (h : m.Provided injected e) (hready : m.isReady e' = true → (m.provider e').isSome = true)
    (hinjected : m.injected e' = m.injected e)
    (hkept : m.injected e = true →
      ∀ p, m.provider e = some p → ∃ p', m.provider e' = some p' ∧ p'.fetch = p.fetch) :
    m.Provided injected e' := by
  refine ⟨hready, fun q hq => ?_⟩
  obtain ⟨hyes, p, hp, hfetch⟩ := h.own q hq
  obtain ⟨p', hp', hfetch'⟩ := hkept hyes p hp
  exact ⟨hinjected.trans hyes, p', hp', hfetch'.trans hfetch⟩

/-- What a single call does. -/
structure Lawful (injected : Option Provider) : Prop where
  prepare_of_ready {e : ε} (machine : μ) (around : Surroundings) (ready : m.isReady e = true) :
    m.prepare machine around e = (.ok (), e)
  isReady_prepare {e : ε} (machine : μ) (around : Surroundings) (waiting : m.isReady e = false) :
    m.isReady (m.prepare machine around e).2 = true ↔ (m.prepare machine around e).1 = .ok ()
  provided_prepare {e : ε} (machine : μ) (around : Surroundings)
    (provided : m.Provided injected e) : m.Provided injected (m.prepare machine around e).2
  execute_of_not_ready {e : ε} (machine : μ) (source : String) (waiting : m.isReady e = false) :
    m.execute machine source e = (.error .notReady, e)
  execute_of_ready {e : ε} (machine : μ) (source : String) (provided : m.Provided injected e)
    (ready : m.isReady e = true) :
    m.isReady (m.execute machine source e).2 = true ∧
      (m.execute machine source e).1 ≠ .error .notReady
  provided_execute {e : ε} (machine : μ) (source : String) (provided : m.Provided injected e) :
    m.Provided injected (m.execute machine source e).2
  isReady_dispose (e : ε) : m.isReady (m.dispose e) = false
  dispose_of_not_ready {e : ε} (waiting : m.isReady e = false) : m.dispose e = e
  provided_dispose {e : ε} (provided : m.Provided injected e) : m.Provided injected (m.dispose e)
  /-- Whoever has a provider asks nobody else for modules. -/
  agree {e : ε} {p : Provider} {machine machine' : μ} {around around' : Surroundings}
    (own : m.provider e = some p) (agree : m.Agree p.fetch machine machine')
    (reactor : around.reactor = around'.reactor) :
    m.prepare machine around e = m.prepare machine' around' e ∧
      ∀ source, m.execute machine source e = m.execute machine' source e

/-- What a host may rely on, with an engine to which all this has happened. -/
structure Contract (injected : Option Provider) (past : List LifeEvent) (e : ε) : Prop where
  /-- It is ready if it was made so and has not been disposed of since. -/
  isReady_iff : m.isReady e = true ↔ ReadyAfter past
  /-- It refuses to execute exactly if it is not ready, and has not changed then. -/
  refuses_iff (machine : μ) (source : String) :
    (m.execute machine source e).1 = .error .notReady ↔ m.isReady e = false
  refuses_unchanged (machine : μ) (source : String) :
    m.isReady e = false → (m.execute machine source e).2 = e
  /-- Whatever becomes of an execution, it stays ready. -/
  stays_ready (machine : μ) (source : String) :
    m.isReady e = true → m.isReady (m.execute machine source e).2 = true
  /-- To make it ready when it is, and to dispose of it when it is not, is to do nothing. -/
  prepare_idle (machine : μ) (around : Surroundings) :
    m.isReady e = true → m.prepare machine around e = (.ok (), e)
  dispose_idle : m.isReady e = false → m.dispose e = e
  /-- The provider that was handed to it still serves its modules. -/
  kept : ∀ p ∈ injected, ∃ p', m.provider e = some p' ∧ p'.fetch = p.fetch
  /-- Nothing else does: a client for the network, and what machines would do for anybody else, make
  no difference. -/
  used : ∀ p ∈ injected, ∀ (machine machine' : μ) (around around' : Surroundings),
    m.Agree p.fetch machine machine' → around.reactor = around'.reactor →
      m.prepare machine around e = m.prepare machine' around' e ∧
        ∀ source, m.execute machine source e = m.execute machine' source e

namespace Lawful

variable {m} {injected : Option Provider} {past : List LifeEvent} {e : ε}

/-- What is kept from call to call: the engine has its provider, and is ready as it should be. -/
theorem call (h : m.Lawful injected) (hprovided : m.Provided injected e)
    (hready : m.isReady e = true ↔ ReadyAfter past) (what : LifeCall μ) :
    m.Provided injected (m.call (past, e) what).2 ∧
      (m.isReady (m.call (past, e) what).2 = true ↔ ReadyAfter (m.call (past, e) what).1) := by
  cases what with
  | prepare machine around =>
      refine ⟨h.provided_prepare machine around hprovided, ?_⟩
      change m.isReady (m.prepare machine around e).2 = true ↔
        ReadyAfter (past ++ [.prepared (m.prepare machine around e).1])
      cases hnow : m.isReady e with
      | true =>
          rw [h.prepare_of_ready machine around hnow]
          exact iff_of_true hnow (readyAfter_prepared past)
      | false =>
          rw [h.isReady_prepare machine around hnow]
          cases hresult : (m.prepare machine around e).1 with
          | error why =>
              rw [readyAfter_concat (by simp) (by simp), ← hready, hnow]
              exact iff_of_false nofun nofun
          | ok _ => exact iff_of_true rfl (readyAfter_prepared past)
  | execute machine source =>
      refine ⟨h.provided_execute machine source hprovided, ?_⟩
      change m.isReady (m.execute machine source e).2 = true ↔
        ReadyAfter (past ++ [.executed (m.execute machine source e).1])
      rw [readyAfter_concat (by simp) (by simp), ← hready]
      cases hnow : m.isReady e with
      | true => exact iff_of_true (h.execute_of_ready machine source hprovided hnow).1 rfl
      | false => rw [h.execute_of_not_ready machine source hnow, hnow]
  | dispose =>
      refine ⟨h.provided_dispose hprovided, ?_⟩
      have hnot : m.isReady (m.dispose e) = false := h.isReady_dispose e
      exact iff_of_false (Bool.eq_false_iff.mp hnot) (not_readyAfter_disposed past)

theorem run (h : m.Lawful injected) (hprovided : m.Provided injected e)
    (hready : m.isReady e = false) (calls : List (LifeCall μ)) :
    m.Provided injected (m.run e calls).2 ∧
      (m.isReady (m.run e calls).2 = true ↔ ReadyAfter (m.run e calls).1) := by
  rw [EngineLife.run]
  induction calls using List.reverseRecOn with
  | nil =>
      refine ⟨hprovided, iff_of_false (by rw [List.foldl_nil, hready]; exact nofun) ?_⟩
      rintro ⟨before, after, hpast, -⟩
      simp at hpast
  | append_singleton calls what ih =>
      rw [List.foldl_append, List.foldl_cons, List.foldl_nil]
      exact h.call ih.1 ih.2 what

theorem contract (h : m.Lawful injected) (hprovided : m.Provided injected e)
    (hready : m.isReady e = false) (calls : List (LifeCall μ)) :
    m.Contract injected (m.run e calls).1 (m.run e calls).2 := by
  obtain ⟨hprovided', hready'⟩ := h.run hprovided hready calls
  refine
    { isReady_iff := hready'
      refuses_iff := ?_
      refuses_unchanged := fun machine source hnot =>
        congrArg (·.2) (h.execute_of_not_ready machine source hnot)
      stays_ready := fun machine source hyes =>
        (h.execute_of_ready machine source hprovided' hyes).1
      prepare_idle := fun machine around hyes => h.prepare_of_ready machine around hyes
      dispose_idle := fun hnot => h.dispose_of_not_ready hnot
      kept := fun p hp => (hprovided'.own p hp).2
      used := ?_ }
  · intro machine source
    cases hnow : m.isReady (m.run e calls).2 with
    | true => exact iff_of_false (h.execute_of_ready machine source hprovided' hnow).2 nofun
    | false => exact iff_of_true (congrArg (·.1) (h.execute_of_not_ready machine source hnow)) rfl
  · intro p hp machine machine' around around' hagree hreactor
    obtain ⟨-, p', hp', hfetch⟩ := hprovided'.own p hp
    exact h.agree hp' (hfetch ▸ hagree) hreactor

end Lawful

end EngineLife

/-! ## The interpreter -/

theorem Surroundings.provider_some (around : Surroundings) (s : ModuleSettings) (p : Provider) :
    around.provider s (some p) = .ok p := rfl

namespace InterpreterEngine

/-- An engine at its beginning, to which a provider may have been handed. -/
def start (s : Settings) : Option Provider → InterpreterEngine
  | none => new s
  | some p => (new s).withProvider p

def life (κ ν : Type) : EngineLife InterpreterEngine (Vm κ ν) where
  isReady := ready
  provider := provider
  injected := injected
  prepare vm around e := e.prepare vm around
  execute vm source e := e.execute vm source
  dispose := dispose
  Agree fetch vm vm' :=
    vm.boot = vm'.boot ∧ ∀ r, r.provider.fetch = fetch → vm.execute r = vm'.execute r

variable {κ ν : Type} {e : InterpreterEngine}

/-- An engine that is not ready becomes so or fails; either way it is the engine that it was, but
for a provider where it had none. -/
theorem prepare_cases (vm : Vm κ ν) (around : Surroundings) (hready : e.ready = false) :
    (∃ why provider, e.prepare vm around = (.error why, { e with provider }) ∧
        ∀ p, e.provider = some p → provider = some p) ∨
      ∃ p, e.prepare vm around = (.ok (), { e with provider := some p, ready := true }) ∧
        ∀ p', e.provider = some p' → p = p' := by
  rw [prepare, if_neg (by simp [hready])]
  split
  · exact .inl ⟨_, e.provider, rfl, fun _ hp => hp⟩
  · split
    · exact .inl ⟨_, e.provider, rfl, fun _ hp => hp⟩
    · next p hprovider =>
        have hsame : ∀ p', e.provider = some p' → p = p' := by
          intro p' hp'
          rw [hp', Surroundings.provider_some] at hprovider
          exact (Except.ok.inj hprovider).symm
        simp only
        split
        · exact .inl ⟨_, some p, rfl, fun p' hp' => congrArg some (hsame p' hp')⟩
        · exact .inr ⟨p, rfl, hsame⟩

/-- An engine that is ready runs the source on a machine that asks the provider for modules. -/
theorem execute_of_ready (vm : Vm κ ν) (source : String) (hready : e.ready = true) {p : Provider}
    (hp : e.provider = some p) :
    e.execute vm source =
      match vm.execute { source, limits := e.limits, resolver := e.resolver, provider := p } with
      | .ok o => (.ok o.result, e.conclude p o)
      | .error (.unallocated why) =>
        (.ok (.failed [] why), (e.measured (runNanos 0)).countFailure)
      | .error (.undecided _) => (.error (.crashed "task panicked"), e.measured (runNanos 0)) := by
  cases hrun : vm.execute { source, limits := e.limits, resolver := e.resolver, provider := p } with
  | ok o => simp only [execute, hready, hp, hrun]
  | error why => cases why <;> simp only [execute, hready, hp, hrun]

theorem execute_of_not_ready (vm : Vm κ ν) (source : String) (hready : e.ready = false) :
    e.execute vm source = (.error .notReady, e) := by
  rw [execute, hready]

/-- What a run leaves is the engine with the requests of the run, and measured. -/
theorem conclude_eq (e : InterpreterEngine) (p : Provider) (o : EvalOutcome) :
    ∃ timer counter,
      e.conclude p o =
        { e with provider := some { p with requests := o.requests }, timer, counter } := by
  rw [conclude]
  split <;> exact ⟨_, _, rfl⟩

/-- An execution leaves the engine as ready as it was, and its modules where they were. -/
theorem execute_cases (vm : Vm κ ν) (source : String) (hready : e.ready = true) {p : Provider}
    (hp : e.provider = some p) :
    ∃ provider timer counter,
      (e.execute vm source).2 = { e with provider, timer, counter } ∧
        (∃ p', provider = some p' ∧ p'.fetch = p.fetch) ∧
        (e.execute vm source).1 ≠ .error .notReady := by
  rw [execute_of_ready vm source hready hp]
  split
  · next o _ =>
      obtain ⟨timer, counter, hconclude⟩ := conclude_eq e p o
      exact ⟨_, timer, counter, hconclude, ⟨_, rfl, rfl⟩, nofun⟩
  · exact ⟨e.provider, _, _, rfl, ⟨p, hp, rfl⟩, nofun⟩
  · exact ⟨e.provider, _, _, rfl, ⟨p, hp, rfl⟩, nofun⟩

theorem provided_start (s : Settings) (injected : Option Provider) :
    (life κ ν).Provided injected (start s injected) := by
  cases injected with
  | none => exact ⟨nofun, nofun⟩
  | some p => exact ⟨nofun, fun _ hq => ⟨rfl, p, rfl, congrArg (·.fetch) (Option.some.inj hq)⟩⟩

/-- To be made ready is to succeed at it. -/
theorem ready_prepare (vm : Vm κ ν) (around : Surroundings) (hready : e.ready = false) :
    (e.prepare vm around).2.ready = true ↔ (e.prepare vm around).1 = .ok () := by
  rcases prepare_cases vm around hready with ⟨why, provider, hfail, -⟩ | ⟨p, hok, -⟩
  · rw [hfail]
    exact iff_of_false (Bool.eq_false_iff.mp hready) nofun
  · rw [hok]
    exact iff_of_true rfl rfl

section Provided

variable {injected : Option Provider} (h : (life κ ν).Provided injected e)
include h

theorem provided_prepare (vm : Vm κ ν) (around : Surroundings) :
    (life κ ν).Provided injected (e.prepare vm around).2 := by
  cases hready : e.ready with
  | true => rwa [prepare, if_pos hready]
  | false =>
      rcases prepare_cases vm around hready with ⟨why, provider, hfail, hkept⟩ | ⟨p, hok, hkept⟩
      · rw [hfail]
        exact h.change (fun hyes => absurd hyes (Bool.eq_false_iff.mp hready)) rfl
          fun _ p' hp' => ⟨p', hkept p' hp', rfl⟩
      · rw [hok]
        exact h.change (fun _ => rfl) rfl
          fun _ p' hp' => ⟨p, rfl, congrArg (·.fetch) (hkept p' hp')⟩

theorem provided_execute (vm : Vm κ ν) (source : String) :
    (life κ ν).Provided injected (e.execute vm source).2 := by
  cases hready : e.ready with
  | false => rwa [execute_of_not_ready vm source hready]
  | true =>
      obtain ⟨p, hp⟩ := Option.isSome_iff_exists.mp (h.of_ready hready)
      obtain ⟨_, timer, counter, hnext, ⟨p', rfl, hfetch⟩, -⟩ := execute_cases vm source hready hp
      rw [hnext]
      refine h.change (fun _ => rfl) rfl fun _ q hq => ⟨p', rfl, ?_⟩
      rw [hfetch, Option.some.inj (hp.symm.trans hq)]

theorem provided_dispose : (life κ ν).Provided injected e.dispose := by
  rw [dispose]
  split
  · exact h
  · exact h.change nofun rfl fun hinjected p hp => ⟨p, (if_pos hinjected).trans hp, rfl⟩

end Provided

theorem dispose_of_not_ready (hready : e.ready = false) : e.dispose = e := by
  rw [dispose, if_pos (by simp [hready])]

theorem not_ready_dispose (e : InterpreterEngine) : e.dispose.ready = false := by
  rw [dispose]
  split
  · next hnot => simpa using hnot
  · rfl

/-- An engine with a provider goes neither to the network nor, on the machine, to any other. -/
theorem agree {p : Provider} {vm vm' : Vm κ ν} {around around' : Surroundings}
    (hp : e.provider = some p) (hboot : vm.boot = vm'.boot)
    (hexecute : ∀ r, r.provider.fetch = p.fetch → vm.execute r = vm'.execute r)
    (hreactor : around.reactor = around'.reactor) :
    e.prepare vm around = e.prepare vm' around' ∧
      ∀ source, e.execute vm source = e.execute vm' source := by
  constructor
  · simp only [prepare, hp, Surroundings.provider_some, hboot, hreactor]
  · intro source
    cases hready : e.ready with
    | false => rw [execute_of_not_ready vm source hready, execute_of_not_ready vm' source hready]
    | true =>
        rw [execute_of_ready vm source hready hp, execute_of_ready vm' source hready hp,
          hexecute _ rfl]

theorem lawful (injected : Option Provider) : (life κ ν).Lawful injected where
  prepare_of_ready _ _ ready := if_pos ready
  isReady_prepare vm around waiting := ready_prepare vm around waiting
  provided_prepare vm around provided := provided_prepare provided vm around
  execute_of_not_ready vm source waiting := execute_of_not_ready vm source waiting
  execute_of_ready vm source provided ready := by
    obtain ⟨p, hp⟩ := Option.isSome_iff_exists.mp (provided.of_ready ready)
    obtain ⟨_, _, _, hnext, -, hanswer⟩ := execute_cases vm source ready hp
    exact ⟨congrArg InterpreterEngine.ready hnext |>.trans ready, hanswer⟩
  provided_execute vm source provided := provided_execute provided vm source
  isReady_dispose := not_ready_dispose
  dispose_of_not_ready waiting := dispose_of_not_ready waiting
  provided_dispose := provided_dispose
  agree own same reactor := agree own same.1 same.2 reactor

end InterpreterEngine

/-! ## The realm engine -/

namespace RealmHandle

variable {σ : Type}

theorem spawn_refuses {threads : Threads σ} {config : RealmConfig} {why : EngineError}
    (hspawn : spawn threads config = .error why) : why ≠ .notReady := by
  rw [spawn] at hspawn
  split at hspawn
  · cases hspawn
  · rw [← Except.error.inj hspawn]
    intro hwhy
    cases hwhy

theorem waitReady_refuses (limit : Duration) (h : RealmHandle σ) :
    (h.waitReady limit).1 ≠ .error .notReady := by
  rw [waitReady]
  intro hwhy
  split at hwhy
  · cases hwhy
  · simp only at hwhy
    split at hwhy
    · split at hwhy
      · split at hwhy <;> cases hwhy
      · cases hwhy
    · split at hwhy <;> cases hwhy

theorem receiveOutcome_refuses (limit : Duration) (deadline : Nat) (inbox : List Arrival)
    (h : RealmHandle σ) :
    (receiveOutcome limit deadline inbox h).1 ≠ .error .notReady := by
  induction inbox generalizing h with
  | nil =>
      rw [receiveOutcome]
      intro hwhy
      split at hwhy <;> cases hwhy
  | cons a rest ih =>
      rw [receiveOutcome]
      intro hwhy
      split at hwhy
      · simp only at hwhy
        split at hwhy
        · cases hwhy
        · exact ih _ hwhy
      · cases hwhy

theorem request_refuses (threads : Threads σ) (code : String) (limit : Duration)
    (h : RealmHandle σ) : (h.request threads code limit).1 ≠ .error .notReady := by
  rw [request]
  intro hwhy
  split at hwhy
  · cases hwhy
  · exact receiveOutcome_refuses limit _ _ _ hwhy

theorem request_congr {threads threads' : Threads σ} (hexecute : threads.execute = threads'.execute)
    (code : String) (limit : Duration) (h : RealmHandle σ) :
    h.request threads code limit = h.request threads' code limit := by
  simp only [request, send, hexecute]

end RealmHandle

namespace RealmEngine

variable {σ : Type} {e : RealmEngine σ}

def life (σ : Type) : EngineLife (RealmEngine σ) (Threads σ) where
  isReady := ready
  provider := provider
  injected := injected
  prepare threads around e := e.prepare threads around
  execute threads source e := e.execute threads source
  dispose := dispose
  Agree fetch threads threads' :=
    (∀ config, config.provider.fetch = fetch → threads.spawn config = threads'.spawn config) ∧
      threads.execute = threads'.execute ∧ threads.requests = threads'.requests

/-- An engine that has a provider never says, when it builds a realm, that it is not ready. -/
theorem rebuild_refuses (threads : Threads σ) {p : Provider} (hp : e.provider = some p) :
    (e.rebuild threads).1 ≠ .error .notReady := by
  rw [rebuild, show e.tearDown.provider = some p from hp]
  simp only
  split
  · next hspawn =>
      intro hwhy
      exact RealmHandle.spawn_refuses hspawn (Except.error.inj hwhy)
  · next h hspawn =>
      have hwait := RealmHandle.waitReady_refuses e.settings.readyTimeout h
      split
      · next hresult =>
          rw [show h.waitReady e.settings.readyTimeout = _ from hresult] at hwait
          exact hwait
      · intro hwhy
        cases hwhy

/-- Asking the realm there is leaves the engine as ready as it was, and its modules where they
were. -/
theorem ask_kept (threads : Threads σ) (source : String) {p : Provider}
    (hp : e.provider = some p) :
    ∃ realm provider timer counter,
      (e.ask threads source).2 = { e with realm, provider, timer, counter } ∧
        (∃ p', provider = some p' ∧ p'.fetch = p.fetch) ∧
        (e.ask threads source).1 ≠ .error .notReady := by
  cases hrealm : e.realm with
  | none =>
      rw [ask, hrealm]
      refine ⟨e.realm, e.provider, e.timer, e.counter, rfl, ⟨p, hp, rfl⟩, fun hwhy => ?_⟩
      cases hwhy
  | some h =>
      have hanswer := RealmHandle.request_refuses threads source e.settings.responseTimeout h
      simp only [ask, hrealm]
      obtain ⟨counter, hconclude⟩ := conclude_eq
        (h.request threads source e.settings.responseTimeout).1
        ({ e with realm := some (h.request threads source e.settings.responseTimeout).2 }.measured
          h.now (h.request threads source e.settings.responseTimeout).2.now |>.noteRequests threads
            (h.request threads source e.settings.responseTimeout).2)
      rw [hconclude]
      exact ⟨_, _, _, counter, rfl, ⟨_, congrArg (Option.map _) hp, rfl⟩, hanswer⟩

/-- An execution leaves the engine as ready as it was, and its modules where they were. -/
theorem execute_kept (threads : Threads σ) (source : String) (hready : e.ready = true)
    {p : Provider} (hp : e.provider = some p) :
    ∃ importMap realm provider timer counter,
      (e.execute threads source).2 = { e with importMap, realm, provider, timer, counter } ∧
        (∃ p', provider = some p' ∧ p'.fetch = p.fetch) ∧
        (e.execute threads source).1 ≠ .error .notReady := by
  rw [execute_of_ready threads source hready]
  split
  · have hrefuses := rebuild_refuses threads (e := e.absorb source) hp
    rcases rebuild_cases threads (e.absorb source) with ⟨why, hfail⟩ | ⟨h, hok, -, -⟩
    · rw [hfail] at hrefuses ⊢
      simp only at hrefuses ⊢
      exact ⟨_, _, _, _, _, rfl, ⟨p, hp, rfl⟩, fun hwhy =>
        hrefuses (congrArg Except.error (Except.error.inj hwhy))⟩
    · rw [hok]
      obtain ⟨_, _, _, _, hask, hkept, hanswer⟩ := ask_kept threads source hp (e :=
        { e.absorb source with
          realm := some h, counter := (e.absorb source).counter.increment "realm_rebuilds" 1 })
      exact ⟨_, _, _, _, _, hask, hkept, hanswer⟩
  · obtain ⟨_, _, _, _, hask, hkept, hanswer⟩ := ask_kept threads source hp (e := e.absorb source)
    exact ⟨_, _, _, _, _, hask, hkept, hanswer⟩

/-- An engine that is not ready becomes so or fails; a provider that it had is the one it has, and
its map stays. -/
theorem prepare_cases (threads : Threads σ) (around : Surroundings) (hready : e.ready = false) :
    (∃ why provider realm,
        e.prepare threads around = (.error why, { e with provider, realm }) ∧
          ∀ p, e.provider = some p → provider = some p) ∨
      ∃ p realm counter,
        e.prepare threads around =
            (.ok (), { e with provider := some p, realm, counter, ready := true }) ∧
          ∀ p', e.provider = some p' → p = p' := by
  rw [prepare, if_neg (by simp [hready])]
  split
  · exact .inl ⟨_, e.provider, e.realm, rfl, fun _ hp => hp⟩
  · split
    · exact .inl ⟨_, e.provider, e.realm, rfl, fun _ hp => hp⟩
    · next p hprovider =>
        have hsame : ∀ p', e.provider = some p' → p = p' := by
          intro p' hp'
          rw [hp', Surroundings.provider_some] at hprovider
          exact (Except.ok.inj hprovider).symm
        rcases rebuild_cases threads { e with provider := some p } with
          ⟨why, hfail⟩ | ⟨h, hok, -, -⟩
        · rw [hfail]
          exact .inl ⟨why, some p, none, rfl, fun p' hp' => congrArg some (hsame p' hp')⟩
        · rw [hok]
          exact .inr ⟨p, _, _, rfl, hsame⟩

theorem provided_start (s : Settings) (injected : Option Provider) :
    (life σ).Provided injected (start s injected) := by
  cases injected with
  | none => exact ⟨nofun, nofun⟩
  | some p => exact ⟨nofun, fun _ hq => ⟨rfl, p, rfl, congrArg (·.fetch) (Option.some.inj hq)⟩⟩

/-- To be made ready is to succeed at it. -/
theorem ready_prepare (threads : Threads σ) (around : Surroundings) (hready : e.ready = false) :
    (e.prepare threads around).2.ready = true ↔ (e.prepare threads around).1 = .ok () := by
  rcases prepare_cases threads around hready with ⟨why, _, _, hfail, -⟩ | ⟨p, _, _, hok, -⟩
  · rw [hfail]
    exact iff_of_false (Bool.eq_false_iff.mp hready) nofun
  · rw [hok]
    exact iff_of_true rfl rfl

section Provided

variable {injected : Option Provider} (h : (life σ).Provided injected e)
include h

theorem provided_prepare (threads : Threads σ) (around : Surroundings) :
    (life σ).Provided injected (e.prepare threads around).2 := by
  cases hready : e.ready with
  | true => rwa [prepare, if_pos hready]
  | false =>
      rcases prepare_cases threads around hready with
        ⟨why, provider, _, hfail, hkept⟩ | ⟨p, _, _, hok, hkept⟩
      · rw [hfail]
        exact h.change (fun hyes => absurd hyes (Bool.eq_false_iff.mp hready)) rfl
          fun _ p' hp' => ⟨p', hkept p' hp', rfl⟩
      · rw [hok]
        exact h.change (fun _ => rfl) rfl
          fun _ p' hp' => ⟨p, rfl, congrArg (·.fetch) (hkept p' hp')⟩

theorem provided_execute (threads : Threads σ) (source : String) :
    (life σ).Provided injected (e.execute threads source).2 := by
  cases hready : e.ready with
  | false => rwa [execute_of_not_ready threads source hready]
  | true =>
      obtain ⟨p, hp⟩ := Option.isSome_iff_exists.mp (h.of_ready hready)
      obtain ⟨_, _, _, _, _, hnext, ⟨p', rfl, hfetch⟩, -⟩ :=
        execute_kept threads source hready hp
      rw [hnext]
      refine h.change (fun _ => rfl) rfl fun _ q hq => ⟨p', rfl, ?_⟩
      rw [hfetch, Option.some.inj (hp.symm.trans hq)]

theorem provided_dispose : (life σ).Provided injected e.dispose := by
  rw [dispose]
  split
  · exact h
  · exact h.change (fun hready => absurd hready Bool.false_ne_true) rfl
      fun hinjected p hp => ⟨p, (if_pos hinjected).trans hp, rfl⟩

end Provided

theorem dispose_of_not_ready (hready : e.ready = false) : e.dispose = e := by
  rw [dispose, if_pos (by simp [hready])]

theorem not_ready_dispose (e : RealmEngine σ) : e.dispose.ready = false := by
  rw [dispose]
  split
  · next hnot => simpa using hnot
  · rfl

section Agree

variable {threads threads' : Threads σ} (hexecute : threads.execute = threads'.execute)
  (hrequests : threads.requests = threads'.requests)
include hexecute hrequests

theorem ask_agree (source : String) : e.ask threads source = e.ask threads' source := by
  rw [ask, ask]
  split
  · rfl
  · simp only [RealmHandle.request_congr hexecute, noteRequests, hrequests]

omit hexecute hrequests in
theorem rebuild_agree {p : Provider} (hp : e.provider = some p)
    (hspawn : ∀ config : RealmConfig, config.provider.fetch = p.fetch →
      threads.spawn config = threads'.spawn config) :
    e.rebuild threads = e.rebuild threads' := by
  simp only [rebuild, show e.tearDown.provider = some p from hp, RealmHandle.spawn,
    hspawn (e.tearDown.config p) rfl]

/-- An engine with a provider goes neither to the network nor, on a thread, to any other. -/
theorem agree {p : Provider} {around around' : Surroundings} (hp : e.provider = some p)
    (hspawn : ∀ config : RealmConfig, config.provider.fetch = p.fetch →
      threads.spawn config = threads'.spawn config)
    (hreactor : around.reactor = around'.reactor) :
    e.prepare threads around = e.prepare threads' around' ∧
      ∀ source, e.execute threads source = e.execute threads' source := by
  constructor
  · simp only [prepare, hp, Surroundings.provider_some, hreactor,
      rebuild_agree (e := { e with provider := some p }) rfl hspawn]
  · intro source
    cases hready : e.ready with
    | false =>
        rw [execute_of_not_ready threads source hready, execute_of_not_ready threads' source hready]
    | true =>
        simp only [execute_of_ready _ source hready, ask_agree hexecute hrequests,
          rebuild_agree (e := e.absorb source) hp hspawn]

end Agree

/-- The realm engine is lawful. -/
theorem lawful (injected : Option Provider) : (life σ).Lawful injected where
  prepare_of_ready _ _ ready := if_pos ready
  isReady_prepare threads around waiting := ready_prepare threads around waiting
  provided_prepare threads around provided := provided_prepare provided threads around
  execute_of_not_ready threads source waiting := execute_of_not_ready threads source waiting
  execute_of_ready threads source provided ready := by
    obtain ⟨p, hp⟩ := Option.isSome_iff_exists.mp (provided.of_ready ready)
    obtain ⟨_, _, _, _, _, hnext, -, hanswer⟩ := execute_kept threads source ready hp
    exact ⟨congrArg RealmEngine.ready hnext |>.trans ready, hanswer⟩
  provided_execute threads source provided := provided_execute provided threads source
  isReady_dispose := not_ready_dispose
  dispose_of_not_ready waiting := dispose_of_not_ready waiting
  provided_dispose := provided_dispose
  agree own same reactor := agree same.2.1 same.2.2 own same.1 reactor

/-- Only an execution adds to the map. -/
theorem call_importMap (s : List LifeEvent × RealmEngine σ) {what : LifeCall (Threads σ)}
    (hnone : ¬ what.IsExecution) : ((life σ).call s what).2.importMap = s.2.importMap := by
  obtain ⟨past, e⟩ := s
  cases what with
  | prepare threads around =>
      change (e.prepare threads around).2.importMap = e.importMap
      cases hready : e.ready with
      | true => rw [prepare, if_pos hready]
      | false =>
          rcases prepare_cases threads around hready with ⟨_, _, _, hfail, -⟩ | ⟨_, _, _, hok, -⟩
          · rw [hfail]
          · rw [hok]
  | execute threads source => exact absurd trivial hnone
  | dispose =>
      change e.dispose.importMap = e.importMap
      rw [dispose]
      split <;> rfl

theorem run_importMap (e : RealmEngine σ) (calls : List (LifeCall (Threads σ)))
    {more : List (LifeCall (Threads σ))} (hnone : ∀ what ∈ more, ¬ what.IsExecution) :
    ((life σ).run e (calls ++ more)).2.importMap = ((life σ).run e calls).2.importMap := by
  rw [EngineLife.run, EngineLife.run, List.foldl_append]
  generalize calls.foldl (life σ).call ([], e) = s
  induction more generalizing s with
  | nil => rfl
  | cons what more ih =>
      rw [List.forall_mem_cons] at hnone
      rw [List.foldl_cons, ih hnone.2, call_importMap s hnone.1]

end RealmEngine

/-! ## The contract -/

end ScriptSandbox
