import Mathlib
import ScriptSandbox.Proofs.Engine.RealmRun
import ScriptSandbox.Proofs.Realm.Handle

/-!
# Whose outcome an execution returns

A realm answers its requests in their order and does not say which one an outcome belongs to. An
engine that went on with a realm after a request was given up would take the outcome of that request
for the next one's. It does not: whenever there is a realm, nothing is on its way from it but the
signal of readiness (`AllQuiet`), since every way out of an execution but the good one lets the realm
go. The main result is `answer_is_own`.

Threads may do anything at each call, and between two calls anything may become of what is on its
way (`Later`): it may be late, and it may never come because the thread has ended. The waits may be
given any limits.
-/

namespace ScriptSandbox.RealmEngine

variable {σ : Type}

/-! ## The life of an engine -/

/-- A realm some time later, when no call has been made: the messages on its way may be late, and
from some point on they may be lost; the thread may have ended. -/
structure Later (h h' : RealmHandle σ) : Prop where
  thread : h'.thread = h.thread
  importMap : h'.importMap = h.importMap
  underway : h'.underway <+: h.underway

/-- An engine that comes about by calls, each of them driven to its end, while time goes by in
between. -/
inductive Reached (s : Settings) (p : Option Provider) : RealmEngine σ → Prop where
  | start : Reached s p (start s p)
  | call {e : RealmEngine σ} (before : Reached s p e) (what : RealmCall σ) :
      Reached s p (e.call what)
  | wait {e : RealmEngine σ} {h h' : RealmHandle σ} (before : Reached s p e)
      (hrealm : e.realm = some h) (later : Later h h') : Reached s p { e with realm := some h' }
  | limits {e : RealmEngine σ} (before : Reached s p e) (settings : RealmSettings) :
      Reached s p { e with settings }

/-- From the realm there is, nothing is on its way but the signal of readiness. -/
def AllQuiet (e : RealmEngine σ) : Prop := ∀ h, e.realm = some h → h.Quiet

/-! ## Realms that are asked -/

/-- Building a realm leaves none, or one whose thread has just been started. -/
theorem rebuild_spawned (threads : Threads σ) (e : RealmEngine σ) :
    (∃ why, e.rebuild threads = (.error why, e.tearDown)) ∨
      ∃ p h, e.provider = some p ∧ RealmHandle.spawn threads (e.config p) = .ok h ∧
        e.rebuild threads = (.ok (),
          { e with
            realm := some (h.waitReady e.settings.readyTimeout).2
            counter := e.counter.increment "realm_rebuilds" 1 }) := by
  rw [rebuild]
  split
  · exact .inl ⟨_, rfl⟩
  · next p hprovider =>
      split
      · exact .inl ⟨_, rfl⟩
      · next h hspawn =>
          split
          · exact .inl ⟨_, rfl⟩
          · next h' hready =>
              refine .inr ⟨p, h, hprovider, hspawn, ?_⟩
              rw [show h.waitReady e.settings.readyTimeout = _ from hready]
              rfl

theorem rebuild_quiet (threads : Threads σ) (e : RealmEngine σ) :
    AllQuiet (e.rebuild threads).2 := by
  rcases rebuild_spawned threads e with ⟨why, hfail⟩ | ⟨p, h, -, hspawn, hok⟩
  · rw [hfail]
    rintro _ ⟨⟩
  · rw [hok]
    rintro _ ⟨⟩
    exact (RealmHandle.spawn_quiet hspawn).waitReady _

/-- An answer is that of the realm; without one the realm is gone. -/
theorem ask_eq (threads : Threads σ) (source : String) {e : RealmEngine σ} {h : RealmHandle σ}
    (hrealm : e.realm = some h) :
    (e.ask threads source).1 = (h.request threads source e.settings.responseTimeout).1 ∧
      (e.ask threads source).2.realm = (e.ask threads source).1.toOption.map fun _ =>
        (h.request threads source e.settings.responseTimeout).2 := by
  simp only [ask, hrealm]
  obtain ⟨counter, hconclude⟩ := conclude_eq
    (h.request threads source e.settings.responseTimeout).1
    ({ e with realm := some (h.request threads source e.settings.responseTimeout).2 }.measured h.now
      (h.request threads source e.settings.responseTimeout).2.now |>.noteRequests threads
        (h.request threads source e.settings.responseTimeout).2)
  rw [hconclude]
  refine ⟨rfl, ?_⟩
  cases (h.request threads source e.settings.responseTimeout).1 <;> rfl

/-- A realm from which nothing is on its way answers with what its thread makes of the source, and
goes on with nothing on its way. -/
theorem ask_ok {threads : Threads σ} {source : String} {e : RealmEngine σ} (hquiet : AllQuiet e)
    {o : Outcome} (hok : (e.ask threads source).1 = .ok o) :
    ∃ h span h', e.realm = some h ∧ h.Quiet ∧
      threads.execute source h.thread = (.done span o, h'.thread) ∧
      (e.ask threads source).2.realm = some h' ∧ h'.inbox = [] := by
  cases hrealm : e.realm with
  | none =>
      rw [ask, hrealm] at hok
      cases hok
  | some h =>
      obtain ⟨hanswer, hnext⟩ := ask_eq threads source hrealm
      rw [hok] at hanswer hnext
      obtain ⟨span, hrun, hnil⟩ := RealmHandle.request_ok (hquiet h hrealm) hanswer.symm
      exact ⟨h, span, _, rfl, hquiet h hrealm, hrun, hnext, hnil⟩

theorem ask_error {threads : Threads σ} {source : String} {e : RealmEngine σ} {why : EngineError}
    (herror : (e.ask threads source).1 = .error why) : (e.ask threads source).2.realm = none := by
  cases hrealm : e.realm with
  | none =>
      rw [ask, hrealm]
      exact hrealm
  | some h =>
      rw [(ask_eq threads source hrealm).2, herror]
      rfl

/-! ## What every call keeps -/

/-- The realm that an execution asks: the one there is, or a new one if the source needs it. -/
def Asked (threads : Threads σ) (source : String) (e : RealmEngine σ) (h : RealmHandle σ) : Prop :=
  if e.outgrown source then
    ∃ p fresh, e.provider = some p ∧
      RealmHandle.spawn threads ((e.absorb source).config p) = .ok fresh ∧
      h = (fresh.waitReady e.settings.readyTimeout).2
  else e.realm = some h

/-- The realm that an execution asks has nothing on its way but the signal of readiness. The outcome
is what it makes of the source, and nothing is on its way afterwards. -/
theorem execute_ok {threads : Threads σ} {source : String} {e : RealmEngine σ} (hquiet : AllQuiet e)
    {o : Outcome} (hok : (e.execute threads source).1 = .ok o) :
    ∃ h span h', Asked threads source e h ∧ h.Quiet ∧
      threads.execute source h.thread = (.done span o, h'.thread) ∧
      (e.execute threads source).2.realm = some h' ∧ h'.inbox = [] := by
  cases hready : e.ready with
  | false =>
      rw [execute_of_not_ready threads source hready] at hok
      cases hok
  | true =>
      rw [execute_of_ready threads source hready] at hok ⊢
      cases hgrown : e.outgrown source with
      | true =>
          rw [hgrown, if_pos rfl] at hok
          rw [if_pos rfl]
          have hnew := rebuild_quiet threads (e.absorb source)
          rcases rebuild_spawned threads (e.absorb source) with
            ⟨why, hfail⟩ | ⟨p, fresh, hprovider, hspawn, hbuilt⟩
          · rw [hfail] at hok
            cases hok
          · rw [hbuilt] at hok hnew ⊢
            obtain ⟨h, span, h', hrealm, hasked⟩ := ask_ok hnew hok
            refine ⟨h, span, h', ?_, hasked⟩
            rw [Asked, hgrown, if_pos rfl]
            exact ⟨p, fresh, hprovider, hspawn, (Option.some.inj hrealm).symm⟩
      | false =>
          rw [hgrown, if_neg Bool.false_ne_true] at hok
          rw [if_neg Bool.false_ne_true]
          have habsorbed : AllQuiet (e.absorb source) := hquiet
          obtain ⟨h, span, h', hrealm, hasked⟩ := ask_ok habsorbed hok
          refine ⟨h, span, h', ?_, hasked⟩
          rw [Asked, hgrown, if_neg Bool.false_ne_true]
          exact hrealm

/-- An execution that fails leaves no realm. -/
theorem execute_error {threads : Threads σ} {source : String} {e : RealmEngine σ} (hlive : Live e)
    {why : EngineError} (herror : (e.execute threads source).1 = .error why) :
    (e.execute threads source).2.realm = none := by
  cases hready : e.ready with
  | false =>
      rw [execute_of_not_ready threads source hready]
      cases hrealm : e.realm with
      | none => rfl
      | some h => exact absurd (hlive.ready h hrealm) (by simp [hready])
  | true =>
      rw [execute_of_ready threads source hready] at herror ⊢
      split at herror
      · next hgrown =>
          rw [if_pos hgrown]
          rcases rebuild_spawned threads (e.absorb source) with ⟨why, hfail⟩ | ⟨p, h, -, -, hbuilt⟩
          · rw [hfail]
            rfl
          · rw [hbuilt] at herror ⊢
            exact ask_error herror
      · next hkept =>
          rw [if_neg hkept]
          exact ask_error herror

theorem execute_quiet {threads : Threads σ} {source : String} {e : RealmEngine σ} (hlive : Live e)
    (hquiet : AllQuiet e) : AllQuiet (e.execute threads source).2 := by
  intro h hrealm
  cases hanswer : (e.execute threads source).1 with
  | ok o =>
      obtain ⟨-, -, h', -, -, -, hnext, hnil⟩ := execute_ok hquiet hanswer
      obtain rfl := Option.some.inj (hnext.symm.trans hrealm)
      exact RealmHandle.quiet_of_inbox_nil hnil
  | error why => cases (execute_error hlive hanswer).symm.trans hrealm

theorem prepare_quiet {e : RealmEngine σ} (hquiet : AllQuiet e) (threads : Threads σ)
    (around : Surroundings) : AllQuiet (e.prepare threads around).2 := by
  rw [prepare]
  split
  · exact hquiet
  · split
    · exact hquiet
    · split
      · exact hquiet
      · next p hp =>
          have hnew := rebuild_quiet threads { e with provider := some p }
          split <;> next heq =>
            rw [heq] at hnew
            exact hnew

theorem call_quiet {e : RealmEngine σ} (hlive : Live e) (hquiet : AllQuiet e)
    (what : RealmCall σ) : AllQuiet (e.call what) := by
  cases what with
  | prepare threads around => exact prepare_quiet hquiet threads around
  | execute threads source => exact execute_quiet hlive hquiet
  | clearImportMap => rintro _ ⟨⟩
  | dispose =>
      rw [call, dispose]
      split
      · exact hquiet
      · rintro _ ⟨⟩

/-- So it is with every engine that comes about. -/
theorem Reached.quiet {s : Settings} {p : Option Provider} {e : RealmEngine σ} (h : Reached s p e) :
    Live e ∧ AllQuiet e := by
  induction h with
  | start =>
      refine ⟨.start s p, ?_⟩
      cases p <;> rintro _ ⟨⟩
  | call _ what ih => exact ⟨ih.1.call what, call_quiet ih.1 ih.2 what⟩
  | @wait e h h' _ hrealm later ih =>
      obtain ⟨hlive, hquiet⟩ := ih
      refine ⟨⟨hlive.provided, fun _ _ => hlive.ready h hrealm, ?_⟩, ?_⟩
      · rintro _ ⟨⟩
        exact later.importMap.trans (hlive.current h hrealm)
      · rintro _ ⟨⟩
        exact later.underway.trans (hquiet h hrealm)
  | limits _ settings ih => exact ⟨⟨ih.1.provided, ih.1.ready, ih.1.current⟩, ih.2⟩

/-- However calls, delays, deaths and limits come together: when an execution begins, nothing is on
its way from the realm but the signal of readiness, and so it is with the realm that it asks. An
outcome that it returns is what the thread of that realm then makes of its source; it leaves nothing
on its way behind it. If it returns none, the realm is gone, and what it may yet say is heard by
nobody. -/
theorem answer_is_own {s : Settings} {p : Option Provider} {e : RealmEngine σ}
    (h : Reached s p e) (threads : Threads σ) (source : String) :
    AllQuiet e ∧
      (∀ o, (e.execute threads source).1 = .ok o →
        ∃ asked span left, Asked threads source e asked ∧ asked.Quiet ∧
          threads.execute source asked.thread = (.done span o, left.thread) ∧
          (e.execute threads source).2.realm = some left ∧ left.inbox = []) ∧
      ∀ why, (e.execute threads source).1 = .error why →
        (e.execute threads source).2.realm = none :=
  ⟨h.quiet.2, fun _ hok => execute_ok h.quiet.2 hok, fun _ herror => execute_error h.quiet.1 herror⟩

/-- A source that names no module leaves the map as it is. -/
theorem absorb_eq_self {source : String} (hscan : Scan.scanImports source = [])
    (e : RealmEngine σ) : e.absorb source = e ∧ e.outgrown source = e.realm.isNone := by
  rw [absorb, outgrown, ImportMap.mergeFromSource, hscan]
  exact ⟨rfl, rfl⟩

/-- Threads that take fixed times to be ready and to be done; an outcome shows its source, and the
thread counts the sources. -/
def paced (readyAfter doneAfter : Nat) : Threads Nat where
  spawn _ := .ok (.done readyAfter (), 0)
  execute code n := (.done doneAfter (.completed [] (some code)), n + 1)
  requests _ := []

/-- An engine that was made ready, by a realm that is a second late. -/
def late : RealmEngine Nat :=
  ((start {} none).prepare (paced 4000000000 0) (.onNetwork fun _ => .error "offline")).2

/-- The late realm takes too long for the first source; the second source is answered by a new
one. -/
theorem answer_is_own_after_timeout :
    Reached {} none late ∧ late.realm.map RealmHandle.underway = some [.ready] ∧
      (late.execute (paced 0 40000000000) "1").1 = .error (.protocolTimeout (.ofMillis 30000)) ∧
      (late.execute (paced 0 40000000000) "1").2.realm = none ∧
      ((late.execute (paced 0 40000000000) "1").2.execute (paced 0 0) "2").1 =
        .ok (.completed [] (some "2")) ∧
      AllQuiet ((late.execute (paced 0 40000000000) "1").2.execute (paced 0 0) "2").2 := by
  have hfirst : Scan.scanImports "1" = [] := by cbv
  have hsecond : Scan.scanImports "2" = [] := by cbv
  have hlate : Reached {} none late := .call .start (.prepare _ _)
  have hask : late.execute (paced 0 40000000000) "1" = late.ask (paced 0 40000000000) "1" := by
    rw [execute_of_ready _ _ rfl, (absorb_eq_self hfirst late).1, (absorb_eq_self hfirst late).2]
    rfl
  have htimeout : (late.execute (paced 0 40000000000) "1").1 =
      .error (.protocolTimeout (.ofMillis 30000)) := by
    rw [hask]
    rfl
  have hgone := (answer_is_own hlate (paced 0 40000000000) "1").2.2 _ htimeout
  have hagain := (hlate.call (.execute (paced 0 40000000000) "1")).call (.execute (paced 0 0) "2")
  refine ⟨hlate, rfl, htimeout, hgone, ?_, (answer_is_own hagain (paced 0 0) "2").1⟩
  have hready : (late.ask (paced 0 40000000000) "1").2.ready = true := rfl
  rw [hask, execute_of_ready _ _ hready, (absorb_eq_self hsecond _).1, (absorb_eq_self hsecond _).2]
  rfl

end ScriptSandbox.RealmEngine
