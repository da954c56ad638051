import ScriptSandbox.Engine.Realm
import ScriptSandbox.Proofs.Modules.ImportMap
import ScriptSandbox.Proofs.Realm.Handle

/-!
# Runs of a realm engine

What each call of the engine can do is said once (`rebuild_cases`, `ask_cases`, `execute_of_ready`).
A realm cannot learn of new specifiers, so it must go whenever the map changes: when the map has
grown, when it is cleared, and when a new realm fails to come about half-way. `Live` says that it
does, and every call keeps it so, whatever becomes of threads, waits and requests.
-/

namespace ScriptSandbox

/-- A call of an engine; what its threads do, and what it finds around it, may be another thing each
time. -/
inductive RealmCall (σ : Type) where
  | prepare (threads : Threads σ) (around : Surroundings)
  | execute (threads : Threads σ) (source : String)
  | clearImportMap
  | dispose

namespace RealmEngine

variable {σ : Type}

/-- An engine at its beginning, to which a provider may have been handed. -/
def start (s : Settings) : Option Provider → RealmEngine σ
  | none => new s
  | some p => (new s).withProvider p

def call (e : RealmEngine σ) : RealmCall σ → RealmEngine σ
  | .prepare threads around => (e.prepare threads around).2
  | .execute threads source => (e.execute threads source).2
  | .clearImportMap => e.clearImportMap
  | .dispose => e.dispose

def run (e : RealmEngine σ) (calls : List (RealmCall σ)) : RealmEngine σ := calls.foldl call e

def absorb (e : RealmEngine σ) (source : String) : RealmEngine σ :=
  { e with importMap := (e.importMap.mergeFromSource source e.resolver).2 }

def outgrown (e : RealmEngine σ) (source : String) : Bool :=
  (e.importMap.mergeFromSource source e.resolver).1 || e.realm.isNone

/-! ## What a call can do -/

/-- Building a realm leaves none, or one with the present map; for that there must be a provider. -/
theorem rebuild_cases (threads : Threads σ) (e : RealmEngine σ) :
    (∃ why, e.rebuild threads = (.error why, e.tearDown)) ∨
      ∃ h, e.rebuild threads = (.ok (),
          { e with realm := some h, counter := e.counter.increment "realm_rebuilds" 1 }) ∧
        h.importMap = e.importMap ∧ e.provider.isSome = true := by
  rw [rebuild]
  split
  · exact .inl ⟨_, rfl⟩
  · next p hprovider =>
      split
      · exact .inl ⟨_, rfl⟩
      · next h hspawn =>
          have hmap := RealmHandle.waitReady_importMap e.settings.readyTimeout h
          split
          · exact .inl ⟨_, rfl⟩
          · next h' hready =>
              rw [show h.waitReady e.settings.readyTimeout = _ from hready] at hmap
              exact .inr ⟨h', rfl, hmap.trans (RealmHandle.spawn_importMap hspawn),
                Option.isSome_iff_exists.mpr ⟨p, hprovider⟩⟩

/-- A request that is answered leaves the realm, one that is not leaves none. -/
theorem conclude_eq (response : Except EngineError Outcome) (e : RealmEngine σ) :
    ∃ counter, conclude response e =
      (response, { e with counter, realm := response.toOption.bind fun _ => e.realm }) := by
  cases response with
  | ok o =>
      rw [conclude]
      split <;> exact ⟨_, rfl⟩
  | error why => cases why <;> exact ⟨_, rfl⟩

/-- Asking the realm there is changes neither the map nor whether there is a provider; the realm
stays if it answers and goes if it does not. -/
theorem ask_cases (threads : Threads σ) (source : String) {e : RealmEngine σ} {h : RealmHandle σ}
    (hrealm : e.realm = some h) :
    ∃ realm provider timer counter,
      (e.ask threads source).2 = { e with realm, provider, timer, counter } ∧
        provider.isSome = e.provider.isSome ∧
        ((∃ o, (e.ask threads source).1 = .ok o) ∧
            (∃ h', realm = some h' ∧ h'.importMap = h.importMap) ∨
          (∃ why, (e.ask threads source).1 = .error why) ∧ realm = none) := by
  have hmap := RealmHandle.request_importMap threads source e.settings.responseTimeout h
  simp only [ask, hrealm]
  obtain ⟨counter, hconclude⟩ := conclude_eq
    (h.request threads source e.settings.responseTimeout).1
    ({ e with realm := some (h.request threads source e.settings.responseTimeout).2 }.measured h.now
      (h.request threads source e.settings.responseTimeout).2.now |>.noteRequests threads
        (h.request threads source e.settings.responseTimeout).2)
  rw [hconclude]
  refine ⟨_, _, _, _, rfl, Option.isSome_map .., ?_⟩
  cases (h.request threads source e.settings.responseTimeout).1 with
  | ok o => exact .inl ⟨⟨o, rfl⟩, _, rfl, hmap⟩
  | error why => exact .inr ⟨⟨why, rfl⟩, rfl⟩

/-- An engine that is ready builds a realm if it needs one, and asks it if there is one then. -/
theorem execute_of_ready (threads : Threads σ) (source : String) {e : RealmEngine σ}
    (hready : e.ready = true) :
    e.execute threads source =
      if e.outgrown source then
        match (e.absorb source).rebuild threads with
        | (.error why, e) => (.error why, e)
        | (.ok _, e) => e.ask threads source
      else (e.absorb source).ask threads source := by
  rw [execute, if_neg (by simp [hready])]
  rfl

theorem execute_of_not_ready (threads : Threads σ) (source : String) {e : RealmEngine σ}
    (hready : e.ready = false) : e.execute threads source = (.error .notReady, e) := by
  rw [execute, if_pos (by simp [hready])]

theorem rebuild_importMap (threads : Threads σ) (e : RealmEngine σ) :
    (e.rebuild threads).2.importMap = e.importMap := by
  rcases rebuild_cases threads e with ⟨why, hfail⟩ | ⟨r, hok, -, -⟩
  · rw [hfail]
    rfl
  · rw [hok]

theorem ask_importMap (threads : Threads σ) (source : String) (e : RealmEngine σ) :
    (e.ask threads source).2.importMap = e.importMap := by
  cases hrealm : e.realm with
  | none => rw [ask, hrealm]
  | some r =>
      obtain ⟨realm, provider, timer, counter, hask, -, -⟩ := ask_cases threads source hrealm
      rw [hask]

theorem execute_importMap (threads : Threads σ) (source : String) {e : RealmEngine σ}
    (hready : e.ready = true) :
    (e.execute threads source).2.importMap = (e.absorb source).importMap := by
  rw [execute_of_ready threads source hready]
  split
  · have hmap := rebuild_importMap threads (e.absorb source)
    split
    · next heq => rw [← hmap, heq]
    · next heq => rw [ask_importMap, ← hmap, heq]
  · exact ask_importMap ..

/-- A source outgrows an engine if it lets the map grow, or if there is no realm. -/
theorem outgrown_iff (e : RealmEngine σ) (source : String) :
    e.outgrown source = true ↔
      (e.absorb source).importMap ≠ e.importMap ∨ e.realm.isNone = true := by
  rw [outgrown, Bool.or_eq_true, ImportMap.mergeFromSource_grew_iff]
  rfl

/-! ## The realm there is -/

/-- If there is a realm, the engine is ready and the realm has its import map; an engine that is
ready has a provider. -/
structure Live (e : RealmEngine σ) : Prop where
  provided : e.ready = true → e.provider.isSome = true
  ready : ∀ h, e.realm = some h → e.ready = true
  current : ∀ h, e.realm = some h → h.importMap = e.importMap

namespace Live

variable {e : RealmEngine σ}

/-- Without a realm, nothing is asked of the map. -/
theorem of_no_realm (hprovided : e.ready = true → e.provider.isSome = true)
    (hnone : e.realm = none) : Live e where
  provided := hprovided
  ready _ hh := nomatch hnone.symm.trans hh
  current _ hh := nomatch hnone.symm.trans hh

theorem start (s : Settings) (p : Option Provider) : Live (start s p : RealmEngine σ) := by
  refine of_no_realm ?_ ?_
  · cases p <;> exact fun h => (nomatch h)
  · cases p <;> rfl

theorem prepare (h : Live e) (threads : Threads σ) (around : Surroundings) :
    Live (e.prepare threads around).2 := by
  rw [RealmEngine.prepare]
  split
  · exact h
  · next hready =>
      split
      · exact h
      · split
        · exact h
        · next p hp =>
            have hcases := rebuild_cases threads { e with provider := some p }
            rcases hcases with ⟨why, hfail⟩ | ⟨r, hok, hmap, -⟩
            · rw [hfail]
              exact of_no_realm (fun hr => absurd hr hready) rfl
            · rw [hok]
              exact ⟨fun _ => rfl, fun _ _ => rfl, fun r' hr' => Option.some.inj hr' ▸ hmap⟩

/-- A new realm has the present map. -/
theorem rebuild (hprovided : e.provider.isSome = true) (hready : e.ready = true)
    (threads : Threads σ) : Live (e.rebuild threads).2 := by
  rcases rebuild_cases threads e with ⟨why, hfail⟩ | ⟨r, hok, hmap, -⟩
  · rw [hfail]
    exact of_no_realm (fun _ => hprovided) rfl
  · rw [hok]
    exact ⟨fun _ => hprovided, fun _ _ => hready, fun r' hr' => Option.some.inj hr' ▸ hmap⟩

/-- Asking the realm there is leaves it there with its map, or leaves none. -/
theorem ask (h : Live e) (threads : Threads σ) (source : String) :
    Live (e.ask threads source).2 := by
  cases hrealm : e.realm with
  | none =>
      rw [RealmEngine.ask, hrealm]
      exact h
  | some r =>
      have hready := h.ready r hrealm
      obtain ⟨realm, provider, timer, counter, hask, hsome, hcases⟩ :=
        ask_cases threads source hrealm
      rw [hask]
      refine ⟨fun _ => hsome.trans (h.provided hready), fun _ _ => hready, fun r' hr' => ?_⟩
      rcases hcases with ⟨-, h', hh', hmap'⟩ | ⟨-, hnone⟩
      · rw [← h.current r hrealm, ← hmap', Option.some.inj (hh'.symm.trans hr')]
      · exact nomatch hnone.symm.trans hr'

/-- An engine that a source does not outgrow has its realm for the map with the source. -/
theorem absorb (h : Live e) {source : String} (hkept : e.outgrown source = false) :
    Live (e.absorb source) := by
  have hsame : (e.absorb source).importMap = e.importMap :=
    Decidable.byContradiction fun hne =>
      Bool.eq_false_iff.mp hkept ((outgrown_iff e source).mpr (.inl hne))
  exact ⟨h.provided, h.ready, fun r hr => (h.current r hr).trans hsame.symm⟩

theorem execute (h : Live e) (threads : Threads σ) (source : String) :
    Live (e.execute threads source).2 := by
  cases hready : e.ready with
  | false =>
      rw [execute_of_not_ready threads source hready]
      exact h
  | true =>
      rw [execute_of_ready threads source hready]
      split
      · have hlive : Live ((e.absorb source).rebuild threads).2 :=
          rebuild (e := e.absorb source) (h.provided hready) hready threads
        split
        · next heq => rwa [heq] at hlive
        · next heq =>
            rw [heq] at hlive
            exact hlive.ask threads source
      · next hkept => exact (h.absorb (Bool.eq_false_iff.mpr hkept)).ask threads source

theorem call (h : Live e) (what : RealmCall σ) : Live (e.call what) := by
  cases what with
  | prepare threads around => exact h.prepare threads around
  | execute threads source => exact h.execute threads source
  | clearImportMap => exact of_no_realm h.provided rfl
  | dispose =>
      rw [RealmEngine.call, dispose]
      split
      · exact h
      · exact of_no_realm (fun hr => (nomatch hr)) rfl

theorem run (h : Live e) (calls : List (RealmCall σ)) : Live (e.run calls) := by
  induction calls generalizing e with
  | nil => exact h
  | cons what calls ih => exact ih (h.call what)

end Live

end RealmEngine

end ScriptSandbox
