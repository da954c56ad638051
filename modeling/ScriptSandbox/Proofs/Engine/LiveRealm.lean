import ScriptSandbox.Proofs.Engine.RealmRun

/-!
# What an execution does to realms

`executeTraced` is `execute` with a note of each realm that was to be built and of each source that
was sent. From an engine whose realm is the one for its map (`Live`) the trace is known up to
whether things went well: a realm is built first if the source needs one, and what is sent goes to a
realm whose map has all that the source names. The main result is `live_realm_is_current`.
-/

namespace ScriptSandbox

/-- What happens to realms during an execution. -/
inductive RealmEvent where
  /-- A realm was to be built from a map; tells whether there is one now. -/
  | rebuilt (map : ImportMap) (succeeded : Bool)
  /-- A source was sent to a realm that was built from a map. -/
  | sent (map : ImportMap) (source : String)
  deriving DecidableEq

def RealmEvent.rebuiltFrom? : RealmEvent → Option ImportMap
  | .rebuilt map _ => some map
  | .sent _ _ => none

namespace RealmEngine

variable {σ : Type}

/-! ## Executions with a trace -/

/-- Sends code and waits for an outcome, unless the thread has ended. -/
def requestTraced (threads : Threads σ) (code : String) (limit : Duration) (h : RealmHandle σ) :
    List RealmEvent × Except EngineError Outcome × RealmHandle σ :=
  if h.closed then ([], .error .realmClosed, h)
  else
    let h := h.send threads code
    ([.sent h.importMap code], RealmHandle.receiveOutcome limit (h.deadline limit) h.inbox h)

/-- Puts a new realm in place of the one there is. -/
def rebuildTraced (threads : Threads σ) (e : RealmEngine σ) :
    List RealmEvent × Except EngineError Unit × RealmEngine σ :=
  let e := e.tearDown
  match e.provider with
  | none => ([], .error .notReady, e)
  | some p =>
    match RealmHandle.spawn threads (e.config p) with
    | .error why => ([.rebuilt (e.config p).importMap false], .error why, e)
    | .ok h =>
      match h.waitReady e.settings.readyTimeout with
      | (.error why, _) => ([.rebuilt (e.config p).importMap false], .error why, e)
      | (.ok _, h) =>
        ([.rebuilt (e.config p).importMap true], .ok (),
          { e with realm := some h, counter := e.counter.increment "realm_rebuilds" 1 })

def askTraced (threads : Threads σ) (source : String) (e : RealmEngine σ) :
    List RealmEvent × Except EngineError Outcome × RealmEngine σ :=
  match e.realm with
  | none => ([], .error .realmClosed, e)
  | some h =>
    let (log, response, h') := requestTraced threads source e.settings.responseTimeout h
    (log, conclude response
      ({ e with realm := some h' }.measured h.now h'.now |>.noteRequests threads h'))

def executeTraced (threads : Threads σ) (source : String) (e : RealmEngine σ) :
    List RealmEvent × Except EngineError Outcome × RealmEngine σ :=
  if !e.ready then ([], .error .notReady, e)
  else
    let (grew, importMap) := e.importMap.mergeFromSource source e.resolver
    let e := { e with importMap }
    if grew || e.realm.isNone then
      match e.rebuildTraced threads with
      | (log, .error why, e) => (log, .error why, e)
      | (log, .ok _, e) => (log ++ (e.askTraced threads source).1, (e.askTraced threads source).2)
    else e.askTraced threads source

theorem requestTraced_eq (threads : Threads σ) (code : String) (limit : Duration)
    (h : RealmHandle σ) :
    (requestTraced threads code limit h).2 = h.request threads code limit := by
  rw [requestTraced, RealmHandle.request]
  split <;> rfl

theorem rebuildTraced_eq (threads : Threads σ) (e : RealmEngine σ) :
    (e.rebuildTraced threads).2 = e.rebuild threads := by
  simp only [rebuildTraced, rebuild]
  cases e.tearDown.provider with
  | none => rfl
  | some p =>
      simp only
      cases RealmHandle.spawn threads (e.tearDown.config p) with
      | error why => rfl
      | ok h =>
          simp only
          rcases h.waitReady e.tearDown.settings.readyTimeout with ⟨_ | _, h⟩ <;> rfl

theorem askTraced_eq (threads : Threads σ) (source : String) (e : RealmEngine σ) :
    (e.askTraced threads source).2 = e.ask threads source := by
  rw [askTraced, ask]
  cases e.realm with
  | none => rfl
  | some h =>
      simp only [← requestTraced_eq]

/-- The trace is all that is new. -/
theorem executeTraced_eq (threads : Threads σ) (source : String) (e : RealmEngine σ) :
    (e.executeTraced threads source).2 = e.execute threads source := by
  rw [executeTraced, execute]
  split
  · rfl
  · simp only
    split
    · rw [← rebuildTraced_eq]
      rcases rebuildTraced threads _ with ⟨log, why | _, e⟩
      · rfl
      · exact askTraced_eq threads source e
    · exact askTraced_eq ..

/-! ## The trace -/

/-- Building a realm is noted once, with the map and with whether it went well. -/
theorem rebuildTraced_log (threads : Threads σ) {e : RealmEngine σ}
    (hprovided : e.provider.isSome = true) :
    (e.rebuildTraced threads).1 = [.rebuilt e.importMap (e.rebuild threads).1.isOk] := by
  rw [← rebuildTraced_eq, rebuildTraced]
  split
  · next hnone =>
      rw [show e.provider = none from hnone] at hprovided
      cases hprovided
  · split
    · rfl
    · split <;> rfl

theorem mem_askTraced_log {threads : Threads σ} {source : String} {e : RealmEngine σ}
    {event : RealmEvent} (hevent : event ∈ (e.askTraced threads source).1) :
    ∃ h, e.realm = some h ∧ event = .sent h.importMap source := by
  rw [askTraced] at hevent
  split at hevent
  · cases hevent
  · next h hrealm =>
      simp only [requestTraced] at hevent
      split at hevent
      · cases hevent
      · refine ⟨h, hrealm, ?_⟩
        rw [← RealmHandle.send_importMap threads source h]
        exact List.mem_singleton.mp hevent

/-- Asking builds nothing. -/
theorem rebuiltFrom_askTraced (threads : Threads σ) (source : String) (e : RealmEngine σ) :
    (e.askTraced threads source).1.filterMap RealmEvent.rebuiltFrom? = [] := by
  refine List.filterMap_eq_nil_iff.mpr fun event hevent => ?_
  obtain ⟨h, -, rfl⟩ := mem_askTraced_log hevent
  rfl

theorem executeTraced_of_not_ready (threads : Threads σ) (source : String) {e : RealmEngine σ}
    (hready : e.ready = false) :
    e.executeTraced threads source = ([], .error .notReady, e) := by
  rw [executeTraced, if_pos (by simp [hready])]

theorem executeTraced_of_ready (threads : Threads σ) (source : String) {e : RealmEngine σ}
    (hready : e.ready = true) :
    e.executeTraced threads source =
      if e.outgrown source then
        match (e.absorb source).rebuildTraced threads with
        | (log, .error why, e) => (log, .error why, e)
        | (log, .ok _, e) => (log ++ (e.askTraced threads source).1, (e.askTraced threads source).2)
      else (e.absorb source).askTraced threads source := by
  rw [executeTraced, if_neg (by simp [hready])]
  rfl

namespace Live

variable {e : RealmEngine σ} {threads : Threads σ} {source : String}

/-- There are three ways for an execution to go: the engine is not ready; a realm is needed and does
not come about; or a realm with the present map, new if one is needed, is asked. -/
theorem executeTraced_cases (h : Live e) (threads : Threads σ) (source : String) :
    e.ready = false ∧ e.executeTraced threads source = ([], .error .notReady, e) ∨
      e.ready = true ∧ e.outgrown source = true ∧
        (∃ why, e.executeTraced threads source =
          ([.rebuilt (e.absorb source).importMap false], .error why, (e.absorb source).tearDown)) ∨
      e.ready = true ∧ ∃ asked : RealmEngine σ,
        Live asked ∧ asked.importMap = (e.absorb source).importMap ∧
          e.executeTraced threads source =
            ((if e.outgrown source then [.rebuilt (e.absorb source).importMap true] else []) ++
              (asked.askTraced threads source).1, (asked.askTraced threads source).2) := by
  cases hready : e.ready with
  | false => exact .inl ⟨rfl, executeTraced_of_not_ready threads source hready⟩
  | true =>
      rw [executeTraced_of_ready threads source hready]
      cases hgrown : e.outgrown source with
      | true =>
          have hprovided := h.provided hready
          have hlive : Live ((e.absorb source).rebuild threads).2 :=
            rebuild (e := e.absorb source) hprovided hready threads
          have hlog := rebuildTraced_log threads (e := e.absorb source) hprovided
          have herase := rebuildTraced_eq threads (e.absorb source)
          rcases htraced : (e.absorb source).rebuildTraced threads with ⟨log, result⟩
          rw [htraced] at hlog herase
          rcases rebuild_cases threads (e.absorb source) with ⟨why, hfail⟩ | ⟨r, hok, -, -⟩
          · rw [hfail] at hlog herase
            subst hlog herase
            exact .inr (.inl ⟨rfl, rfl, why, rfl⟩)
          · rw [hok] at hlog herase hlive
            subst hlog herase
            exact .inr (.inr ⟨rfl, _, hlive, rfl, rfl⟩)
      | false => exact .inr (.inr ⟨rfl, e.absorb source, h.absorb hgrown, rfl, rfl⟩)

/-- What is sent goes to a realm with the map that has the source, as that source. -/
theorem sent_of_mem (h : Live e) {map : ImportMap} {code : String}
    (hsent : .sent map code ∈ (e.executeTraced threads source).1) :
    code = source ∧ map = (e.absorb source).importMap := by
  rcases h.executeTraced_cases threads source with
    ⟨-, hlog⟩ | ⟨-, -, why, hlog⟩ | ⟨-, asked, hlive, hmap, hlog⟩
  · rw [hlog] at hsent
    cases hsent
  · rw [hlog] at hsent
    simp at hsent
  · rw [hlog, List.mem_append] at hsent
    rcases hsent with hbuilt | hasked
    · split at hbuilt <;> simp at hbuilt
    · obtain ⟨r, hrealm, hevent⟩ := mem_askTraced_log hasked
      obtain ⟨rfl, rfl⟩ := RealmEvent.sent.inj hevent
      exact ⟨rfl, (hlive.current r hrealm).trans hmap⟩

/-- A realm is to be built exactly if the engine is ready and the source needs a new one, and then
once. -/
theorem rebuiltFrom_executeTraced (h : Live e) (threads : Threads σ) (source : String) :
    (e.executeTraced threads source).1.filterMap RealmEvent.rebuiltFrom? =
      if e.ready = true ∧ e.outgrown source = true then [(e.absorb source).importMap] else [] := by
  rcases h.executeTraced_cases threads source with
    ⟨hready, hlog⟩ | ⟨hready, hgrown, why, hlog⟩ | ⟨hready, asked, -, -, hlog⟩
  · rw [hlog, hready]
    rfl
  · rw [hlog, hready, hgrown]
    rfl
  · rw [hlog, hready, List.filterMap_append, rebuiltFrom_askTraced, List.append_nil]
    cases e.outgrown source <;> rfl

/-- If it is noted that a realm did not come about, there is none, and the engine is still ready. -/
theorem of_failed_mem (h : Live e) {map : ImportMap}
    (hfailed : .rebuilt map false ∈ (e.executeTraced threads source).1) :
    e.ready = true ∧
      ∃ why, (e.executeTraced threads source).2 = (.error why, (e.absorb source).tearDown) := by
  rcases h.executeTraced_cases threads source with
    ⟨-, hlog⟩ | ⟨hready, -, why, hlog⟩ | ⟨-, asked, -, -, hlog⟩
  · rw [hlog] at hfailed
    cases hfailed
  · exact ⟨hready, why, congrArg (·.2) hlog⟩
  · rw [hlog, List.mem_append] at hfailed
    rcases hfailed with hbuilt | hasked
    · split at hbuilt <;> simp at hbuilt
    · obtain ⟨r, -, hevent⟩ := mem_askTraced_log hasked
      cases hevent

/-- An engine that is ready but has no realm builds one next, whatever the source. -/
theorem rebuilt_of_no_realm (h : Live e) (hready : e.ready = true) (hnone : e.realm = none)
    (threads : Threads σ) (source : String) :
    ∃ map succeeded, .rebuilt map succeeded ∈ (e.executeTraced threads source).1 := by
  have hgrown : e.outgrown source = true := by
    rw [outgrown, hnone, Option.isNone_none, Bool.or_true]
  have hbuilt := h.rebuiltFrom_executeTraced threads source
  rw [if_pos ⟨hready, hgrown⟩] at hbuilt
  have hmem : (e.absorb source).importMap ∈
      (e.executeTraced threads source).1.filterMap RealmEvent.rebuiltFrom? := by
    rw [hbuilt]
    exact List.mem_singleton_self _
  obtain ⟨event, hevent, hfrom⟩ := List.mem_filterMap.mp hmem
  cases event with
  | rebuilt map succeeded => exact ⟨map, succeeded, hevent⟩
  | sent map code => cases hfrom

end Live

/-- After any calls a realm, if there is one, belongs to an engine that is ready and has a provider,
and has its import map. So what an execution sends goes to a realm whose map has every bare
specifier of the source; the execution builds a realm, once, exactly if the map has grown or there
is none; and if that fails, the next one builds again, whatever its source. -/
theorem live_realm_is_current (s : Settings) (p : Option Provider) (calls : List (RealmCall σ)) :
    let e : RealmEngine σ := (start s p).run calls
    (∀ h, e.realm = some h →
        e.ready = true ∧ e.provider.isSome = true ∧ h.importMap = e.importMap) ∧
      ∀ (threads : Threads σ) (source : String),
        let log := (e.executeTraced threads source).1
        let answer := (e.execute threads source).1
        let e' := (e.execute threads source).2
        (e.executeTraced threads source).2 = (answer, e') ∧
        (∀ map code, .sent map code ∈ log → code = source ∧
          ∀ name ∈ Scan.scanImports source, Specifier.isBare name = true →
            (map.get? name).isSome = true) ∧
        log.filterMap RealmEvent.rebuiltFrom? =
          (if e.ready = true ∧ (e'.importMap ≠ e.importMap ∨ e.realm.isNone = true)
            then [e'.importMap] else []) ∧
        ∀ map, .rebuilt map false ∈ log → (∃ why, answer = .error why) ∧
          ∀ threads' source', ∃ map' succeeded,
            .rebuilt map' succeeded ∈ (e'.executeTraced threads' source').1 := by
  intro e
  have hlive : Live e := (Live.start s p).run calls
  refine ⟨fun h hh => ⟨hlive.ready h hh, hlive.provided (hlive.ready h hh), hlive.current h hh⟩, ?_⟩
  intro threads source log answer e'
  refine ⟨executeTraced_eq threads source e, ?_, ?_, ?_⟩
  · intro map code hsent
    obtain ⟨hcode, hmap⟩ := hlive.sent_of_mem hsent
    refine ⟨hcode, fun name hname hbare => ?_⟩
    rw [hmap]
    exact ImportMap.get?_mergeFromSource e.importMap e.resolver hname hbare
  · have hbuilt := hlive.rebuiltFrom_executeTraced threads source
    cases hready : e.ready with
    | false =>
        rw [hready, if_neg (by simp)] at hbuilt
        rw [if_neg (by simp)]
        exact hbuilt
    | true =>
        have hgrown := outgrown_iff e source
        rw [← execute_importMap threads source hready] at hgrown hbuilt
        simp only [hready, true_and, hgrown] at hbuilt ⊢
        exact hbuilt
  · intro map hfailed
    obtain ⟨hready, why, hresult⟩ := hlive.of_failed_mem hfailed
    rw [executeTraced_eq] at hresult
    have hanswer : answer = .error why := congrArg (·.1) hresult
    have hnext : e' = (e.absorb source).tearDown := congrArg (·.2) hresult
    refine ⟨⟨why, hanswer⟩, fun threads' source' => ?_⟩
    have hlive' : Live e' := hlive.execute threads source
    refine hlive'.rebuilt_of_no_realm ?_ ?_ threads' source'
    · rw [hnext]
      exact hready
    · rw [hnext]
      rfl

end RealmEngine

end ScriptSandbox
