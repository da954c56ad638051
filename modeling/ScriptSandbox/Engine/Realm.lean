import ScriptSandbox.Engine.Kind
import ScriptSandbox.Engine.Surroundings
import ScriptSandbox.Metrics.Counter
import ScriptSandbox.Metrics.Timer
import ScriptSandbox.Realm.Handle

/-!
# The realm engine

The engine keeps one realm for as long as its import map stays as it is. Before each execution the
specifiers of the source are added to the map; a realm cannot learn of new ones, so if the map has
grown a new realm takes its place. A realm that fails to answer is torn down as well, and the next
execution builds another.
-/

namespace ScriptSandbox

/-- An engine that keeps a realm, whose thread has states `σ`. -/
structure RealmEngine (σ : Type) where
  settings : RealmSettings
  modules : ModuleSettings
  importMap : ImportMap := {}
  provider : Option Provider := none
  /-- Whether the provider was handed to the engine, which then keeps it. -/
  injected : Bool := false
  realm : Option (RealmHandle σ) := none
  ready : Bool := false
  timer : Timer := {}
  counter : Counter := {}
  deriving Inhabited

namespace RealmEngine

variable {σ : Type}

def new (s : Settings) : RealmEngine σ where
  settings := s.realm
  modules := s.modules

/-- Lets the engine take its modules from a provider. -/
def withProvider (e : RealmEngine σ) (p : Provider) : RealmEngine σ :=
  { e with provider := some p, injected := true }

/-- How many executions there have been. -/
def executions (e : RealmEngine σ) : Nat := e.counter.get "executions"

/-- How many realms have been built. -/
def rebuilds (e : RealmEngine σ) : Nat := e.counter.get "realm_rebuilds"

/-- Where specifiers lead. -/
def resolver (e : RealmEngine σ) : Resolver := .ofSettings e.modules

def tearDown (e : RealmEngine σ) : RealmEngine σ := { e with realm := none }

/-- Forgets every specifier. -/
def clearImportMap (e : RealmEngine σ) : RealmEngine σ := { e with importMap := {} }.tearDown

/-- What a realm would be built from now. -/
def config (e : RealmEngine σ) (p : Provider) : RealmConfig where
  limits := .ofRealm e.settings
  importMap := e.importMap
  resolver := e.resolver
  provider := p

/-- Keeps what a realm has asked of the provider. -/
def noteRequests (threads : Threads σ) (h : RealmHandle σ) (e : RealmEngine σ) : RealmEngine σ :=
  { e with provider := e.provider.map fun p => { p with requests := threads.requests h.thread } }

/-- Puts a new realm with the present import map in place of the one there is. -/
def rebuild (threads : Threads σ) (e : RealmEngine σ) : Except EngineError Unit × RealmEngine σ :=
  let e := e.tearDown
  match e.provider with
  | none => (.error .notReady, e)
  | some p =>
    match RealmHandle.spawn threads (e.config p) with
    | .error why => (.error why, e)
    | .ok h =>
      match h.waitReady e.settings.readyTimeout with
      | (.error why, _) => (.error why, e)
      | (.ok _, h) =>
        (.ok (), { e with realm := some h, counter := e.counter.increment "realm_rebuilds" 1 })

/-- Makes the engine ready, unless it is. -/
def prepare (threads : Threads σ) (around : Surroundings) (e : RealmEngine σ) :
    Except EngineError Unit × RealmEngine σ :=
  if e.ready then (.ok (), e)
  else if !around.reactor then (.error (.initialization Surroundings.noReactor), e)
  else
    match around.provider e.modules e.provider with
    | .error why => (.error (.initialization why), e)
    | .ok p =>
      match { e with provider := some p }.rebuild threads with
      | (.error why, e) => (.error why, e)
      | (.ok _, e) => (.ok (), { e with ready := true })

/-- Counts one execution that began and ended at readings of the clock. -/
def measured (before after : Nat) (e : RealmEngine σ) : RealmEngine σ :=
  { e with
    timer := (e.timer.begin (.ofNanos before)).finish (.ofNanos after)
    counter := e.counter.increment "executions" 1 }

def count (name : String) (e : RealmEngine σ) : RealmEngine σ :=
  { e with counter := e.counter.increment name 1 }

/-- Keeps what a request has left; a realm that has failed to answer is discarded. -/
def conclude (response : Except EngineError Outcome) (e : RealmEngine σ) :
    Except EngineError Outcome × RealmEngine σ :=
  match response with
  | .ok o => (.ok o, if o.isError then e.count "guest_errors" else e)
  | .error why =>
    match why with
    | .protocolTimeout _ => (.error why, (e.count "protocol_timeouts").tearDown)
    | _ => (.error why, e.tearDown)

def ask (threads : Threads σ) (source : String) (e : RealmEngine σ) :
    Except EngineError Outcome × RealmEngine σ :=
  match e.realm with
  | none => (.error .realmClosed, e)
  | some h =>
    let (response, h') := h.request threads source e.settings.responseTimeout
    conclude response
      ({ e with realm := some h' }.measured h.now h'.now |>.noteRequests threads h')

def execute (threads : Threads σ) (source : String) (e : RealmEngine σ) :
    Except EngineError Outcome × RealmEngine σ :=
  if !e.ready then (.error .notReady, e)
  else
    let (grew, importMap) := e.importMap.mergeFromSource source e.resolver
    let e := { e with importMap }
    if grew || e.realm.isNone then
      match e.rebuild threads with
      | (.error why, e) => (.error why, e)
      | (.ok _, e) => e.ask threads source
    else e.ask threads source

/-- Lets go of the realm, and of what the engine has made for itself. -/
def dispose (e : RealmEngine σ) : RealmEngine σ :=
  if !e.ready then e
  else { e.tearDown with ready := false, provider := if e.injected then e.provider else none }

end RealmEngine
end ScriptSandbox
