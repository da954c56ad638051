import ScriptSandbox.Duration
import ScriptSandbox.Engine.Error
import ScriptSandbox.Realm.Message
import ScriptSandbox.Realm.Thread

/-!
# The host's end of a realm

Host and thread talk over two queues. The thread takes commands one after another and does not
know who still waits for the outcome; so an outcome whose request was given up arrives all the same,
and answers whichever request waits then.

What the thread makes of a command is known when the command is sent, with the time at which it
will be heard of. Until then the message is on its way.
-/

namespace ScriptSandbox

/-- A message with the time at which it arrives. -/
structure Arrival where
  time : Nat
  message : RealmMessage
  deriving Inhabited

/-- The host's end of a realm, whose thread has states `σ`. -/
structure RealmHandle (σ : Type) where
  thread : σ
  /-- The import map that the realm was built with. -/
  importMap : ImportMap
  /-- The time at the host. -/
  now : Nat := 0
  /-- When the thread is done with what it was sent, unless it never is. -/
  idleAt : Option Nat
  /-- When the thread ends, if it does. -/
  endsAt : Option Nat := none
  /-- The messages on their way, in the order in which they were sent. -/
  inbox : List Arrival := []
  /-- Whether the realm has been heard to be ready. -/
  ready : Bool := false
  deriving Inhabited

namespace RealmHandle

variable {σ : Type}

/-- The host's end of a realm whose thread has just been started. -/
def ofStart (importMap : ImportMap) (start : Ending Unit) (thread : σ) : RealmHandle σ :=
  match start with
  | .done span _ => { thread, importMap, idleAt := some span, inbox := [⟨span, .ready⟩] }
  | .death span => { thread, importMap, idleAt := none, endsAt := some span }
  | .never => { thread, importMap, idleAt := none }

def spawn (threads : Threads σ) (config : RealmConfig) : Except EngineError (RealmHandle σ) :=
  match threads.spawn config with
  | .ok (start, thread) => .ok (ofStart config.importMap start thread)
  | .error why => .error (.initialization ("failed to spawn realm thread: " ++ why))

/-- Whether the thread has ended. -/
def closed (h : RealmHandle σ) : Bool := h.endsAt.any (· ≤ h.now)

/-- The time by which a wait that begins now gives up. -/
def deadline (h : RealmHandle σ) (limit : Duration) : Nat := h.now + limit.toNanos

/-- The clock at the host goes on to a time, unless it is past it. -/
def advanceTo (h : RealmHandle σ) (time : Nat) : RealmHandle σ := { h with now := max h.now time }

/-- Waits in vain: up to the end of the thread, or else up to a deadline. Tells whether the thread
has ended. -/
def waitInVain (deadline : Nat) (h : RealmHandle σ) : Bool × RealmHandle σ :=
  match h.endsAt.filter (· ≤ deadline) with
  | some time => (true, h.advanceTo time)
  | none => (false, h.advanceTo deadline)

/-- What is said when a realm ends before it is ready. -/
def exitedEarly : String := "realm exited before signalling readiness"

/-- Waits for the realm to be ready. When the time is up it is assumed to be, and so it is when an
outcome arrives instead, which is then lost. -/
def waitReady (limit : Duration) (h : RealmHandle σ) : Except EngineError Unit × RealmHandle σ :=
  if h.ready then (.ok (), h)
  else
    let deadline := h.deadline limit
    match h.inbox with
    | a :: rest =>
      if a.time ≤ deadline then
        let h := { h.advanceTo a.time with inbox := rest }
        match a.message with
        | .ready => (.ok (), { h with ready := true })
        | .executionResult _ => (.ok (), h)
      else (.ok (), h.advanceTo deadline)
    | [] =>
      match h.waitInVain deadline with
      | (true, h) => (.error (.initialization exitedEarly), h)
      | (false, h) => (.ok (), h)

/-- Sends code to the thread, which takes it up when it has done what was sent before. -/
def send (threads : Threads σ) (code : String) (h : RealmHandle σ) : RealmHandle σ :=
  match h.idleAt with
  | none => h
  | some idle =>
    let begun := max idle h.now
    match threads.execute code h.thread with
    | (.done span outcome, thread) =>
      { h with
        thread
        idleAt := some (begun + span)
        inbox := h.inbox ++ [⟨begun + span, .executionResult outcome⟩] }
    | (.death span, thread) => { h with thread, idleAt := none, endsAt := some (begun + span) }
    | (.never, thread) => { h with thread, idleAt := none }

/-- Goes through messages on their way up to the first outcome. -/
def receiveOutcome (limit : Duration) (deadline : Nat) :
    List Arrival → RealmHandle σ → Except EngineError Outcome × RealmHandle σ
  | [], h =>
    match { h with inbox := [] }.waitInVain deadline with
    | (true, h) => (.error .realmClosed, h)
    | (false, h) => (.error (.protocolTimeout limit), h)
  | a :: rest, h =>
    if a.time ≤ deadline then
      let h := { h.advanceTo a.time with inbox := rest }
      match a.message with
      | .executionResult outcome => (.ok outcome, h)
      | .ready => receiveOutcome limit deadline rest { h with ready := true }
    else (.error (.protocolTimeout limit), { h.advanceTo deadline with inbox := a :: rest })

/-- Sends code and waits for an outcome. -/
def request (threads : Threads σ) (code : String) (limit : Duration) (h : RealmHandle σ) :
    Except EngineError Outcome × RealmHandle σ :=
  if h.closed then (.error .realmClosed, h)
  else
    let h := h.send threads code
    receiveOutcome limit (h.deadline limit) h.inbox h

end RealmHandle
end ScriptSandbox
