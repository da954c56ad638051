import ScriptSandbox.Machine.Run

/-!
# Suspended functions

Asynchronous functions go on when what they await is settled; generators when their methods are
called. An asynchronous generator serves the calls of its methods one after the other, in the order
in which they were made.
-/

namespace ScriptSandbox.Exec

/-- The state of a suspended function, if an object is one. -/
def coroutine? (a : Nat) : Exec (Option Coroutine) := do
  match (← getObj a).kind with
  | .generator c => return some c
  | _ => return none

/-- Changes the state of a suspended function. -/
def modifyCoroutine (a : Nat) (f : Coroutine → Coroutine) : Exec Unit :=
  modifyObj a fun o =>
    match o with
    | ⟨proto, extensible, props, .generator c⟩ => ⟨proto, extensible, props, .generator (f c)⟩
    | o => o

/-- Takes the frame of a suspended function, which then runs. -/
def takeCoroutine (a : Nat) (status : GeneratorStatus) : Exec (Option Frame) := do
  let fr := (← coroutine? a).bind (·.frame)
  modifyCoroutine a fun c => { c with frame := none, status }
  return fr

/-! ## Asynchronous functions -/

/-- Runs an asynchronous function, whose state is in an object, until it ends or awaits. -/
def driveAsync (a : Nat) (cap : Capability) (act : Exec Pause) : Exec Unit := do
  match ← attempt act with
  | .thrown e => settleCapability cap true e
  | .value (.awaited v fr) =>
    modifyCoroutine a fun c => { c with frame := some fr }
    let waits ← attempt do
      let p ← ownPromiseOf v
      let onFulfilled ← newNative (.promise (.asyncResume false)) #[.obj a] "" 1
      let onRejected ← newNative (.promise (.asyncResume true)) #[.obj a] "" 1
      performThen p onFulfilled onRejected none
    match waits with
    | .value _ => return
    | .thrown e => settleCapability cap true e
  | .value (.returned v) => settleCapability cap false v
  | .value _ => settleCapability cap false .undefined

/-- Begins an asynchronous function; its promise is the result. -/
def startAsync (act : Exec Pause) : Exec Value := do
  let cap ← newCapability
  let a ← alloc { kind := .generator { frame := none, capability := some cap } }
  holding #[.obj a] (driveAsync a cap act)
  return cap.promise

/-- Goes on with an asynchronous function that awaited. -/
def resumeAsync (a : Nat) (throws : Bool) (v : Value) : Exec Unit := do
  match ← coroutine? a with
  | some { frame := some fr, capability := some cap, .. } =>
    modifyCoroutine a fun c => { c with frame := none }
    driveAsync a cap (resume fr (if throws then .throw else .next) v)
  | _ => return

/-! ## Generators -/

def newGenerator (callee : Nat) (isAsync : Bool) (fr : Frame) : Exec Value := do
  let proto ← match ← getProp callee prototypeKey with
    | .obj p => pure p
    | _ =>
      let i : Intrinsic := if isAsync then .asyncGeneratorPrototype else .generatorPrototype
      pure i.address
  let a ← alloc { proto := some proto, kind := .generator { frame := some fr } }
  return .obj a

def endedGenerator (how : Resumption) (v : Value) : Exec Value :=
  match how with
  | .next => iterResult .undefined true
  | .return => iterResult v true
  | .throw => throwValue v

def endGenerator (a : Nat) : Exec Unit :=
  modifyCoroutine a fun c => { c with frame := none, status := .completed }

/-- Goes on with a generator, and gives its answer. -/
def resumeGenerator (this : Value) (how : Resumption) (v : Value) : Exec Value := do
  match this with
  | .obj a =>
    match ← coroutine? a with
    | none => typeError "not a generator"
    | some c =>
      match c.status, how with
      | .running, _ => typeError "cannot invoke a running generator"
      | .suspendedStart, .return | .suspendedStart, .throw =>
        endGenerator a
        endedGenerator how v
      | .suspendedStart, _ | .suspendedYield, _ => run a
      | _, _ => endedGenerator how v
  | _ => typeError "not a generator"
where
  /-- Runs a suspended generator until it is suspended again, or ends. -/
  run (a : Nat) : Exec Value := do
    match ← takeCoroutine a .running with
    | none => endedGenerator how v
    | some fr =>
      match ← attempt (resume fr how v) with
      | .thrown e =>
        endGenerator a
        throwValue e
      | .value (.yielded y fr) =>
        modifyCoroutine a fun c => { c with frame := some fr, status := .suspendedYield }
        match fr.code.ops[fr.pc - 1]? with
        | some .yieldDelegated => return y
        | _ => iterResult y false
      | .value (.returned r) =>
        endGenerator a
        iterResult r true
      | .value _ =>
        endGenerator a
        iterResult .undefined true

/-! ## Asynchronous generators -/

/-- Answers the oldest call of a method of an asynchronous generator. -/
def answerRequest (a : Nat) (rejected : Bool) (v : Value) : Exec Unit := do
  match ← coroutine? a with
  | some { requests := r :: rest, .. } =>
    modifyCoroutine a fun c => { c with requests := rest }
    settleCapability r.capability rejected v
  | _ => return

def answerValue (a : Nat) (v : Value) (done : Bool) : Exec Unit := do
  answerRequest a false (← iterResult v done)

/-- A function that goes on with an asynchronous generator, or answers for one that has ended. -/
def generatorResumer (a : Nat) (throws ended : Bool) : Exec Value :=
  newNative (.promise (.asyncGeneratorResume throws)) #[.obj a, .bool ended] "" 1

/-- What follows a run of an asynchronous generator; tells whether the next call is to be served. -/
def afterGeneratorRun (a : Nat) (r : Attempt Pause) : Exec Bool := do
  match r with
  | .thrown e =>
    endGenerator a
    answerRequest a true e
    return true
  | .value (.awaited v fr) =>
    modifyCoroutine a fun c => { c with frame := some fr, status := .awaiting }
    let waits ← attempt do
      let p ← ownPromiseOf v
      performThen p (← generatorResumer a false false) (← generatorResumer a true false) none
    match waits with
    | .value _ => return false
    | .thrown e =>
      endGenerator a
      answerRequest a true e
      return true
  | .value (.yielded v fr) =>
    modifyCoroutine a fun c => { c with frame := some fr, status := .suspendedYield }
    answerValue a v false
    return true
  | .value (.returned v) =>
    endGenerator a
    answerValue a v true
    return true
  | .value _ =>
    endGenerator a
    answerValue a .undefined true
    return true

def awaitReturned (a : Nat) (v : Value) : Exec Unit := do
  modifyCoroutine a fun c => { c with status := .awaitingReturn }
  let p ← match ← attempt (ownPromiseOf v) with
    | .value p => pure p
    | .thrown e =>
      let p ← newPromise
      settle p true e
      pure p
  performThen p (← generatorResumer a false true) (← generatorResumer a true true) none

/-- Serves the calls of an asynchronous generator's methods, until it has to wait. -/
def serveRequests (a : Nat) : (fuel : Nat) → Exec Unit
  | 0 => return
  | fuel + 1 => do
    match ← coroutine? a with
    | some { requests := r :: _, status, .. } =>
      match status, r.how with
      | .suspendedStart, .next | .suspendedYield, _ =>
        match ← takeCoroutine a .running with
        | some fr =>
          if ← afterGeneratorRun a (← attempt (resume fr r.how r.value)) then serveRequests a fuel
        | none => return
      | .suspendedStart, _ =>
        endGenerator a
        serveRequests a fuel
      | .completed, .next =>
        answerValue a .undefined true
        serveRequests a fuel
      | .completed, .return => awaitReturned a r.value
      | .completed, .throw =>
        answerRequest a true r.value
        serveRequests a fuel
      | _, _ => return
    | _ => return

/-- Calls a method of an asynchronous generator; its promise is the result. -/
def requestGenerator (this : Value) (how : Resumption) (v : Value) : Exec Value := do
  let cap ← newCapability
  let generator ← match this with
    | .obj a => do pure (if (← coroutine? a).isSome then some a else none)
    | _ => pure none
  match generator with
  | none =>
    settleCapability cap true (← makeError .typeError "not an AsyncGenerator object")
    return cap.promise
  | some a =>
    modifyCoroutine a fun c => { c with requests := c.requests ++ [⟨how, v, cap⟩] }
    serveRequests a elementLimit
    return cap.promise

/-- Goes on with an asynchronous generator that awaited, or answers for one that has ended. -/
def resumeAsyncGenerator (a : Nat) (throws ended : Bool) (v : Value) : Exec Unit := do
  if ended then
    modifyCoroutine a fun c => { c with status := .completed }
    if throws then answerRequest a true v else answerValue a v true
    serveRequests a elementLimit
  else
    match ← takeCoroutine a .running with
    | none => return
    | some fr =>
      let r ← attempt (resume fr (if throws then .throw else .next) v)
      if ← afterGeneratorRun a r then serveRequests a elementLimit

/-! ## Plain iterators as asynchronous ones -/

/-- What a method of a plain iterator gives, as an answer that is still to be awaited, or what it
has come to without one. -/
def syncAnswer (i next : Value) (how : Resumption) (args : Array Value) :
    Exec (Sum (Value × Bool) Value) := do
  let answer (method : Value) : Exec (Sum (Value × Bool) Value) := do
    let r ← call method i args
    if !r.isObject then typeError "iterator must return an object"
    let done ← isDone r
    return .inl (← getValue r valueKey, done)
  match how with
  | .next => answer next
  | .return =>
    match ← getMethod i returnKey with
    | some f => answer f
    | none => return .inr (← iterResult (args.getD 0 .undefined) true)
  | .throw =>
    match ← getMethod i (.named "throw") with
    | some f => answer f
    | none => throwValue (args.getD 0 .undefined)

/-- Calls a method of a plain iterator; the promise for its answer is the result. -/
def awaitSyncIterator (this : Value) (how : Resumption) (args : Array Value) : Exec Value := do
  let cap ← newCapability
  let r ← attempt do
    match this with
    | .obj a =>
      match (← getObj a).kind with
      | .asyncFromSync i next =>
        match ← syncAnswer i next how args with
        | .inl (v, done) =>
          let p ← ownPromiseOf v
          let unwrap ← newNative (.promise (.asyncFromSync done)) #[] "" 1
          performThen p unwrap .undefined (some cap)
        | .inr r => settleCapability cap false r
      | _ => typeError "not an Async-from-Sync Iterator"
    | _ => typeError "not an Async-from-Sync Iterator"
  match r with
  | .value _ => return cap.promise
  | .thrown e =>
    settleCapability cap true e
    return cap.promise

end ScriptSandbox.Exec
