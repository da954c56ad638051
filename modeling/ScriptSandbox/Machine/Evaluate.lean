import ScriptSandbox.Machine.Link

/-!
# Evaluating modules

A module runs after those that it requests. Modules that request each other form a cycle, which is
reached and left as one. A module that awaits lets those that requested it wait; when it is done,
all that have nothing left to wait for run in the order in which they began to wait.
-/

namespace ScriptSandbox.Exec

/-- Where an evaluation is: how many modules it has reached, and which of them are not left yet. -/
structure Walk where
  next : Nat := 0
  open_ : List Nat := []

/-- The outcome of evaluating a module and those that it requests. -/
inductive Walked where
  | done (w : Walk)
  | failed (e : Value) (w : Walk)

/-! ## Running one module -/

/-- Begins the run of a module; its promise is the result. -/
def startModule (i : Nat) : Exec Value := do
  countCall #[]
  let r ← getModule i
  modifyModule i fun r => { r with frame := none }
  match r.frame with
  | some fr => startAsync (resume fr .next .undefined)
  | none => return .obj (← newPromise)

/-- Runs a module that does not await; what it throws is the result. -/
def runModule (i : Nat) : Exec (Option Value) := do
  match ← attempt (startModule i) with
  | .thrown e => return some e
  | .value (.obj p) =>
    match ← promiseState? p with
    | some { status := .fulfilled, .. } => return none
    | some { status := .rejected, value, .. } => return some value
    | _ => return some (← makeError .typeError "promise is pending")
  | .value _ => return none

def runAwaitingModule (i : Nat) : Exec Unit := do
  match ← startModule i with
  | .obj p =>
    let onFulfilled ← newNative (.promise (.moduleDone false)) #[.int i] "" 1
    let onRejected ← newNative (.promise (.moduleDone true)) #[.int i] "" 1
    let _ ← promiseThen p onFulfilled onRejected
  | _ => return

def nextTurn : Exec Nat := do
  let m ← get
  return 1 + m.modules.foldl (fun n r => max n (r.waitsSince.getD 0)) 0

/-! ## Evaluating -/

/-- Leaves the modules of a cycle, down to the one that was reached first. -/
def leaveCycle (root : Nat) : List Nat → Exec (List Nat)
  | [] => return []
  | i :: rest => do
    modifyModule i fun r => { r with
      status := if r.waitsSince.isSome then .waiting else .evaluated
      root }
    if i == root then return rest else leaveCycle root rest

/-- What a module has to do with one that it requests and that has been evaluated or reached: an
error, or whether it waits for it. -/
def joinRequested (i j : Nat) : Exec (Option Value) := do
  let r ← getModule j
  let k ← match r.status with
    | .evaluating => do
      modifyModule i fun s => { s with earliest := min s.earliest r.earliest }
      pure j
    | _ => pure r.root
  let r ← getModule k
  match r.status, r.failure with
  | .evaluating, _ | _, none =>
    if r.waitsSince.isSome then
      modifyModule k fun r => { r with parents := r.parents ++ [i] }
      modifyModule i fun r => { r with pending := r.pending + 1 }
    return none
  | _, some e => return some e

/-- Runs a module whose requests have been seen to, or lets it wait. -/
def runReached (i : Nat) : Exec (Option Value) := do
  let r ← getModule i
  if r.pending > 0 then
    let turn ← nextTurn
    modifyModule i fun r => { r with waitsSince := some turn }
    return none
  else if r.awaits then
    let turn ← nextTurn
    modifyModule i fun r => { r with waitsSince := some turn }
    runAwaitingModule i
    return none
  else runModule i

/-- Goes through the modules that one requests, with what evaluates each of them. -/
def walkRequested (inner : Nat → Walk → Exec Walked) (i : Nat) : List Nat → Walk → Exec Walked
  | [], w => return .done w
  | j :: js, w => do
    match ← inner j w with
    | .failed e w => return .failed e w
    | .done w =>
      match ← joinRequested i j with
      | some e => return .failed e w
      | none => walkRequested inner i js w

/-- The stack that evaluating a module inside another takes. -/
def evaluateBytes : Nat := 300

def evaluateInner : (fuel : Nat) → Nat → Walk → Exec Walked
  | 0, _, w => do return .failed (← makeError .internalError "stack overflow") w
  | fuel + 1, i, w => withStack evaluateBytes do
    let r ← getModule i
    match r.status with
    | .waiting | .evaluated =>
      match r.failure with
      | some e => return .failed e w
      | none => return .done w
    | .linked =>
      modifyModule i fun r => { r with
        status := .evaluating, reached := w.next, earliest := w.next, pending := 0 }
      match ← walkRequested (evaluateInner fuel) i r.requested ⟨w.next + 1, i :: w.open_⟩ with
      | .failed e w => return .failed e w
      | .done w =>
        match ← runReached i with
        | some e => return .failed e w
        | none =>
          let r ← getModule i
          if r.earliest == r.reached then
            return .done { w with open_ := ← leaveCycle i w.open_ }
          else return .done w
    | _ => return .done w

/-- Evaluates a module that has been linked; the promise for its evaluation is the result. -/
def evaluateModule (i : Nat) : Exec Value := do
  let r ← getModule i
  let i := match r.status with
    | .waiting | .evaluated => r.root
    | _ => i
  match (← getModule i).capability with
  | some cap => return cap.promise
  | none =>
    let cap ← newCapability
    modifyModule i fun r => { r with capability := some cap }
    match ← evaluateInner exportLimit i {} with
    | .failed e w =>
      for j in w.open_ do
        modifyModule j fun r => { r with status := .evaluated, failure := some e, root := i }
      settleCapability cap true e
    | .done _ =>
      if (← getModule i).waitsSince.isNone then settleCapability cap false .undefined
    return cap.promise

/-! ## Waiting modules -/

/-- Notes that a module has failed, and with it all that waited for it. -/
def failModule (e : Value) : (fuel : Nat) → Nat → Exec Unit
  | 0, _ => return
  | fuel + 1, i => do
    let r ← getModule i
    match r.status with
    | .evaluated => return
    | _ =>
      modifyModule i fun r => { r with status := .evaluated, failure := some e }
      r.parents.forM (failModule e fuel)
      match r.capability with
      | some cap => settleCapability cap true e
      | none => return

def finishModule (i : Nat) : Exec Unit := do
  modifyModule i fun r => { r with status := .evaluated, waitsSince := none }
  match (← getModule i).capability with
  | some cap => settleCapability cap false .undefined
  | none => return

/-- The modules that have nothing left to wait for once a module is done. -/
def readyAncestors : (fuel : Nat) → (ready : List Nat) → Nat → Exec (List Nat)
  | 0, ready, _ => return ready
  | fuel + 1, ready, i => do
    (← getModule i).parents.foldlM (fun ready p => do
      let r ← getModule p
      if ready.contains p || (← getModule r.root).failure.isSome then return ready
      modifyModule p fun r => { r with pending := r.pending - 1 }
      if r.pending > 1 then return ready
      let ready := ready ++ [p]
      if r.awaits then return ready else readyAncestors fuel ready p) ready

def moduleDone (i : Nat) (fails : Bool) (v : Value) : Exec Unit := do
  let r ← getModule i
  match r.status with
  | .evaluated => return
  | _ =>
    if fails then failModule v exportLimit i
    else
      finishModule i
      let ready ← readyAncestors exportLimit [] i
      let ms := (← get).modules
      let turn (j : Nat) : Nat := ((ms.getD j default).waitsSince).getD 0
      for j in ready.mergeSort fun a b => turn a ≤ turn b do
        let s ← getModule j
        match s.status with
        | .evaluated => pure ()
        | _ =>
          if s.awaits then runAwaitingModule j
          else
            match ← runModule j with
            | some e => failModule e exportLimit j
            | none => finishModule j

/-! ## Dynamic imports -/

/-- Settles the promise of an import when the module has been evaluated. -/
def importDone (i : Nat) (resolve reject : Value) (fails : Bool) (v : Value) : Exec Unit := do
  if fails then
    let _ ← call reject .undefined #[v]
  else
    match ← attempt (moduleNamespace i) with
    | .value a => let _ ← call resolve .undefined #[.obj a]
    | .thrown e => let _ ← call reject .undefined #[e]

def importModule (cap : Capability) (base : String) (specifier : Value) : Exec Unit := do
  let r ← attempt do
    let s ← toText specifier
    let i ← loadModule exportLimit base s
    linkModule i
    match ← evaluateModule i with
    | .obj p =>
      let slots := #[Value.int i, cap.resolve, cap.reject]
      let onFulfilled ← newNative (.promise (.importDone false)) slots "" 1
      let onRejected ← newNative (.promise (.importDone true)) slots "" 1
      let _ ← promiseThen p onFulfilled onRejected
    | _ => pure ()
  match r with
  | .value _ => return
  | .thrown e => settleCapability cap true e

/-! ## Jobs -/

/-- Runs the handler of a reaction, and settles what depends on it. -/
def runReaction (handler : Value) (rejected : Bool) (cap : Option Capability) (v : Value) :
    Exec Unit := do
  let r ← attempt do
    if handler.isUndefined then
      if rejected then throwValue v else pure v
    else fun c => c.call handler .undefined #[v]
  match r, cap with
  | .value w, some cap => settleCapability cap false w
  | .thrown e, some cap => settleCapability cap true e
  | _, none => return

/-- Lets a promise follow something with a `then` of its own. -/
def runThenable (p : Nat) (v f : Value) : Exec Unit := do
  let (resolve, reject) ← settlersOf p
  match ← attempt (call f v #[resolve, reject]) with
  | .value _ => return
  | .thrown e => let _ ← call reject .undefined #[e]

def runJob (j : Job) : Exec Unit := do
  match j with
  | .reaction h rejected cap v =>
    let held := match cap with
      | some c => #[h, v, c.promise, c.resolve, c.reject]
      | none => #[h, v]
    holding held (runReaction h rejected cap v)
  | .thenable p v f => holding #[.obj p, v, f] (runThenable p v f)
  | .importModule cap base s =>
    holding #[cap.promise, cap.resolve, cap.reject, s] (importModule cap base s)

/-- Does the oldest job; tells whether there was one, and what it threw. -/
def nextJob : Exec (Option (Attempt Unit)) := do
  match (← get).jobs.pop? with
  | none => return none
  | some (j, jobs) =>
    modify fun m => { m with jobs }
    return some (← attempt (runJob j))

end ScriptSandbox.Exec
