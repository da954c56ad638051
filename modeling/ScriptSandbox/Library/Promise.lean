import ScriptSandbox.Library.Member
import ScriptSandbox.Machine.Evaluate

/-!
# Promises for guest code

The constructor `Promise`, its functions that wait for several promises, and the small functions
that the machine hands out to go on when something is settled. What these functions share while
they wait is kept in the fields of an object that guest code never sees.
-/

namespace ScriptSandbox.Library

open Exec

/-! ## What waiting functions share -/

/-- The results that have come in, and how many are still missing. -/
structure Gathering where
  values : Value
  missing : Value
  capability : Capability

def newCounter (n : Int) : Exec Value := do return .obj (← alloc { kind := .boxed (.int n) })

/-- Changes a counter, and gives what it is then. -/
def addToCounter (v : Value) (k : Int) : Exec Int := do
  match v with
  | .obj a =>
    match (← getObj a).kind with
    | .boxed (.int n) =>
      setKind a (.boxed (.int (n + k)))
      return n + k
    | _ => return 0
  | _ => return 0

/-- The values that a function for one of several promises holds. -/
def Gathering.slots (g : Gathering) (called : Value) (i : Nat) : Array Value :=
  #[called, .ofNat i, g.values, g.capability.resolve, g.missing, g.capability.reject]

/-- Notes that a function was called; tells whether it had been called before. -/
def calledBefore (flag : Value) : Exec Bool := do return (← addToCounter flag 1) > 1

/-- Puts a result in its place, and gives all of them when none is missing. -/
def gather (c : NativeCall) (v : Value) (whenDone : Value → Exec Unit) : Exec Unit := do
  match c.slot 2, c.slot 1 with
  | .obj values, .int i => createData values (.ofNat i.toNat) v
  | _, _ => pure ()
  if (← addToCounter (c.slot 4) (-1)) == 0 then whenDone (c.slot 2)

/-- The ways to wait for several promises. -/
inductive Waits where
  | all
  | allSettled
  | any

def rejectAll (reject errors : Value) : Exec Unit := do
  let e ← newObjectOf .aggregateErrorPrototype (.error false) [(.named "errors", .library errors)]
  let _ ← call reject .undefined #[e]

/-- Runs an operation; what is thrown rejects the capability instead. -/
def orReject (cap : Capability) (act : Exec Unit) : Exec Value := do
  match ← attempt act with
  | .value _ => return cap.promise
  | .thrown e =>
    settleCapability cap true e
    return cap.promise

/-- The function of a constructor that makes promises from values. -/
def resolverOf (c : Value) : Exec Value := do
  let f ← getNamed c "resolve"
  if !(← isCallable f) then typeError "not a function"
  return f

def waitFor (how : Waits) (c : NativeCall) : Exec Value := do
  if !c.this.isObject then typeError "not an object"
  let cap ← capabilityOf c.this
  orReject cap do
    let resolver ← resolverOf c.this
    let values ← newArray #[]
    let g : Gathering := ⟨values, ← newCounter 1, cap⟩
    let _ ← iterate (c.arg 0) 0 fun i x => do
      let p ← call resolver c.this #[x]
      let called ← newCounter 0
      let slots := g.slots called i
      let onFulfilled ← match how with
        | .all => newNative (.promise .allElement) slots "" 1
        | .allSettled => newNative (.promise (.settledElement false)) slots "" 1
        | .any => pure cap.resolve
      let onRejected ← match how with
        | .all => pure cap.reject
        | .allSettled => newNative (.promise (.settledElement true)) slots "" 1
        | .any => newNative (.promise .anyElement) slots "" 1
      let _ ← addToCounter g.missing 1
      let _ ← invoke p thenKey #[onFulfilled, onRejected]
      return i + 1
    if (← addToCounter g.missing (-1)) == 0 then
      match how with
      | .any => rejectAll cap.reject values
      | _ => settleCapability cap false values

/-- Waits for the first of several promises to be settled. -/
def race (c : NativeCall) : Exec Value := do
  if !c.this.isObject then typeError "not an object"
  let cap ← capabilityOf c.this
  orReject cap do
    let resolver ← resolverOf c.this
    iterate (c.arg 0) () fun _ x => do
      let p ← call resolver c.this #[x]
      let _ ← invoke p thenKey #[cap.resolve, cap.reject]

/-! ## Promises -/

def constructPromise (c : NativeCall) : Exec Value := do
  if !c.constructs then typeError "must be called with new"
  let executor := c.arg 0
  if !(← isCallable executor) then typeError "not a function"
  let proto ← prototypeFor c.newTarget .promisePrototype
  charge 120
  let p ← alloc { proto := some proto, kind := .promise {} }
  let (resolve, reject) ← settlersOf p
  match ← attempt (call executor .undefined #[resolve, reject]) with
  | .value _ => return .obj p
  | .thrown e =>
    let _ ← call reject .undefined #[e]
    return .obj p

def thisPromise (v : Value) : Exec Nat := do
  match v with
  | .obj a =>
    match (← getObj a).kind with
    | .promise _ => return a
    | _ => typeError "Promise object expected"
  | _ => typeError "Promise object expected"

/-- Lets a function without arguments run when a promise is settled either way. -/
def finallyOf (c : NativeCall) : Exec Value := do
  match c.this with
  | .obj a =>
    let ctor ← speciesOf a .promiseConstructor
    let f := c.arg 0
    if ← isCallable f then
      let onFulfilled ← newNative (.promise .thenFinally) #[ctor, f] "" 1
      let onRejected ← newNative (.promise .catchFinally) #[ctor, f] "" 1
      invoke c.this thenKey #[onFulfilled, onRejected]
    else invoke c.this thenKey #[f, f]
  | _ => typeError "not an object"

/-- Runs the function given to `finally`, and then goes on with what there was. -/
def afterFinally (c : NativeCall) (f : PromiseFn) : Exec Value := do
  let r ← call (c.slot 1) .undefined #[]
  let p ← promiseOf (c.slot 0) r
  let thunk ← newNative (.promise f) #[c.arg 0] "" 0
  invoke p thenKey #[thunk]

def keepSettlers (c : NativeCall) : Exec Value := do
  if !(c.slot 0).isUndefined || !(c.slot 1).isUndefined then
    typeError "promise capability already initialized"
  modifyObj c.self fun o =>
    match o.kind with
    | .native f _ constructs => { o with kind := .native f #[c.arg 0, c.arg 1] constructs }
    | _ => o
  return .undefined

/-- What becomes of one of several promises, as an object. -/
def settledRecord (rejected : Bool) (v : Value) : Exec Value :=
  newObjectOf .objectPrototype .plain
    [(.named "status", .plain (.ofString (if rejected then "rejected" else "fulfilled"))),
      (.named (if rejected then "reason" else "value"), .plain v)]

def slotObject (c : NativeCall) : Nat := ((c.slot 0).address?).getD 0

def slotNumber (c : NativeCall) : Nat :=
  match c.slot 0 with
  | .int n => n.toNat
  | _ => 0

def promiseFn (f : PromiseFn) (c : NativeCall) : Exec Value := do
  match f with
  | .construct => constructPromise c
  | .resolve =>
    if !c.this.isObject then typeError "not an object"
    promiseOf c.this (c.arg 0)
  | .reject =>
    if !c.this.isObject then typeError "not an object"
    let cap ← capabilityOf c.this
    settleCapability cap true (c.arg 0)
    return cap.promise
  | .withResolvers =>
    let cap ← capabilityOf c.this
    newObjectOf .objectPrototype .plain
      [(.named "promise", .plain cap.promise), (.named "resolve", .plain cap.resolve),
        (.named "reject", .plain cap.reject)]
  | .all => waitFor .all c
  | .allSettled => waitFor .allSettled c
  | .any => waitFor .any c
  | .race => race c
  | .then => do promiseThen (← thisPromise c.this) (c.arg 0) (c.arg 1)
  | .catch => invoke c.this thenKey #[.undefined, c.arg 0]
  | .finally => finallyOf c
  | .species => return c.this
  | .settle rejects => settleOnce rejects c.slots (c.arg 0)
  | .capability => keepSettlers c
  | .allElement =>
    if ← calledBefore (c.slot 0) then return .undefined
    gather c (c.arg 0) fun values => do
      let _ ← call (c.slot 3) .undefined #[values]
    return .undefined
  | .settledElement rejects =>
    if ← calledBefore (c.slot 0) then return .undefined
    let r ← settledRecord rejects (c.arg 0)
    gather c r fun values => do
      let _ ← call (c.slot 3) .undefined #[values]
    return .undefined
  | .anyElement =>
    if ← calledBefore (c.slot 0) then return .undefined
    gather c (c.arg 0) fun errors => rejectAll (c.slot 5) errors
    return .undefined
  | .thenFinally => afterFinally c .valueThunk
  | .catchFinally => afterFinally c .thrower
  | .valueThunk => return c.slot 0
  | .thrower => throwValue (c.slot 0)
  | .asyncResume throws =>
    resumeAsync (slotObject c) throws (c.arg 0)
    return .undefined
  | .asyncGeneratorResume throws =>
    resumeAsyncGenerator (slotObject c) throws (c.slot 1).truthy (c.arg 0)
    return .undefined
  | .asyncFromSync done => iterResult (c.arg 0) done
  | .moduleDone fails =>
    moduleDone (slotNumber c) fails (c.arg 0)
    return .undefined
  | .importDone fails =>
    importDone (slotNumber c) (c.slot 1) (c.slot 2) fails (c.arg 0)
    return .undefined

def promiseStatics : List Member :=
  [method "resolve" (.promise .resolve) 1, method "reject" (.promise .reject) 1,
    method "all" (.promise .all) 1, method "allSettled" (.promise .allSettled) 1,
    method "any" (.promise .any) 1, method "race" (.promise .race) 1,
    method "withResolvers" (.promise .withResolvers) 0, species (.promise .species)]

def promiseMethods : List Member :=
  [method "then" (.promise .then) 2, method "catch" (.promise .catch) 1,
    method "finally" (.promise .finally) 1, tag "Promise"]

/-! ## Generators -/

def generatorFn (f : GeneratorFn) (c : NativeCall) : Exec Value :=
  match f with
  | .next => resumeGenerator c.this .next (c.arg 0)
  | .return => resumeGenerator c.this .return (c.arg 0)
  | .throw => resumeGenerator c.this .throw (c.arg 0)
  | .asyncNext => requestGenerator c.this .next (c.arg 0)
  | .asyncReturn => requestGenerator c.this .return (c.arg 0)
  | .asyncThrow => requestGenerator c.this .throw (c.arg 0)
  | .syncNext => awaitSyncIterator c.this .next c.args
  | .syncReturn => awaitSyncIterator c.this .return c.args
  | .syncThrow => awaitSyncIterator c.this .throw c.args
  | .iteratorSelf | .asyncIteratorSelf => pure c.this

def generatorMethods : List Member :=
  [method "next" (.generator .next) 1, method "return" (.generator .return) 1,
    method "throw" (.generator .throw) 1, tag "Generator"]

def asyncGeneratorMethods : List Member :=
  [method "next" (.generator .asyncNext) 1, method "return" (.generator .asyncReturn) 1,
    method "throw" (.generator .asyncThrow) 1, tag "AsyncGenerator"]

/-- What plain iterators inherit when they are gone through as asynchronous ones. -/
def asyncFromSyncMethods : List Member :=
  [method "next" (.generator .syncNext) 1, method "return" (.generator .syncReturn) 1,
    method "throw" (.generator .syncThrow) 1]

end ScriptSandbox.Library
