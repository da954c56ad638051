import ScriptSandbox.Guest.Thrown
import ScriptSandbox.Machine.Iterate

/-!
# Promises

How promises are made, settled and waited for. What is to be done when a promise is settled becomes
a job; jobs run when nothing else does. A promise that is rejected while nobody has asked what
becomes of it is noted, if that is wanted, until somebody asks.
-/

namespace ScriptSandbox.Exec

def newPromise : Exec Nat := do
  charge 120
  alloc { proto := some Intrinsic.promisePrototype.address, kind := .promise {} }

/-- The state of a promise, if an object is one. -/
def promiseState? (a : Nat) : Exec (Option PromiseState) := do
  match (← getObj a).kind with
  | .promise p => return some p
  | _ => return none

def enqueue (j : Job) : Exec Unit := do
  charge 120
  modify fun m => { m with jobs := m.jobs.push j }

/-- The words for what a promise was rejected with. -/
def rejectionMessage (reason : Value) : Exec String := do
  pin true
  let e ← GuestError.ofValue reason
  pin false
  return e.message

/-- Where a promise of this context is. This is not inlined, so that nothing but the place is held. -/
@[noinline] def placeOfPromise (p : Nat) : Exec PromisePlace := do return ⟨(← get).context, p⟩

/-- Notes that a promise was rejected while nobody had asked about it. -/
def noteRejection (p : Nat) (reason : Value) : Exec Unit := do
  if (← get).tracks then
    let promise ← placeOfPromise p
    let message ← rejectionMessage reason
    modify fun m => { m with rejections := m.rejections ++ [⟨promise, message⟩] }

def withoutLast (p : PromisePlace) (rs : List Rejection) : List Rejection :=
  let rec go : List Rejection → List Rejection
    | [] => []
    | r :: rs => if r.promise == p then rs else r :: go rs
  (go rs.reverse).reverse

/-- Notes that somebody has asked about a rejected promise after all. -/
def noteHandled (p : Nat) : Exec Unit :=
  modify fun m =>
    if m.tracks then { m with rejections := withoutLast ⟨m.context, p⟩ m.rejections } else m

def settle (p : Nat) (rejected : Bool) (v : Value) : Exec Unit := do
  match ← promiseState? p with
  | none => return
  | some s =>
    setKind p (.promise
      { s with
        status := if rejected then .rejected else .fulfilled
        value := v
        reactions := #[] })
    if rejected && !s.handled then noteRejection p v
    for r in s.reactions do
      enqueue (.reaction (if rejected then r.onRejected else r.onFulfilled) rejected r.capability v)

def thenKey : Key := .name (.plain "then" 4)

/-- Resolves a promise with a value: with what becomes of it, if it has a `then` of its own. -/
def resolveWith (p : Nat) (v : Value) : Exec Unit := do
  match v with
  | .obj a =>
    if a == p then settle p true (← makeError .typeError "promise self resolution")
    else
      match ← attempt (getValue v thenKey) with
      | .thrown e => settle p true e
      | .value f =>
        if ← isCallable f then enqueue (.thenable p v f) else settle p false v
  | v => settle p false v

/-- The functions that settle a promise; whichever is called first decides. -/
def settlersOf (p : Nat) : Exec (Value × Value) := do
  let flag ← alloc { kind := .boxed (.bool false) }
  let slots := #[Value.obj p, .obj flag]
  let resolve ← newNative (.promise (.settle false)) slots "" 1
  let reject ← newNative (.promise (.settle true)) slots "" 1
  return (resolve, reject)

/-- What a settling function does, with what it holds. -/
def settleOnce (rejects : Bool) (slots : Array Value) (v : Value) : Exec Value := do
  match slots.getD 0 .undefined, slots.getD 1 .undefined with
  | .obj p, .obj flag =>
    match (← getObj flag).kind with
    | .boxed (.bool false) =>
      setKind flag (.boxed (.bool true))
      if rejects then settle p true v else resolveWith p v
    | _ => pure ()
  | _, _ => pure ()
  return .undefined

/-- A new promise with the functions that settle it. -/
def newCapability : Exec Capability := do
  let p ← newPromise
  let (resolve, reject) ← settlersOf p
  return ⟨.obj p, resolve, reject⟩

/-- Something like a promise that a constructor makes, with the functions that settle it. -/
def capabilityOf (c : Value) : Exec Capability := do
  match c with
  | .obj a =>
    if a == Intrinsic.promiseConstructor.address then newCapability
    else
      if !(← isConstructor c) then typeError "not a constructor"
      let executor ← newNative (.promise .capability) #[.undefined, .undefined] "" 2
      let p ← construct c #[executor] c
      match executor with
      | .obj e =>
        match (← getObj e).kind with
        | .native _ slots _ =>
          let resolve := slots.getD 0 .undefined
          let reject := slots.getD 1 .undefined
          if !(← isCallable resolve) || !(← isCallable reject) then typeError "not a function"
          return ⟨p, resolve, reject⟩
        | _ => return ⟨p, .undefined, .undefined⟩
      | _ => return ⟨p, .undefined, .undefined⟩
  | _ => typeError "not a constructor"

/-- The constructor that methods of an object use for what they make. -/
def speciesOf (a : Nat) (default : Intrinsic) : Exec Value := do
  let c ← getProp a constructorKey
  if c.isUndefined then return .obj default.address
  if !c.isObject then typeError "not an object"
  let s ← getValue c KnownSymbol.species.key
  if s.isNullish then return .obj default.address
  if !(← isConstructor s) then typeError "not a constructor"
  return s

/-- A value as a promise that a constructor makes; one that it has made stays. -/
def promiseOf (c v : Value) : Exec Value := do
  match v with
  | .obj a =>
    if (← promiseState? a).isSome then
      let d ← getValue v constructorKey
      if d.sameValue c then return v
  | _ => pure ()
  let cap ← capabilityOf c
  let _ ← call cap.resolve .undefined #[v]
  return cap.promise

/-- Asks what becomes of a promise. -/
def performThen (p : Nat) (onFulfilled onRejected : Value) (capability : Option Capability) :
    Exec Unit := do
  match ← promiseState? p with
  | none => return
  | some s =>
    match s.status with
    | .pending =>
      charge 96
      setKind p (.promise
        { s with
          handled := true
          reactions := s.reactions.push ⟨onFulfilled, onRejected, capability⟩ })
    | status =>
      let rejected := status == .rejected
      if rejected && !s.handled then noteHandled p
      enqueue (.reaction (if rejected then onRejected else onFulfilled) rejected capability s.value)
      setKind p (.promise { s with handled := true })

/-- A handler if it can be called, or nothing. -/
def handlerOf (v : Value) : Exec Value := do return if ← isCallable v then v else .undefined

def promiseThen (p : Nat) (onFulfilled onRejected : Value) : Exec Value := do
  let c ← speciesOf p .promiseConstructor
  let cap ← capabilityOf c
  performThen p (← handlerOf onFulfilled) (← handlerOf onRejected) (some cap)
  return cap.promise

def ownPromiseOf (v : Value) : Exec Nat := do
  match ← promiseOf (.obj Intrinsic.promiseConstructor.address) v with
  | .obj p => return p
  | _ => newPromise

def settleCapability (c : Capability) (rejected : Bool) (v : Value) : Exec Unit := do
  let _ ← call (if rejected then c.reject else c.resolve) .undefined #[v]

end ScriptSandbox.Exec
