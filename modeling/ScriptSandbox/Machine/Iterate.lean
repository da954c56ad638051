import ScriptSandbox.Machine.Set

/-!
# Iteration

The protocol by which guest code goes through the elements of something. Arrays are gone through
without the objects that the protocol passes around, as long as guest code has not replaced what it
would have noticed them by.
-/

namespace ScriptSandbox.Exec

def nextKey : Key := .name (.plain "next" 4)

def doneKey : Key := .name (.plain "done" 4)

def valueKey : Key := .name (.plain "value" 5)

def returnKey : Key := .name (.plain "return" 6)

/-- An iterator with its method `next`. -/
structure IteratorRecord where
  iterator : Value
  next : Value
  deriving Inhabited

/-- The answer of an iterator. -/
def iterResult (v : Value) (done : Bool) : Exec Value :=
  newObjectOf .objectPrototype .plain
    [(valueKey, .plain v), (doneKey, .plain (.bool done))]

def iteratorBy (v method : Value) : Exec IteratorRecord := do
  let i ← call method v #[]
  if !i.isObject then typeError "not an object"
  return ⟨i, ← getValue i nextKey⟩

def iteratorOf (v : Value) : Exec IteratorRecord := do
  let method ← getValue v KnownSymbol.iterator.key
  if !(← isCallable method) then typeError "value is not iterable"
  iteratorBy v method

/-- The asynchronous iterator of a value; a plain one is wrapped. -/
def asyncIteratorOf (v : Value) : Exec IteratorRecord := do
  match ← getMethod v KnownSymbol.asyncIterator.key with
  | some method => iteratorBy v method
  | none =>
    let inner ← iteratorOf v
    let i ←
      newObjectOf .asyncFromSyncIteratorPrototype (.asyncFromSync inner.iterator inner.next) []
    return ⟨i, ← getValue i nextKey⟩

/-- The next entry that an array's iterator lists. -/
def arrayIteratorStep (a : Nat) : Exec (Option Value) := do
  match (← getObj a).kind with
  | .arrayIterator (some target) i listing =>
    let o ← getObj target
    let length ←
      match o.kind with
      | .array _ length | .view _ _ _ length => pure length
      | _ => lengthOf target
    if i ≥ length then
      setKind a (.arrayIterator none i listing)
      return none
    setKind a (.arrayIterator (some target) (i + 1) listing)
    match listing with
    | .keys => return some (.ofNat i)
    | .values => return some (← getProp target (.ofNat i))
    | .entries =>
      let v ← getProp target (.ofNat i)
      return some (← newArray #[.ofNat i, v])
  | .arrayIterator none .. => return none
  | _ => typeError "not an Array Iterator"

/-- Whether an answer of an iterator says that there is no more. -/
def isDone (r : Value) : Exec Bool := do return (← getValue r doneKey).truthy

def iteratorStep (r : IteratorRecord) : Exec (Option Value) := do
  match r.next, r.iterator with
  | .obj n, .obj i =>
    if n == Intrinsic.arrayIteratorNext.address then
      match (← getObj i).kind with
      | .arrayIterator .. => return ← arrayIteratorStep i
      | _ => pure ()
  | _, _ => pure ()
  let answer ← call r.next r.iterator #[]
  if !answer.isObject then typeError "iterator must return an object"
  if ← isDone answer then return none
  return some (← getValue answer valueKey)

/-- Tells an iterator that no more is wanted. -/
def closeIterator (i : Value) : Exec Unit := do
  match ← getMethod i returnKey with
  | none => return
  | some f =>
    let r ← call f i #[]
    if !r.isObject then typeError "not an object"

/-- Tells an iterator that no more is wanted because something was thrown. -/
def closeAfterThrow (i : Value) : Exec Unit := do
  let _ ← attempt do
    match ← getMethod i returnKey with
    | none => return
    | some f => let _ ← call f i #[]

/-- Goes through so many whole numbers from one on. -/
def forCount {σ : Type} (step : σ → Nat → Exec σ) : (count start : Nat) → σ → Exec σ
  | 0, _, s => return s
  | n + 1, i, s => do forCount step n (i + 1) (← step s i)

/-- The first result among so many whole numbers from one on. -/
def firstCount {α : Type} (test : Nat → Exec (Option α)) : (count start : Nat) → Exec (Option α)
  | 0, _ => return none
  | n + 1, i => do
    match ← test i with
    | some a => return some a
    | none => firstCount test n (i + 1)

/-- The last result among the whole numbers below one. -/
def lastCount {α : Type} (test : Nat → Exec (Option α)) : (count : Nat) → Exec (Option α)
  | 0 => return none
  | n + 1 => do
    match ← test n with
    | some a => return some a
    | none => lastCount test n

def elementLimit : Nat := 1000000000

/-- Goes through the remaining elements of an iterator. -/
def iterateRest {σ : Type} (r : IteratorRecord) (step : σ → Value → Exec σ) :
    (fuel : Nat) → σ → Exec σ
  | 0, s => return s
  | fuel + 1, s => do
    match ← iteratorStep r with
    | none => return s
    | some v =>
      match ← attempt (step s v) with
      | .value s => iterateRest r step fuel s
      | .thrown e =>
        closeAfterThrow r.iterator
        throwValue e

/-- Goes through the elements of something. -/
def iterate {σ : Type} (v : Value) (s : σ) (step : σ → Value → Exec σ) : Exec σ := do
  let r ← iteratorOf v
  withNative "" #[v, r.iterator, r.next] (iterateRest r step elementLimit s)

/-- The elements of something, in order. -/
def elementsOf (v : Value) : Exec (Array Value) :=
  iterate v #[] fun acc x => do
    charge 16
    return acc.push x

/-- The elements of something like an array, by their places. -/
def listOf (v : Value) : Exec (Array Value) := do
  match v with
  | .obj a =>
    match (← getObj a).kind with
    | .array items length =>
      if items.size == length && !(items.any Value.isHole) then return items
    | _ => pure ()
    let n ← lengthOf a
    if n > 65534 then rangeError "too many arguments in function call (only 65534 allowed)"
    forCount (fun acc i => do return acc.push (← getProp a (.ofNat i))) n 0 #[]
  | _ => typeError "not a object"

end ScriptSandbox.Exec
