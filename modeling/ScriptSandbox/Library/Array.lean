import ScriptSandbox.Library.Object

/-!
# Arrays

The constructor `Array` and the methods of arrays. All methods but a few work on anything with a
length; an array whose elements are all ordinary is changed in place where that makes no difference.
-/

namespace ScriptSandbox.Library

open Exec

/-! ## Elements -/

/-- The greatest length that something like an array can have. -/
def maxLength : Nat := 9007199254740991

def element? (a i : Nat) : Exec (Option Value) := do
  match (← getObj a).kind with
  | .array items _ =>
    match items[i]? with
    | some .hole | none => slow
    | some v => return some v
  | _ => slow
where
  /-- An element as any object has it. -/
  slow : Exec (Option Value) := do
    let k := Key.ofNat i
    if ← hasProperty a k then some <$> getProp a k else return none

/-- An element, or undefined. -/
def element (a i : Nat) : Exec Value := getProp a (.ofNat i)

def setLength (a n : Nat) : Exec Unit := setOrThrow a lengthKey (.ofNat n)

def setElement (a i : Nat) (v : Option Value) : Exec Unit := do
  match v with
  | some v => setOrThrow a (.ofNat i) v
  | none =>
    if !(← deleteProp a (.ofNat i)) then typeError "could not delete property"

/-- The elements of an ordinary array without gaps, if an object is one. -/
def denseItems? (a : Nat) : Exec (Option (Array Value)) := do
  match (← getObj a).kind with
  | .array items length =>
    return if items.size == length && !(items.any Value.isHole) then some items else none
  | _ => return none

/-- Whether there are no gaps among elements. -/
def isGapless (items : Array Value) : Bool := !(items.any Value.isHole)

/-- Changes the elements of an ordinary array in place, if it is one that allows it. -/
def changeDense {α : Type} (a : Nat) (allows : Array Value → Bool)
    (f : Array Value → α × Array Value) : Exec (Option α) := do
  match ← takeObj a with
  | ⟨proto, extensible, props, .array items length⟩ =>
    if extensible && items.size == length && allows items then
      let (r, items) := f items
      let n := items.size
      putObj a ⟨proto, extensible, props, .array items n⟩
      return some r
    else
      putObj a ⟨proto, extensible, props, .array items length⟩
      return none
  | o =>
    putObj a o
    return none

/-- The constructor for what a method makes from an array; undefined means an ordinary array. -/
def arraySpecies (a : Nat) : Exec Value := do
  if !(← valueIsArray (.obj a)) then return .undefined
  match ← getProp a constructorKey with
  | .obj c =>
    if c == Intrinsic.arrayConstructor.address then
      match ← getProp c KnownSymbol.species.key with
      | .obj s => return if s == c then .undefined else .obj s
      | v => return if v.isNullish then .undefined else v
    else
      let v ← getProp c KnownSymbol.species.key
      return if v.isNullish then .undefined else v
  | v => return v

/-- The place of a value that has to be an object, which stays in use. -/
def heldObject (v : Value) : Exec Nat := do
  match v with
  | .obj r =>
    holdAlso v
    return r
  | _ => typeError "not an object"

/-- What a method makes from an array, with a length. -/
def newFrom (a n : Nat) : Exec Nat := do
  match ← arraySpecies a with
  | .undefined =>
    if n > 4294967295 then rangeError "invalid array length"
    heldObject (← newArray #[])
  | c =>
    if !(← isConstructor c) then typeError "not a constructor"
    heldObject (← construct c #[.ofNat n] c)

/-- What a constructor makes for a length, or an array if it is none. -/
def newBy (c : Value) (args : Array Value) : Exec Nat := do
  if ← isConstructor c then heldObject (← construct c args c)
  else heldObject (← newArray #[])

/-! ## Making arrays -/

def constructArray (c : NativeCall) : Exec Value := do
  let proto ← prototypeFor c.newTarget .arrayPrototype
  let make (items : Array Value) (n : Nat) : Exec Value := do
    chargeBytes (16 * items.size)
    return .obj (← alloc { proto := some proto, kind := .array items n })
  match c.args.toList with
  | [.int n] =>
    if n < 0 then rangeError "invalid array length"
    make #[] n.toNat
  | [.num x] =>
    if Numeral.ofInt (Numeral.toUint32 x) != x then rangeError "invalid array length"
    make #[] (Numeral.toUint32 x)
  | items => make items.toArray items.length

/-- An array from something that can be gone through, or is like an array. -/
def arrayFrom (c : NativeCall) : Exec Value := do
  let f := c.arg 1
  let maps := !f.isUndefined
  if maps && !(← isCallable f) then typeError "not a function"
  let mapped (v : Value) (i : Nat) : Exec Value :=
    if maps then call f (c.arg 2) #[v, .ofNat i] else pure v
  let method ← getValue (c.arg 0) KnownSymbol.iterator.key
  if !method.isNullish then
    let r ← newBy c.this #[]
    let n ← iterate (c.arg 0) 0 fun i v => do
      createData r (.ofNat i) (← mapped v i)
      return i + 1
    setLength r n
    return .obj r
  else
    let a ← toObject (c.arg 0)
    let n ← lengthOf a
    let r ← newBy c.this #[.ofNat n]
    forCount (fun _ i => do createData r (.ofNat i) (← mapped (← element a i) i)) n 0 ()
    setLength r n
    return .obj r

def arrayOf (c : NativeCall) : Exec Value := do
  let r ← newBy c.this #[.ofNat c.args.size]
  forCount (fun _ i => createData r (.ofNat i) (c.arg i)) c.args.size 0 ()
  setLength r c.args.size
  return .obj r

/-- Whether a value is taken apart when it is joined to an array. -/
def spreads (v : Value) : Exec Bool := do
  match v with
  | .obj a =>
    let s ← getProp a KnownSymbol.isConcatSpreadable.key
    if s.isUndefined then valueIsArray v else return s.truthy
  | _ => return false

def concatArrays (c : NativeCall) : Exec Value := do
  let a ← toObject c.this
  let r ← newFrom a 0
  let n ← (Value.obj a :: c.args.toList).foldlM (fun n v => do
    match v with
    | .obj s =>
      if ← spreads v then
        let k ← lengthOf s
        if n + k > maxLength then typeError "Array loo long"
        forCount (fun _ i => do
          match ← element? s i with
          | some x => createData r (.ofNat (n + i)) x
          | none => pure ()) k 0 ()
        return n + k
      else
        createData r (.ofNat n) v
        return n + 1
    | v =>
      createData r (.ofNat n) v
      return n + 1) 0
  setLength r n
  return .obj r

/-! ## Going through arrays -/

/-- An array with its length and the function to be called for its elements. -/
structure Visit where
  array : Nat
  length : Nat
  function : Value
  this : Value

/-- What a method that calls a function for all elements begins with. -/
def visitOf (c : NativeCall) : Exec Visit := do
  let a ← toObject c.this
  let n ← lengthOf a
  if !(← isCallable (c.arg 0)) then typeError "not a function"
  return ⟨a, n, c.arg 0, c.arg 1⟩

/-- Calls the function for an element. -/
def Visit.ask (v : Visit) (x : Value) (i : Nat) : Exec Value :=
  call v.function v.this #[x, .ofNat i, .obj v.array]

/-- Goes through the elements that are there. -/
def Visit.each {σ : Type} (v : Visit) (step : σ → Nat → Value → Exec σ) (s : σ) : Exec σ :=
  forCount (fun s i => do
    match ← element? v.array i with
    | some x => step s i x
    | none => return s) v.length 0 s

/-- The first element that the function accepts, with its place. -/
def Visit.find (v : Visit) (fromEnd : Bool) : Exec (Option (Nat × Value)) := do
  let test (i : Nat) : Exec (Option (Nat × Value)) := do
    let x ← element v.array i
    return if (← v.ask x i).truthy then some (i, x) else none
  if fromEnd then lastCount test v.length else firstCount test v.length 0

def reduceArray (c : NativeCall) (fromEnd : Bool) : Exec Value := do
  let v ← visitOf c
  let place (i : Nat) : Nat := if fromEnd then v.length - 1 - i else i
  let start ←
    if c.args.size > 1 then pure (some (c.arg 1, 0))
    else
      firstCount (fun i => do
        return (← element? v.array (place i)).map fun x => (x, i + 1)) v.length 0
  match start with
  | none => typeError "empty array"
  | some (x, i) =>
    forCount (fun acc i => do
      match ← element? v.array (place i) with
      | some x => call v.function .undefined #[acc, x, .ofNat (place i), .obj v.array]
      | none => return acc) (v.length - i) i x

/-! ## Sorting -/

/-- Merges two sorted lists; of elements that compare as equal the left one comes first. -/
def mergeBy (le : Value → Value → Exec Bool) : (fuel : Nat) → List Value → List Value →
    List Value → Exec (List Value)
  | 0, xs, ys, acc => return acc.reverse ++ xs ++ ys
  | _, [], ys, acc => return acc.reverse ++ ys
  | _, xs, [], acc => return acc.reverse ++ xs
  | fuel + 1, x :: xs, y :: ys, acc => do
    if ← le x y then mergeBy le fuel xs (y :: ys) (x :: acc)
    else mergeBy le fuel (x :: xs) ys (y :: acc)

/-- Sorts a list; elements that compare as equal stay in order. -/
def sortBy (le : Value → Value → Exec Bool) : (fuel : Nat) → List Value → Exec (List Value)
  | 0, xs => return xs
  | fuel + 1, xs => do
    if xs.length < 2 then return xs
    let (l, r) := xs.splitAt (xs.length / 2)
    let l ← sortBy le fuel l
    let r ← sortBy le fuel r
    mergeBy le (l.length + r.length) l r []

/-- Whether a function puts a value before another, or calls them equal. -/
def orderedBy (f x y : Value) : Exec Bool := do
  let d ← toNumber (← call f .undefined #[x, y])
  return !(d > 0.0)

/-- Whether a value comes before another, or is equal, as strings. -/
def orderedAsTexts (x y : Value) : Exec Bool := do
  let s ← toStr x
  return !((← toStr y).lt s)

/-- Sorts values as arrays do: by a function, or as strings, with undefined at the end. -/
def sortValues (f : Value) (xs : List Value) : Exec (List Value) := do
  let (there, missing) := xs.partition fun v => !v.isUndefined
  let le := if f.isUndefined then orderedAsTexts else orderedBy f
  return (← sortBy le 64 there) ++ missing

/-- Fails if a value is no function to sort by. -/
def checkComparison (f : Value) : Exec Unit := do
  if !f.isUndefined && !(← isCallable f) then typeError "not a function"

def sortArray (c : NativeCall) : Exec Value := do
  checkComparison (c.arg 0)
  let a ← toObject c.this
  let n ← lengthOf a
  let xs ← forCount (fun (acc : Array Value) i => do
    match ← element? a i with
    | some x => return acc.push x
    | none => return acc) n 0 #[]
  let sorted ← sortValues (c.arg 0) xs.toList
  let k ← sorted.foldlM (fun i x => do
    setElement a i (some x)
    return i + 1) 0
  forCount (fun _ i => setElement a i none) (n - k) k ()
  return .obj a

/-! ## Changing arrays -/

/-- Moves elements of something like an array, in the order in which none is lost. -/
def moveElements (a source target count : Nat) : Exec Unit := do
  let move (i : Nat) : Exec Unit := do setElement a (target + i) (← element? a (source + i))
  if source < target then
    let _ ← lastCount (fun i => do
      move i
      return (none : Option Unit)) count
  else forCount (fun _ i => move i) count 0 ()

/-- Adds elements at the end. -/
def pushAll (c : NativeCall) : Exec Value := do
  let a ← toObject c.this
  let added ← changeDense a (fun _ => true) fun items =>
    (items.size + c.args.size, items ++ c.args)
  match added with
  | some n =>
    chargeBytes (16 * c.args.size)
    return .ofNat n
  | none =>
    let n ← lengthOf a
    if n + c.args.size > maxLength then typeError "Array loo long"
    forCount (fun _ i => setElement a (n + i) (some (c.arg i))) c.args.size 0 ()
    setLength a (n + c.args.size)
    return .ofNat (n + c.args.size)

/-- Removes the last element. -/
def popArray (c : NativeCall) : Exec Value := do
  let a ← toObject c.this
  match ← changeDense a (fun items => !(items.back?.getD .undefined).isHole) fun items =>
      (items.back?.getD .undefined, items.pop) with
  | some v => return v
  | none =>
    let n ← lengthOf a
    if n == 0 then
      setLength a 0
      return .undefined
    let v ← element a (n - 1)
    setElement a (n - 1) none
    setLength a (n - 1)
    return v

/-- Removes the first element. -/
def shiftArray (c : NativeCall) : Exec Value := do
  let a ← toObject c.this
  match ← changeDense a isGapless fun items =>
      (items.getD 0 .undefined, items.extract 1 items.size) with
  | some v => return v
  | none =>
    let n ← lengthOf a
    if n == 0 then
      setLength a 0
      return .undefined
    let v ← element a 0
    moveElements a 1 0 (n - 1)
    setElement a (n - 1) none
    setLength a (n - 1)
    return v

/-- Adds elements at the start. -/
def unshiftArray (c : NativeCall) : Exec Value := do
  let a ← toObject c.this
  match ← changeDense a isGapless fun items => (items.size + c.args.size, c.args ++ items) with
  | some n =>
    chargeBytes (16 * c.args.size)
    return .ofNat n
  | none =>
    let n ← lengthOf a
    let k := c.args.size
    if k > 0 then
      if n + k > maxLength then typeError "Array loo long"
      moveElements a 0 k n
      forCount (fun _ i => setElement a i (some (c.arg i))) k 0 ()
    setLength a (n + k)
    return .ofNat (n + k)

def reverseArray (c : NativeCall) : Exec Value := do
  let a ← toObject c.this
  match ← changeDense a isGapless fun items => ((), items.reverse) with
  | some _ => return .obj a
  | none =>
    let n ← lengthOf a
    forCount (fun _ i => do
      let j := n - 1 - i
      let x ← element? a i
      let y ← element? a j
      if x.isSome || y.isSome then
        setElement a i y
        setElement a j x) (n / 2) 0 ()
    return .obj a

/-- How many elements are to be removed from a place on. -/
def removalCount (c : NativeCall) (n start : Nat) : Exec Nat := do
  match c.args.size with
  | 0 => return 0
  | 1 => return n - start
  | _ => return min (← toInteger (c.arg 1)).toNat (n - start)

/-- Replaces elements from a place on. -/
def spliceArray (c : NativeCall) : Exec Value := do
  let a ← toObject c.this
  let n ← lengthOf a
  let start ← placeFrom (c.arg 0) n
  let count ← removalCount c n start
  let added := c.args.extract 2 c.args.size
  let r ← newFrom a count
  forCount (fun _ i => do
    match ← element? a (start + i) with
    | some x => createData r (.ofNat i) x
    | none => pure ()) count 0 ()
  setLength r count
  let k := added.size
  if n + k - count > maxLength then typeError "Array loo long"
  if k != count then
    moveElements a (start + count) (start + k) (n - start - count)
    forCount (fun _ i => setElement a i none) (n - (n + k - count)) (n + k - count) ()
  forCount (fun _ i => setElement a (start + i) added[i]?) k 0 ()
  setLength a (n + k - count)
  return .obj r

def sliceArray (c : NativeCall) : Exec Value := do
  let a ← toObject c.this
  let n ← lengthOf a
  let start ← placeFrom (c.arg 0) n
  let stop ← placeOr (c.arg 1) n n
  let count := stop - start
  let r ← newFrom a count
  forCount (fun _ i => do
    match ← element? a (start + i) with
    | some x => createData r (.ofNat i) x
    | none => pure ()) count 0 ()
  setLength r count
  return .obj r

def copyWithinArray (c : NativeCall) : Exec Value := do
  let a ← toObject c.this
  let n ← lengthOf a
  let target ← placeFrom (c.arg 0) n
  let start ← placeFrom (c.arg 1) n
  let stop ← placeOr (c.arg 2) n n
  moveElements a start target (min (stop - start) (n - target))
  return .obj a

def fillArray (c : NativeCall) : Exec Value := do
  let a ← toObject c.this
  let n ← lengthOf a
  let start ← placeOr (c.arg 1) n 0
  let stop ← placeOr (c.arg 2) n n
  let whole : Bool :=
    match (← getObj a).kind with
    | .array items _ => items.isEmpty && start == 0 && stop == n && n ≤ 4294967295
    | _ => false
  if whole && (← getObj a).extensible then
    chargeBlock (16 * n)
    setKind a (.array (Array.replicate n (c.arg 0)) n)
  else forCount (fun _ i => setElement a i (some (c.arg 0))) (stop - start) start ()
  return .obj a

/-- Puts the elements of arrays inside an array in their place. -/
def flattenInto (r : Nat) : (depth : Nat) → (a n : Nat) → (next : Nat) → Exec Nat
  | 0, a, n, next =>
    forCount (fun next i => do
      match ← element? a i with
      | some x =>
        createData r (.ofNat next) x
        return next + 1
      | none => return next) n 0 next
  | depth + 1, a, n, next =>
    forCount (fun next i => do
      match ← element? a i with
      | some (.obj x) =>
        if ← valueIsArray (.obj x) then flattenInto r depth x (← lengthOf x) next
        else
          createData r (.ofNat next) (.obj x)
          return next + 1
      | some x =>
        createData r (.ofNat next) x
        return next + 1
      | none => return next) n 0 next

def flatArray (c : NativeCall) : Exec Value := do
  let a ← toObject c.this
  let n ← lengthOf a
  let depth ← if (c.arg 0).isUndefined then pure 1 else toInteger (c.arg 0)
  let r ← newFrom a 0
  let k ← flattenInto r (min depth.toNat 1000) a n 0
  setLength r k
  return .obj r

/-- An array of what a function gives for the elements, flattened. -/
def flatMapArray (c : NativeCall) : Exec Value := do
  let v ← visitOf c
  let r ← newFrom v.array 0
  let k ← v.each (fun next i x => do
    match ← v.ask x i with
    | .obj y =>
      if ← valueIsArray (.obj y) then flattenInto r 0 y (← lengthOf y) next
      else
        createData r (.ofNat next) (.obj y)
        return next + 1
    | y =>
      createData r (.ofNat next) y
      return next + 1) 0
  setLength r k
  return .obj r

/-- The elements of something like an array, with undefined for those that are not there. -/
def allElements (a n : Nat) : Exec (Array Value) := do
  match ← denseItems? a with
  | some items => return items
  | none =>
    if n > 4294967295 then rangeError "invalid array length"
    forCount (fun (acc : Array Value) i => do return acc.push (← element a i)) n 0 #[]

/-- An array with one element replaced, as a new one. -/
def withElement (c : NativeCall) : Exec Value := do
  let a ← toObject c.this
  let n ← lengthOf a
  let i ← toInteger (c.arg 0)
  let i := if i < 0 then i + n else i
  if i < 0 || i ≥ n then rangeError "invalid array index"
  newArray ((← allElements a n).setIfInBounds i.toNat (c.arg 1))

/-- An array with elements replaced from a place on, as a new one. -/
def splicedArray (c : NativeCall) : Exec Value := do
  let a ← toObject c.this
  let n ← lengthOf a
  let start ← placeFrom (c.arg 0) n
  let count ← removalCount c n start
  let items ← allElements a n
  newArray (items.extract 0 start ++ c.args.extract 2 c.args.size
    ++ items.extract (start + count) items.size)

/-! ## Texts -/

def joinArray (a : Nat) (sep : Str) (isLocal : Bool) : Exec Value := do
  let n ← lengthOf a
  let s ← forCount (fun (acc : Str) i => do
    let acc := if i == 0 then acc else acc ++ sep
    if i % 1024 == 1023 then roomFor acc.length
    if acc.length > maxStringLength then raise .internalError "string too long"
    let v ← element a i
    if v.isNullish then return acc
    let v ← if isLocal then invoke v (.named "toLocaleString") #[] else pure v
    return acc ++ (← toStr v)) n 0 Str.empty
  return .str s

def arrayText (c : NativeCall) : Exec Value := do
  let a ← toObject c.this
  let f ← getProp a (.named "join")
  if ← isCallable f then call f (.obj a) #[] else return .str (← objectTag (.obj a))

def listEntries (c : NativeCall) (listing : Listing) : Exec Value := do
  let a ← toObject c.this
  newObjectOf .arrayIteratorPrototype (.arrayIterator (some a) 0 listing) []

/-! ## All functions -/

def arrayFn (f : ArrayFn) (c : NativeCall) : Exec Value := do
  match f with
  | .construct => constructArray c
  | .isArray => return .bool (← valueIsArray (c.arg 0))
  | .from => arrayFrom c
  | .of => arrayOf c
  | .species => return c.this
  | .at =>
    let a ← toObject c.this
    let n ← lengthOf a
    let i ← toInteger (c.arg 0)
    let i := if i < 0 then i + n else i
    if i < 0 || i ≥ n then return .undefined
    element a i.toNat
  | .withItem => withElement c
  | .concat => concatArrays c
  | .every =>
    let v ← visitOf c
    let failed ← firstCount (fun i => do
      match ← element? v.array i with
      | some x => return if (← v.ask x i).truthy then none else some ()
      | none => return none) v.length 0
    return .bool failed.isNone
  | .some =>
    let v ← visitOf c
    let found ← firstCount (fun i => do
      match ← element? v.array i with
      | some x => return if (← v.ask x i).truthy then some () else none
      | none => return none) v.length 0
    return .bool found.isSome
  | .forEach =>
    let v ← visitOf c
    v.each (fun _ i x => do let _ ← v.ask x i) ()
    return .undefined
  | .map =>
    let v ← visitOf c
    let r ← newFrom v.array v.length
    v.each (fun _ i x => do createData r (.ofNat i) (← v.ask x i)) ()
    match (← getObj r).kind with
    | .array _ n => if n < v.length then setLength r v.length
    | _ => pure ()
    return .obj r
  | .filter =>
    let v ← visitOf c
    let r ← newFrom v.array 0
    let _ ← v.each (fun k i x => do
      if (← v.ask x i).truthy then
        createData r (.ofNat k) x
        return k + 1
      else return k) 0
    return .obj r
  | .reduce => reduceArray c false
  | .reduceRight => reduceArray c true
  | .fill => fillArray c
  | .find => do return ((← (← visitOf c).find false).map (·.2)).getD .undefined
  | .findIndex => do
    return ((← (← visitOf c).find false).map fun r => Value.ofNat r.1).getD (.int (-1))
  | .findLast => do return ((← (← visitOf c).find true).map (·.2)).getD .undefined
  | .findLastIndex => do
    return ((← (← visitOf c).find true).map fun r => Value.ofNat r.1).getD (.int (-1))
  | .indexOf =>
    let a ← toObject c.this
    let n ← lengthOf a
    let start ← placeFrom (c.arg 1) n
    let found ← firstCount (fun i => do
      match ← element? a i with
      | some x => return if Value.strictEq x (c.arg 0) then some i else none
      | none => return none) (n - start) start
    return (found.map Value.ofNat).getD (.int (-1))
  | .lastIndexOf =>
    let a ← toObject c.this
    let n ← lengthOf a
    let last ← if c.args.size > 1 then toInteger (c.arg 1) else pure ((n : Int) - 1)
    let last := if last < 0 then last + n else min last (n - 1)
    let found ← lastCount (fun i => do
      match ← element? a i with
      | some x => return if Value.strictEq x (c.arg 0) then some i else none
      | none => return none) (last + 1).toNat
    return (found.map Value.ofNat).getD (.int (-1))
  | .includes =>
    let a ← toObject c.this
    let n ← lengthOf a
    let start ← placeFrom (c.arg 1) n
    let found ← firstCount (fun i => do
      return if (← element a i).sameValueZero (c.arg 0) then some () else none) (n - start) start
    return .bool found.isSome
  | .join =>
    let a ← toObject c.this
    let sep ← if (c.arg 0).isUndefined then pure (.plain "," 1) else toStr (c.arg 0)
    joinArray a sep false
  | .toString => arrayText c
  | .toLocaleString => do joinArray (← toObject c.this) (.plain "," 1) true
  | .pop => popArray c
  | .push => pushAll c
  | .shift => shiftArray c
  | .unshift => unshiftArray c
  | .reverse => reverseArray c
  | .toReversed => do
    let a ← toObject c.this
    newArray (← allElements a (← lengthOf a)).reverse
  | .sort => sortArray c
  | .toSorted =>
    checkComparison (c.arg 0)
    let a ← toObject c.this
    let items ← allElements a (← lengthOf a)
    newArray (← sortValues (c.arg 0) items.toList).toArray
  | .slice => sliceArray c
  | .splice => spliceArray c
  | .toSpliced => splicedArray c
  | .copyWithin => copyWithinArray c
  | .flatMap => flatMapArray c
  | .flat => flatArray c
  | .values => listEntries c .values
  | .keys => listEntries c .keys
  | .entries => listEntries c .entries
  | .iteratorNext =>
    let a ← match c.this with
      | .obj a => pure a
      | _ => typeError "Array Iterator object expected"
    match ← arrayIteratorStep a with
    | some v => iterResult v false
    | none => iterResult .undefined true

def arrayStatics : List Member :=
  [method "isArray" (.array .isArray) 1, method "from" (.array .from) 1, method "of" (.array .of) 0,
    species (.array .species)]

/-- Methods that work on anything with a length, also on views of buffers. -/
def sequenceMethods : List Member :=
  [method "at" (.array .at) 1, method "every" (.array .every) 1, method "some" (.array .some) 1,
    method "forEach" (.array .forEach) 1, method "reduce" (.array .reduce) 1,
    method "reduceRight" (.array .reduceRight) 1, method "find" (.array .find) 1,
    method "findIndex" (.array .findIndex) 1, method "findLast" (.array .findLast) 1,
    method "findLastIndex" (.array .findLastIndex) 1, method "indexOf" (.array .indexOf) 1,
    method "lastIndexOf" (.array .lastIndexOf) 1, method "includes" (.array .includes) 1,
    method "join" (.array .join) 1, method "toLocaleString" (.array .toLocaleString) 0,
    method "reverse" (.array .reverse) 0, method "copyWithin" (.array .copyWithin) 2]

def arrayMethods : List Member :=
  sequenceMethods
    ++ [method "with" (.array .withItem) 2, method "concat" (.array .concat) 1,
      method "map" (.array .map) 1, method "filter" (.array .filter) 1,
      method "fill" (.array .fill) 1, method "toString" (.array .toString) 0,
      method "pop" (.array .pop) 0, method "push" (.array .push) 1,
      method "shift" (.array .shift) 0,
      method "unshift" (.array .unshift) 1, method "toReversed" (.array .toReversed) 0,
      method "toSorted" (.array .toSorted) 1, method "sort" (.array .sort) 1,
      method "slice" (.array .slice) 2,
      method "splice" (.array .splice) 2, method "toSpliced" (.array .toSpliced) 2,
      method "flatMap" (.array .flatMap) 1, method "flat" (.array .flat) 0,
      knownMethod "values" (.array .values) 0 .arrayValues,
      method "keys" (.array .keys) 0, method "entries" (.array .entries) 0,
      ⟨KnownSymbol.iterator.key, "values",
        .value (.obj Intrinsic.arrayValues.address) true true⟩]

def arrayIteratorMethods : List Member :=
  [knownMethod "next" (.array .iteratorNext) 0 .arrayIteratorNext, tag "Array Iterator"]

end ScriptSandbox.Library
