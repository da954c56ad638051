import ScriptSandbox.Library.Array

/-!
# Buffers and views

The constructor `ArrayBuffer`, and the constructors of arrays that show a buffer's bytes as numbers.
-/

namespace ScriptSandbox.Library

open Exec

/-! ## Buffers -/

def zeroBytes (n : Nat) : ByteArray :=
  let rec go : Nat → ByteArray → ByteArray
    | 0, acc => acc
    | k + 1, acc => go k (acc.push 0)
  go n (.emptyWithCapacity n)

def maxBufferSize : Nat := 2147483647

def newBuffer (proto : Nat) (size : Nat) : Exec Nat := do
  if size > maxBufferSize then rangeError "invalid array buffer length"
  chargeBlock size
  alloc { proto := some proto, kind := .buffer (zeroBytes size) }

def toPlace (v : Value) (why : String) : Exec Nat := do
  let n ← toInteger v
  if n < 0 || n > maxLength then rangeError why
  return n.toNat

/-- The bytes of the buffer that a method is called on. -/
def thisBuffer (v : Value) : Exec ByteArray := do
  match v with
  | .obj a =>
    match (← getObj a).kind with
    | .buffer bytes => return bytes
    | _ => typeError "ArrayBuffer object expected"
  | _ => typeError "ArrayBuffer object expected"

/-! ## Views -/

/-- A view, with what it shows. -/
structure ViewOf where
  address : Nat
  kind : Nat
  buffer : Nat
  offset : Nat
  length : Nat

def view? (v : Value) : Exec (Option ViewOf) := do
  match v with
  | .obj a =>
    match (← getObj a).kind with
    | .view kind buffer offset length => return some ⟨a, kind, buffer, offset, length⟩
    | _ => return none
  | _ => return none

def thisView (v : Value) : Exec ViewOf := do
  match ← view? v with
  | some w => return w
  | none => typeError "not a TypedArray"

def viewProto (kind : Nat) : Nat := firstViewPrototype + kind

def newView (proto kind length : Nat) : Exec Nat := do
  let b ← newBuffer Intrinsic.bufferPrototype.address (length * View.elementSize kind)
  alloc { proto := some proto, kind := .view kind b 0 length }

def putElements (a : Nat) (vs : Array Value) : Exec Unit := do
  let _ ← vs.foldlM (fun i v => do
    setOrThrow a (.ofNat i) v
    return i + 1) 0

def viewOfValues (proto kind : Nat) (vs : Array Value) : Exec Value := do
  let a ← newView proto kind vs.size
  putElements a vs
  return .obj a

/-- The elements of something that can be gone through, or else of something with a length. -/
def givenElements (v : Value) : Exec (Array Value) := do
  let method ← getValue v KnownSymbol.iterator.key
  if method.isNullish then listOf v else elementsOf v

def viewOfBuffer (proto kind b size : Nat) (c : NativeCall) : Exec Value := do
  let unit := View.elementSize kind
  let offset ← toPlace (c.arg 1) "invalid offset"
  if offset % unit != 0 || offset > size then rangeError "invalid offset"
  let length ←
    if (c.arg 2).isUndefined then
      if (size - offset) % unit != 0 then rangeError "invalid length"
      pure ((size - offset) / unit)
    else toPlace (c.arg 2) "invalid length"
  if offset + length * unit > size then rangeError "invalid length"
  return .obj (← alloc { proto := some proto, kind := .view kind b offset length })

def constructView (kind : Nat) (c : NativeCall) : Exec Value := do
  if !c.constructs then typeError "must be called with new"
  let proto ← match c.newTarget with
    | .obj t =>
      match ← getProp t prototypeKey with
      | .obj p => pure p
      | _ => pure (viewProto kind)
    | _ => pure (viewProto kind)
  match c.arg 0 with
  | .obj a =>
    match (← getObj a).kind with
    | .buffer bytes => viewOfBuffer proto kind a bytes.size c
    | _ => do viewOfValues proto kind (← givenElements (c.arg 0))
  | v => do return .obj (← newView proto kind (← toPlace v "invalid array buffer length"))

/-- A view of the same kind with some elements. -/
def viewLike (w : ViewOf) (vs : Array Value) : Exec Value :=
  viewOfValues (viewProto w.kind) w.kind vs

/-- The kind of view that a constructor makes, if it is one of those. -/
def kindOfConstructor? (v : Value) : Exec (Option Nat) := do
  match v with
  | .obj a =>
    match (← getObj a).kind with
    | .native (.buffer (.viewConstruct kind)) _ _ => return some kind
    | _ => return none
  | _ => return none

/-- Whether an element of a view comes before another, or is equal: what is no number comes last,
and zero with a sign before zero. -/
def orderedAsNumbers (x y : Value) : Exec Bool := do
  match x, y with
  | .big m, .big n => return decide (m ≤ n)
  | x, y =>
    let a ← toNumber x
    let b ← toNumber y
    return b.isNaN || a < b || (a == b && (a != 0.0 || !(1.0 / a > 1.0 / b)))

/-- The elements of a view, sorted. -/
def sortedElements (f : Value) (vs : Array Value) : Exec (Array Value) := do
  checkComparison f
  let le := if f.isUndefined then orderedAsNumbers else orderedBy f
  return (← sortBy le 64 vs.toList).toArray

/-- What a function makes of the elements of a view. -/
def mappedElements (c : NativeCall) (vs : Array Value) : Exec (Array Value) := do
  let f := c.arg 0
  if !(← isCallable f) then typeError "not a function"
  forCount (fun (acc : Array Value) i => do
    return acc.push (← call f (c.arg 1) #[vs.getD i .undefined, .ofNat i, c.this])) vs.size 0 #[]

def viewBy (this : Value) (vs : Array Value) : Exec Value := do
  match ← kindOfConstructor? this with
  | some kind => viewOfValues (viewProto kind) kind vs
  | none =>
    if !(← isConstructor this) then typeError "not a constructor"
    construct this #[← newArray vs] this

/-- Functions of buffers and views. -/
def bufferFn (f : BufferFn) (c : NativeCall) : Exec Value := do
  let first := c.arg 0
  match f with
  | .construct =>
    if !c.constructs then typeError "must be called with new"
    let proto ← prototypeFor c.newTarget .bufferPrototype
    return .obj (← newBuffer proto (← toPlace first "invalid array buffer length"))
  | .isView =>
    match first with
    | .obj a =>
      match (← getObj a).kind with
      | .view .. | .dataView .. => return .bool true
      | _ => return .bool false
    | _ => return .bool false
  | .byteLength => return .ofNat (← thisBuffer c.this).size
  | .slice =>
    let bytes ← thisBuffer c.this
    let start ← placeOr first bytes.size 0
    let stop ← placeOr (c.arg 1) bytes.size bytes.size
    chargeBlock (stop - start)
    newObjectOf .bufferPrototype (.buffer (bytes.extract start (max start stop))) []
  | .species => return c.this
  | .viewConstruct kind => constructView kind c
  | .viewAbstract => typeError "cannot be called"
  | .viewLength => return .ofNat (← thisView c.this).length
  | .viewByteLength =>
    let w ← thisView c.this
    return .ofNat (w.length * View.elementSize w.kind)
  | .viewByteOffset => return .ofNat (← thisView c.this).offset
  | .viewBuffer => return .obj (← thisView c.this).buffer
  | .viewTag =>
    match ← view? c.this with
    | some w => return .ofString (View.kindName w.kind)
    | none => return .undefined
  | .viewFrom =>
    let mapper := c.arg 1
    if !mapper.isUndefined && !(← isCallable mapper) then typeError "not a function"
    let items ← givenElements first
    if mapper.isUndefined then viewBy c.this items
    else
      let (vs, _) ← items.foldlM (fun (vs, i) v => do
        return (vs.push (← call mapper (c.arg 2) #[v, .ofNat i]), i + 1)) ((#[] : Array Value), 0)
      viewBy c.this vs
  | .viewOf => viewBy c.this c.args
  | .viewSet =>
    let w ← thisView c.this
    let start ← toPlace (c.arg 1) "invalid array length"
    let items ← listOf (.obj (← toObject first))
    if start + items.size > w.length then rangeError "invalid array length"
    let _ ← items.foldlM (fun i v => do
      setOrThrow w.address (.ofNat i) v
      return i + 1) start
    return .undefined
  | .viewSubarray =>
    let w ← thisView c.this
    let start ← placeOr first w.length 0
    let stop ← placeOr (c.arg 1) w.length w.length
    let offset := w.offset + start * View.elementSize w.kind
    return .obj (← alloc
      { proto := some (viewProto w.kind), kind := .view w.kind w.buffer offset (stop - start) })
  | .viewSlice =>
    let w ← thisView c.this
    let start ← placeOr first w.length 0
    let stop ← placeOr (c.arg 1) w.length w.length
    viewLike w ((← listOf c.this).extract start stop)
  | .viewFill =>
    let w ← thisView c.this
    let start ← placeOr (c.arg 1) w.length 0
    let stop ← placeOr (c.arg 2) w.length w.length
    forCount (fun _ i => setOrThrow w.address (.ofNat i) first) (stop - start) start ()
    return c.this
  | .viewMap =>
    let w ← thisView c.this
    viewLike w (← mappedElements c (← listOf c.this))
  | .viewFilter =>
    let w ← thisView c.this
    let vs ← listOf c.this
    let kept ← mappedElements c vs
    viewLike w (((vs.zip kept).filter fun (_, k) => k.truthy).map (·.1))
  | .viewSort =>
    let w ← thisView c.this
    putElements w.address (← sortedElements first (← listOf c.this))
    return c.this
  | .viewToSorted =>
    let w ← thisView c.this
    viewLike w (← sortedElements first (← listOf c.this))
  | .viewToReversed =>
    let w ← thisView c.this
    viewLike w (← listOf c.this).reverse
  | .viewWith =>
    let w ← thisView c.this
    let i ← toInteger first
    let i := if i < 0 then i + w.length else i
    let v ←
      if View.isBig w.kind then Value.big <$> toBig (c.arg 1) else Value.num <$> toNumber (c.arg 1)
    if i < 0 || i ≥ w.length then rangeError "invalid array index"
    viewLike w ((← listOf c.this).setIfInBounds i.toNat v)

/-- The functions of `ArrayBuffer`. -/
def bufferStatics : List Member :=
  [method "isView" (.buffer .isView) 1, species (.buffer .species)]

def bufferMethods : List Member :=
  [getter "byteLength" (.buffer .byteLength), method "slice" (.buffer .slice) 2, tag "ArrayBuffer"]

/-- The functions that the constructors of views share. -/
def viewStatics : List Member :=
  [method "from" (.buffer .viewFrom) 1, method "of" (.buffer .viewOf) 0, species (.buffer .species)]

def viewMethods : List Member :=
  [getter "length" (.buffer .viewLength), method "set" (.buffer .viewSet) 1,
    method "values" (.array .values) 0, sameAs KnownSymbol.iterator.key "values",
    method "keys" (.array .keys) 0, method "entries" (.array .entries) 0,
    symbolGetter .toStringTag "[Symbol.toStringTag]" (.buffer .viewTag),
    method "fill" (.buffer .viewFill) 1, method "slice" (.buffer .viewSlice) 2,
    method "subarray" (.buffer .viewSubarray) 2, getter "buffer" (.buffer .viewBuffer),
    getter "byteLength" (.buffer .viewByteLength), getter "byteOffset" (.buffer .viewByteOffset),
    method "map" (.buffer .viewMap) 1, method "filter" (.buffer .viewFilter) 1,
    method "sort" (.buffer .viewSort) 1, method "toSorted" (.buffer .viewToSorted) 1,
    method "toReversed" (.buffer .viewToReversed) 0, method "with" (.buffer .viewWith) 2,
    method "toString" (.array .toString) 0]
    ++ sequenceMethods

/-- What constructors of views of a kind, and these views, say about the size of elements. -/
def elementSizeMember (kind : Nat) : Member :=
  constant "BYTES_PER_ELEMENT" (.ofNat (View.elementSize kind))

end ScriptSandbox.Library
