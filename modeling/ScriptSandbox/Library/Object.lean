import ScriptSandbox.Library.Member

/-!
# Objects

The constructor `Object` with its functions, and what every object inherits.
-/

namespace ScriptSandbox.Library

open Exec

def objectOrNull (a : Option Nat) : Value := (a.map Value.obj).getD .null

/-- Which of an object's properties are listed, and what of them. -/
def listedProperties (a : Nat) (listing : Listing) : Exec (Array Value) := do
  let keys := (← ownKeys a).filter fun k => k.str?.isSome
  keys.foldlM (fun acc k => do
    match ← getOwn a k with
    | some p =>
      if !p.enumerable then return acc
      match listing with
      | .keys => return acc.push k.value
      | .values => return acc.push (← getProp a k)
      | .entries => return acc.push (← newArray #[k.value, ← getProp a k])
    | none => return acc) #[]

/-- Defines the properties that an object describes. -/
def defineAll (a : Nat) (v : Value) : Exec Unit := do
  let props ← toObject v
  let changes ← (← ownKeys props).filterMapM fun k => do
    match ← getOwn props k with
    | some p =>
      if p.enumerable then return some (k, ← readChange (← getProp props k)) else return none
    | none => return none
  for (k, d) in changes do
    defineOrThrow a k d

/-- Copies the listed properties of objects to another, as assignments do. -/
def assignAll (target : Nat) (sources : List Value) : Exec Unit := do
  for v in sources do
    if !v.isNullish then
      let s ← toObject v
      for k in ← ownKeys s do
        match ← getOwn s k with
        | some p => if p.enumerable then setOrThrow target k (← getProp s k)
        | none => pure ()

/-- Whether all properties of an object are permanent, and constant if asked for. -/
def isFixed (a : Nat) (constant : Bool) : Exec Bool := do
  if ← isExtensible a then return false
  (← ownKeys a).allM fun k => do
    match ← getOwn a k with
    | some (.data _ w _ c) => return !c && !(constant && w)
    | some (.accessor _ _ _ c) => return !c
    | none => return true

/-- An object from pairs of names and values. -/
def objectFromEntries (v : Value) : Exec Value := do
  let o ← newObject
  let a := (o.address?).getD 0
  iterate v () fun _ item => do
    if !item.isObject then typeError "not an object"
    let k ← getValue item (.index 0)
    let x ← getValue item (.index 1)
    createData a (← toKey k) x
  return o

/-- Puts the elements of something into groups, in order, by what a function says of them. -/
def groupsOf (v f : Value) : Exec (Array (Value × Array Value)) := do
  if v.isNullish then typeError "cannot convert to object"
  if !(← isCallable f) then typeError "not a function"
  let (groups, _) ← iterate v ((#[] : Array (Value × Array Value)), 0) fun (groups, i) x => do
    let k ← call f .undefined #[x, .ofNat i]
    match groups.findIdx? fun g => g.1.sameValueZero k with
    | some j => return (groups.modify j fun g => (g.1, g.2.push x), i + 1)
    | none => return (groups.push (k, #[x]), i + 1)
  return groups

/-- An object of groups, by what a function says of their elements. -/
def groupObject (v f : Value) : Exec Value := do
  let a ← alloc {}
  for (k, items) in ← groupsOf v f do
    let key ← toKey k
    let list ← newArray items
    match (← getObj a).props.get? key with
    | some (.data (.obj l) ..) =>
      for x in items do
        pushItem (.obj l) x
    | _ => createData a key list
  return .obj a

/-- What an object is called by itself or by its kind. -/
def objectTag (v : Value) : Exec Str := do
  match v with
  | .undefined => return Str.ofString "[object Undefined]"
  | .null => return Str.ofString "[object Null]"
  | v =>
    let a ← toObject v
    let o ← getObj a
    let byKind : String ← do
      if ← valueIsArray (.obj a) then pure "Array"
      else if o.isCallable then pure "Function"
      else
        match o.kind with
        | .boxed (.str _) => pure "String"
        | .boxed (.bool _) => pure "Boolean"
        | .boxed (.int _) | .boxed (.num _) => pure "Number"
        | .date _ => pure "Date"
        | .regExp .. => pure "RegExp"
        | .arguments => pure "Arguments"
        | .error _ => pure "Error"
        | _ => pure "Object"
    let name : Str ← match ← getProp a KnownSymbol.toStringTag.key with
      | .str s => pure s
      | _ => pure (Str.ofString byKind)
    return Str.ofString "[object " ++ name ++ Str.ofString "]"

def defineAccessor (c : NativeCall) (isGetter : Bool) : Exec Value := do
  let a ← toObject c.this
  let f := c.arg 1
  if !(← isCallable f) then typeError "not a function"
  let k ← toKey (c.arg 0)
  let d : Descriptor := { enumerable := some true, configurable := some true }
  defineOrThrow a k (if isGetter then { d with get := some f } else { d with set := some f })
  return .undefined

def lookupAccessor (isGetter : Bool) (k : Key) : (fuel : Nat) → Option Nat → Exec Value
  | 0, _ => return .undefined
  | _, none => return .undefined
  | fuel + 1, some a => do
    match ← getOwn a k with
    | some (.accessor g s ..) => return if isGetter then g else s
    | some (.data ..) => return .undefined
    | none => lookupAccessor isGetter k fuel (← prototypeOf a)

/-- Whether an object inherits from another, directly or not. -/
def inheritsFrom (p : Nat) : (fuel : Nat) → Option Nat → Exec Bool
  | 0, _ => return false
  | _, none => return false
  | fuel + 1, some a => do
    if a == p then return true else inheritsFrom p fuel (← prototypeOf a)

def asPrototype (v : Value) (why : String) : Exec (Option Nat) := do
  match v with
  | .obj p => return some p
  | .null => return none
  | _ => typeError why

def objectFn (f : ObjectFn) (c : NativeCall) : Exec Value := do
  let first := c.arg 0
  match f with
  | .construct =>
    let derived : Bool :=
      match c.newTarget with
      | .obj t => t != c.self
      | _ => false
    if derived then
      let p ← prototypeFor c.newTarget .objectPrototype
      return .obj (← alloc { proto := some p })
    else if first.isNullish then newObject
    else return .obj (← toObject first)
  | .create =>
    let p ← asPrototype first "not a prototype"
    let a ← alloc { proto := p }
    if !(c.arg 1).isUndefined then defineAll a (c.arg 1)
    return .obj a
  | .getPrototypeOf =>
    match first with
    | .obj a => return objectOrNull (← prototypeOf a)
    | v =>
      match primitivePrototype v with
      | some i => return .obj i.address
      | none => typeError "not an object"
  | .setPrototypeOf =>
    if first.isNullish then typeError "not an object"
    let p ← asPrototype (c.arg 1) "not an object"
    match first with
    | .obj a => setPrototypeOrThrow a p
    | _ => pure ()
    return first
  | .defineProperty =>
    let a ← needObject first
    let k ← toKey (c.arg 1)
    defineOrThrow a k (← readChange (c.arg 2))
    return first
  | .defineProperties =>
    let a ← needObject first
    defineAll a (c.arg 1)
    return first
  | .getOwnPropertyNames =>
    let a ← toObject first
    newArray (((← ownKeys a).filter fun k => k.str?.isSome).map Key.value).toArray
  | .getOwnPropertySymbols =>
    let a ← toObject first
    newArray (((← ownKeys a).filter Key.isSymbol).map Key.value).toArray
  | .keys => do newArray (← listedProperties (← toObject first) .keys)
  | .values => do newArray (← listedProperties (← toObject first) .values)
  | .entries => do newArray (← listedProperties (← toObject first) .entries)
  | .isExtensible =>
    match first with
    | .obj a => return .bool (← isExtensible a)
    | _ => return .bool false
  | .preventExtensions =>
    match first with
    | .obj a =>
      if !(← preventExtensions a) then typeError "proxy preventExtensions handler returned false"
      return first
    | v => return v
  | .getOwnPropertyDescriptor =>
    let a ← toObject first
    match ← getOwn a (← toKey (c.arg 1)) with
    | some p => describeProperty p
    | none => return .undefined
  | .getOwnPropertyDescriptors =>
    let a ← toObject first
    let r ← newObject
    for k in ← ownKeys a do
      match ← getOwn a k with
      | some p => createData ((r.address?).getD 0) k (← describeProperty p)
      | none => pure ()
    return r
  | .is => return .bool (first.sameValue (c.arg 1))
  | .assign =>
    let a ← toObject first
    assignAll a (c.args.toList.drop 1)
    return .obj a
  | .seal =>
    match first with
    | .obj a => fixAll a false
    | _ => pure ()
    return first
  | .freeze =>
    match first with
    | .obj a => fixAll a true
    | _ => pure ()
    return first
  | .isSealed =>
    match first with
    | .obj a => return .bool (← isFixed a false)
    | _ => return .bool true
  | .isFrozen =>
    match first with
    | .obj a => return .bool (← isFixed a true)
    | _ => return .bool true
  | .fromEntries => objectFromEntries first
  | .hasOwn =>
    let a ← toObject first
    return .bool (← getOwn a (← toKey (c.arg 1))).isSome
  | .groupBy => groupObject first (c.arg 1)
  | .toString => return .str (← objectTag c.this)
  | .toLocaleString => invoke c.this (.named "toString") #[]
  | .valueOf => return .obj (← toObject c.this)
  | .hasOwnProperty =>
    let k ← toKey first
    let a ← toObject c.this
    return .bool (← getOwn a k).isSome
  | .isPrototypeOf =>
    match first with
    | .obj a =>
      let p ← toObject c.this
      return .bool (← inheritsFrom p chainLimit (← prototypeOf a))
    | _ => return .bool false
  | .propertyIsEnumerable =>
    let a ← toObject c.this
    match ← getOwn a (← toKey first) with
    | some p => return .bool p.enumerable
    | none => return .bool false
  | .protoGet =>
    let a ← toObject c.this
    return objectOrNull (← prototypeOf a)
  | .protoSet =>
    if c.this.isNullish then typeError "not an object"
    match c.this, first with
    | .obj a, .obj p => setPrototypeOrThrow a (some p)
    | .obj a, .null => setPrototypeOrThrow a none
    | _, _ => pure ()
    return .undefined
  | .defineGetter => defineAccessor c true
  | .defineSetter => defineAccessor c false
  | .lookupGetter =>
    let a ← toObject c.this
    lookupAccessor true (← toKey first) chainLimit (some a)
  | .lookupSetter =>
    let a ← toObject c.this
    lookupAccessor false (← toKey first) chainLimit (some a)

def objectStatics : List Member :=
  [method "create" (.object .create) 2, method "getPrototypeOf" (.object .getPrototypeOf) 1,
    method "setPrototypeOf" (.object .setPrototypeOf) 2,
    method "defineProperty" (.object .defineProperty) 3,
    method "defineProperties" (.object .defineProperties) 2,
    method "getOwnPropertyNames" (.object .getOwnPropertyNames) 1,
    method "getOwnPropertySymbols" (.object .getOwnPropertySymbols) 1,
    method "groupBy" (.object .groupBy) 2, method "keys" (.object .keys) 1,
    method "values" (.object .values) 1, method "entries" (.object .entries) 1,
    method "isExtensible" (.object .isExtensible) 1,
    method "preventExtensions" (.object .preventExtensions) 1,
    method "getOwnPropertyDescriptor" (.object .getOwnPropertyDescriptor) 2,
    method "getOwnPropertyDescriptors" (.object .getOwnPropertyDescriptors) 1,
    method "is" (.object .is) 2, method "assign" (.object .assign) 2,
    method "seal" (.object .seal) 1, method "freeze" (.object .freeze) 1,
    method "isSealed" (.object .isSealed) 1, method "isFrozen" (.object .isFrozen) 1,
    method "fromEntries" (.object .fromEntries) 1, method "hasOwn" (.object .hasOwn) 2]

def objectMethods : List Member :=
  [method "toString" (.object .toString) 0, method "toLocaleString" (.object .toLocaleString) 0,
    method "valueOf" (.object .valueOf) 0, method "hasOwnProperty" (.object .hasOwnProperty) 1,
    method "isPrototypeOf" (.object .isPrototypeOf) 1,
    method "propertyIsEnumerable" (.object .propertyIsEnumerable) 1,
    ⟨.named "__proto__", "__proto__",
      .accessor (some (.object .protoGet)) (some (.object .protoSet))⟩,
    method "__defineGetter__" (.object .defineGetter) 2,
    method "__defineSetter__" (.object .defineSetter) 2,
    method "__lookupGetter__" (.object .lookupGetter) 1,
    method "__lookupSetter__" (.object .lookupSetter) 1]

end ScriptSandbox.Library
