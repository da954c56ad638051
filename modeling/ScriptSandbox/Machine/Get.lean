import ScriptSandbox.Machine.Basics
import ScriptSandbox.Machine.Equality
import ScriptSandbox.Machine.View

/-!
# Looking at properties

What properties objects have, of themselves and through their prototypes. Arrays, strings, views
and namespaces have properties that are not in their tables. Proxies are left to the operations in
`Calls`, which guest code takes part in.
-/

namespace ScriptSandbox.Exec

def lengthKey : Key := .name (.plain "length" 6)

def constructorKey : Key := .name (.plain "constructor" 11)

def prototypeKey : Key := .name (.plain "prototype" 9)

/-- How far a chain of prototypes is followed. -/
def chainLimit : Nat := 100000

def keyText (k : Key) : Exec String := do
  match k with
  | .index n => return toString n
  | .name s => return shortName s.toLossy
  | .symbol i | .hidden i =>
    let m ← get
    return shortName (((m.symbols[i]?).join).map Str.toLossy |>.getD "")

def viewElement (kind buffer offset length i : Nat) : Exec (Option Value) := do
  if i ≥ length then return none
  match (← getObj buffer).kind with
  | .buffer bytes =>
    let size := View.elementSize kind
    return some (View.ofBits kind (View.readBits bytes (offset + i * size) size))
  | _ => return none

/-- The value that an exported name of a module has. -/
def boundValue (k : Key) (b : Binding) : Exec Value := do
  match b with
  | .cell i =>
    let v ← getCell i
    if v.isHole then raise .referenceError ((← keyText k) ++ " is not initialized")
    return v
  | .whole i =>
    match ((← get).modules[i]?).bind (·.namespaceObject) with
    | some a => return .obj a
    | none => return .undefined

/-- The property that an object other than a proxy has of itself. -/
def ownProperty (o : Obj) (k : Key) : Exec (Option Property) := do
  match o.kind, k with
  | .array items _, .index i =>
    match items[i]? with
    | some .hole | none => return none
    | some v => return some (.plain v)
  | .array _ length, .name s =>
    if s == .plain "length" 6 then return some (.data (.ofNat length) true false false)
    else return o.props.get? k
  | .sparse length writable, .name s =>
    if s == .plain "length" 6 then return some (.data (.ofNat length) writable false false)
    else return o.props.get? k
  | .boxed (.str s), .index i =>
    match s.unitAt? i with
    | some u => return some (.data (.str (.ofUnit u)) false true false)
    | none => return o.props.get? k
  | .boxed (.str s), .name n =>
    if n == .plain "length" 6 then return some (.data (.ofNat s.length) false false false)
    else return o.props.get? k
  | .view kind buffer offset length, .index i =>
    return (← viewElement kind buffer offset length i).map fun v => .data v true true true
  | .namespace exports, .name _ | .namespace exports, .index _ =>
    match exports.find? fun e => e.1 == k with
    | some (_, b) => return some (.data (← boundValue k b) true true false)
    | none => return none
  | _, _ => return o.props.get? k

/-- The property that an object has of itself. -/
def getOwn (a : Nat) (k : Key) : Exec (Option Property) := do
  let o ← getObj a
  match o.kind with
  | .proxy .. => fun c => c.getOwn a k
  | _ => ownProperty o k

/-- The value of a property of an object, or of those that it inherits from. -/
def getFrom : (fuel : Nat) → (a : Nat) → Key → (receiver : Value) → Exec Value
  | 0, _, _, _ => return .undefined
  | fuel + 1, a, k, receiver => do
    let o ← getObj a
    match o.kind with
    | .proxy .. => fun c => c.get a k receiver
    | _ =>
      match ← ownProperty o k with
      | some (.data v ..) => return v
      | some (.accessor g ..) => if g.isObject then call g receiver #[] else return .undefined
      | none =>
        match o.proto with
        | none => return .undefined
        | some p => getFrom fuel p k receiver

@[inline] def getProp (a : Nat) (k : Key) : Exec Value := getFrom chainLimit a k (.obj a)

def primitivePrototype : Value → Option Intrinsic
  | .str _ => some .stringPrototype
  | .int _ | .num _ => some .numberPrototype
  | .bool _ => some .booleanPrototype
  | .sym _ => some .symbolPrototype
  | .big _ => some .bigIntPrototype
  | _ => none

def nullishName : Value → String
  | .null => "null"
  | _ => "undefined"

def getValue (v : Value) (k : Key) : Exec Value := do
  match v with
  | .obj a => getFrom chainLimit a k v
  | .str s =>
    match k with
    | .index i =>
      match s.unitAt? i with
      | some u => return .str (.ofUnit u)
      | none => getFrom chainLimit Intrinsic.stringPrototype.address k v
    | .name n =>
      if n == .plain "length" 6 then return .ofNat s.length
      else getFrom chainLimit Intrinsic.stringPrototype.address k v
    | k => getFrom chainLimit Intrinsic.stringPrototype.address k v
  | v =>
    match primitivePrototype v with
    | some p => getFrom chainLimit p.address k v
    | none => typeError ("cannot read property '" ++ (← keyText k) ++ "' of " ++ nullishName v)

def getNamed (v : Value) (name : String) : Exec Value := getValue v (.named name)

/-- A method of a value, if there is one; it has to be callable. -/
def getMethod (v : Value) (k : Key) : Exec (Option Value) := do
  let f ← getValue v k
  if f.isNullish then return none
  if !(← isCallable f) then typeError "not a function"
  return some f

def invoke (v : Value) (k : Key) (args : Array Value) : Exec Value := do
  let f ← getValue v k
  if !(← isCallable f) then typeError "not a function"
  call f v args

/-! ## Other questions -/

def prototypeOf (a : Nat) : Exec (Option Nat) := do
  let o ← getObj a
  match o.kind with
  | .proxy .. => fun c => c.prototypeOf a
  | _ => return o.proto

/-- The prototype of what is constructed for a target, or one that the machine knows. -/
def prototypeFor (newTarget : Value) (default : Intrinsic) : Exec Nat := do
  match newTarget with
  | .obj t =>
    match ← getProp t prototypeKey with
    | .obj p => return p
    | _ => return default.address
  | _ => return default.address

/-- Whether an object can be given new properties. -/
def isExtensible (a : Nat) : Exec Bool := do
  let o ← getObj a
  match o.kind with
  | .proxy .. => fun c => c.isExtensible a
  | _ => return o.extensible

/-- Whether an object, or one that it inherits from, has a property. -/
def hasFrom : (fuel : Nat) → (a : Nat) → Key → Exec Bool
  | 0, _, _ => return false
  | fuel + 1, a, k => do
    let o ← getObj a
    match o.kind with
    | .proxy .. => fun c => c.has a k
    | .namespace exports =>
      return (exports.any fun e => e.1 == k) || o.props.has k
    | _ =>
      if (← ownProperty o k).isSome then return true
      else
        match o.proto with
        | none => return false
        | some p => hasFrom fuel p k

def hasProperty (a : Nat) (k : Key) : Exec Bool := hasFrom chainLimit a k

def itemKeys (items : Array Value) : List Key :=
  let rec go : Nat → List Value → List Key
    | _, [] => []
    | i, .hole :: vs => go (i + 1) vs
    | i, _ :: vs => .index i :: go (i + 1) vs
  go 0 items.toList

/-- The names of the properties that an object has of itself. -/
def ownKeys (a : Nat) : Exec (List Key) := do
  let o ← getObj a
  let named := o.props.keys
  match o.kind with
  | .proxy .. => fun c => c.ownKeys a
  | .array items _ => return itemKeys items ++ lengthKey :: named
  | .sparse .. =>
    let isIndex (k : Key) : Bool := match k with
      | .index _ => true
      | _ => false
    return named.takeWhile isIndex ++ lengthKey :: named.dropWhile isIndex
  | .boxed (.str s) =>
    let isIndex (k : Key) : Bool := match k with
      | .index _ => true
      | _ => false
    return (List.range s.length).map Key.index ++ named.takeWhile isIndex
      ++ lengthKey :: named.dropWhile isIndex
  | .view _ _ _ length => return (List.range length).map Key.index ++ named
  | .namespace exports => return exports.map (·.1) ++ named
  | _ => return named

end ScriptSandbox.Exec
