import ScriptSandbox.Machine.PropertyObject

/-!
# Proxies

What a proxy does is asked of its handler, and of its target where the handler has nothing to say.
An answer of the handler that contradicts what cannot change about the target is an error.
-/

namespace ScriptSandbox.Exec.Proxy

/-- The stack that a question to a handler takes. -/
def trapBytes : Nat := 200

/-- A proxy's target, and what asks its handler, if the handler has something to say. -/
structure Trap where
  target : Nat
  ask : Option (Array Value → Exec Value)

/-- What a handler has to say on a subject. -/
def trap (a : Nat) (name : String) : Exec Trap := do
  match (← getObj a).kind with
  | .proxy (some target) (some handler) _ _ =>
    let f ← getProp handler (.named name)
    if f.isNullish then return ⟨target, none⟩
    return ⟨target, some fun args => withStack trapBytes (call f (.obj handler) args)⟩
  | _ => typeError "revoked proxy"

def prototypeOf (a : Nat) : Exec (Option Nat) := do
  let t ← trap a "getPrototypeOf"
  match t.ask with
  | none => Exec.prototypeOf t.target
  | some ask =>
    let inconsistent {α : Type} : Exec α := typeError "proxy: inconsistent prototype"
    let p ← match ← ask #[.obj t.target] with
      | .obj p => pure (some p)
      | .null => pure none
      | _ => inconsistent
    if !(← Exec.isExtensible t.target) then
      if (← Exec.prototypeOf t.target) != p then inconsistent
    return p

/-- Changes the prototype that a proxy shows. -/
def setPrototype (a : Nat) (p : Option Nat) : Exec Bool := do
  let t ← trap a "setPrototypeOf"
  match t.ask with
  | none => Exec.setPrototype t.target p
  | some ask =>
    let ok := (← ask #[.obj t.target, (p.map Value.obj).getD .null]).truthy
    if ok && !(← Exec.isExtensible t.target) then
      if (← Exec.prototypeOf t.target) != p then typeError "proxy: inconsistent prototype"
    return ok

/-- Whether a proxy can be given new properties. -/
def isExtensible (a : Nat) : Exec Bool := do
  let t ← trap a "isExtensible"
  match t.ask with
  | none => Exec.isExtensible t.target
  | some ask =>
    let r := (← ask #[.obj t.target]).truthy
    if r != (← Exec.isExtensible t.target) then typeError "proxy: inconsistent isExtensible"
    return r

/-- Forbids a proxy new properties. -/
def preventExtensions (a : Nat) : Exec Bool := do
  let t ← trap a "preventExtensions"
  match t.ask with
  | none => Exec.preventExtensions t.target
  | some ask =>
    let r := (← ask #[.obj t.target]).truthy
    if r then
      if ← Exec.isExtensible t.target then typeError "proxy: inconsistent preventExtensions"
    return r

/-- Whether a change agrees with a property, or with there being none. -/
def agrees (d : Descriptor) (p : Option Property) (extensible : Bool) : Bool :=
  match p with
  | some p => d.allowedBy p
  | none => extensible

def getOwn (a : Nat) (k : Key) : Exec (Option Property) := do
  let t ← trap a "getOwnPropertyDescriptor"
  match t.ask with
  | none => Exec.getOwn t.target k
  | some ask =>
    let inconsistent {α : Type} : Exec α := typeError "proxy: inconsistent getOwnPropertyDescriptor"
    let v ← ask #[.obj t.target, k.value]
    let own ← Exec.getOwn t.target k
    if v.isUndefined then
      match own with
      | none => return none
      | some p =>
        if !p.configurable then inconsistent
        if !(← Exec.isExtensible t.target) then inconsistent
        return none
    else
      if !v.isObject then inconsistent
      let extensible ← Exec.isExtensible t.target
      let p := (← readChange v).fresh
      if !agrees (.ofProperty p) own extensible then inconsistent
      if !p.configurable then
        match own with
        | none => inconsistent
        | some q => if q.configurable then inconsistent
      return some p

def defineOwn (a : Nat) (k : Key) (d : Descriptor) : Exec Bool := do
  let t ← trap a "defineProperty"
  match t.ask with
  | none => Exec.defineOwn t.target k d
  | some ask =>
    let ok := (← ask #[.obj t.target, k.value, ← describeChange d]).truthy
    if !ok then return false
    let own ← Exec.getOwn t.target k
    let extensible ← Exec.isExtensible t.target
    let fixes := d.configurable == some false
    let consistent :=
      match own with
      | none => extensible && !fixes
      | some p => d.allowedBy p && !(fixes && p.configurable)
    if !consistent then typeError "proxy: inconsistent defineProperty"
    return true

/-- Whether a proxy has a property. -/
def has (a : Nat) (k : Key) : Exec Bool := do
  let t ← trap a "has"
  match t.ask with
  | none => Exec.hasProperty t.target k
  | some ask =>
    let r := (← ask #[.obj t.target, k.value]).truthy
    if !r then
      match ← Exec.getOwn t.target k with
      | none => pure ()
      | some p =>
        if !p.configurable || !(← Exec.isExtensible t.target) then
          typeError "proxy: inconsistent has"
    return r

def get (a : Nat) (k : Key) (receiver : Value) : Exec Value := do
  let t ← trap a "get"
  match t.ask with
  | none => getFrom chainLimit t.target k receiver
  | some ask =>
    let v ← ask #[.obj t.target, k.value, receiver]
    let consistent :=
      match ← Exec.getOwn t.target k with
      | some (.data w false _ false) => v.sameValue w
      | some (.accessor .undefined _ _ false) => v.isUndefined
      | _ => true
    if !consistent then typeError "proxy: inconsistent get"
    return v

def set (a : Nat) (k : Key) (v receiver : Value) : Exec (Option Refusal) := do
  let t ← trap a "set"
  match t.ask with
  | none => setFrom chainLimit t.target k v receiver
  | some ask =>
    if !(← ask #[.obj t.target, k.value, v, receiver]).truthy then return some .byProxy
    let consistent :=
      match ← Exec.getOwn t.target k with
      | some (.data w false _ false) => v.sameValue w
      | some (.accessor _ .undefined _ false) => false
      | _ => true
    if !consistent then typeError "proxy: inconsistent set"
    return none

/-- Removes a property of a proxy. -/
def delete (a : Nat) (k : Key) : Exec Bool := do
  let t ← trap a "deleteProperty"
  match t.ask with
  | none => Exec.deleteProp t.target k
  | some ask =>
    if !(← ask #[.obj t.target, k.value]).truthy then return false
    match ← Exec.getOwn t.target k with
    | none => return true
    | some p =>
      if !p.configurable || !(← Exec.isExtensible t.target) then
        typeError "proxy: inconsistent deleteProperty"
      return true

def listedKey (v : Value) : Exec Key := do
  match v with
  | .str s => return .ofStr s
  | .sym i => return .symbol i
  | _ => typeError "proxy: properties must be strings or symbols"

/-- The names of the properties that a proxy shows. -/
def ownKeys (a : Nat) : Exec (List Key) := do
  let t ← trap a "ownKeys"
  match t.ask with
  | none => Exec.ownKeys t.target
  | some ask =>
    let list ← ask #[.obj t.target]
    let o ← needObject list
    let n ← lengthOf o
    let keys ← (List.range n).mapM fun i => do listedKey (← getProp o (.ofNat i))
    if !(keys.eraseDups.length == keys.length) then typeError "proxy: duplicate property"
    let extensible ← Exec.isExtensible t.target
    let own ← Exec.ownKeys t.target
    for k in own do
      let fixed ← match ← Exec.getOwn t.target k with
        | some p => pure (!p.configurable)
        | none => pure false
      if (fixed || !extensible) && !keys.contains k then
        typeError "proxy: target property must be present in proxy ownKeys"
    if !extensible && keys.length != own.length then
      typeError "proxy: property not present in target were returned by non extensible proxy"
    return keys

def callProxy (a : Nat) (this : Value) (args : Array Value) : Exec Value := do
  let t ← trap a "apply"
  if !(← isCallable (.obj a)) then typeError "not a function"
  match t.ask with
  | none => call (.obj t.target) this args
  | some ask => ask #[.obj t.target, this, ← newArray args]

def constructProxy (a : Nat) (args : Array Value) (newTarget : Value) : Exec Value := do
  let t ← trap a "construct"
  if !(← isConstructor (.obj t.target)) then typeError "not a constructor"
  match t.ask with
  | none => construct (.obj t.target) args newTarget
  | some ask =>
    let r ← ask #[.obj t.target, ← newArray args, newTarget]
    if !r.isObject then typeError "not an object"
    return r

end ScriptSandbox.Exec.Proxy
