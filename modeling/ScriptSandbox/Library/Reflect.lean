import ScriptSandbox.Library.Member

/-!
# Reflection and proxies

The functions of `Reflect`, which do to an object what the language's own operations do, and the
constructor `Proxy`.
-/

namespace ScriptSandbox.Library

open Exec

def newProxy (target handler : Value) : Exec Value := do
  match target, handler with
  | .obj t, .obj h =>
    let callable ← isCallable target
    let constructs ← isConstructor target
    return .obj (← alloc { kind := .proxy (some t) (some h) callable constructs })
  | _, _ => typeError "not an object"

/-- A new proxy, together with a function that makes it useless. -/
def newRevocable (target handler : Value) : Exec Value := do
  let p ← newProxy target handler
  let revoke ← newNative (.reflect .proxyRevoke) #[p] "" 0
  newObjectOf .objectPrototype .plain
    [(.named "proxy", .plain p), (.named "revoke", .plain revoke)]

def revokeProxy (v : Value) : Exec Unit := do
  match v with
  | .obj a =>
    match (← getObj a).kind with
    | .proxy _ _ callable constructs => setKind a (.proxy none none callable constructs)
    | _ => return
  | _ => return

def needConstructor (v : Value) : Exec Unit := do
  if !(← isConstructor v) then typeError "not a constructor"

def reflectFn (f : ReflectFn) (c : NativeCall) : Exec Value := do
  let first := c.arg 0
  match f with
  | .apply =>
    if !(← isCallable first) then typeError "not a function"
    call first (c.arg 1) (← listOf (c.arg 2))
  | .construct =>
    needConstructor first
    let target := if c.args.size > 2 then c.arg 2 else first
    needConstructor target
    construct first (← listOf (c.arg 1)) target
  | .defineProperty =>
    let a ← needObject first
    let k ← toKey (c.arg 1)
    return .bool (← defineOwn a k (← readChange (c.arg 2)))
  | .deleteProperty =>
    let a ← needObject first
    return .bool (← deleteProp a (← toKey (c.arg 1)))
  | .get =>
    let a ← needObject first
    let receiver := if c.args.size > 2 then c.arg 2 else first
    getFrom chainLimit a (← toKey (c.arg 1)) receiver
  | .getOwnPropertyDescriptor =>
    let a ← needObject first
    match ← getOwn a (← toKey (c.arg 1)) with
    | some p => describeProperty p
    | none => return .undefined
  | .getPrototypeOf =>
    let a ← needObject first
    return ((← prototypeOf a).map Value.obj).getD .null
  | .has =>
    let a ← needObject first
    return .bool (← hasProperty a (← toKey (c.arg 1)))
  | .isExtensible => do return .bool (← isExtensible (← needObject first))
  | .ownKeys =>
    let a ← needObject first
    newArray ((← ownKeys a).map Key.value).toArray
  | .preventExtensions => do return .bool (← preventExtensions (← needObject first))
  | .set =>
    let a ← needObject first
    let k ← toKey (c.arg 1)
    let receiver := if c.args.size > 3 then c.arg 3 else first
    return .bool (← setFrom chainLimit a k (c.arg 2) receiver).isNone
  | .setPrototypeOf =>
    let a ← needObject first
    match c.arg 1 with
    | .obj p => return .bool (← setPrototype a (some p))
    | .null => return .bool (← setPrototype a none)
    | _ => typeError "not an object"
  | .proxyConstruct =>
    if !c.constructs then typeError "must be called with new"
    newProxy first (c.arg 1)
  | .proxyRevocable => newRevocable first (c.arg 1)
  | .proxyRevoke =>
    revokeProxy (c.slot 0)
    return .undefined

def reflectMembers : List Member :=
  [method "apply" (.reflect .apply) 3, method "construct" (.reflect .construct) 2,
    method "defineProperty" (.reflect .defineProperty) 3,
    method "deleteProperty" (.reflect .deleteProperty) 2, method "get" (.reflect .get) 2,
    method "getOwnPropertyDescriptor" (.reflect .getOwnPropertyDescriptor) 2,
    method "getPrototypeOf" (.reflect .getPrototypeOf) 1, method "has" (.reflect .has) 2,
    method "isExtensible" (.reflect .isExtensible) 1, method "ownKeys" (.reflect .ownKeys) 1,
    method "preventExtensions" (.reflect .preventExtensions) 1, method "set" (.reflect .set) 3,
    method "setPrototypeOf" (.reflect .setPrototypeOf) 2, tag "Reflect"]

def proxyStatics : List Member := [method "revocable" (.reflect .proxyRevocable) 2]

end ScriptSandbox.Library
