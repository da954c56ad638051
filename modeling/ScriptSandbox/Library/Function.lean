import ScriptSandbox.Library.Member

/-!
# Functions and errors

What every function inherits, the constructors that make functions from texts, and the constructors
of errors.
-/

namespace ScriptSandbox.Library

open Exec

/-! ## Functions -/

def functionKeyword (isAsync isGenerator : Bool) : String :=
  (if isAsync then "async " else "") ++ "function" ++ (if isGenerator then " *" else "")

/-- A function from the texts of its parameters and its body. -/
def functionOf (isAsync isGenerator : Bool) (args : List Value) : Exec Value := do
  let texts ← args.mapM toText
  let params := ",".intercalate texts.dropLast
  let body := texts.getLast?.getD ""
  evalIndirect (.ofString ("(" ++ functionKeyword isAsync isGenerator ++ " anonymous(" ++ params
    ++ "\n) \x7b\n" ++ body ++ "\n\x7d)"))

def functionText (v : Value) : Exec Value := do
  match v with
  | .obj a =>
    let o ← getObj a
    if !o.isCallable then typeError "not a function"
    match o.kind with
    | .closure c => return .ofString c.code.source
    | _ =>
      let name := Exec.functionName o
      return .ofString ("function " ++ name ++ "() \x7b\n    [native code]\n\x7d")
  | _ => typeError "not a function"

/-- A function with `this` and its first arguments fixed. -/
def bindFunction (c : NativeCall) : Exec Value := do
  match c.this with
  | .obj target =>
    if !(← isCallable c.this) then typeError "not a function"
    let bound := c.args.extract 1 c.args.size
    let length ← match ← getOwn target lengthKey with
      | some _ =>
        match ← getProp target lengthKey with
        | .int n => pure (Value.ofInt (max 0 (n - bound.size)))
        | .num x => pure (Value.ofFloat (max 0.0 (x - Float.ofNat bound.size)))
        | _ => pure (.int 0)
      | none => pure (.int 0)
    let name ← match ← getProp target (.named "name") with
      | .str s => pure s
      | _ => pure Str.empty
    let a ← alloc
      { proto := ← prototypeOf target
        kind := .bound target (c.arg 0) bound
        props := .ofList [(lengthKey, fixedProperty length),
          (.named "name", fixedProperty (.str (Str.ofString "bound " ++ name)))] }
    return .obj a
  | _ => typeError "not a function"

def functionFn (f : FunctionFn) (c : NativeCall) : Exec Value := do
  match f with
  | .construct isAsync isGenerator => functionOf isAsync isGenerator c.args.toList
  | .prototype => return .undefined
  | .call =>
    if !(← isCallable c.this) then typeError "not a function"
    call c.this (c.arg 0) (c.args.extract 1 c.args.size)
  | .apply =>
    if !(← isCallable c.this) then typeError "not a function"
    if (c.arg 1).isNullish then call c.this (c.arg 0) #[]
    else call c.this (c.arg 0) (← listOf (c.arg 1))
  | .bind => bindFunction c
  | .toString => functionText c.this
  | .hasInstance => return .bool (← ordinaryInstance chainLimit c.this (c.arg 0))
  | .thrower => typeError "invalid property access"

def functionMethods : List Member :=
  [method "call" (.function .call) 1, method "apply" (.function .apply) 2,
    method "bind" (.function .bind) 1, method "toString" (.function .toString) 0,
    ⟨KnownSymbol.hasInstance.key, "[Symbol.hasInstance]",
      .function (.function .hasInstance) 1 none⟩]

/-! ## Errors -/

def errorName : ErrorKind → String
  | .error => "Error"
  | .evalError => "EvalError"
  | .rangeError => "RangeError"
  | .referenceError => "ReferenceError"
  | .syntaxError => "SyntaxError"
  | .typeError => "TypeError"
  | .uriError => "URIError"
  | .internalError => "InternalError"
  | .aggregateError => "AggregateError"

def errorKinds : List ErrorKind :=
  [.error, .evalError, .rangeError, .referenceError, .syntaxError, .typeError, .uriError,
    .internalError, .aggregateError]

/-- The trace for an error that guest code makes, which does not show the constructor. -/
def constructorTrace : Exec String := do
  let m ← get
  return traceOf m.frames 1

def constructError (k : ErrorKind) (c : NativeCall) : Exec Value := do
  let target : Value := if c.constructs then c.newTarget else .obj c.self
  let proto ← prototypeFor target k.prototype
  let a ← alloc { proto := some proto, kind := .error false }
  let first : Nat := if k == .aggregateError then 1 else 0
  let message := c.arg first
  if !message.isUndefined then
    let s ← toStr message
    modifyObj a fun o => { o with props := o.props.push (.named "message") (.library (.str s)) }
  match c.arg (first + 1) with
  | .obj options =>
    if ← hasProperty options (.named "cause") then
      let cause ← getProp options (.named "cause")
      modifyObj a fun o => { o with props := o.props.push (.named "cause") (.library cause) }
  | _ => pure ()
  if k == .aggregateError then
    let errors ← newArray (← elementsOf (c.arg 0))
    modifyObj a fun o => { o with props := o.props.push (.named "errors") (.library errors) }
  let stack ← constructorTrace
  noteText stack.utf8ByteSize
  modifyObj a fun o =>
    { o with props := o.props.push (.named "stack") (.library (.ofString stack)) }
  return .obj a

def errorText (v : Value) : Exec Value := do
  if !v.isObject then typeError "not an object"
  let name ← match ← getNamed v "name" with
    | .undefined => pure (Str.ofString "Error")
    | n => toStr n
  let message ← match ← getNamed v "message" with
    | .undefined => pure Str.empty
    | n => toStr n
  if name.length == 0 then return .str message
  if message.length == 0 then return .str name
  return .str (name ++ Str.ofString ": " ++ message)

def errorFn (f : ErrorFn) (c : NativeCall) : Exec Value :=
  match f with
  | .construct k => constructError k c
  | .toString => errorText c.this

def errorMethods (k : ErrorKind) : List Member :=
  (if k == .error then [method "toString" (.error .toString) 0] else [])
    ++ [hidden "name" (.ofString (errorName k)), hidden "message" (.str Str.empty)]

end ScriptSandbox.Library
