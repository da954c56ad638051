import ScriptSandbox.Machine.Coroutine
import ScriptSandbox.Machine.Proxy

/-!
# Calls

What happens when a value is called, or something is constructed from it: code runs, the standard
library acts, or a proxy asks its handler. `Calls.level` ties the operations of the machine
together; each call goes one level down, and at the lowest one the stack is exhausted.
-/

namespace ScriptSandbox

/-- What the functions of the standard library do. -/
abbrev Library := Builtin → NativeCall → Exec Value

namespace Exec

/-! ## Code -/

/-- The places for the variables of a run, with the arguments in the first of them. -/
def localsFor (c : Code) (args : Array Value) : Array Value :=
  let given := min c.params args.size
  let rec fill : Nat → Array Value → Array Value
    | 0, acc => acc
    | n + 1, acc => fill n (acc.push .undefined)
  fill (c.locals - given) (args.extract 0 given)

/-- The cells of a run, with those that the function has taken over. -/
def cellsFor (c : Closure) : Array Nat :=
  if c.code.cells == 0 then #[]
  else
    (List.range c.code.captures.size).foldl
      (fun cells i =>
        match c.code.captures[i]?, c.cells[i]? with
        | some (own, _), some cell => cells.setIfInBounds own cell
        | _, _ => cells)
      (Array.replicate c.code.cells 0)

def frameFor (a : Nat) (c : Closure) (this : Value) (args : Array Value) (newTarget : Value) :
    Frame :=
  { code := c.code
    locals := localsFor c.code args
    cells := cellsFor c
    args := if c.code.keepsArgs then args else #[]
    thisValue := this
    newTarget
    callee := a }

/-- What `this` is in a function that is not strict. -/
def looseThis (this : Value) : Exec Value := do
  match this with
  | .obj _ => return this
  | this =>
    if this.isNullish then return .obj Intrinsic.global.address
    else return .obj (← toObject this)

def callClosure (a : Nat) (c : Closure) (this : Value) (args : Array Value) : Exec Value := do
  let this ← if c.code.strict || c.code.isArrow then pure this else looseThis this
  let fr := frameFor a c this args .undefined
  if c.code.isClass then
    let _ ← waiting fr (typeError (α := Unit) "class constructors must be invoked with 'new'")
  match c.code.isAsync, c.code.isGenerator with
  | false, false =>
    match ← enter fr with
    | .returned v => return v
    | _ => return .undefined
  | true, false => startAsync (enter fr)
  | isAsync, true =>
    match ← enter fr with
    | .started fr => newGenerator a isAsync fr
    | .returned v => return v
    | _ => return .undefined

/-- Constructs an object from a function of guest code. -/
def constructClosure (a : Nat) (c : Closure) (args : Array Value) (newTarget : Value) :
    Exec Value := do
  match c.code.kind with
  | .derivedConstructor =>
    match ← enter (frameFor a c .hole args newTarget) with
    | .returned v => return v
    | _ => return .undefined
  | _ =>
    let proto ← prototypeFor newTarget .objectPrototype
    let this := Value.obj (← alloc { proto := some proto })
    match ← enter (frameFor a c this args newTarget) with
    | .returned v => return if v.isObject then v else this
    | _ => return this

/-! ## The standard library -/

/-- The stack that a function of the library takes. -/
def nativeBytes : Nat := 240

/-- Whether a function of the library holds nothing that cannot be seen from outside, and so need
not keep unused objects. -/
def holdsNothing : Builtin → Bool
  | .promise (.asyncResume _) | .promise (.asyncGeneratorResume _) | .promise (.moduleDone _)
  | .promise (.importDone _) => true
  | .generator _ => true
  | _ => false

/-- The name of a function, as traces show it. -/
def functionName (o : Obj) : String :=
  match o.props.get? (Key.name (.plain "name" 4)) with
  | some (.data (.str s) ..) => s.toLossy
  | _ => ""

/-- Asks for the memory of a result that is a long string. -/
def chargeResult (v : Value) : Exec Value := do
  match v with
  | .str t => if t.length ≥ Survey.longString then chargeText t.length
  | _ => pure ()
  return v

/-- Calls a function of the library, or constructs an object from it. -/
def callNative (library : Library) (f : Builtin) (o : Obj) (call : NativeCall) : Exec Value := do
  let held := (call.args.push call.this).push (.obj call.self)
  if holdsNothing f then withStack nativeBytes (holding held (library f call))
  else
    let name :=
      match f with
      | .console .. | .record => ""
      | _ => functionName o
    withStack nativeBytes (withNative name held (library f call >>= chargeResult))

/-! ## Values of any kind -/

/-- Counts a call, and polls the interrupt handler when it is due; some values stay in use. -/
@[inline] def countCall (held : Array Value) : Exec Unit := do
  if ← due 1 then holding held poll

def callValue (library : Library) (f this : Value) (args : Array Value) : Exec Value := do
  countCall ((args.push f).push this)
  match f with
  | .obj a =>
    let o ← getObj a
    match o.kind with
    | .closure c => callClosure a c this args
    | .native b slots _ => callNative library b o { this, args, slots, self := a }
    | .bound target this bound => fun c => c.call (.obj target) this (bound ++ args)
    | .proxy .. => Proxy.callProxy a this args
    | _ => typeError "not a function"
  | _ => typeError "not a function"

def constructValue (library : Library) (f : Value) (args : Array Value) (newTarget : Value) :
    Exec Value := do
  countCall ((args.push f).push newTarget)
  match f with
  | .obj a =>
    if !(← isConstructor f) then typeError "not a constructor"
    let o ← getObj a
    match o.kind with
    | .closure c => constructClosure a c args newTarget
    | .native b slots _ =>
      callNative library b o { this := .undefined, args, newTarget, slots, self := a }
    | .bound target _ bound =>
      let isSelf : Bool :=
        match newTarget with
        | .obj t => t == a
        | _ => false
      fun c => c.construct (.obj target) (bound ++ args) (if isSelf then .obj target else newTarget)
    | .proxy .. => Proxy.constructProxy a args newTarget
    | _ => typeError "not a constructor"
  | _ => typeError "not a function"

end Exec

namespace Calls

/-- The operations of a machine that can do nothing. -/
def none : Calls where
  call _ _ _ := throw .exhausted
  construct _ _ _ := throw .exhausted
  resume _ _ _ := throw .exhausted
  prototypeOf _ := throw .exhausted
  setPrototype _ _ := throw .exhausted
  isExtensible _ := throw .exhausted
  preventExtensions _ := throw .exhausted
  getOwn _ _ := throw .exhausted
  defineOwn _ _ _ := throw .exhausted
  has _ _ := throw .exhausted
  get _ _ _ := throw .exhausted
  set _ _ _ _ := throw .exhausted
  delete _ _ := throw .exhausted
  ownKeys _ := throw .exhausted

/-- The operations of a machine whose stack is exhausted. -/
def exhausted : Calls where
  call _ _ _ := Exec.stackOverflow none
  construct _ _ _ := Exec.stackOverflow none
  resume _ _ _ := Exec.stackOverflow none
  prototypeOf _ := Exec.stackOverflow none
  setPrototype _ _ := Exec.stackOverflow none
  isExtensible _ := Exec.stackOverflow none
  preventExtensions _ := Exec.stackOverflow none
  getOwn _ _ := Exec.stackOverflow none
  defineOwn _ _ _ := Exec.stackOverflow none
  has _ _ := Exec.stackOverflow none
  get _ _ _ := Exec.stackOverflow none
  set _ _ _ _ := Exec.stackOverflow none
  delete _ _ := Exec.stackOverflow none
  ownKeys _ := Exec.stackOverflow none

/-- The operations of a machine, given those for the calls inside. -/
def oneMore (library : Library) (inner : Thunk Calls) : Calls where
  call f this args := Exec.callValue library f this args inner.get
  construct f args newTarget := Exec.constructValue library f args newTarget inner.get
  resume fr how v := Exec.resumeFrame fr how v inner.get
  prototypeOf a := Exec.Proxy.prototypeOf a inner.get
  setPrototype a p := Exec.Proxy.setPrototype a p inner.get
  isExtensible a := Exec.Proxy.isExtensible a inner.get
  preventExtensions a := Exec.Proxy.preventExtensions a inner.get
  getOwn a k := Exec.Proxy.getOwn a k inner.get
  defineOwn a k d := Exec.Proxy.defineOwn a k d inner.get
  has a k := Exec.Proxy.has a k inner.get
  get a k receiver := Exec.Proxy.get a k receiver inner.get
  set a k v receiver := Exec.Proxy.set a k v receiver inner.get
  delete a k := Exec.Proxy.delete a k inner.get
  ownKeys a := Exec.Proxy.ownKeys a inner.get

/-- The operations of a machine on which calls can be nested so many levels deep. -/
def level (library : Library) : Nat → Calls
  | 0 => exhausted
  | n + 1 => oneMore library ⟨fun _ => level library n⟩

/-- How many levels deep calls can be nested, whatever stack there is. -/
def levels : Nat := 3000

end Calls
end ScriptSandbox
