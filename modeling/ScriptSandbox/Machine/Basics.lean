import ScriptSandbox.Machine.Collect

/-!
# Elementary operations of the machine

Objects and cells are made, looked at and changed here; memory and stack are accounted for; and
errors are thrown, with the trace of the calls that led to them.
-/

namespace ScriptSandbox.Exec

def throwValue {α : Type} (v : Value) : Exec α := throw (.thrown v)

/-! ## Objects and cells -/

/-- An object. -/
@[inline] def getObj (a : Nat) : Exec Obj := do
  let m ← get
  return m.heap.getD a default

@[noinline] def changeAt (heap : Array Obj) (a : Nat) (f : Obj → Obj) : Array Obj := heap.modify a f

/-- Changes an object. Neither this nor the other operations on the heap are inlined, so that the
heap has a single owner when it is changed. -/
@[noinline] def modifyObj (a : Nat) (f : Obj → Obj) : Exec Unit :=
  modify fun m => { m with heap := changeAt m.heap a f }

/-- Takes an object from its place, so that nothing else holds what is in it. -/
@[noinline] def takeObj (a : Nat) : Exec Obj :=
  modifyGet fun m =>
    if h : a < m.heap.size then (m.heap[a], { m with heap := m.heap.set a default h })
    else (default, m)

@[noinline] def putObj (a : Nat) (o : Obj) : Exec Unit :=
  modify fun m => { m with heap := changeAt m.heap a fun _ => o }

/-- Changes what an object is. -/
@[inline] def setKind (a : Nat) (k : Kind) : Exec Unit := modifyObj a fun o => { o with kind := k }

/-- Notes that memory was asked for. -/
@[inline] def charge (bytes : Nat) : Exec Unit :=
  modify fun m => { m with memory := { m.memory with charged := m.memory.charged + bytes } }

/-- Notes the memory of a string. -/
def noteText (length : Nat) : Exec Unit :=
  modify fun m =>
    { m with
      memory := { m.memory with
        charged := m.memory.charged + 24 + length, text := m.memory.text + 24 + length } }

/-- The bytes that an object takes, without what its kind adds. -/
def objectBytes : Nat := 104

def propertyBytes : Nat := 24

/-- A new object. -/
def alloc (o : Obj) : Exec Nat := do
  let bytes := objectBytes + propertyBytes * o.props.entries.size
  modifyGet fun m =>
    let memory := { m.memory with charged := m.memory.charged + bytes }
    match m.freePlaces with
    | a :: rest => (a, { m with heap := m.heap.set! a o, freePlaces := rest, memory })
    | [] =>
      let a := m.heap.size
      (a, { m with heap := m.heap.push o, memory })

@[noinline] def newCell (v : Value) : Exec Nat :=
  modifyGet fun m =>
    match m.freeCells with
    | i :: rest => (i, { m with cells := m.cells.set! i v, freeCells := rest })
    | [] =>
      let i := m.cells.size
      (i, { m with cells := m.cells.push v })

@[inline] def getCell (i : Nat) : Exec Value := do
  let m ← get
  return m.cells.getD i .undefined

@[noinline] def putAt (cells : Array Value) (i : Nat) (v : Value) : Array Value :=
  cells.setIfInBounds i v

@[noinline] def setCell (i : Nat) (v : Value) : Exec Unit :=
  modify fun m => { m with cells := putAt m.cells i v }

def newObjectOf (proto : Intrinsic) (kind : Kind) (props : List (Key × Property)) : Exec Value := do
  let a ← alloc { proto := some proto.address, kind, props := .ofList props }
  return .obj a

def newObject : Exec Value := do
  let a ← alloc { proto := some Intrinsic.objectPrototype.address }
  return .obj a

/-- A function of the library that the machine makes for its own use. -/
def newNative (f : Builtin) (slots : Array Value) (name : String) (arity : Nat) : Exec Value := do
  newObjectOf .functionPrototype (.native f slots false)
    [(Key.named "length", .data (.int arity) false false true),
      (Key.named "name", .data (.ofString name) false false true)]

def newSymbol (description : Option Str) : Exec Nat :=
  modifyGet fun m => (m.symbols.size, { m with symbols := m.symbols.push description })

/-! ## Errors -/

/-- The first characters of a name, as messages show it. -/
def shortName (s : String) : String :=
  let rec go (n : Nat) : List Char → List Char
    | [] => []
    | c :: cs => if n ≥ 58 then [] else c :: go (n + c.utf8Size) cs
  if s.utf8ByteSize < 58 then s else String.ofList (go 0 s.toList)

def messageBytes : Nat := 255

/-- The start of a message that takes no more bytes than there are; a character that is cut in two
shows as one that could not be read. -/
def cutMessage (s : String) : String :=
  let rec go (n : Nat) : List Char → List Char
    | [] => []
    | c :: cs =>
      if n + c.utf8Size ≤ messageBytes then c :: go (n + c.utf8Size) cs
      else if n < messageBytes then ['\uFFFD']
      else []
  if s.utf8ByteSize ≤ messageBytes then s else String.ofList (go 0 s.toList)

def traceLine : Waiting → String
  | .code fr =>
    let p := fr.code.placeAt (fr.pc - 1)
    "    at " ++ (if fr.code.name.isEmpty then "<anonymous>" else fr.code.name) ++ " ("
      ++ fr.code.file ++ ":" ++ toString p.line ++ ":" ++ toString p.column ++ ")\n"
  | .native name _ => "    at " ++ (if name.isEmpty then "<anonymous>" else name) ++ " (native)\n"

/-- The trace of what runs, without the innermost calls. -/
def traceOf (frames : Array Waiting) (skip : Nat) : String :=
  String.join (((frames.toList.reverse.drop skip).filter fun w =>
    match w with
    | .native "" _ => false
    | _ => true).map traceLine)

def hiddenProperty (v : Value) : Property := .data v true false true

def makeErrorWith (k : ErrorKind) (message stack : String) : Exec Value := do
  noteText (message.utf8ByteSize + stack.utf8ByteSize)
  newObjectOf k.prototype (.error false)
    [(Key.named "message", hiddenProperty (.ofString message)),
      (Key.named "stack", hiddenProperty (.ofString stack))]

def makeError (k : ErrorKind) (message : String) : Exec Value := do
  let m ← get
  makeErrorWith k (cutMessage message) (traceOf m.frames 0)

def raise {α : Type} (k : ErrorKind) (message : String) : Exec α := do
  throwValue (← makeError k message)

def typeError {α : Type} (message : String) : Exec α := raise .typeError message

def rangeError {α : Type} (message : String) : Exec α := raise .rangeError message

/-- Throws what stands for an exhausted heap. -/
def outOfMemory {α : Type} : Exec α := raise .internalError "out of memory"

/-- Throws what stands for an exhausted stack. -/
def stackOverflow {α : Type} : Exec α := raise .internalError "stack overflow"

/-- Looks at whether there is memory for a large block; it is an error if there is not. -/
def roomFor (bytes : Nat) : Exec Unit := do
  let m ← get
  match m.memory.limit with
  | some limit =>
    if m.memory.charged + bytes > limit then
      let memory := if bytes > limit then m.memory else m.measured
      modify fun m => { m with memory }
      if memory.charged + bytes > limit then outOfMemory
  | none => if bytes > 2147483648 then outOfMemory

def chargeBlock (bytes : Nat) : Exec Unit := do
  roomFor bytes
  charge bytes

/-- Asks for memory; a large block has to be there. -/
def chargeBytes (bytes : Nat) : Exec Unit :=
  if bytes > 4096 then chargeBlock bytes else charge bytes

/-- Asks for the memory of one more element of an array of some size; from time to time it is looked
at whether there is that much. -/
@[inline] def chargeElement (size : Nat) : Exec Unit := do
  charge 16
  if size % 1024 == 1023 then roomFor 0

/-- Asks for the memory of a string. -/
def chargeText (length : Nat) : Exec Unit := do
  if length > 4096 then roomFor length
  noteText length

def newArray (items : Array Value) : Exec Value := do
  chargeBytes (16 * items.size)
  let n := items.size
  newObjectOf .arrayPrototype (.array items n) []

/-! ## Calls -/

/-- Notes that values are held which only the machine's own operations know, or no longer. -/
@[inline] def pin (more : Bool) : Exec Unit :=
  modify fun m =>
    let pins := if more then m.memory.pins + 1 else m.memory.pins - 1
    { m with memory := { m.memory with pins } }

/-- Calls a function from an operation that holds values of its own. -/
def call (f this : Value) (args : Array Value) : Exec Value := do
  pin true
  let r ← fun c => c.call f this args
  pin false
  return r

/-- Constructs an object from an operation that holds values of its own. -/
def construct (f : Value) (args : Array Value) (newTarget : Value) : Exec Value := do
  pin true
  let r ← fun c => c.construct f args newTarget
  pin false
  return r

/-- Goes on with a suspended function. -/
@[inline] def resume (fr : Frame) (how : Resumption) (v : Value) : Exec Pause :=
  fun c => c.resume fr how v

/-- Runs an operation that uses some stack. Whoever catches what is thrown inside restores the
count. -/
def withStack {α : Type} (bytes : Nat) (act : Exec α) : Exec α := do
  let m ← get
  let isFull :=
    match m.stackLimit with
    | some limit => decide (m.stack + bytes > limit)
    | none => false
  if isFull then stackOverflow
  let below := m.stack
  modify fun m => { m with stack := below + bytes }
  let a ← act
  modify fun m => { m with stack := below }
  return a

/-- Runs an operation while some values stay in use. -/
def holding {α : Type} (held : Array Value) (act : Exec α) : Exec α := do
  let depth := (← get).frames.size
  modify fun m => { m with frames := m.frames.push (.native "" held) }
  let a ← act
  modify fun m => { m with frames := m.frames.shrink depth }
  return a

/-- Runs an operation on behalf of a function of the library, which shows in traces; the values
that it holds stay in use. -/
def withNative {α : Type} (name : String) (held : Array Value) (act : Exec α) : Exec α := do
  let depth := (← get).frames.size
  modify fun m => { m with
    frames := m.frames.push (.native name held)
    memory := { m.memory with pins := m.memory.pins + 1 } }
  let a ← act
  modify fun m => { m with
    frames := m.frames.shrink depth
    memory := { m.memory with pins := m.memory.pins - 1 } }
  return a

/-- Lets the function of the library that runs hold one more value. -/
def holdAlso (v : Value) : Exec Unit :=
  modify fun m =>
    match m.frames.back? with
    | some (.native name held) =>
      { m with frames := m.frames.pop.push (.native name (held.push v)) }
    | _ => m

/-- What came of an operation that guest code may have thrown in. -/
inductive Attempt (α : Type) where
  | value (a : α)
  | thrown (v : Value)

/-- Runs an operation and catches what is thrown; what waits above is dropped. -/
def attempt {α : Type} (act : Exec α) : Exec (Attempt α) := do
  let depth := (← get).frames.size
  let stack := (← get).stack
  let pins := (← get).memory.pins
  tryCatch (Attempt.value <$> act) fun e =>
    match e with
    | .thrown v => do
      modify fun m => { m with
        frames := m.frames.shrink depth
        stack
        memory := { m.memory with pins } }
      return .thrown v
    | e => throw e

def isCallable (v : Value) : Exec Bool := do
  match v with
  | .obj a => return (← getObj a).isCallable
  | _ => return false

def isConstructor (v : Value) : Exec Bool := do
  match v with
  | .obj a =>
    match (← getObj a).kind with
    | .closure c => return c.code.isConstructor
    | .native _ _ constructs => return constructs
    | .proxy _ _ _ constructs => return constructs
    | .bound target _ _ =>
      match (← getObj target).kind with
      | .closure c => return c.code.isConstructor
      | .native _ _ constructs => return constructs
      | .bound .. => return true
      | .proxy _ _ _ constructs => return constructs
      | _ => return false
    | _ => return false
  | _ => return false

end ScriptSandbox.Exec
