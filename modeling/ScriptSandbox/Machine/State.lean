import ScriptSandbox.Machine.Builtin
import ScriptSandbox.Machine.Code
import ScriptSandbox.Machine.Collection
import ScriptSandbox.Modules.Fetch
import ScriptSandbox.Modules.ImportMap
import ScriptSandbox.Modules.Inline
import ScriptSandbox.Pace

/-!
# The state of the machine

Objects lie in a heap of numbered places, variables that closures share in another. The objects
that the machine itself has to know are at fixed places at the start of the heap. Whatever runs
while something else waits for it is kept among `frames`, so that the state tells at any time who
called whom, and what is in use.
-/

namespace ScriptSandbox

/-! ## Objects -/

/-- The objects that the machine has to know. -/
inductive Intrinsic where
  | global
  | objectPrototype | functionPrototype | arrayPrototype | stringPrototype | numberPrototype
  | booleanPrototype | symbolPrototype | bigIntPrototype
  | errorPrototype | evalErrorPrototype | rangeErrorPrototype | referenceErrorPrototype
  | syntaxErrorPrototype | typeErrorPrototype | uriErrorPrototype | internalErrorPrototype
  | aggregateErrorPrototype
  | iteratorPrototype | asyncIteratorPrototype | arrayIteratorPrototype | stringIteratorPrototype
  | mapIteratorPrototype | setIteratorPrototype | matchIteratorPrototype
  | asyncFromSyncIteratorPrototype
  | generatorPrototype | generatorFunctionPrototype | asyncGeneratorPrototype
  | asyncGeneratorFunctionPrototype | asyncFunctionPrototype
  | promisePrototype | mapPrototype | setPrototype | weakMapPrototype | weakSetPrototype
  | datePrototype | regExpPrototype | bufferPrototype
  | viewPrototype | dataViewPrototype
  | promiseConstructor | arrayConstructor | regExpConstructor | viewConstructor
  | arrayValues | arrayIteratorNext | parseInt | parseFloat | evalFunction | thrower
  deriving BEq, Inhabited

/-- The place of an object that the machine has to know. -/
def Intrinsic.address (i : Intrinsic) : Nat := i.ctorIdx + 1

def firstViewPrototype : Nat := Intrinsic.thrower.address + 1

def viewKinds : Nat := 11

def firstFreePlace : Nat := firstViewPrototype + viewKinds

def ErrorKind.prototype : ErrorKind → Intrinsic
  | .error => .errorPrototype
  | .evalError => .evalErrorPrototype
  | .rangeError => .rangeErrorPrototype
  | .referenceError => .referenceErrorPrototype
  | .syntaxError => .syntaxErrorPrototype
  | .typeError => .typeErrorPrototype
  | .uriError => .uriErrorPrototype
  | .internalError => .internalErrorPrototype
  | .aggregateError => .aggregateErrorPrototype

/-- Symbols that the language knows; a symbol's number is its place in this list. -/
inductive KnownSymbol where
  | iterator | asyncIterator | hasInstance | toPrimitive | toStringTag | species
  | isConcatSpreadable | unscopables | «match» | matchAll | replace | search | split
  deriving BEq, Inhabited

def KnownSymbol.id (s : KnownSymbol) : Nat := s.ctorIdx

def KnownSymbol.key (s : KnownSymbol) : Key := .symbol s.id

/-- The functions with which a promise is settled. -/
structure Capability where
  promise : Value
  resolve : Value
  reject : Value
  deriving Inhabited

/-- What is to be done when a promise is settled. -/
structure Reaction where
  onFulfilled : Value
  onRejected : Value
  capability : Option Capability
  deriving Inhabited

/-- The states of a promise. -/
inductive PromiseStatus where
  | pending
  | fulfilled
  | rejected
  deriving BEq, Inhabited

/-- A promise. -/
structure PromiseState where
  status : PromiseStatus := .pending
  value : Value := .undefined
  reactions : Array Reaction := #[]
  /-- Whether somebody has asked what becomes of it. -/
  handled : Bool := false
  deriving Inhabited

/-- How a suspended function is resumed. -/
inductive Resumption where
  | next
  | return
  | throw
  deriving BEq, Inhabited

/-- A call of a method of an asynchronous generator that waits for its turn. -/
structure GeneratorRequest where
  how : Resumption
  value : Value
  capability : Capability
  deriving Inhabited

/-- The states of a generator. -/
inductive GeneratorStatus where
  | suspendedStart
  | suspendedYield
  | running
  /-- Waits for a promise. -/
  | awaiting
  /-- Waits for the promise that a completed generator was asked to return. -/
  | awaitingReturn
  | completed
  deriving BEq, Inhabited

/-- A function whose run is suspended. -/
structure Coroutine where
  frame : Option Frame
  status : GeneratorStatus := .suspendedStart
  /-- What settles the promise of an asynchronous function. -/
  capability : Option Capability := none
  requests : List GeneratorRequest := []
  deriving Inhabited

/-- A function with the variables around it. -/
structure Closure where
  code : Code
  cells : Array Nat
  /-- The object in which a method was defined. -/
  home : Option Nat
  /-- The innermost function around that is no arrow function. -/
  owner : Nat
  /-- What sets up the fields of a class's new objects. -/
  fields : Option Nat := none
  deriving Inhabited

/-- What lists the entries of an array: their places, their values, or both. -/
inductive Listing where
  | keys
  | values
  | entries
  deriving BEq, Inhabited

/-- What an exported name stands for: a cell, or a module as a whole. -/
inductive Binding where
  | cell (i : Nat)
  | whole (module : Nat)
  deriving Inhabited

/-- What an object is, besides its properties. -/
inductive Kind where
  /-- A place that no object has. -/
  | free
  | plain
  /-- An array whose elements are all ordinary; elements up to its length may be missing. -/
  | array (items : Array Value) (length : Nat)
  /-- An array whose elements are among its properties. -/
  | sparse (length : Nat) (writable : Bool)
  /-- An error; one that stands for an interruption cannot be caught by guest code. -/
  | error (uncatchable : Bool)
  | arguments
  | closure (c : Closure)
  | native (f : Builtin) (slots : Array Value) (constructs : Bool)
  | bound (target : Nat) (this : Value) (args : Array Value)
  | boxed (v : Value)
  | date (time : Float)
  | regExp (r : Regex.Matcher)
  | collection (kind : CollectionKind) (c : Collection)
  | collectionIterator (target : Option Nat) (next : Nat) (listing : Listing)
  | arrayIterator (target : Option Nat) (next : Nat) (listing : Listing)
  | stringIterator (s : Str) (next : Nat)
  /-- Lists the matches of a regular expression, unless all have been listed. -/
  | matchIterator (regExp : Option Nat) (s : Str) (global unicode : Bool)
  | asyncFromSync (iterator next : Value)
  | promise (p : PromiseState)
  | proxy (target handler : Option Nat) (callable constructs : Bool)
  | generator (c : Coroutine)
  /-- The names that remain to be listed, with the objects that hold them. -/
  | forIn (names : List (Key × Nat))
  | namespace (exports : List (Key × Binding))
  | buffer (bytes : ByteArray)
  | view (kind buffer offset length : Nat)
  | dataView (buffer offset length : Nat)
  deriving Inhabited

/-- An object. -/
structure Obj where
  proto : Option Nat := none
  extensible : Bool := true
  props : PropertyTable := {}
  kind : Kind := .plain
  deriving Inhabited

namespace Obj

/-- Whether an object can be called. -/
def isCallable (o : Obj) : Bool :=
  match o.kind with
  | .closure _ | .native .. | .bound .. => true
  | .proxy _ _ callable _ => callable
  | _ => false

end Obj

/-! ## Modules -/

/-- How far a module has come. -/
inductive ModuleStatus where
  | unlinked
  | linking
  | linked
  | evaluating
  /-- Waits for what it awaits, or for modules that do. -/
  | waiting
  | evaluated
  deriving BEq, Inhabited

/-- A module. -/
structure ModuleRecord where
  name : String
  code : Code
  bindings : List ModuleVariable
  imports : List Language.ImportEntry
  exports : List Language.ExportEntry
  /-- The modules that it requests, in order. -/
  requested : List Nat := []
  /-- Whether it awaits outside every function. -/
  awaits : Bool
  status : ModuleStatus := .unlinked
  /-- The cells of its code. -/
  cells : Array Nat := #[]
  /-- The function that it is, once there is one. -/
  function : Option Nat := none
  /-- Its run, suspended before the first statement. -/
  frame : Option Frame := none
  namespaceObject : Option Nat := none
  metaObject : Option Nat := none
  /-- When it was reached in the evaluation, and the earliest module that it depends on. -/
  reached : Nat := 0
  earliest : Nat := 0
  /-- The module of its cycle that was reached first. -/
  root : Nat := 0
  /-- When it began to wait for what it awaits, or for modules that do. -/
  waitsSince : Option Nat := none
  failure : Option Value := none
  /-- What settles the promise for its evaluation. -/
  capability : Option Capability := none
  /-- The modules that wait for it. -/
  parents : List Nat := []
  /-- How many modules it waits for. -/
  pending : Nat := 0
  deriving Inhabited

/-! ## Jobs -/

/-- What is to be done when nothing runs. -/
inductive Job where
  /-- A promise was settled. -/
  | reaction (handler : Value) (rejected : Bool) (capability : Option Capability) (argument : Value)
  /-- A promise was resolved with something that has a `then` of its own. -/
  | thenable (promise : Nat) (value thenFunction : Value)
  | importModule (capability : Capability) (base : String) (specifier : Value)
  deriving Inhabited

/-- A queue. -/
structure JobQueue where
  front : List Job := []
  back : List Job := []
  deriving Inhabited

namespace JobQueue

def push (q : JobQueue) (j : Job) : JobQueue := { q with back := j :: q.back }

def pop? (q : JobQueue) : Option (Job × JobQueue) :=
  match q.front with
  | j :: front => some (j, { q with front })
  | [] =>
    match q.back.reverse with
    | j :: front => some (j, ⟨front, []⟩)
    | [] => none

def isEmpty (q : JobQueue) : Bool := q.front.isEmpty && q.back.isEmpty

def toList (q : JobQueue) : List Job := q.front ++ q.back.reverse

end JobQueue

/-! ## The machine -/

/-- Something that waits for what it called. -/
inductive Waiting where
  | code (fr : Frame)
  /-- A function of the standard library, with the values that it holds. -/
  | native (name : String) (held : Array Value)
  deriving Inhabited

/-- How specifiers become names of modules. -/
inductive Resolution where
  | network (r : Resolver)
  | mapped (map : ImportMap) (r : Resolver)
  deriving Inhabited

/-- What surrounds the machine. -/
structure Host where
  resolution : Resolution := .network .standard
  inline : InlineModules := {}
  fetch : Fetch := fun url => .error (.notFound url)
  /-- The URLs that were asked for. -/
  requests : List String := []
  /-- The URLs of the modules that were loaded. -/
  loaded : List String := []
  logs : Array LogEntry := #[]
  /-- What the clock on the wall shows at the start, in milliseconds. -/
  reading : Nat := 1767225600000
  deriving Inhabited

/-- What a poll of the interrupt handler looks at. -/
structure Interrupts where
  /-- Calls and jumps until the next poll. -/
  countdown : Nat := 0
  /-- Calls and jumps between polls. -/
  every : Nat := 10000
  /-- How many polls there have been. -/
  polls : Nat := 0
  /-- How many polls there may be. -/
  budget : Option Nat := none
  /-- Whether the next poll stops the guest. -/
  killed : Bool := false
  /-- The number of polls after which the guest is stopped from outside. -/
  deadline : Option Nat := none
  /-- Whether the guest was stopped from outside. -/
  expired : Bool := false
  deriving Inhabited

/-- What is known about memory in use. -/
structure MemoryUse where
  /-- Bytes asked for since the use was last measured, on top of what it was then. -/
  charged : Nat := 0
  /-- How many of these are bytes of strings. -/
  text : Nat := 0
  /-- The bytes that may be in use when the interrupt handler is polled. -/
  budget : Option Nat := none
  /-- The bytes that may be in use at all. -/
  limit : Option Nat := none
  /-- Whether the budget was exceeded. -/
  tripped : Bool := false
  /-- How many objects there may be before unused ones are looked for. -/
  sweepAt : Nat := 200000
  /-- How many natives hold values that only they know. -/
  pins : Nat := 0
  deriving Inhabited

/-- A declared global name. -/
structure Lexical where
  cell : Nat
  isConst : Bool
  deriving Inhabited

/-- The array of pieces of a template, which is made once for its place in a source. -/
structure Template where
  file : String
  place : Language.Pos
  raw : List Str
  pieces : Value
  deriving Inhabited

/-- Where a promise is: in which context, and at which place of its heap. A place is free again when
the promise is gone. -/
structure PromisePlace where
  context : Nat
  place : Nat
  deriving DecidableEq, Repr, Inhabited

/-- A promise that was rejected while nobody had asked what becomes of it. -/
structure Rejection where
  promise : PromisePlace
  message : String
  deriving DecidableEq, Repr, Inhabited

/-- The machine. -/
structure Machine where
  /-- The number of its context among those that there have been. -/
  context : Nat := 0
  heap : Array Obj := #[]
  freePlaces : List Nat := []
  cells : Array Value := #[]
  freeCells : List Nat := []
  /-- The descriptions of symbols. -/
  symbols : Array (Option Str) := #[]
  /-- Symbols with a name that all code shares. -/
  registry : List (Str × Nat) := []
  lexicals : Std.HashMap String Lexical := {}
  frames : Array Waiting := #[]
  jobs : JobQueue := {}
  modules : Array ModuleRecord := #[]
  templates : List Template := []
  /-- Bytes of stack in use, and how many there may be. -/
  stack : Nat := 0
  stackLimit : Option Nat := some 262144
  interrupts : Interrupts := {}
  memory : MemoryUse := {}
  host : Host := {}
  /-- Whether rejections that nobody asked about are noted. -/
  tracks : Bool := false
  rejections : List Rejection := []
  /-- Values that are in use outside. -/
  roots : List Value := []
  random : UInt64 := 88172645463325252
  deriving Inhabited

/-- The present time, in milliseconds. -/
def Machine.presentTime (m : Machine) : Nat :=
  m.host.reading + m.interrupts.polls * pollNanos / 1000000

/-- Why a run of guest code ends before its time. -/
inductive Stop where
  /-- Something was thrown. -/
  | thrown (v : Value)
  /-- The run took more steps than there are. -/
  | exhausted
  deriving Inhabited

/-- How the run of a function goes on, or not. -/
inductive Pause where
  | returned (v : Value)
  | yielded (v : Value) (fr : Frame)
  | awaited (v : Value) (fr : Frame)
  /-- Stopped before the function's body. -/
  | started (fr : Frame)
  deriving Inhabited

/-- What a property is to become; what is absent stays as it is. -/
structure Descriptor where
  value : Option Value := none
  get : Option Value := none
  set : Option Value := none
  writable : Option Bool := none
  enumerable : Option Bool := none
  configurable : Option Bool := none
  deriving Inhabited

/-- Why a property was not set. -/
inductive Refusal where
  | readOnly
  | noSetter
  | notExtensible
  | notObject
  | byProxy
  deriving Inhabited

/-- Operations that may run guest code, on values and on objects of any kind. -/
structure Calls where
  call : (f this : Value) → (args : Array Value) → EStateM Stop Machine Value
  construct : (f : Value) → (args : Array Value) → (newTarget : Value) →
    EStateM Stop Machine Value
  /-- Goes on with a suspended function. -/
  resume : Frame → Resumption → Value → EStateM Stop Machine Pause
  prototypeOf : Nat → EStateM Stop Machine (Option Nat)
  setPrototype : Nat → Option Nat → EStateM Stop Machine Bool
  isExtensible : Nat → EStateM Stop Machine Bool
  preventExtensions : Nat → EStateM Stop Machine Bool
  getOwn : Nat → Key → EStateM Stop Machine (Option Property)
  defineOwn : Nat → Key → Descriptor → EStateM Stop Machine Bool
  has : Nat → Key → EStateM Stop Machine Bool
  get : Nat → Key → (receiver : Value) → EStateM Stop Machine Value
  set : Nat → Key → Value → (receiver : Value) → EStateM Stop Machine (Option Refusal)
  delete : Nat → Key → EStateM Stop Machine Bool
  ownKeys : Nat → EStateM Stop Machine (List Key)

/-- A call of a function of the standard library. -/
structure NativeCall where
  this : Value
  args : Array Value
  /-- What is to be constructed, or undefined. -/
  newTarget : Value := .undefined
  slots : Array Value := #[]
  /-- The function itself. -/
  self : Nat := 0

namespace NativeCall

/-- An argument; those that are not given are undefined. -/
@[inline] def arg (c : NativeCall) (i : Nat) : Value := c.args.getD i .undefined

/-- What the function holds. -/
@[inline] def slot (c : NativeCall) (i : Nat) : Value := c.slots.getD i .undefined

def constructs (c : NativeCall) : Bool := c.newTarget.isObject

end NativeCall

/-- A computation on the machine that may run guest code. -/
abbrev Exec : Type → Type := ReaderT Calls (EStateM Stop Machine)

end ScriptSandbox
