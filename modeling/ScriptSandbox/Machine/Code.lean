import ScriptSandbox.Machine.Value
import ScriptSandbox.Language.Tree

/-!
# Code

What the compiler yields and the machine runs. A function's code works on a stack of values. Its
variables are in numbered places of its own, or, if inner functions mention their names, in cells
that closures share. Comments on instructions show the stack before and after, with its top on the
right.
-/

namespace ScriptSandbox

/-- How a member of an object is defined. -/
inductive DefineKind where
  | value
  | getter
  | setter
  deriving BEq, Inhabited

/-- An instruction. -/
inductive Op where
  | push (v : Value)
  /-- `a →` -/
  | pop
  /-- `a → a a` -/
  | dup
  /-- `a b → a b a b` -/
  | dup2
  /-- `a b → b a` -/
  | swap
  /-- `a b → b` -/
  | nip
  /-- `a b c → b c a` -/
  | rotate3
  /-- `a b → b a b` -/
  | insert2
  /-- `a b c → c a b c` -/
  | insert3
  /-- `a b c d → d a b c d` -/
  | insert4
  | pushThis
  | pushNewTarget
  | pushCallee
  /-- The object in which the running method was defined. -/
  | pushHome
  | getArg (i : Nat)
  /-- The arguments from a place on, as an array. -/
  | restArgs (i : Nat)
  /-- The `arguments` object. -/
  | argumentsObject
  | getLocal (i : Nat)
  | putLocal (i : Nat)
  | setLocal (i : Nat)
  /-- Leaves no value in a place. -/
  | clearLocal (i : Nat)
  | getLocalChecked (i : Nat) (name : String)
  | checkLocal (i : Nat) (name : String)
  | getCell (i : Nat)
  | putCell (i : Nat)
  | getCellChecked (i : Nat) (name : String)
  | checkCell (i : Nat) (name : String)
  /-- A new cell in a place, with a first value. -/
  | newCell (i : Nat) (v : Value)
  /-- A new cell in a place, with the value of the one that was there. -/
  | copyCell (i : Nat)
  /-- Fails because a constant cannot be assigned to. -/
  | failReadOnly (name : String)
  /-- Fails if there already is a value in a place. -/
  | checkFreshLocal (i : Nat)
  /-- Fails if there already is a value in a cell. -/
  | checkFreshCell (i : Nat)
  | getGlobal (name : String)
  /-- The value of a global name, or undefined where there is none. -/
  | getGlobalMaybe (name : String)
  | putGlobal (name : String) (strict : Bool)
  /-- Gives a declared global name its first value. -/
  | initGlobal (name : String)
  /-- Defines a global function. -/
  | defineGlobal (name : String)
  | deleteGlobal (name : String)
  /-- `o → v` -/
  | getField (k : Key)
  /-- `o → o v` -/
  | getFieldKeep (k : Key)
  /-- `o v →` -/
  | putField (k : Key) (strict : Bool)
  /-- `o k → v` -/
  | getIndex
  /-- `o k → o v` -/
  | getIndexKeep
  /-- `o k → o k v` -/
  | getIndexKeepBoth
  /-- `o k v →` -/
  | putIndex (strict : Bool)
  /-- `this home k → v`: a member of the home object's prototype. -/
  | superGet
  /-- `this home k v →` -/
  | superPut
  /-- `o k → b` -/
  | deleteIndex (strict : Bool)
  /-- `v → k`: a value as the name of a property. -/
  | toKey
  /-- `v → v`: fails where there is no object to be had. -/
  | needObject
  /-- `o v → o` -/
  | defineField (k : Key)
  /-- `o k v → o` -/
  | defineIndex
  /-- `o f → o` -/
  | defineMethod (k : Key) (kind : DefineKind) (enumerable : Bool)
  /-- `o k f → o` -/
  | defineMethodIndex (kind : DefineKind) (enumerable : Bool)
  /-- `o v → o`: sets the prototype, if the value can be one. -/
  | setProto
  /-- `k f → k f`: names a function or class after a key. -/
  | setNameOfKey
  /-- A new private name. -/
  | newPrivate (name : String)
  /-- `o n → v` -/
  | getPrivate
  /-- `o n → o v` -/
  | getPrivateKeep
  /-- `o n → o n v` -/
  | getPrivateKeepBoth
  /-- `o n v →` -/
  | putPrivate
  /-- `o n v → o` -/
  | addPrivate
  /-- `o n f → o`: a method or accessor, which cannot be assigned to. -/
  | addPrivateMethod (kind : DefineKind)
  /-- `o n → b` -/
  | hasPrivate
  | newObject
  /-- `v… → a` -/
  | newArray (n : Nat)
  /-- `a v → a` -/
  | arrayAdd
  /-- `a → a`, with one more element that is not there. -/
  | arraySkip
  /-- `a v → a`, with the elements of something iterable. -/
  | arraySpread
  /-- `o v → o`, with the properties of another object. -/
  | copyProperties
  /-- `o k… → o r`: the properties of an object without some. -/
  | objectRest (n : Nat)
  | regex (r : Regex.Matcher)
  | templateObject (cooked : List (Option Str)) (raw : List Str)
  /-- A closure of an inner function. -/
  | closure (i : Nat)
  /-- `p → f o`: a class with its prototype; without a parent, `p` is no value. -/
  | makeClass (i : Nat)
  /-- `f o g → f o`: what sets up the fields of new objects of a class. -/
  | setFields
  /-- `f g → f`: runs the static parts of a class. -/
  | runStatic
  /-- `o f → o f`: notes that a method was defined in an object. -/
  | setHome
  /-- Sets up the fields of the object on top of the stack: `o → o`. -/
  | initFields
  /-- `f v… → r` -/
  | call (n : Nat)
  /-- `o f v… → r` -/
  | callMethod (n : Nat)
  /-- `o f a → r` -/
  | callSpread
  /-- `f v… → r` -/
  | construct (n : Nat)
  /-- `f a → r` -/
  | constructSpread
  /-- `t a → r`: constructs what the parent class constructs, for a target. -/
  | superConstruct
  /-- Calls `eval`, with the variables of a place: `f v… → r`. -/
  | callEval (n : Nat) (scope : Nat)
  | jump (t : Nat)
  /-- A jump to the start of a loop, which counts for so many steps. -/
  | loop (t : Nat) (steps : Nat)
  | jumpIfFalse (t : Nat)
  | jumpIfTrue (t : Nat)
  /-- `a → a` and a jump, or `a →`. -/
  | jumpIfFalseKeep (t : Nat)
  /-- `a → a` and a jump, or `a →`. -/
  | jumpIfTrueKeep (t : Nat)
  /-- `a → a` and a jump if it is neither undefined nor null, or `a →`. -/
  | jumpIfNotNullish (t : Nat)
  /-- `a → a` and a jump if it is not undefined, or `a →`. -/
  | jumpIfDefined (t : Nat)
  | pushHandler (t : Nat)
  | popHandler
  | throw
  /-- Enters a `finally` block, which returns behind this instruction. -/
  | gosub (t : Nat)
  | ret
  | return
  /-- The result of a constructor of a derived class: `v this → r`. -/
  | checkConstructed
  | unary (op : Language.UnaryOp)
  | binary (op : Language.BinaryOp)
  /-- `a → a'` -/
  | increment (by_ : Int)
  | toNumeric
  | typeOf
  /-- `v → i n`, and the loop over the iterator is guarded if asked for. -/
  | iterStart (isAsync guarded : Bool)
  /-- The next value of the iterator that lies under some values; undefined if it has no more. -/
  | iterStep (above : Nat)
  /-- The next value of the iterator on top, or a jump if it has no more. -/
  | iterNext (t : Nat)
  /-- What remains of the iterator that lies under some values, as an array. -/
  | iterRest (above : Nat)
  /-- Closes and removes the iterator that lies under some values: `i n v… → v…`. -/
  | iterClose (above : Nat)
  /-- `i n →` -/
  | iterDrop
  /-- `i n → i n r`: calls `next`; the result is awaited. -/
  | iterCallNext
  /-- `i n r → i n v`, or `i n` and a jump if it has no more. -/
  | iterResult (t : Nat)
  /-- `i n v… → v… r`: calls `return`, whose result is awaited. -/
  | iterCallReturn (above : Nat)
  /-- `r →`: fails if the answer of `return` is no object. -/
  | checkReturned
  /-- `v → e`: begins to list the names of an object's properties. -/
  | forInStart
  /-- The next name, or a jump if there are no more. -/
  | forInNext (t : Nat)
  /-- Suspends a function before its body. -/
  | initialYield
  /-- `v → v b`: the value sent, and whether it is to be returned. -/
  | yield
  /-- `v → v m`: the value sent, and how it was sent. -/
  | yieldDelegated
  /-- `i n v m → i n m r`: passes what was sent to another generator. -/
  | delegateCall
  /-- `i n m r → i n v` and a jump, `done` when the other generator is done and `returned` when it
  has returned; or `i n y`, what is to be yielded. -/
  | delegateResult (isAsync : Bool) (done returned : Nat)
  | await
  | importCall
  | importMeta
  deriving Inhabited

namespace Op

def redirect (f : Nat → Nat) : Op → Op
  | .jump t => .jump (f t)
  | .loop t n => .loop (f t) n
  | .jumpIfFalse t => .jumpIfFalse (f t)
  | .jumpIfTrue t => .jumpIfTrue (f t)
  | .jumpIfFalseKeep t => .jumpIfFalseKeep (f t)
  | .jumpIfTrueKeep t => .jumpIfTrueKeep (f t)
  | .jumpIfNotNullish t => .jumpIfNotNullish (f t)
  | .jumpIfDefined t => .jumpIfDefined (f t)
  | .pushHandler t => .pushHandler (f t)
  | .gosub t => .gosub (f t)
  | .iterNext t => .iterNext (f t)
  | .iterResult t => .iterResult (f t)
  | .forInNext t => .forInNext (f t)
  | .delegateResult a d r => .delegateResult a (f d) (f r)
  | op => op

end Op

/-- A variable that code for `eval` can reach. -/
structure VisibleName where
  name : String
  /-- The place of its cell. -/
  cell : Nat
  checked : Bool
  isConst : Bool
  deriving Inhabited

/-- What a script declares globally. -/
structure GlobalNames where
  /-- Lexical names, and whether they are constants. -/
  lexical : List (String × Bool) := []
  vars : List String := []
  functions : List String := []
  deriving Inhabited

/-- A variable of a module. -/
structure ModuleVariable where
  name : String
  /-- The place of its cell among those of the module's code. -/
  cell : Nat
  /-- Whether it has no value before its declaration. -/
  lexical : Bool
  deriving Inhabited

/-- The code of a function. -/
structure Code where
  name : String
  kind : Language.FunctionKind
  isAsync : Bool
  isGenerator : Bool
  strict : Bool
  ops : Array Op
  /-- The place in the source that each instruction belongs to. -/
  places : Array Language.Pos
  file : String
  source : String
  /-- How many parameters there are before the first that is optional. -/
  arity : Nat
  /-- How many arguments are put into the first places for variables. -/
  params : Nat
  /-- Whether the arguments are needed later on. -/
  keepsArgs : Bool
  /-- How many places for variables there are. -/
  locals : Nat
  /-- Cells taken over: their places here, and in the function around. -/
  captures : Array (Nat × Nat)
  /-- How many cells there are in all. -/
  cells : Nat
  functions : Array Code
  /-- The variables that each call of `eval` can reach. -/
  scopes : Array (List VisibleName)
  /-- What it declares globally, if it is a script. -/
  globals : GlobalNames := {}
  isClass : Bool := false
  deriving Inhabited

namespace Code

def isConstructor (c : Code) : Bool :=
  match c.kind with
  | .plain => !c.isAsync && !c.isGenerator
  | .constructor | .derivedConstructor => true
  | _ => false

/-- Whether functions of some code take `this` from where they were made. -/
def isArrow (c : Code) : Bool :=
  match c.kind with
  | .arrow => true
  | _ => false

/-- The place in the source of an instruction. -/
def placeAt (c : Code) (pc : Nat) : Language.Pos := (c.places[pc]?).getD ⟨1, 1⟩

end Code

/-- What a handler of failures does. -/
inductive HandlerKind where
  /-- Goes on at a place, with what was thrown on the stack. -/
  | resume (t : Nat)
  /-- Closes the iterator on top of the stack. -/
  | iterator
  deriving Inhabited

/-- A handler of failures, and how many values lay on the stack when it was set up. -/
structure Handler where
  kind : HandlerKind
  depth : Nat
  deriving Inhabited

/-- A run of some code. -/
structure Frame where
  code : Code
  pc : Nat := 0
  stack : Array Value := #[]
  locals : Array Value := #[]
  cells : Array Nat := #[]
  args : Array Value := #[]
  thisValue : Value := .undefined
  newTarget : Value := .undefined
  /-- The function that runs. -/
  callee : Nat := 0
  handlers : List Handler := []
  deriving Inhabited

namespace Frame

@[inline] def push (fr : Frame) (v : Value) : Frame := { fr with stack := fr.stack.push v }

@[inline] def top (fr : Frame) : Value := fr.stack.getD (fr.stack.size - 1) .undefined

@[inline] def under (fr : Frame) (above : Nat) : Value :=
  fr.stack.getD (fr.stack.size - 1 - above) .undefined

/-- Removes the value on top of the stack. -/
@[inline] def pop (fr : Frame) : Frame := { fr with stack := fr.stack.pop }

/-- Removes some values from the stack. -/
@[inline] def drop (fr : Frame) (n : Nat) : Frame :=
  { fr with stack := fr.stack.shrink (fr.stack.size - n) }

@[inline] def setTop (fr : Frame) (v : Value) : Frame :=
  { fr with stack := fr.stack.setIfInBounds (fr.stack.size - 1) v }

@[inline] def setUnder (fr : Frame) (above : Nat) (v : Value) : Frame :=
  { fr with stack := fr.stack.setIfInBounds (fr.stack.size - 1 - above) v }

/-- Goes on at a place. -/
@[inline] def goto (fr : Frame) (t : Nat) : Frame := { fr with pc := t }

/-- The values on top of the stack, the topmost last. -/
@[inline] def lastValues (fr : Frame) (n : Nat) : Array Value :=
  fr.stack.extract (fr.stack.size - n) fr.stack.size

/-- Removes the value that lies under some values. -/
def remove (fr : Frame) (above : Nat) : Frame :=
  { fr with stack := fr.stack.eraseIdxIfInBounds (fr.stack.size - 1 - above) }

end Frame
end ScriptSandbox
