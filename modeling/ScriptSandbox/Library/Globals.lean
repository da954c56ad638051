import ScriptSandbox.Library.Collection
import ScriptSandbox.Library.Console
import ScriptSandbox.Library.DataView
import ScriptSandbox.Library.Date
import ScriptSandbox.Library.Function
import ScriptSandbox.Library.Json
import ScriptSandbox.Library.Number
import ScriptSandbox.Library.Promise
import ScriptSandbox.Library.Reflect
import ScriptSandbox.Library.RegExp
import ScriptSandbox.Library.String

/-!
# The globals of guest code

`library` says what each function of the standard library does. `Machine.fresh` is a machine on
which nothing has run: its heap holds the objects of the standard library and nothing else.
-/

namespace ScriptSandbox

namespace Library

/-- What each function of the standard library does. -/
def library : Library := fun f c =>
  match f with
  | .object f => objectFn f c
  | .function f => functionFn f c
  | .error f => errorFn f c
  | .array f => arrayFn f c
  | .string f => stringFn f c
  | .number f => numberFn f c
  | .primitive f => primitiveFn f c
  | .math f => mathFn f c
  | .jsonParse => JsonText.parse (c.arg 0) (c.arg 1)
  | .jsonStringify => JsonText.stringify (c.arg 0) (c.arg 1) (c.arg 2)
  | .reflect f => reflectFn f c
  | .promise f => promiseFn f c
  | .collection k f => collectionFn k f c
  | .generator f => generatorFn f c
  | .date f => dateFn f c
  | .regExp f => regExpFn f c
  | .buffer f => bufferFn f c
  | .dataView f => dataViewFn f c
  | .global f => globalFn f c
  | .console level keeps => consoleFn level keeps c
  | .record => recordFn c

/-! ## Making objects -/

/-- A step of setting up a machine. -/
abbrev Setup := StateM Machine

/-- Makes an object, at a place of its own or at a known one. -/
def makeObject (place : Option Nat) (o : Obj) : Setup Nat := do
  match place with
  | some a =>
    modify fun m => { m with heap := m.heap.setIfInBounds a o }
    return a
  | none => modifyGet fun m => (m.heap.size, { m with heap := m.heap.push o })

def giveProperty (a : Nat) (k : Key) (p : Property) : Setup Unit :=
  modify fun m => { m with heap := m.heap.modify a fun o => { o with props := o.props.put k p } }

/-- Makes a function that inherits from an object. -/
def makeFunctionFrom (parent : Nat) (f : Builtin) (name : String) (arity : Nat)
    (place : Option Nat) (constructs : Bool) : Setup Nat :=
  makeObject place
    { proto := some parent
      kind := .native f #[] constructs
      props := .ofList [(.named "length", .data (.ofNat arity) false false true),
        (.named "name", .data (.ofString name) false false true)] }

/-- Makes a function that cannot be constructed. -/
def makeFunction (f : Builtin) (name : String) (arity : Nat) (place : Option Nat) : Setup Nat :=
  makeFunctionFrom Intrinsic.functionPrototype.address f name arity place false

def giveMember (a : Nat) (m : Member) : Setup Unit := do
  match m.kind with
  | .function f arity place => do
    let v ← makeFunction f m.name arity place
    giveProperty a m.key (.library (.obj v))
  | .accessor g s =>
    let half (f : Option Builtin) (word : String) (arity : Nat) : Setup Value := do
      match f with
      | some f => return .obj (← makeFunction f (word ++ " " ++ m.name) arity none)
      | none => return .undefined
    giveProperty a m.key (.accessor (← half g "get" 0) (← half s "set" 1) false true)
  | .constant v => giveProperty a m.key (.data v false false false)
  | .value v writable configurable => giveProperty a m.key (.data v writable false configurable)
  | .sameAs other =>
    match ((← get).heap.getD a default).props.get? other with
    | some p => giveProperty a m.key p
    | none => return

def giveMembers (a : Nat) (ms : List Member) : Setup Unit := ms.forM (giveMember a)

def known (i : Intrinsic) (parent : Option Intrinsic) (kind : Kind) (ms : List Member) :
    Setup Unit := do
  let a ← makeObject (some i.address) { proto := parent.map Intrinsic.address, kind }
  giveMembers a ms

/-- An object that other objects of the library inherit from. -/
def proto (i : Intrinsic) (ms : List Member) : Setup Unit :=
  known i (some .objectPrototype) .plain ms

/-- A constructor, with what the objects that it makes inherit from. -/
structure Constructor where
  name : String
  function : Builtin
  arity : Nat
  proto : Nat
  statics : List Member := []
  place : Option Nat := none
  parent : Nat := Intrinsic.functionPrototype.address

def makeConstructor (c : Constructor) : Setup Nat := do
  let a ← makeFunctionFrom c.parent c.function c.name c.arity c.place true
  giveProperty a Exec.prototypeKey (.data (.obj c.proto) false false false)
  giveProperty c.proto Exec.constructorKey (.library (.obj a))
  giveMembers a c.statics
  return a

def giveGlobal (name : String) (v : Value) : Setup Unit :=
  giveProperty Intrinsic.global.address (.named name) (.library v)

def globalConstructor (c : Constructor) : Setup Unit := do
  giveGlobal c.name (.obj (← makeConstructor c))

def globalObject (name : String) (ms : List Member) : Setup Unit := do
  let a ← makeObject none { proto := some Intrinsic.objectPrototype.address }
  giveMembers a ms
  giveGlobal name (.obj a)

/-! ## The objects of the library -/

/-- What the function that everyone can find out about, but nobody can use, is for: it stands where
strict code is not told who called whom. -/
def setupThrower : Setup Unit := do
  let a ← makeFunction (.function .thrower) "" 0 (some Intrinsic.thrower.address)
  modify fun m => { m with heap := m.heap.modify a fun o =>
    { o with
      extensible := false
      props := o.props.mapAll fun p => match p with
        | .data v _ e _ => .data v false e false
        | p => p } }
  let hidden := Property.accessor (.obj a) (.obj a) false true
  giveProperty Intrinsic.functionPrototype.address (.named "caller") hidden
  giveProperty Intrinsic.functionPrototype.address (.named "arguments") hidden

/-- Objects, functions and errors. -/
def setupBasics : Setup Unit := do
  known .objectPrototype none .plain []
  let _ ← makeFunctionFrom Intrinsic.objectPrototype.address (.function .prototype) "" 0
    (some Intrinsic.functionPrototype.address) false
  known .global (some .objectPrototype) .plain []
  globalConstructor
    { name := "Object", function := .object .construct, arity := 1
      proto := Intrinsic.objectPrototype.address, statics := objectStatics }
  giveMembers Intrinsic.objectPrototype.address objectMethods
  globalConstructor
    { name := "Function", function := .function (.construct false false), arity := 1
      proto := Intrinsic.functionPrototype.address }
  giveMembers Intrinsic.functionPrototype.address functionMethods
  setupThrower
  proto .errorPrototype (errorMethods .error)
  let error ← makeConstructor
    { name := "Error", function := .error (.construct .error), arity := 1
      proto := Intrinsic.errorPrototype.address }
  giveGlobal "Error" (.obj error)
  for k in errorKinds.drop 1 do
    known k.prototype (some .errorPrototype) .plain (errorMethods k)
    globalConstructor
      { name := errorName k, function := .error (.construct k)
        arity := if k == .aggregateError then 2 else 1
        proto := k.prototype.address, parent := error }

def setupIterators : Setup Unit := do
  proto .iteratorPrototype
    [symbolMethod .iterator "[Symbol.iterator]" (.generator .iteratorSelf) 0]
  proto .asyncIteratorPrototype
    [symbolMethod .asyncIterator "[Symbol.asyncIterator]" (.generator .asyncIteratorSelf) 0]
  known .arrayIteratorPrototype (some .iteratorPrototype) .plain arrayIteratorMethods
  known .stringIteratorPrototype (some .iteratorPrototype) .plain stringIteratorMethods
  known .mapIteratorPrototype (some .iteratorPrototype) .plain (collectionIteratorMethods .map)
  known .setIteratorPrototype (some .iteratorPrototype) .plain (collectionIteratorMethods .set)
  known .matchIteratorPrototype (some .iteratorPrototype) .plain matchIteratorMethods
  known .asyncFromSyncIteratorPrototype (some .asyncIteratorPrototype) .plain asyncFromSyncMethods
  known .generatorPrototype (some .iteratorPrototype) .plain generatorMethods
  known .asyncGeneratorPrototype (some .asyncIteratorPrototype) .plain asyncGeneratorMethods
  known .generatorFunctionPrototype (some .functionPrototype) .plain [tag "GeneratorFunction"]
  known .asyncGeneratorFunctionPrototype (some .functionPrototype) .plain
    [tag "AsyncGeneratorFunction"]
  known .asyncFunctionPrototype (some .functionPrototype) .plain [tag "AsyncFunction"]
  let link (f p : Intrinsic) : Setup Unit := do
    giveProperty f.address Exec.prototypeKey (.data (.obj p.address) false false true)
    giveProperty p.address Exec.constructorKey (.data (.obj f.address) false false true)
  link .generatorFunctionPrototype .generatorPrototype
  link .asyncGeneratorFunctionPrototype .asyncGeneratorPrototype
  let constructor (name : String) (isAsync isGenerator : Bool) (p : Intrinsic) : Setup Unit := do
    let _ ← makeConstructor
      { name, function := .function (.construct isAsync isGenerator), arity := 1
        proto := p.address }
  constructor "GeneratorFunction" false true .generatorFunctionPrototype
  constructor "AsyncFunction" true false .asyncFunctionPrototype
  constructor "AsyncGeneratorFunction" true true .asyncGeneratorFunctionPrototype

/-- Arrays, strings, numbers and other primitive values. -/
def setupValues : Setup Unit := do
  known .arrayPrototype (some .objectPrototype) (.array #[] 0) arrayMethods
  globalConstructor
    { name := "Array", function := .array .construct, arity := 1
      proto := Intrinsic.arrayPrototype.address, statics := arrayStatics
      place := some Intrinsic.arrayConstructor.address }
  known .numberPrototype (some .objectPrototype) (.boxed (.int 0)) numberMethods
  globalConstructor
    { name := "Number", function := .number .construct, arity := 1
      proto := Intrinsic.numberPrototype.address, statics := numberStatics }
  known .booleanPrototype (some .objectPrototype) (.boxed (.bool false)) booleanMethods
  globalConstructor
    { name := "Boolean", function := .primitive .booleanConstruct, arity := 1
      proto := Intrinsic.booleanPrototype.address }
  known .stringPrototype (some .objectPrototype) (.boxed (.str .empty)) stringMethods
  globalConstructor
    { name := "String", function := .string .construct, arity := 1
      proto := Intrinsic.stringPrototype.address, statics := stringStatics }
  proto .symbolPrototype symbolMethods
  globalConstructor
    { name := "Symbol", function := .primitive .symbolConstruct, arity := 0
      proto := Intrinsic.symbolPrototype.address, statics := symbolStatics }
  proto .bigIntPrototype bigMethods
  globalConstructor
    { name := "BigInt", function := .primitive .bigConstruct, arity := 1
      proto := Intrinsic.bigIntPrototype.address, statics := bigStatics }

/-- Dates, collections, promises, buffers and proxies. -/
def setupObjects : Setup Unit := do
  proto .datePrototype dateMethods
  globalConstructor
    { name := "Date", function := .date .construct, arity := 7
      proto := Intrinsic.datePrototype.address, statics := dateStatics }
  proto .regExpPrototype regExpMethods
  globalConstructor
    { name := "RegExp", function := .regExp .construct, arity := 2
      proto := Intrinsic.regExpPrototype.address, statics := regExpStatics
      place := some Intrinsic.regExpConstructor.address }
  let proxy ← makeFunctionFrom Intrinsic.functionPrototype.address (.reflect .proxyConstruct)
    "Proxy" 2 none true
  giveMembers proxy proxyStatics
  giveGlobal "Proxy" (.obj proxy)
  for k in [CollectionKind.map, .set, .weakMap, .weakSet] do
    proto (collectionProto k) (collectionMethods k)
    globalConstructor
      { name := collectionName k, function := .collection k .construct, arity := 0
        proto := (collectionProto k).address, statics := collectionStatics k }
  proto .promisePrototype promiseMethods
  globalConstructor
    { name := "Promise", function := .promise .construct, arity := 1
      proto := Intrinsic.promisePrototype.address, statics := promiseStatics
      place := some Intrinsic.promiseConstructor.address }
  proto .bufferPrototype bufferMethods
  globalConstructor
    { name := "ArrayBuffer", function := .buffer .construct, arity := 1
      proto := Intrinsic.bufferPrototype.address, statics := bufferStatics }
  proto .viewPrototype viewMethods
  let view ← makeConstructor
    { name := "TypedArray", function := .buffer .viewAbstract, arity := 0
      proto := Intrinsic.viewPrototype.address, statics := viewStatics
      place := some Intrinsic.viewConstructor.address }
  for (name, kind) in View.kindNames.zipIdx do
    let p ← makeObject (some (viewProto kind)) { proto := some Intrinsic.viewPrototype.address }
    giveMember p (elementSizeMember kind)
    globalConstructor
      { name, function := .buffer (.viewConstruct kind), arity := 3, proto := p
        statics := [elementSizeMember kind], parent := view }
  proto .dataViewPrototype dataViewMethods
  globalConstructor
    { name := "DataView", function := .dataView .construct, arity := 1
      proto := Intrinsic.dataViewPrototype.address }

def globalMembers : List Member :=
  [knownMethod "parseInt" (.global .parseInt) 2 .parseInt,
    knownMethod "parseFloat" (.global .parseFloat) 1 .parseFloat,
    method "isNaN" (.global .isNaN) 1, method "isFinite" (.global .isFinite) 1,
    method "decodeURI" (.global .decodeURI) 1,
    method "decodeURIComponent" (.global .decodeURIComponent) 1,
    method "encodeURI" (.global .encodeURI) 1,
    method "encodeURIComponent" (.global .encodeURIComponent) 1,
    method "escape" (.global .escape) 1, method "unescape" (.global .unescape) 1,
    constant "Infinity" (.num Numeral.infinity), constant "NaN" (.num Numeral.nan),
    constant "undefined" .undefined, knownMethod "eval" (.global .eval) 1 .evalFunction,
    hidden "globalThis" (.obj Intrinsic.global.address)]

/-- Everything that guest code finds. -/
def setup : Setup Unit := do
  setupBasics
  setupIterators
  setupValues
  giveMembers Intrinsic.global.address globalMembers
  globalObject "Math" mathMembers
  globalObject "Reflect" reflectMembers
  globalObject "JSON" jsonMembers
  setupObjects

/-- The descriptions of the known symbols, by their numbers. -/
def symbolNames : Array (Option Str) :=
  knownSymbols.foldl (fun names (name, s) =>
    names.setIfInBounds s.id (some (.ofString ("Symbol." ++ name))))
    (Array.replicate knownSymbols.length none)

end Library

namespace Machine

def fresh : Machine :=
  (Library.setup.run
    { heap := Array.replicate firstFreePlace { kind := .free }, symbols := Library.symbolNames }).2

end Machine
end ScriptSandbox
