import ScriptSandbox.Compile.Program
import ScriptSandbox.Machine.Promise

/-!
# Functions of guest code

Making function objects and classes from code, and sources from texts. A mistake in a source is
thrown as an error whose trace begins with the place of the mistake.
-/

namespace ScriptSandbox.Exec

def functionParent (c : Code) : Intrinsic :=
  match c.isAsync, c.isGenerator with
  | false, false => .functionPrototype
  | false, true => .generatorFunctionPrototype
  | true, false => .asyncFunctionPrototype
  | true, true => .asyncGeneratorFunctionPrototype

/-- The property of a function for its name or its count of parameters. -/
def fixedProperty (v : Value) : Property := .data v false false true

def functionProperties (c : Code) : List (Key × Property) :=
  [(lengthKey, fixedProperty (.ofNat c.arity)),
    (Key.name (.plain "name" 4), fixedProperty (.ofString c.name))]

/-- A function object. -/
def newClosure (c : Code) (cells : Array Nat) (home : Option Nat) (owner : Option Nat) :
    Exec Nat := do
  charge 64
  let props := functionProperties c
  let a ← alloc
    { proto := some (functionParent c).address
      props := .ofList props
      kind := .closure { code := c, cells, home, owner := owner.getD 0 } }
  if owner.isNone then
    setKind a (.closure { code := c, cells, home, owner := a })
  if c.isGenerator then
    let parent : Intrinsic := if c.isAsync then .asyncGeneratorPrototype else .generatorPrototype
    let p ← alloc { proto := some parent.address }
    modifyObj a fun o =>
      { o with props := o.props.push prototypeKey (.data (.obj p) true false false) }
  else if c.isConstructor && !c.isClass then
    let p ← alloc
      { proto := some Intrinsic.objectPrototype.address
        props := .ofList [(constructorKey, .library (.obj a))] }
    modifyObj a fun o =>
      { o with props := o.props.push prototypeKey (.data (.obj p) true false false) }
  return a

/-- The cells that a function takes over from a run of the function around. -/
def capturedCells (c : Code) (cells : Array Nat) : Array Nat :=
  c.captures.map fun (_, p) => cells.getD p 0

/-- A function object, if an object is one made from code. -/
def closure? (a : Nat) : Exec (Option Closure) := do
  match (← getObj a).kind with
  | .closure c => return some c
  | _ => return none

/-- Changes what is known about a function. -/
def modifyClosure (a : Nat) (f : Closure → Closure) : Exec Unit :=
  modifyObj a fun o =>
    match o.kind with
    | .closure c => { o with kind := .closure (f c) }
    | _ => o

def closureIn (fr : Frame) (c : Code) : Exec Nat := do
  let cells := capturedCells c fr.cells
  if c.isArrow then
    match ← closure? fr.callee with
    | some outer => newClosure c cells outer.home (some outer.owner)
    | none => newClosure c cells none (some fr.callee)
  else newClosure c cells none none

/-- What a class and its prototype inherit from. -/
def classParents (parent : Value) : Exec (Nat × Option Nat) := do
  match parent with
  | .hole =>
    return (Intrinsic.functionPrototype.address, some Intrinsic.objectPrototype.address)
  | .null => return (Intrinsic.functionPrototype.address, none)
  | .obj a =>
    if !(← isConstructor parent) then typeError "parent class must be constructor"
    match ← getProp a prototypeKey with
    | .obj p => return (a, some p)
    | .null => return (a, none)
    | _ => typeError "parent prototype must be an object or null"
  | _ => typeError "parent class must be constructor"

def newClass (fr : Frame) (c : Code) (parent : Value) : Exec (Nat × Nat) := do
  let (f, p) ← classParents parent
  let home ← alloc { proto := p }
  let a ← newClosure c (capturedCells c fr.cells) (some home) none
  modifyObj a fun o =>
    { o with
      proto := some f
      props := o.props.push prototypeKey (.data (.obj home) false false false) }
  modifyObj home fun o => { o with props := o.props.push constructorKey (.library (.obj a)) }
  return (a, home)

def throwFault {α : Type} (file : String) (e : Language.SourceFault) : Exec α := do
  if e.tooDeep then stackOverflow
  else
    let place :=
      if e.placed then
        "    at " ++ file ++ ":" ++ toString e.line ++ ":" ++ toString e.column ++ "\n"
      else ""
    let stack := place ++ traceOf (← get).frames 0
    throwValue (← makeErrorWith .syntaxError (cutMessage e.message) stack)

/-- The result of reading or compiling a source. -/
def orFault {α : Type} (file : String) (r : Except Language.SourceFault α) : Exec α :=
  match r with
  | .ok a => pure a
  | .error e => throwFault file e

/-- How many bytes of memory the code for a source takes. -/
def chargeSource (source : String) : Exec Unit := charge (4 * source.utf8ByteSize)

def declareGlobals (g : GlobalNames) : Exec Unit := do
  for (x, _) in g.lexical do
    let m ← get
    let taken ← do
      if m.lexicals.contains x then pure true
      else
        match ← getOwn Intrinsic.global.address (.ofString x) with
        | some p => pure !p.configurable
        | none => pure false
    if taken then raise .syntaxError ("redeclaration of '" ++ shortName x ++ "'")
  for x in g.vars ++ g.functions do
    if (← get).lexicals.contains x then
      raise .syntaxError ("redeclaration of '" ++ shortName x ++ "'")
  for (x, isConst) in g.lexical do
    let cell ← newCell .hole
    modify fun m => { m with lexicals := m.lexicals.insert x { cell, isConst } }
  for x in g.vars do
    let k := Key.ofString x
    if (← getOwn Intrinsic.global.address k).isNone then
      let _ ← defineOwn Intrinsic.global.address k (.ofProperty (.data .undefined true true false))

def runEval (code : Code) (cells : Array Nat) (fr : Option Frame) : Exec Value := do
  declareGlobals code.globals
  let outer ← match fr with
    | some fr => closure? fr.callee
    | none => pure none
  let home := outer.bind (·.home)
  let owner := outer.map (·.owner)
  let f ← newClosure code (capturedCells code cells) home owner
  call (.obj f) .undefined #[]

/-- Evaluates a text where it sees some variables of a frame. -/
def evalDirect (fr : Frame) (scope : Nat) (v : Value) : Exec Value := do
  match v with
  | .str s =>
    let source := s.toLossy
    chargeSource source
    let p ← orFault "<input>" (Language.readAsScript source fr.code.strict)
    let visible := fr.code.scopes.getD scope []
    let code ← orFault "<input>" (Compile.evalCode p source visible true)
    runEval code fr.cells (some fr)
  | v => return v

/-- Evaluates a text where it sees global names only. -/
def evalIndirect (v : Value) : Exec Value := do
  match v with
  | .str s =>
    let source := s.toLossy
    chargeSource source
    let p ← orFault "<input>" (Language.readAsScript source false)
    let code ← orFault "<input>" (Compile.evalCode p source [] false)
    runEval code #[] none
  | v => return v

/-- A regular expression. -/
def newRegExp (r : Regex.Matcher) : Exec Value := do
  newObjectOf .regExpPrototype (.regExp r)
    [(Key.named "lastIndex", .data (.int 0) true false false)]

def newArguments (args : Array Value) (strict : Bool) (callee : Nat) : Exec Value := do
  let items := (args.toList.zipIdx).map fun (v, i) => (Key.index i, Property.plain v)
  let thrower := Value.obj Intrinsic.thrower.address
  newObjectOf .objectPrototype .arguments
    (items ++ [(lengthKey, .library (.ofNat args.size)),
      (KnownSymbol.iterator.key, .library (.obj Intrinsic.arrayValues.address)),
      (Key.named "callee",
        if strict then .accessor thrower thrower false false else .library (.obj callee))])

end ScriptSandbox.Exec
